/-!
# Categories of failure

What makes an operation on a socket or a file fail falls into a category (`IoError.Kind`). A
category has words of its own, for when nothing else is known (`IoError.Kind.text`), and a name.
-/

namespace PeerMessaging

/-- The category of a failed operation. -/
inductive IoError.Kind
  | notFound
  | permissionDenied
  | connectionRefused
  | connectionReset
  | hostUnreachable
  | networkUnreachable
  | connectionAborted
  | notConnected
  | addressInUse
  | addressNotAvailable
  | networkDown
  | brokenPipe
  | alreadyExists
  | wouldBlock
  | notADirectory
  | isADirectory
  | directoryNotEmpty
  | readOnlyFilesystem
  | filesystemLoop
  | staleFileHandle
  | invalidInput
  | invalidData
  | timedOut
  | writeZero
  | storageFull
  | notSeekable
  | quotaExceeded
  | fileTooLarge
  | resourceBusy
  | executableFileBusy
  | deadlock
  | crossesDevices
  | tooManyLinks
  | invalidFilename
  | argumentListTooLong
  | tooManyOpenFiles
  | interrupted
  | unsupported
  | unexpectedEnd
  | outOfMemory
  | inProgress
  | inputOutput
  | other
  | uncategorized
  deriving DecidableEq, Repr

/-- The words for a category. -/
def IoError.Kind.text : IoError.Kind → String
  | .notFound => "entity not found"
  | .permissionDenied => "permission denied"
  | .connectionRefused => "connection refused"
  | .connectionReset => "connection reset"
  | .hostUnreachable => "host unreachable"
  | .networkUnreachable => "network unreachable"
  | .connectionAborted => "connection aborted"
  | .notConnected => "not connected"
  | .addressInUse => "address in use"
  | .addressNotAvailable => "address not available"
  | .networkDown => "network down"
  | .brokenPipe => "broken pipe"
  | .alreadyExists => "entity already exists"
  | .wouldBlock => "operation would block"
  | .notADirectory => "not a directory"
  | .isADirectory => "is a directory"
  | .directoryNotEmpty => "directory not empty"
  | .readOnlyFilesystem => "read-only filesystem or storage medium"
  | .filesystemLoop => "filesystem loop or indirection limit (e.g. symlink loop)"
  | .staleFileHandle => "stale network file handle"
  | .invalidInput => "invalid input parameter"
  | .invalidData => "invalid data"
  | .timedOut => "timed out"
  | .writeZero => "write zero"
  | .storageFull => "no storage space"
  | .notSeekable => "seek on unseekable file"
  | .quotaExceeded => "quota exceeded"
  | .fileTooLarge => "file too large"
  | .resourceBusy => "resource busy"
  | .executableFileBusy => "executable file busy"
  | .deadlock => "deadlock"
  | .crossesDevices => "cross-device link or rename"
  | .tooManyLinks => "too many links"
  | .invalidFilename => "invalid filename"
  | .argumentListTooLong => "argument list too long"
  | .tooManyOpenFiles => "too many open files"
  | .interrupted => "operation interrupted"
  | .unsupported => "unsupported"
  | .unexpectedEnd => "unexpected end of file"
  | .outOfMemory => "out of memory"
  | .inProgress => "in progress"
  | .inputOutput => "input/output error"
  | .other => "other error"
  | .uncategorized => "uncategorized error"

/-- The categories. -/
def IoError.Kind.all : List IoError.Kind :=
  [.notFound, .permissionDenied, .connectionRefused, .connectionReset, .hostUnreachable,
    .networkUnreachable, .connectionAborted, .notConnected, .addressInUse, .addressNotAvailable,
    .networkDown, .brokenPipe, .alreadyExists, .wouldBlock, .notADirectory, .isADirectory,
    .directoryNotEmpty, .readOnlyFilesystem, .filesystemLoop, .staleFileHandle, .invalidInput,
    .invalidData, .timedOut, .writeZero, .storageFull, .notSeekable, .quotaExceeded, .fileTooLarge,
    .resourceBusy, .executableFileBusy, .deadlock, .crossesDevices, .tooManyLinks, .invalidFilename,
    .argumentListTooLong, .tooManyOpenFiles, .interrupted, .unsupported, .unexpectedEnd,
    .outOfMemory, .inProgress, .inputOutput, .other, .uncategorized]

/-- The name of a category where it is shown as a value. -/
def IoError.Kind.name : IoError.Kind → String
  | .notFound => "NotFound"
  | .permissionDenied => "PermissionDenied"
  | .connectionRefused => "ConnectionRefused"
  | .connectionReset => "ConnectionReset"
  | .hostUnreachable => "HostUnreachable"
  | .networkUnreachable => "NetworkUnreachable"
  | .connectionAborted => "ConnectionAborted"
  | .notConnected => "NotConnected"
  | .addressInUse => "AddrInUse"
  | .addressNotAvailable => "AddrNotAvailable"
  | .networkDown => "NetworkDown"
  | .brokenPipe => "BrokenPipe"
  | .alreadyExists => "AlreadyExists"
  | .wouldBlock => "WouldBlock"
  | .notADirectory => "NotADirectory"
  | .isADirectory => "IsADirectory"
  | .directoryNotEmpty => "DirectoryNotEmpty"
  | .readOnlyFilesystem => "ReadOnlyFilesystem"
  | .filesystemLoop => "FilesystemLoop"
  | .staleFileHandle => "StaleNetworkFileHandle"
  | .invalidInput => "InvalidInput"
  | .invalidData => "InvalidData"
  | .timedOut => "TimedOut"
  | .writeZero => "WriteZero"
  | .storageFull => "StorageFull"
  | .notSeekable => "NotSeekable"
  | .quotaExceeded => "QuotaExceeded"
  | .fileTooLarge => "FileTooLarge"
  | .resourceBusy => "ResourceBusy"
  | .executableFileBusy => "ExecutableFileBusy"
  | .deadlock => "Deadlock"
  | .crossesDevices => "CrossesDevices"
  | .tooManyLinks => "TooManyLinks"
  | .invalidFilename => "InvalidFilename"
  | .argumentListTooLong => "ArgumentListTooLong"
  | .tooManyOpenFiles => "TooManyOpenFiles"
  | .interrupted => "Interrupted"
  | .unsupported => "Unsupported"
  | .unexpectedEnd => "UnexpectedEof"
  | .outOfMemory => "OutOfMemory"
  | .inProgress => "InProgress"
  | .inputOutput => "InputOutputError"
  | .other => "Other"
  | .uncategorized => "Uncategorized"

end PeerMessaging
