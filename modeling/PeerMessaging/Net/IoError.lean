import PeerMessaging.Net.SystemError
import PeerMessaging.Text.Quoted

/-!
# Input and output errors

An operation on a socket fails for a reason that is either named by its category alone, reported by
the operating system as a number, or described by a text of its own (`IoError`). The category
(`IoError.kind`) decides how the layers above react: a time-out is no failure
(`IoError.isTimeout`), an interrupted call is tried again, and a reset stream is told apart from
other failures (`IoError.isReset`).
-/

namespace PeerMessaging

/-- Why an operation on a socket failed. -/
inductive IoError
  /-- A category and nothing more. -/
  | plain (kind : IoError.Kind)
  /-- An error number of the operating system. -/
  | system (number : Int)
  /-- A category with a text of its own. -/
  | described (kind : IoError.Kind) (text : String)
  deriving DecidableEq, Repr

namespace IoError

/-- The category of an error. -/
def kind : IoError → Kind
  | plain k => k
  | system n => (systemError n).1
  | described k _ => k

/-- The text of an error. -/
def message : IoError → String
  | plain k => k.text
  | system n => (systemError n).2 ++ " (os error " ++ toString n ++ ")"
  | described _ s => s

/-- How an error is shown as a value. -/
def describe : IoError → String
  | plain k => "Kind(" ++ k.name ++ ")"
  | system n =>
    "Os \x7b code: " ++ toString n ++ ", kind: " ++ (systemError n).1.name ++ ", message: " ++
      quoted (systemError n).2 ++ " \x7d"
  | described k s => "Custom \x7b kind: " ++ k.name ++ ", error: " ++ quoted s ++ " \x7d"

/-- The error number of the operating system, if it reported the error. -/
def osCode : IoError → Option Int
  | system n => some n
  | _ => none

/-- A call was interrupted and is to be made again. -/
def isInterrupted (e : IoError) : Bool := e.kind = .interrupted

/-- A call ran into its time limit, or would have had to wait. -/
def isTimeout (e : IoError) : Bool := e.kind = .wouldBlock || e.kind = .timedOut

/-- The other side dropped the stream. -/
def isReset (e : IoError) : Bool :=
  e.kind = .connectionReset || e.kind = .connectionAborted || e.kind = .brokenPipe ||
    e.kind = .unexpectedEnd

/-- A call that has timed out is not tried again at once. -/
theorem isInterrupted_of_isTimeout {e : IoError} (h : e.isTimeout = true) :
    e.isInterrupted = false := by
  unfold isTimeout isInterrupted at *
  cases hk : e.kind <;> simp_all

end IoError

/-- The error of setting a time limit of no duration. -/
def IoError.zeroDuration : IoError :=
  .described .invalidInput "cannot set a 0 duration timeout"

end PeerMessaging
