/-!
# Log settings

How much is logged and in which form is given by a word, in letters of either case. A letter
outside ASCII has no other case.
-/

namespace PeerMessaging

/-- How much is logged. -/
inductive LogLevel
  | error
  | warn
  | info
  | debug
  | trace
  deriving DecidableEq, Repr

instance : Inhabited LogLevel := ⟨.info⟩

/-- The form of a log. -/
inductive LogFormat
  | text
  | json
  deriving DecidableEq, Repr

instance : Inhabited LogFormat := ⟨.text⟩

/-- The word for a level. -/
def LogLevel.word : LogLevel → String
  | error => "error"
  | warn => "warn"
  | info => "info"
  | debug => "debug"
  | trace => "trace"

/-- The word for a form. -/
def LogFormat.word : LogFormat → String
  | text => "text"
  | json => "json"

/-- The levels, from the least logged to the most. -/
def LogLevel.all : List LogLevel := [error, warn, info, debug, trace]

/-- The forms. -/
def LogFormat.all : List LogFormat := [text, json]

/-- A text with the capital letters of ASCII made small. -/
def smallLetters (s : String) : String := s.map Char.toLower

/-- Reads a level. -/
def LogLevel.parse (s : String) : Except String LogLevel :=
  let s := smallLetters s
  match all.find? (·.word = s) with
  | some level => .ok level
  | none => .error ("unknown log level '" ++ s ++ "'")

/-- Reads a form. -/
def LogFormat.parse (s : String) : Except String LogFormat :=
  let s := smallLetters s
  match all.find? (·.word = s) with
  | some form => .ok form
  | none => .error ("unknown log format '" ++ s ++ "'")

end PeerMessaging
