import PeerMessaging.Text.Hex
import PeerMessaging.Text.Printable

/-!
# Quoted text

A text is shown between quotes so that it stands on one line and can be told from its surroundings
(`quoted`): quotes and backslashes are escaped, common control characters have a letter, and every
other character that cannot be shown is written by its number.
-/

namespace PeerMessaging

/-- A character as it is shown between quotes. -/
def quotedChar (c : Char) : String :=
  match c with
  | '\x00' => "\\0"
  | '\t' => "\\t"
  | '\n' => "\\n"
  | '\r' => "\\r"
  | '"' => "\\\""
  | '\\' => "\\\\"
  | c => if isPrintable c then c.toString else "\\u\x7b" ++ hex 1 c.toNat ++ "\x7d"

/-- A text as it is shown between quotes. -/
def quoted (s : String) : String := "\"" ++ String.join (s.toList.map quotedChar) ++ "\""

end PeerMessaging
