import StackMutants.Text.Unprinted

/-!
# Text.Quoted — texts inside messages

A text that a message shows as data stands between double quotes.  Quotes and backslashes are
escaped, the common control characters have escapes of one letter, and every other unprinted
character is written by its code point in hexadecimal.
-/

namespace StackMutants.Text

/-- The code point in lower case hexadecimal, without leading zeros. -/
def hex (n : Nat) : String := String.ofList (Nat.toDigits 16 n)

def quotedChar (c : Char) : String :=
  match c with
  | '\x00' => "\\0"
  | '\t' => "\\t"
  | '\r' => "\\r"
  | '\n' => "\\n"
  | '"' => "\\\""
  | '\\' => "\\\\"
  | c => if isUnprinted c then "\\u\x7b" ++ hex c.toNat ++ "\x7d" else c.toString

def quoted (s : String) : String :=
  "\"" ++ s.foldl (fun out c => out ++ quotedChar c) "" ++ "\""

end StackMutants.Text
