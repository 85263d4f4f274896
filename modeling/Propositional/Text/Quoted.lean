import Propositional.Text.Graphic

/-!
# Characters in single quotes

How a message names a character: as itself between single quotes where it can be shown, and by an
escape otherwise, so that the message is readable whatever the character is.
-/

namespace Propositional.Text

/-- The text that stands for a character inside single quotes. The null character, tab, line feed,
carriage return, the quote and the backslash have escapes of two characters; any other character
that cannot be shown is given by its code point in hexadecimal, without leading zeros. -/
def escape (c : Char) : String :=
  if c = '\x00' then "\\0"
  else if c = '\t' then "\\t"
  else if c = '\n' then "\\n"
  else if c = '\r' then "\\r"
  else if c = '\x27' then "\\'"
  else if c = '\\' then "\\\\"
  else if isGraphic c then c.toString
  else "\\u\x7b" ++ String.ofList (Nat.toDigits 16 c.toNat) ++ "\x7d"

/-- A character in single quotes. -/
def quote (c : Char) : String :=
  "'" ++ escape c ++ "'"

example : quote 'a' = "'a'" ∧ quote '"' = "'\"'" ∧ quote '\x1b' = "'\\u\x7b1b\x7d'" := by
  decide +kernel

end Propositional.Text
