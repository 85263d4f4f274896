/-!
# Reasons why a text is no formula

Positions count characters of the normal form of the text, from 0.
-/

namespace Propositional

/-- Why a text is not a formula. -/
inductive ParseError where
  /-- The text holds nothing but white space. -/
  | emptyText
  /-- A character stands where no formula could have it, or opens one formula too many inside
  others. -/
  | unexpected (position : Nat) (symbol : Char)
  /-- A bracket is opened and not closed. -/
  | unclosed (position : Nat)
  /-- The text, or the group, ends where an operand should begin. -/
  | missingOperand (position : Nat)
deriving DecidableEq

/-- The message that reports an error. -/
def ParseError.message : ParseError → String
  | .emptyText => "empty formula"
  | .unexpected position symbol =>
    "unexpected symbol '" ++ symbol.toString ++ "' at position " ++ toString position
  | .unclosed position => "unbalanced parenthesis opened at position " ++ toString position
  | .missingOperand position => "missing operand at position " ++ toString position

end Propositional
