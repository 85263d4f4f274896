import Propositional.Text.Quoted

/-!
# Misuse

Requests that no answer exists for, as opposed to formulas that do not parse: a propositional
letter is asked for by a character that names none, or more letters are to be enumerated than
there are.
-/

namespace Propositional

/-- A request outside the domain of an operation. -/
inductive Misuse where
  /-- A letter was asked for by a character other than `A` to `Z` and `a` to `z`. -/
  | notALetter (c : Char)
  /-- More than 26 letters were to be enumerated. -/
  | tooManyLetters
deriving DecidableEq

/-- The message that reports a misuse. -/
def Misuse.message : Misuse → String
  | .notALetter c => "Variable names must be letters A-Z, got " ++ Text.quote c
  | .tooManyLetters => "At most 26 variables can be enumerated"

end Propositional
