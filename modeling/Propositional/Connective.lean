/-!
# Connectives

The four connectives of two arguments, their truth functions and the characters that write them.
Conjunction has two characters, of which the first is the one that formulas are printed with.
-/

namespace Propositional

/-- A connective that joins two formulas. -/
inductive Connective where
  | and
  | or
  | implies
  | iff
deriving DecidableEq

namespace Connective

/-- The truth value of a compound from the values of its left and its right part. -/
def apply : Connective → Bool → Bool → Bool
  | and, a, b => a && b
  | or, a, b => a || b
  | implies, a, b => !a || b
  | iff, a, b => a == b

/-- The character that a connective is printed with. -/
def symbol : Connective → Char
  | and => '&'
  | or => '|'
  | implies => '>'
  | iff => '='

/-- The connective that a character writes, if it writes one. -/
def ofChar? : Char → Option Connective
  | '&' => some and
  | '^' => some and
  | '|' => some or
  | '>' => some implies
  | '=' => some iff
  | _ => none

/-- The characters that write a connective. -/
def spellings : Connective → List Char
  | and => ['&', '^']
  | or => ['|']
  | implies => ['>']
  | iff => ['=']

/-- Every connective is read back from the character that prints it. -/
@[simp] theorem ofChar?_symbol (op : Connective) : ofChar? op.symbol = some op := by
  cases op <;> rfl

/-- A character is read as a connective exactly when it is one of its spellings. -/
theorem ofChar?_eq_some_iff {c : Char} {op : Connective} :
    ofChar? c = some op ↔ c ∈ op.spellings := by
  constructor
  · intro h
    unfold ofChar? at h
    split at h <;> cases h <;> simp [spellings]
  · intro h
    cases op <;> simp only [spellings, List.mem_cons, List.not_mem_nil, or_false] at h
    · rcases h with rfl | rfl <;> rfl
    all_goals subst h; rfl

end Connective

end Propositional
