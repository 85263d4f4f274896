import Propositional.Connective
import Propositional.Letter

/-!
# Symbols

What a single character of a formula stands for. Formulas have no symbols of two characters, so
this classification is all there is to say about their spelling: two texts that agree in it,
character by character, are read alike.
-/

namespace Propositional

/-- The part that a character plays in a formula. -/
inductive Symbol where
  | letter (x : Letter)
  | negation
  | connective (op : Connective)
  | opening
  | closing
  /-- A character that no formula contains. -/
  | foreign
deriving DecidableEq

/-- Classify a character. A tilde and an exclamation mark both negate, and brackets of all three
shapes group. -/
def Symbol.ofChar (c : Char) : Symbol :=
  match Letter.ofChar? c, Connective.ofChar? c with
  | some x, _ => .letter x
  | none, some op => .connective op
  | none, none =>
    if c = '~' || c = '!' then .negation
    else if c = '(' || c = '[' || c = '\x7b' then .opening
    else if c = ')' || c = ']' || c = '\x7d' then .closing
    else .foreign

namespace Symbol

/-- A character is a letter exactly when it names that letter, in either case. -/
theorem ofChar_eq_letter_iff {c : Char} {x : Letter} :
    ofChar c = .letter x ↔ Letter.ofChar? c = some x := by
  constructor
  · intro h
    unfold ofChar at h
    repeat' split at h
    all_goals cases h
    assumption
  · intro h
    simp [ofChar, h]

@[simp] theorem ofChar_name (x : Letter) : ofChar x.name = .letter x :=
  ofChar_eq_letter_iff.mpr (Letter.ofChar?_name x)

/-- A character is a connective exactly when it is one of the spellings of that connective. -/
theorem ofChar_eq_connective_iff {c : Char} {op : Connective} :
    ofChar c = .connective op ↔ c ∈ op.spellings := by
  constructor
  · intro h
    unfold ofChar at h
    repeat' split at h
    all_goals cases h
    exact Connective.ofChar?_eq_some_iff.mp ‹_›
  · intro h
    cases op <;> simp only [Connective.spellings, List.mem_cons, List.not_mem_nil, or_false] at h
    · rcases h with rfl | rfl <;> rfl
    all_goals subst h; rfl

@[simp] theorem ofChar_symbol (op : Connective) : ofChar op.symbol = .connective op := by
  cases op <;> rfl

theorem ofChar_eq_negation_iff {c : Char} : ofChar c = .negation ↔ c = '~' ∨ c = '!' := by
  constructor
  · intro h
    unfold ofChar at h
    repeat' split at h
    all_goals cases h
    next hc => simpa using hc
  · rintro (rfl | rfl) <;> rfl

theorem ofChar_eq_opening_iff {c : Char} :
    ofChar c = .opening ↔ c = '(' ∨ c = '[' ∨ c = '\x7b' := by
  constructor
  · intro h
    unfold ofChar at h
    repeat' split at h
    all_goals cases h
    next hc => simpa [or_assoc] using hc
  · rintro (rfl | rfl | rfl) <;> rfl

theorem ofChar_eq_closing_iff {c : Char} :
    ofChar c = .closing ↔ c = ')' ∨ c = ']' ∨ c = '\x7d' := by
  constructor
  · intro h
    unfold ofChar at h
    repeat' split at h
    all_goals cases h
    next hc => simpa [or_assoc] using hc
  · rintro (rfl | rfl | rfl) <;> rfl

/-! The same with the characters in a list, as the grammar has them. -/

theorem ofChar_eq_negation_iff_mem {c : Char} : ofChar c = .negation ↔ c ∈ ['~', '!'] := by
  simp [ofChar_eq_negation_iff]

theorem ofChar_eq_opening_iff_mem {c : Char} :
    ofChar c = .opening ↔ c ∈ ['(', '[', '\x7b'] := by
  simp [ofChar_eq_opening_iff]

theorem ofChar_eq_closing_iff_mem {c : Char} :
    ofChar c = .closing ↔ c ∈ [')', ']', '\x7d'] := by
  simp [ofChar_eq_closing_iff]

end Symbol

end Propositional
