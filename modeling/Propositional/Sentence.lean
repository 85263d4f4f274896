import Propositional.Enumeration
import Propositional.Formula.Parser

/-!
# Sentences

A sentence is a formula together with the list of its letters, in the order of their first
occurrences. It is the subject of the questions of logic: whether the formula is true under all
valuations, under some or under none, which valuations make it true, and which one refutes it.
They are answered by going through the valuations of the listed letters.

Giving letters values (`Sentence.set`) changes the leaves of the formula and nothing that these
questions depend on.
-/

namespace Propositional

/-- A formula and its letters. -/
@[ext] structure Sentence where
  formula : Formula
  letters : List Letter
  letters_eq : letters = formula.letters

namespace Sentence

/-- The sentence of a formula that is already built. -/
def ofFormula (e : Formula) : Sentence where
  formula := e
  letters := e.letters
  letters_eq := rfl

/-- The sentence that a text writes. -/
def parse (text : String) : Except ParseError Sentence :=
  match h : Formula.parse text with
  | .ok r => .ok ⟨r.formula, r.seen, Formula.parse_seen h⟩
  | .error e => .error e

/-- The printed form of the formula. -/
def render (s : Sentence) : String := s.formula.render

/-! ## Values at the leaves -/

/-- Give every occurrence of a letter a value. -/
def assign (s : Sentence) (x : Letter) (b : Bool) : Sentence where
  formula := s.formula.assign x b
  letters := s.letters
  letters_eq := by rw [s.letters_eq, Formula.letters_assign]

/-- Give the letter that a character names, in either case, a value. No leaf answers to any other
character, so nothing changes then. -/
def set (s : Sentence) (c : Char) (b : Bool) : Sentence :=
  match Letter.ofChar? c with
  | some x => s.assign x b
  | none => s

/-- Set the letters that characters name, one after the other. -/
def setAll (s : Sentence) (calls : List (Char × Bool)) : Sentence :=
  calls.foldl (fun s call => s.set call.1 call.2) s

/-- The same sentence with every leaf false. -/
def clear (s : Sentence) : Sentence where
  formula := s.formula.clear
  letters := s.letters
  letters_eq := by rw [s.letters_eq, Formula.letters_clear]

/-- The truth value that the values at the leaves give. -/
def value (s : Sentence) : Bool := s.formula.value

/-! ## Questions of logic -/

/-- The truth value under a valuation. -/
def eval (s : Sentence) (v : Valuation) : Bool := s.formula.eval v

/-- The valuations of the letters of the sentence. -/
def valuations (s : Sentence) : Enumeration := .start s.letters

/-- The first valuation under which the sentence is false, if there is one. -/
def counterexample (s : Sentence) : Option Valuation := s.valuations.find? fun v => !s.eval v

/-- Whether the sentence is true under every valuation. -/
def isTautology (s : Sentence) : Bool := s.counterexample.isNone

/-- Whether the sentence is true under some valuation. -/
def isSatisfiable (s : Sentence) : Bool := (s.valuations.find? s.eval).isSome

/-- Whether the sentence is true under no valuation. -/
def isContradiction (s : Sentence) : Bool := !s.isSatisfiable

/-- The valuations that make the sentence true, in the order of enumeration. -/
def models (s : Sentence) : List Valuation := s.valuations.toList.filter s.eval

/-- The number of models. -/
def countModels (s : Sentence) : Nat := s.valuations.count s.eval

/-! ## Lemmas -/

/-- Reading a sentence is reading a formula. -/
theorem parse_eq_ok_iff {text : String} {s : Sentence} :
    parse text = .ok s ↔ Formula.parse text = .ok ⟨s.formula, s.letters⟩ := by
  unfold parse
  split
  · next r h =>
    constructor
    · intro e
      cases e
      exact h
    · intro e
      cases h.symm.trans e
      rfl
  · next e h => simp [h]

theorem parse_eq_error_iff {text : String} {e : ParseError} :
    parse text = .error e ↔ Formula.parse text = .error e := by
  unfold parse
  split
  · next r h => simp [h]
  · next e' h => simp [h]

/-- The letters of a sentence are distinct. -/
theorem nodup_letters (s : Sentence) : s.letters.Nodup := by
  rw [s.letters_eq]
  exact Formula.nodup_letters _

/-- There are enough letters in the alphabet, so the valuations of a sentence can be enumerated. -/
theorem ofLetters_letters (s : Sentence) : Enumeration.ofLetters s.letters = .ok s.valuations := by
  rw [Enumeration.ofLetters, if_pos (Letter.length_le_of_nodup s.nodup_letters), valuations]

theorem countModels_eq (s : Sentence) : s.countModels = s.models.length := by
  rw [countModels, Enumeration.count_eq, List.countP_eq_length_filter, models]

@[simp] theorem formula_clear (s : Sentence) : s.clear.formula = s.formula.clear := rfl

@[simp] theorem letters_clear (s : Sentence) : s.clear.letters = s.letters := rfl

end Sentence

end Propositional
