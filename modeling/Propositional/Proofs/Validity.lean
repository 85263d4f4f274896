import Propositional.Proofs.Rows
import Propositional.Sentence

/-!
# Deciding validity

The questions of logic are answered by going through the rows over the letters of a sentence. The
answers are about all valuations, of all 26 letters: a valuation gives the sentence the value that
some row gives it (`Sentence.exists_row_eval`), because the letters of a sentence are those that
its formula reads, and every choice of values for them is a row.
-/

namespace Propositional.Sentence

/-- Valuations that agree on the letters of a sentence give it the same value. -/
theorem eval_congr {s : Sentence} {v w : Valuation} (h : ∀ x ∈ s.letters, v.get x = w.get x) :
    s.eval v = s.eval w := by
  apply Formula.eval_congr
  intro x hx
  apply h
  rw [s.letters_eq, Formula.mem_letters]
  exact hx

/-- Whatever value a valuation gives a sentence, one of the rows gives it too. -/
theorem exists_row_eval (s : Sentence) (v : Valuation) :
    ∃ w ∈ s.valuations.toList, s.eval w = s.eval v := by
  obtain ⟨w, hw, agree⟩ := Enumeration.exists_mem_toList_start v s.letters
  exact ⟨w, hw, eval_congr agree⟩

/-- There is no counterexample exactly when the sentence is true under every valuation. -/
theorem counterexample_eq_none_iff {s : Sentence} :
    s.counterexample = none ↔ ∀ v, s.eval v = true := by
  rw [counterexample, Enumeration.find?_eq, List.find?_eq_none]
  constructor
  · intro h v
    obtain ⟨w, hw, same⟩ := s.exists_row_eval v
    have := h w hw
    simpa [← same] using this
  · intro h w _
    simp [h w]

theorem isTautology_iff {s : Sentence} : s.isTautology = true ↔ ∀ v, s.eval v = true := by
  rw [isTautology, Option.isNone_iff_eq_none, counterexample_eq_none_iff]

theorem isSatisfiable_iff {s : Sentence} : s.isSatisfiable = true ↔ ∃ v, s.eval v = true := by
  rw [isSatisfiable, Enumeration.find?_eq, List.find?_isSome]
  constructor
  · rintro ⟨w, _, h⟩
    exact ⟨w, h⟩
  · rintro ⟨v, h⟩
    obtain ⟨w, hw, same⟩ := s.exists_row_eval v
    exact ⟨w, hw, same.trans h⟩

theorem isContradiction_iff {s : Sentence} :
    s.isContradiction = true ↔ ∀ v, s.eval v = false := by
  rw [isContradiction, Bool.not_eq_true', ← Bool.not_eq_true, isSatisfiable_iff]
  simp

/-- The verdicts on a sentence, whether it was built from a formula or read from a text, are about
all valuations of the 26 letters. -/
theorem decides_validity (s : Sentence) :
    (s.isTautology = true ↔ ∀ v, s.eval v = true) ∧
      (s.isSatisfiable = true ↔ ∃ v, s.eval v = true) ∧
        (s.isContradiction = true ↔ ∀ v, s.eval v = false) :=
  ⟨isTautology_iff, isSatisfiable_iff, isContradiction_iff⟩

end Propositional.Sentence
