import Mathlib.Data.Set.Card
import Propositional.Proofs.RowOrder
import Propositional.Proofs.Validity

/-!
# Counterexamples and models

The rows over the letters of a sentence are the valuations that make no other letter true
(`Enumeration.mem_toList_start_iff`), each of them once and in descending order. The models are the
rows that make the sentence true, and the counterexample is the first row that makes it false.

A valuation that makes other letters true as well is no row, but making those false
(`Valuation.clearOutside`) gives a row with the same values for the letters of the sentence. So the
models stand for all valuations that make the sentence true, and no valuation that makes it false is
above the counterexample. Main statements: `Sentence.counterexample_highest` and
`Sentence.models_exact`.
-/

namespace Propositional

namespace Valuation

theorem trueLetters_subset_iff {v : Valuation} {letters : List Letter} :
    v.trueLetters ⊆ letters ↔ ∀ x, x ∉ letters → v.get x = false := by
  constructor
  · intro h x hx
    by_contra on
    rw [Bool.not_eq_false] at on
    exact hx (h (mem_trueLetters.mpr on))
  · intro h x hx
    by_contra hne
    rw [mem_trueLetters, h x hne] at hx
    exact Bool.false_ne_true hx

/-- The valuation with all letters made false that are not listed. -/
def clearOutside (v : Valuation) (letters : List Letter) : Valuation :=
  v.setAll ((Letter.all.filter fun x => x ∉ letters).map fun x => (x, false))

theorem get_clearOutside (v : Valuation) (letters : List Letter) (x : Letter) :
    (v.clearOutside letters).get x = if x ∈ letters then v.get x else false := by
  rw [clearOutside, get_setAll_map v fun _ => false]
  by_cases hx : x ∈ letters <;> simp [hx]

theorem trueLetters_clearOutside_subset (v : Valuation) (letters : List Letter) :
    (v.clearOutside letters).trueLetters ⊆ letters := by
  rw [trueLetters_subset_iff]
  intro x hx
  rw [get_clearOutside, if_neg hx]

theorem map_get_clearOutside (v : Valuation) (letters : List Letter) :
    letters.map (v.clearOutside letters).get = letters.map v.get :=
  List.map_congr_left fun x hx => by rw [get_clearOutside, if_pos hx]

/-- The order over listed letters looks at the values of these letters only. -/
theorem Below.congr_left {letters : List Letter} {u v w : Valuation} (h : Below letters v w)
    (same : letters.map u.get = letters.map v.get) : Below letters u w := by
  rw [Below, same]
  exact h

end Valuation

namespace Enumeration

/-- The rows over listed letters are the valuations that make no other letter true. -/
theorem mem_toList_start_iff {letters : List Letter} {v : Valuation} :
    v ∈ (start letters).toList ↔ v.trueLetters ⊆ letters := by
  rw [Valuation.trueLetters_subset_iff]
  constructor
  · intro h x hx
    exact get_eq_false_of_mem_toList_start h hx
  · intro h
    obtain ⟨w, hw, agree⟩ := exists_mem_toList_start v letters
    have same : w = v := by
      ext x
      by_cases hx : x ∈ letters
      · exact agree x hx
      · rw [get_eq_false_of_mem_toList_start hw hx, h x hx]
    rwa [← same]

/-- No row over distinct letters occurs twice. -/
theorem nodup_toList_start {letters : List Letter} (h : letters.Nodup) :
    (start letters).toList.Nodup := by
  refine List.nodup_iff_count_le_one.mpr fun v => ?_
  by_cases hv : v ∈ (start letters).toList
  · have listed : ∀ x, v.get x = true → x ∈ letters := fun x hx =>
      mem_toList_start_iff.mp hv (Valuation.mem_trueLetters.mpr hx)
    rw [count_toList_start listed, List.toFinset_card_of_nodup h, Nat.sub_self, Nat.pow_zero]
  · rw [List.count_eq_zero_of_not_mem hv]
    exact Nat.zero_le 1

/-- No row that passes a test is above the first one that does. -/
theorem eq_or_below_of_find? {letters : List Letter} (h : letters.Nodup) {p : Valuation → Bool}
    {v w : Valuation} (found : (start letters).find? p = some v)
    (hw : w ∈ (start letters).toList) (pass : p w = true) :
    w = v ∨ Valuation.Below letters w v := by
  rw [find?_eq] at found
  obtain ⟨-, earlier, later, rows, failed⟩ := List.find?_eq_some_iff_append.mp found
  have descend := pairwise_toList_start h
  rw [rows] at hw descend
  rcases List.mem_append.mp hw with hw | hw
  · have := failed w hw
    simp [pass] at this
  rcases List.mem_cons.mp hw with rfl | hw
  · exact .inl rfl
  · have below := (List.pairwise_append.mp descend).2.1
    exact .inr (List.rel_of_pairwise_cons below hw)

end Enumeration

namespace Sentence

variable {s : Sentence}

/-! ## The counterexample -/

theorem mem_valuations {v : Valuation} : v ∈ s.valuations.toList ↔ v.trueLetters ⊆ s.letters :=
  Enumeration.mem_toList_start_iff

/-- Making letters false that the sentence does not have keeps its value. -/
theorem eval_clearOutside (v : Valuation) : s.eval (v.clearOutside s.letters) = s.eval v :=
  eval_congr fun x hx => by rw [Valuation.get_clearOutside, if_pos hx]

theorem clearOutside_mem_valuations (v : Valuation) :
    v.clearOutside s.letters ∈ s.valuations.toList :=
  mem_valuations.mpr (v.trueLetters_clearOutside_subset s.letters)

/-- A counterexample is a row under which the sentence is false. -/
theorem of_counterexample {v : Valuation} (h : s.counterexample = some v) :
    s.eval v = false ∧ v.trueLetters ⊆ s.letters := by
  rw [counterexample, Enumeration.find?_eq] at h
  have refuted := List.find?_some h
  exact ⟨by simpa using refuted, mem_valuations.mp (List.mem_of_find?_eq_some h)⟩

/-- There is no counterexample exactly when every valuation makes the sentence true. A
counterexample makes it false and makes only letters of the sentence true; and no valuation that
makes the sentence false gives its letters higher values, in the lexicographic order with true above
false. -/
theorem counterexample_highest (s : Sentence) :
    (s.counterexample = none ↔ ∀ v, s.eval v = true) ∧
      ∀ v, s.counterexample = some v →
        s.eval v = false ∧ v.trueLetters ⊆ s.letters ∧
          ∀ w, s.eval w = false →
            s.letters.map w.get = s.letters.map v.get ∨ Valuation.Below s.letters w v := by
  refine ⟨counterexample_eq_none_iff, fun v hv => ?_⟩
  obtain ⟨refuted, listed⟩ := of_counterexample hv
  refine ⟨refuted, listed, fun w hw => ?_⟩
  -- The row that stands for `w` is compared with the counterexample in its place.
  have values := w.map_get_clearOutside s.letters
  have fails : (!s.eval (w.clearOutside s.letters)) = true := by rw [eval_clearOutside, hw]; rfl
  rcases Enumeration.eq_or_below_of_find? s.nodup_letters hv (clearOutside_mem_valuations w) fails
    with same | below
  · exact .inl (by rw [← values, same])
  · exact .inr (below.congr_left values.symm)

/-- The counterexample of `b > a` makes `B` true, and so does any valuation that refutes it; that of
`a & b` makes `A` true, which the valuation that makes only `Z` true does not. -/
theorem counterexample_highest_of_implication_and_conjunction :
    let s := ofFormula (.binary .implies (.atom ⟨1⟩) (.atom ⟨0⟩))
    let t := ofFormula (.binary .and (.atom ⟨0⟩) (.atom ⟨1⟩))
    let b : Valuation := .ofList [⟨1⟩]
    let bz : Valuation := .ofList [⟨1⟩, ⟨25⟩]
    let a : Valuation := .ofList [⟨0⟩]
    let z : Valuation := .ofList [⟨25⟩]
    (s.counterexample = some b ∧ s.eval bz = false ∧
      (s.letters.map bz.get = s.letters.map b.get ∨ Valuation.Below s.letters bz b)) ∧
    t.counterexample = some a ∧ t.eval z = false ∧
      (t.letters.map z.get = t.letters.map a.get ∨ Valuation.Below t.letters z a) := by
  intro s t b bz a z
  have hs : s.counterexample = some b := by decide +kernel
  have ht : t.counterexample = some a := by decide +kernel
  have fs : s.eval bz = false := by decide +kernel
  have ft : t.eval z = false := by decide +kernel
  obtain ⟨-, -, highest_s⟩ := (counterexample_highest s).2 b hs
  obtain ⟨-, -, highest_t⟩ := (counterexample_highest t).2 a ht
  exact ⟨⟨hs, fs, highest_s bz fs⟩, ht, ft, highest_t z ft⟩

/-! ## The models -/

/-- The models are the valuations that make the sentence true and no letter that it has not. -/
theorem mem_models {v : Valuation} :
    v ∈ s.models ↔ s.eval v = true ∧ v.trueLetters ⊆ s.letters := by
  rw [models, List.mem_filter, mem_valuations]
  exact and_comm

/-- A valuation makes the sentence true exactly when it is a model with the other letters made
false. -/
theorem clearOutside_mem_models {v : Valuation} :
    v.clearOutside s.letters ∈ s.models ↔ s.eval v = true := by
  rw [mem_models, eval_clearOutside]
  exact and_iff_left (v.trueLetters_clearOutside_subset s.letters)

theorem nodup_models (s : Sentence) : s.models.Nodup :=
  (Enumeration.nodup_toList_start s.nodup_letters).filter _

theorem length_valuations (s : Sentence) : s.valuations.toList.length = 2 ^ s.letters.length := by
  rw [Enumeration.length_toList, valuations, Enumeration.left_start, Nat.one_shiftLeft]

/-- Counting the models counts all valuations that are models. -/
theorem encard_models (s : Sentence) :
    {v : Valuation | s.eval v = true ∧ v.trueLetters ⊆ s.letters}.encard = s.countModels := by
  have listed : {v : Valuation | s.eval v = true ∧ v.trueLetters ⊆ s.letters} =
      s.models.toFinset := by
    ext v
    rw [Set.mem_ofPred_eq, List.coe_toFinset, Set.mem_ofPred_eq, mem_models]
  rw [listed, Set.encard_coe_eq_coe_finsetCard, List.toFinset_card_of_nodup s.nodup_models,
    countModels_eq]

theorem countModels_eq_zero_iff : s.countModels = 0 ↔ s.isContradiction = true := by
  rw [countModels_eq, List.length_eq_zero_iff, isContradiction_iff]
  constructor
  · intro none v
    by_contra satisfied
    rw [Bool.not_eq_false, ← clearOutside_mem_models, none] at satisfied
    exact List.not_mem_nil satisfied
  · intro h
    refine List.eq_nil_iff_forall_not_mem.mpr fun v hv => ?_
    have satisfied := (mem_models.mp hv).1
    rw [h v] at satisfied
    exact Bool.false_ne_true satisfied

theorem countModels_eq_two_pow_iff :
    s.countModels = 2 ^ s.letters.length ↔ s.isTautology = true := by
  rw [countModels_eq, models, ← length_valuations, List.length_filter_eq_length_iff,
    isTautology_iff]
  constructor
  · intro h v
    rw [← eval_clearOutside]
    exact h _ (clearOutside_mem_valuations v)
  · intro h v _
    exact h v

theorem countModels_le (s : Sentence) : s.countModels ≤ 2 ^ 26 := by
  rw [countModels_eq]
  calc s.models.length
      ≤ s.valuations.toList.length := List.length_filter_le ..
    _ = 2 ^ s.letters.length := s.length_valuations
    _ ≤ 2 ^ 26 :=
      Nat.pow_le_pow_right Nat.two_pos (Letter.length_le_of_nodup s.nodup_letters)

/-- The models are listed once each, in the order in which the valuations are gone through. They are
the valuations that make the sentence true and no other letters than its own, and any valuation
makes the sentence true exactly when it is a model with the other letters made false. They are
counted right: there is none exactly for a contradiction, all rows are models exactly for a
tautology, and there are never more than `2 ^ 26`. -/
theorem models_exact (s : Sentence) :
    Enumeration.ofLetters s.letters = .ok s.valuations ∧
      s.models.Nodup ∧
      s.models.Sublist s.valuations.drain ∧
      (∀ v, v ∈ s.models ↔ s.eval v = true ∧ v.trueLetters ⊆ s.letters) ∧
      (∀ v, s.eval v = true ↔ v.clearOutside s.letters ∈ s.models) ∧
      {v : Valuation | s.eval v = true ∧ v.trueLetters ⊆ s.letters}.encard = s.countModels ∧
      (s.countModels = 0 ↔ s.isContradiction = true) ∧
      (s.countModels = 2 ^ s.letters.length ↔ s.isTautology = true) ∧
      s.countModels ≤ 2 ^ 26 := by
  refine ⟨s.ofLetters_letters, s.nodup_models, ?_, fun v => mem_models,
    fun v => clearOutside_mem_models.symm, s.encard_models, countModels_eq_zero_iff,
    countModels_eq_two_pow_iff, s.countModels_le⟩
  rw [Enumeration.drain_eq_toList]
  exact List.filter_sublist

end Sentence

end Propositional
