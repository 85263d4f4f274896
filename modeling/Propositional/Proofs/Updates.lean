import Propositional.Proofs.Recognition
import Propositional.Sentence

/-!
# Setting letters one after the other

A valuation and the leaves of a formula are given values in the same way, pair by pair, and in both
the last value counts that a letter is given (`lastValue?`). `Valuation.get_setAll` and
`Formula.leaves_assignAll` say so for any start.

A sentence is set by characters. Those that name no letter do nothing, so a run of calls is the run
of the pairs that its letters make (`Sentence.formula_setAll`). Reading the leaves after it is
evaluating under the valuation that these pairs describe, as long as no leaf brings in a value of
its own: each one is overwritten, or it was false from the start as it is in the valuation
(`Sentence.value_after_sets`).
-/

namespace Propositional

namespace Formula

/-! ## Leaves -/

/-- Every leaf holds the last value given to its letter, or else the value it had. -/
theorem leaves_assignAll (e : Formula) (ps : List (Letter × Bool)) :
    (e.assignAll ps).leaves = e.leaves.map fun p => (p.1, (lastValue? ps p.1).getD p.2) := by
  induction ps generalizing e with
  | nil => simp
  | cons q ps ih =>
    rw [assignAll_cons, ih, leaves_assign, List.map_map]
    refine List.map_congr_left fun p _ => ?_
    simp only [Function.comp_apply, lastValue?_cons]
    cases lastValue? ps p.1 with
    | some b => rfl
    | none => split <;> rfl

theorem leaves_clear (e : Formula) : e.clear.leaves = e.leaves.map fun p => (p.1, false) := by
  induction e with
  | leaf x b => rfl
  | neg e ih => exact ih
  | binary op l r ihl ihr => simp [clear, ihl, ihr]

/-- A formula without true leaves is its own cleared form. -/
theorem clear_eq_self {e : Formula} (h : ∀ p ∈ e.leaves, p.2 = false) : e.clear = e := by
  induction e with
  | leaf x b =>
    have off : b = false := h (x, b) (by simp)
    rw [clear, atom, off]
  | neg e ih => rw [clear, ih h]
  | binary op l r ihl ihr =>
    rw [clear, ihl fun p hp => h p (by simp [hp]), ihr fun p hp => h p (by simp [hp])]

/-- Giving letters values does not change the shape. -/
theorem clear_assign (x : Letter) (b : Bool) (e : Formula) : (e.assign x b).clear = e.clear := by
  induction e with
  | leaf y c => rfl
  | neg e ih => rw [assign, clear, ih, clear]
  | binary op l r ihl ihr => rw [assign, clear, ihl, ihr, clear]

theorem clear_assignAll (e : Formula) (ps : List (Letter × Bool)) :
    (e.assignAll ps).clear = e.clear := by
  induction ps generalizing e with
  | nil => rfl
  | cons p ps ih => rw [assignAll_cons, ih, clear_assign]

/-- The values at the leaves play no part in the value under a valuation. -/
theorem eval_clear (e : Formula) (v : Valuation) : e.clear.eval v = e.eval v := by
  induction e with
  | leaf x b => rfl
  | neg e ih => rw [clear, eval, ih, eval]
  | binary op l r ihl ihr => rw [clear, eval, ihl, ihr, eval]

/-- When the leaves hold the values of a valuation, they give the value under it. -/
theorem value_eq_eval {e : Formula} {v : Valuation} (h : ∀ p ∈ e.leaves, p.2 = v.get p.1) :
    e.value = e.eval v := by
  induction e with
  | leaf x b => exact h (x, b) (by simp)
  | neg e ih => rw [value, eval, ih h]
  | binary op l r ihl ihr =>
    rw [value, eval, ihl fun p hp => h p (by simp [hp]), ihr fun p hp => h p (by simp [hp])]

end Formula

namespace Sentence

/-! ## Runs of calls -/

/-- The pairs that calls make: those of the calls whose character names a letter. -/
def letterPairs (calls : List (Char × Bool)) : List (Letter × Bool) :=
  calls.filterMap fun call => (Letter.ofChar? call.1).map fun x => (x, call.2)

theorem mem_map_fst_letterPairs {calls : List (Char × Bool)} {x : Letter} :
    x ∈ (letterPairs calls).map Prod.fst ↔ ∃ call ∈ calls, Letter.ofChar? call.1 = some x := by
  simp only [letterPairs, List.mem_map, List.mem_filterMap, Option.map_eq_some_iff]
  constructor
  · rintro ⟨p, ⟨call, hcall, y, hy, rfl⟩, rfl⟩
    exact ⟨call, hcall, hy⟩
  · rintro ⟨call, hcall, hx⟩
    exact ⟨(x, call.2), ⟨call, hcall, x, hx, rfl⟩, rfl⟩

/-- One call gives the letter that is named its value in the formula. -/
theorem formula_set (s : Sentence) (call : Char × Bool) :
    (s.set call.1 call.2).formula = s.formula.assignAll (letterPairs [call]) := by
  unfold set
  cases h : Letter.ofChar? call.1 with
  | none => simp [letterPairs, h]
  | some x => simp [letterPairs, h, assign]

/-- A run of calls gives the formula the values of the pairs that its letters make. -/
theorem formula_setAll (s : Sentence) (calls : List (Char × Bool)) :
    (s.setAll calls).formula = s.formula.assignAll (letterPairs calls) := by
  induction calls generalizing s with
  | nil => rfl
  | cons call calls ih =>
    have split : letterPairs (call :: calls) = letterPairs [call] ++ letterPairs calls :=
      List.filterMap_append (l := [call])
    rw [setAll, List.foldl_cons, ← setAll, ih, formula_set, split, Formula.assignAll,
      Formula.assignAll, Formula.assignAll, List.foldl_append]

@[simp] theorem letters_setAll (s : Sentence) (calls : List (Char × Bool)) :
    (s.setAll calls).letters = s.letters := by
  rw [letters_eq, formula_setAll, Formula.letters_assignAll, s.letters_eq]

/-- A run of calls changes values at the leaves only. -/
theorem clear_setAll (s : Sentence) (calls : List (Char × Bool)) :
    (s.setAll calls).clear = s.clear := by
  ext1
  · rw [formula_clear, formula_setAll, Formula.clear_assignAll, formula_clear]
  · exact letters_setAll s calls

theorem eval_clear (s : Sentence) (v : Valuation) : s.clear.eval v = s.eval v :=
  Formula.eval_clear s.formula v

theorem eval_setAll (s : Sentence) (calls : List (Char × Bool)) (v : Valuation) :
    (s.setAll calls).eval v = s.eval v := by
  rw [← eval_clear, clear_setAll, eval_clear]

/-- The letters of the leaves are listed. -/
theorem mem_letters_of_mem_leaves {s : Sentence} {p : Letter × Bool} (h : p ∈ s.formula.leaves) :
    p.1 ∈ s.letters := by
  rw [s.letters_eq, Formula.mem_letters]
  exact List.mem_map_of_mem h

/-- After a run of calls the leaves give the value under the valuation that the calls describe, when
each letter is named by a call or has no true leaf at the start. -/
theorem value_setAll {s : Sentence} {calls : List (Char × Bool)}
    (h : ∀ x ∈ s.letters, (∃ call ∈ calls, Letter.ofChar? call.1 = some x) ∨
      ∀ b, (x, b) ∈ s.formula.leaves → b = false) :
    (s.setAll calls).value = s.eval (.ofPairs (letterPairs calls)) := by
  rw [← eval_setAll s calls, value, eval]
  apply Formula.value_eq_eval
  rw [formula_setAll, Formula.leaves_assignAll]
  intro p hp
  obtain ⟨⟨x, b⟩, hleaf, rfl⟩ := List.mem_map.mp hp
  rw [Valuation.ofPairs, Valuation.get_setAll, Valuation.get_allFalse]
  -- A leaf that no call overwrites is false, as the letter is in the valuation.
  cases hx : lastValue? (letterPairs calls) x with
  | some c => rfl
  | none =>
    have unnamed := lastValue?_eq_none_iff.mp hx
    rcases h x (mem_letters_of_mem_leaves hleaf) with named | off
    · exact absurd (mem_map_fst_letterPairs.mpr named) unnamed
    · exact off b hleaf

/-- No letter of a sentence that was read from a text has a true leaf. -/
theorem eq_false_of_mem_leaves_of_parse {text : String} {s : Sentence} (h : parse text = .ok s)
    {p : Letter × Bool} (hp : p ∈ s.formula.leaves) : p.2 = false := by
  have cleared : s.formula.clear = s.formula := Formula.clear_of_parse (parse_eq_ok_iff.mp h)
  rw [← cleared, Formula.leaves_clear] at hp
  obtain ⟨q, -, rfl⟩ := List.mem_map.mp hp
  rfl

/-- A run of calls keeps the shape of the formula and leaves every leaf with the last value given to
its letter, or with its own if there is none. So the leaves then give the value under the valuation
that the calls describe, whenever each letter is named by a call or has no true leaf at the start,
as is the case in a sentence that was read from a text. -/
theorem value_after_sets (s : Sentence) (calls : List (Char × Bool)) :
    (s.setAll calls).formula.clear = s.formula.clear ∧
      (s.setAll calls).formula.leaves =
        s.formula.leaves.map (fun p => (p.1, (lastValue? (letterPairs calls) p.1).getD p.2)) ∧
      (∀ v, (s.setAll calls).eval v = s.eval v) ∧
      ((∀ x ∈ s.letters, (∃ call ∈ calls, Letter.ofChar? call.1 = some x) ∨
          ∀ b, (x, b) ∈ s.formula.leaves → b = false) →
        (s.setAll calls).value = s.eval (.ofPairs (letterPairs calls))) ∧
      ∀ text, parse text = .ok s →
        (s.setAll calls).value = s.eval (.ofPairs (letterPairs calls)) := by
  refine ⟨?_, ?_, eval_setAll s calls, value_setAll, fun text h => value_setAll fun x _ => ?_⟩
  · rw [formula_setAll, Formula.clear_assignAll]
  · rw [formula_setAll, Formula.leaves_assignAll]
  · exact .inr fun b hb => eq_false_of_mem_leaves_of_parse h hb

/-- The leaves of `A = A` disagree until a call names the letter; those of a sentence that was read
agree from the start. -/
theorem value_after_sets_disagreeing :
    let s := ofFormula (.binary .iff (.leaf ⟨0⟩ true) (.leaf ⟨0⟩ false))
    let read := ofFormula (.binary .implies (.atom ⟨0⟩) (.neg (.atom ⟨1⟩)))
    let calls := [('1', true), ('a', false), ('A', true), ('&', false)]
    ((∀ x ∈ s.letters, (∃ call ∈ calls, Letter.ofChar? call.1 = some x) ∨
        ∀ b, (x, b) ∈ s.formula.leaves → b = false) ∧
      (s.setAll calls).value = s.eval (.ofPairs (letterPairs calls))) ∧
      parse "a > ~b" = .ok read ∧
        (read.setAll calls).value = read.eval (.ofPairs (letterPairs calls)) := by
  intro s read calls
  have named : ∀ x ∈ s.letters, (∃ call ∈ calls, Letter.ofChar? call.1 = some x) ∨
      ∀ b, (x, b) ∈ s.formula.leaves → b = false := by
    intro x hx
    obtain rfl : x = ⟨0⟩ := by simpa [s, ofFormula] using hx
    exact .inl ⟨('A', true), by simp [calls], by decide⟩
  have parsed : parse "a > ~b" = .ok read := parse_eq_ok_iff.mpr rfl
  obtain ⟨-, -, -, set_all, -⟩ := value_after_sets s calls
  obtain ⟨-, -, -, -, set_read⟩ := value_after_sets read calls
  exact ⟨⟨named, set_all named⟩, parsed, set_read _ parsed⟩

end Sentence

end Propositional
