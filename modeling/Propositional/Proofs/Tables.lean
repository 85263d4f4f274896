import Propositional.Proofs.RowOrder
import Propositional.Proofs.Updates
import Propositional.TruthTable

/-!
# Truth tables and evaluation

A truth table is filled in by setting letters and reading the leaves, row after row on the same
sentence. What a row shows does not depend on the values that the leaves held before: setting all
letters of the sentence overwrites every leaf, so the value that is read is the one under the
valuation of the row (`Sentence.value_setAll_callsFor`).

By induction on the rows the table shows what evaluation gives (`Sentence.rows_tabulate`), and the
sentence changes at its leaves only. The last row makes all letters false, and so does the run of
calls for it with the leaves (`Sentence.tabulate_snd`). Whatever can be asked of a table is then
answered as the sentence answers it (`Sentence.tabulate_agrees`).
-/

namespace Propositional.Sentence

/-! ## One row -/

/-- The calls that set letters by their names to their values under a valuation. -/
def callsFor (letters : List Letter) (v : Valuation) : List (Char × Bool) :=
  (letters.map Letter.name).zip (letters.map v.get)

/-- Every letter is named by the call for it. -/
theorem letterPairs_callsFor (letters : List Letter) (v : Valuation) :
    letterPairs (callsFor letters v) = letters.map fun x => (x, v.get x) := by
  rw [letterPairs, callsFor, List.zip_map', List.filterMap_map, ← List.filterMap_eq_map]
  refine List.filterMap_congr fun x _ => ?_
  simp

/-- Setting all letters leaves every leaf with the value of its letter, whatever it held. -/
theorem leaves_setAll_callsFor (s : Sentence) (v : Valuation) :
    (s.setAll (callsFor s.letters v)).formula.leaves =
      s.formula.leaves.map fun p => (p.1, v.get p.1) := by
  rw [formula_setAll, Formula.leaves_assignAll, letterPairs_callsFor]
  refine List.map_congr_left fun p hp => ?_
  rw [lastValue?_map, if_pos (mem_letters_of_mem_leaves hp), Option.getD_some]

/-- After that the leaves give the value under the valuation. -/
theorem value_setAll_callsFor (s : Sentence) (v : Valuation) :
    (s.setAll (callsFor s.letters v)).value = s.eval v := by
  rw [← eval_setAll s (callsFor s.letters v), value, eval]
  apply Formula.value_eq_eval
  rw [leaves_setAll_callsFor]
  exact List.forall_mem_map.mpr fun p _ => rfl

/-- Setting all letters to false clears the sentence. -/
theorem setAll_callsFor_allFalse (s : Sentence) :
    s.setAll (callsFor s.letters .allFalse) = s.clear := by
  rw [← clear_setAll s (callsFor s.letters .allFalse)]
  ext1
  · refine (Formula.clear_eq_self ?_).symm
    rw [leaves_setAll_callsFor]
    exact List.forall_mem_map.mpr fun p _ => Valuation.get_allFalse p.1
  · rfl

/-- The row for a valuation, by evaluation. -/
def rowFor (s : Sentence) (v : Valuation) : TruthTable.Row where
  inputs := s.letters.map v.get
  output := s.eval v

/-- Filling in a row adds the row that evaluation gives. -/
theorem fillRow_eq (s : Sentence) (done : Array TruthTable.Row) (v : Valuation) :
    TruthTable.fillRow s.letters (done, s) v =
      (done.push (s.rowFor v), s.setAll (callsFor s.letters v)) := by
  rw [rowFor, ← value_setAll_callsFor]
  rfl

/-! ## All rows -/

/-- The rows do not depend on the values at the leaves. -/
theorem rowFor_clear (s : Sentence) : s.clear.rowFor = s.rowFor := by
  funext v
  rw [rowFor, letters_clear, eval_clear, rowFor]

theorem rowFor_setAll (s : Sentence) (calls : List (Char × Bool)) :
    (s.setAll calls).rowFor = s.rowFor := by
  rw [← rowFor_clear, clear_setAll, rowFor_clear]

theorem toList_foldl_fillRow (vs : List Valuation) (done : Array TruthTable.Row) (s : Sentence) :
    (vs.foldl (TruthTable.fillRow s.letters) (done, s)).1.toList =
      done.toList ++ vs.map s.rowFor := by
  induction vs generalizing done s with
  | nil => simp
  | cons v vs ih =>
    have rest := ih (done.push (s.rowFor v)) (s.setAll (callsFor s.letters v))
    rw [letters_setAll, rowFor_setAll] at rest
    rw [List.foldl_cons, fillRow_eq, rest, Array.toList_push, List.append_assoc]
    rfl

theorem clear_foldl_fillRow (vs : List Valuation) (done : Array TruthTable.Row) (s : Sentence) :
    (vs.foldl (TruthTable.fillRow s.letters) (done, s)).2.clear = s.clear := by
  induction vs generalizing done s with
  | nil => rfl
  | cons v vs ih =>
    have rest := ih (done.push (s.rowFor v)) (s.setAll (callsFor s.letters v))
    rw [letters_setAll, clear_setAll] at rest
    rw [List.foldl_cons, fillRow_eq, rest]

/-- The rows of the table are those that evaluation gives for the valuations, in their order. -/
theorem rows_tabulate (s : Sentence) :
    s.tabulate.1.rows = s.valuations.toList.map s.rowFor := by
  rw [tabulate, TruthTable.fillRows, toList_foldl_fillRow]
  rfl

/-- The table leaves every leaf false, as its letter is in the last row. -/
theorem tabulate_snd (s : Sentence) : s.tabulate.2 = s.clear := by
  obtain ⟨vs, last⟩ := List.getLast?_eq_some_iff.mp (Enumeration.getLast?_toList_start s.letters)
  rw [tabulate, TruthTable.fillRows, valuations, last, List.foldl_append, List.foldl_cons,
    List.foldl_nil]
  have same := clear_foldl_fillRow vs #[] s
  generalize vs.foldl (TruthTable.fillRow s.letters) (#[], s) = state at same
  obtain ⟨done, t⟩ := state
  have listed : s.clear.letters = t.clear.letters := congrArg Sentence.letters same.symm
  rw [letters_clear, letters_clear] at listed
  rw [listed, fillRow_eq, setAll_callsFor_allFalse, same]

/-! ## What is asked of a table -/

/-- The table is valid when no row is false, and so is the sentence. -/
theorem isValid_tabulate (s : Sentence) : s.tabulate.1.isValid = s.isTautology := by
  rw [Bool.eq_iff_iff, TruthTable.isValid, rows_tabulate, List.all_eq_true, isTautology,
    Option.isNone_iff_eq_none, counterexample, Enumeration.find?_eq, List.find?_eq_none]
  simp [rowFor]

/-- The true rows are those of the models. -/
theorem countP_rows_tabulate (s : Sentence) :
    s.tabulate.1.rows.countP TruthTable.Row.output = s.countModels := by
  rw [rows_tabulate, List.countP_map, countModels, Enumeration.count_eq]
  rfl

/-- The first false row is that of the counterexample. -/
theorem find?_rows_tabulate (s : Sentence) :
    (s.tabulate.1.rows.find? fun r => !r.output) = s.counterexample.map s.rowFor := by
  rw [rows_tabulate, List.find?_map, counterexample, Enumeration.find?_eq]
  rfl

/-- The table of a sentence has a row for each valuation of its letters, in the order of
enumeration, with the value under that valuation, whatever values the leaves held before. So
validity, the number of models and the counterexample can be read off it. It leaves all leaves
false, and filled in again it is the same. -/
theorem tabulate_agrees (s : Sentence) :
    s.tabulate.1.letters = s.letters ∧
      Enumeration.ofLetters s.letters = .ok s.valuations ∧
      s.tabulate.1.rows.length = 2 ^ s.letters.length ∧
      (∀ k : Nat, s.tabulate.1.rows[k]? =
        s.valuations.drain[k]?.map fun v => ⟨s.letters.map v.get, s.eval v⟩) ∧
      s.tabulate.1.isValid = s.isTautology ∧
      s.tabulate.1.rows.countP TruthTable.Row.output = s.countModels ∧
      (s.tabulate.1.rows.find? fun r => !r.output).map TruthTable.Row.inputs =
        s.counterexample.map (fun v => s.letters.map v.get) ∧
      s.tabulate.2 = s.clear ∧
      s.tabulate.2.tabulate.1 = s.tabulate.1 := by
  refine ⟨rfl, s.ofLetters_letters, ?_, fun k => ?_, isValid_tabulate s, countP_rows_tabulate s, ?_,
    tabulate_snd s, ?_⟩
  · rw [rows_tabulate, List.length_map, Enumeration.length_toList, valuations,
      Enumeration.left_start, Nat.one_shiftLeft]
  · rw [rows_tabulate, List.getElem?_map, Enumeration.drain_eq_toList]
    rfl
  · rw [find?_rows_tabulate, Option.map_map]
    rfl
  · have rows : s.clear.tabulate.1.rows = s.tabulate.1.rows := by
      rw [rows_tabulate, rows_tabulate, rowFor_clear]
      rfl
    rw [tabulate_snd]
    exact congrArg (TruthTable.mk s.letters) rows

end Propositional.Sentence
