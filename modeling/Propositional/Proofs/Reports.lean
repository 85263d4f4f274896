import Propositional.Proofs.Answers
import Propositional.Proofs.Layout
import Propositional.Report

/-!
# Reports

A report is put together by adding to an output. What is added for a formula does not depend on
what the output holds already, so a report is its blocks one after the other
(`Report.ofFormulas_eq_join`).

The block of a sentence has the same verdict with and without the truth table, although the table is
filled in on the sentence before the verdict is asked for: the verdict is an answer, and those do
not depend on the leaves (`Report.verdict_tabulate`). It can be read off the table as well. The
sentence is valid when no row shows `F` as its output, and otherwise the letters of the
counterexample are those that show `T` in the first such row, though the verdict lists them
alphabetically and the table in the order of its columns (`Report.verdict_of_find?_rows`).

For this it is enough to have the table as it is printed. The line of a row ends in its output, and
each truth value in it stands below the letter in the header that it belongs to
(`TruthTable.lettersAbove_chars`), so the verdict can be read off the lines (`Report.ReadOff`). Main
statement: `Report.blocks_agree`.
-/

namespace Propositional

namespace TruthTable

/-! ## What rows show -/

/-- The letters in whose columns a row shows `T`, in the order of the columns. -/
def shownTrue (t : TruthTable) (r : Row) : List Letter :=
  ((t.letters.zip r.inputs).filter fun p => truthChar p.2 = 'T').map Prod.fst

theorem truthChar_eq_T_iff {b : Bool} : truthChar b = 'T' ↔ b = true := by
  cases b <;> decide

theorem truthChar_eq_F_iff {b : Bool} : truthChar b = 'F' ↔ b = false := by
  cases b <;> decide

/-! ## Reading printed lines -/

/-- The letter above a `T`, from the characters of the header and of a line at the same place. -/
def letterAbove (place : Char × Char) : Option Letter :=
  if place.2 = 'T' then Letter.ofChar? place.1 else none

/-- The letters of a header above which a line shows `T`. -/
def lettersAbove (header line : String) : List Letter :=
  (header.toList.zip line.toList).filterMap letterAbove

/-- Letters stand above truth values only, and blanks and dividers above their like. -/
theorem filterMap_letterAbove_cellLine {xs : List Letter} {bs : List Bool}
    (same : bs.length = xs.length) (last : List Char) :
    ((cellLine (xs.map Letter.name) []).zip (cellLine (bs.map truthChar) last)).filterMap
        letterAbove =
      ((xs.zip bs).filter fun p => truthChar p.2 = 'T').map Prod.fst := by
  induction xs generalizing bs with
  | nil =>
    obtain rfl := List.length_eq_zero_iff.mp same
    rfl
  | cons x xs ih =>
    cases bs with
    | nil => cases same
    | cons b bs =>
      have rest := ih (Nat.succ.inj same)
      have blank : letterAbove (' ', ' ') = none := rfl
      have divider : letterAbove ('|', '|') = none := rfl
      rw [List.map_cons, List.map_cons, cellLine, cellLine, List.zip_cons_cons, List.zip_cons_cons,
        List.zip_cons_cons, List.zip_cons_cons, List.filterMap_cons_none blank, List.zip_cons_cons]
      cases b with
      | false =>
        have empty : letterAbove (x.name, truthChar false) = none := rfl
        rw [List.filterMap_cons_none empty, List.filterMap_cons_none blank,
          List.filterMap_cons_none divider, rest]
        rfl
      | true =>
        have shown : letterAbove (x.name, truthChar true) = some x := Letter.ofChar?_name x
        rw [List.filterMap_cons_some shown, List.filterMap_cons_none blank,
          List.filterMap_cons_none divider, rest]
        rfl

/-- Below the header, the line of a row shows `T` where the row does. -/
theorem lettersAbove_chars {t : TruthTable} {r : Row} (h : r.inputs.length = t.letters.length) :
    lettersAbove (String.ofList t.headerChars) (String.ofList r.chars) = t.shownTrue r := by
  rw [lettersAbove, String.toList_ofList, String.toList_ofList]
  exact filterMap_letterAbove_cellLine h _

/-- The line of a row ends in its output. -/
theorem Row.getLast?_chars (r : Row) : r.chars.getLast? = some (truthChar r.output) := by
  rw [Row.chars]
  induction r.inputs with
  | nil => rfl
  | cons b bs ih => simp [cellLine, List.getLast?_cons, ih]

theorem Row.ends_false_iff (r : Row) :
    (String.ofList r.chars).toList.getLast? = some 'F' ↔ truthChar r.output = 'F' := by
  rw [String.toList_ofList, r.getLast?_chars, Option.some_inj]

end TruthTable

/-! ## Sorted letters -/

/-- Sorting distinct letters gives the ascending list of these letters. -/
theorem Letter.sort_eq {xs ys : List Letter} (hx : xs.Nodup) (hy : ys.Pairwise (· < ·))
    (same : ∀ x, x ∈ xs ↔ x ∈ ys) : Letter.sort xs = ys := by
  have nodup : ys.Nodup := nodup_of_pairwise_lt hy
  have perm : (Letter.sort xs).Perm ys :=
    (sort_perm xs).trans ((List.perm_ext_iff_of_nodup hx nodup).mpr same)
  have ascending : ys.Pairwise (· ≤ ·) := hy.imp fun h => Nat.le_of_lt h
  exact perm.eq_of_pairwise (fun x y _ _ hxy hyx => Letter.ext (Fin.le_antisymm hxy hyx))
    (sort_sorted xs) ascending

namespace Report

/-! ## Blocks -/

/-- The block for a text when it is reported alone. -/
def block (quiet : Bool) (text : String) : String :=
  addText quiet "" text

/-- What is added for a sentence does not depend on the output. -/
theorem addSentence_eq (quiet : Bool) (output : String) (s : Sentence) :
    addSentence quiet output s = output ++ addSentence quiet "" s := by
  cases quiet <;> simp [addSentence, addVerdict, addLine, String.append_assoc]

theorem addText_eq (quiet : Bool) (output text : String) :
    addText quiet output text = output ++ block quiet text := by
  unfold block addText
  split
  · exact addSentence_eq quiet output _
  · simp [addLine, String.append_assoc]

theorem foldl_addText (quiet : Bool) (output : String) (texts : List String) :
    texts.foldl (addText quiet) output = output ++ String.join (texts.map (block quiet)) := by
  induction texts generalizing output with
  | nil => simp
  | cons text texts ih =>
    rw [List.foldl_cons, ih, addText_eq, List.map_cons, String.join_cons, String.append_assoc]

/-- A report is the blocks of its formulas one after the other. -/
theorem ofFormulas_eq_join (quiet : Bool) (texts : List String) :
    ofFormulas quiet texts = String.join (texts.map (block quiet)) := by
  rw [ofFormulas, foldl_addText, String.empty_append]

theorem block_of_error {text : String} {e : ParseError} (h : Sentence.parse text = .error e)
    (quiet : Bool) :
    block quiet text = "Failed to parse '" ++ text ++ "': " ++ e.message ++ "\n\n" := by
  simp [block, addText, h, addLine, String.append_assoc]

/-! ## Verdicts -/

/-- Filling in the table does not change the verdict. -/
theorem verdict_tabulate (s : Sentence) : verdict s.tabulate.2 = verdict s := by
  have same : s.clear.counterexample = s.counterexample :=
    congrArg Sentence.Answers.counterexample s.answers_clear
  rw [Sentence.tabulate_snd, verdict, verdict, same]

theorem block_quiet {text : String} {s : Sentence} (h : Sentence.parse text = .ok s) :
    block true text = s.render ++ "\n" ++ verdict s ++ "\n\n" := by
  simp [block, addText, h, addSentence, addVerdict, addLine, String.append_assoc]

theorem block_full {text : String} {s : Sentence} (h : Sentence.parse text = .ok s) :
    block false text =
      s.render ++ "\n\n" ++ s.tabulate.1.render ++ "\n" ++ verdict s ++ "\n\n" := by
  rw [← verdict_tabulate s]
  simp [block, addText, h, addSentence, addVerdict, addLine, String.append_assoc]

theorem verdict_eq_valid_iff {s : Sentence} : verdict s = "Valid" ↔ s.counterexample = none := by
  unfold verdict
  split
  · next h => simp [h]
  · next v h =>
    rw [h]
    refine iff_of_false (fun e => ?_) (Option.some_ne_none v)
    have heads := congrArg String.toList e
    simp at heads

/-- The letters in whose columns the row for a valuation shows `T` are the listed letters that the
valuation makes true. -/
theorem shownTrue_rowFor (s : Sentence) (v : Valuation) :
    s.tabulate.1.shownTrue (s.rowFor v) = s.letters.filter v.get := by
  have cells : s.letters.zip (s.letters.map v.get) = s.letters.map fun x => (x, v.get x) := by
    simpa using List.zip_map' (f := id) (g := v.get) (l := s.letters)
  show ((s.letters.zip (s.letters.map v.get)).filter fun p => TruthTable.truthChar p.2 = 'T').map
    Prod.fst = s.letters.filter v.get
  rw [cells, List.filter_map, List.map_map]
  simp [Function.comp_def, TruthTable.truthChar_eq_T_iff]

/-- Sorted, they are the letters of the verdict, since a row makes no other letter true. -/
theorem sort_shownTrue {s : Sentence} {v : Valuation} (h : v ∈ s.valuations.toList) :
    Letter.sort (s.tabulate.1.shownTrue (s.rowFor v)) = v.trueLetters := by
  rw [shownTrue_rowFor]
  refine Letter.sort_eq (s.nodup_letters.filter _) v.pairwise_trueLetters fun x => ?_
  rw [List.mem_filter, Valuation.mem_trueLetters, and_iff_right_iff_imp]
  intro hx
  by_contra unlisted
  rw [Enumeration.get_eq_false_of_mem_toList_start h unlisted] at hx
  cases hx

/-- The first row that shows `F` as the output is that of the counterexample. -/
theorem find?_rows_shown (s : Sentence) :
    (s.tabulate.1.rows.find? fun r => TruthTable.truthChar r.output = 'F') =
      s.counterexample.map s.rowFor := by
  have test : (fun r : TruthTable.Row => decide (TruthTable.truthChar r.output = 'F')) =
      fun r => !r.output := by
    funext r
    rw [Bool.eq_iff_iff, decide_eq_true_iff, TruthTable.truthChar_eq_F_iff, Bool.not_eq_true']
  rw [test, s.find?_rows_tabulate]

/-- A sentence is valid when no row of its table shows `F` as the output. -/
theorem verdict_eq_valid_iff_rows {s : Sentence} :
    verdict s = "Valid" ↔ ∀ r ∈ s.tabulate.1.rows, TruthTable.truthChar r.output ≠ 'F' := by
  rw [verdict_eq_valid_iff, ← Option.map_eq_none_iff, ← find?_rows_shown, List.find?_eq_none]
  simp only [decide_eq_true_eq, ne_eq]

/-- Otherwise the verdict names the letters that show `T` in the first row that shows `F`. -/
theorem verdict_of_find?_rows {s : Sentence} {r : TruthTable.Row}
    (h : (s.tabulate.1.rows.find? fun r => TruthTable.truthChar r.output = 'F') = some r) :
    verdict s = "Invalid, true variables in counterexample: " ++ "\x7b" ++
      ", ".intercalate ((Letter.sort (s.tabulate.1.shownTrue r)).map fun x => x.name.toString) ++
        "\x7d" := by
  rw [find?_rows_shown] at h
  obtain ⟨v, hv, rfl⟩ := Option.map_eq_some_iff.mp h
  have row : v ∈ s.valuations.toList := by
    rw [Sentence.counterexample, Enumeration.find?_eq] at hv
    exact List.mem_of_find?_eq_some hv
  rw [verdict, hv, sort_shownTrue row]
  simp only [Valuation.render, String.append_assoc]

/-! ## Printed lines -/

/-- The verdict is what can be read off the header and the lines of the rows: it says `Valid` when
no line ends in `F`, and otherwise it names, in alphabetical order, the letters above each `T` of
the first line that does. -/
structure ReadOff (verdict header : String) (body : List String) : Prop where
  valid_iff : verdict = "Valid" ↔ ∀ l ∈ body, l.toList.getLast? ≠ some 'F'
  counterexample : ∀ l, (body.find? fun l => l.toList.getLast? = some 'F') = some l →
    verdict = "Invalid, true variables in counterexample: " ++ "\x7b" ++
      ", ".intercalate
        ((Letter.sort (TruthTable.lettersAbove header l)).map fun x => x.name.toString) ++ "\x7d"

theorem readOff_lineChars (s : Sentence) :
    ReadOff (verdict s) (String.ofList s.tabulate.1.headerChars)
      (s.tabulate.1.rows.map fun r => String.ofList r.chars) where
  valid_iff := by
    rw [verdict_eq_valid_iff_rows, List.forall_mem_map]
    exact forall₂_congr fun r _ => not_congr r.ends_false_iff.symm
  counterexample l first := by
    have test : ((fun l : String => decide (l.toList.getLast? = some 'F')) ∘
        fun r : TruthTable.Row => String.ofList r.chars) =
          fun r => decide (TruthTable.truthChar r.output = 'F') := by
      funext r
      exact decide_eq_decide.mpr r.ends_false_iff
    rw [List.find?_map, test] at first
    obtain ⟨r, found, rfl⟩ := Option.map_eq_some_iff.mp first
    have row := s.rectangular_tabulate r (List.mem_of_find?_eq_some found)
    rw [TruthTable.lettersAbove_chars row]
    exact verdict_of_find?_rows found

/-- The verdict can be read off the lines of the printed table. -/
theorem exists_readOff (s : Sentence) : ∃ header rule body,
    Text.lines s.tabulate.1.render = header :: rule :: body ∧
      s.tabulate.1.ShownBy header rule body ∧ ReadOff (verdict s) header body :=
  ⟨_, _, _, s.lines_render_tabulate_eq, TruthTable.shownBy_lineChars s.rectangular_tabulate,
    readOff_lineChars s⟩

/-! ## The report -/

/-- A report is what its formulas give when each is reported alone, one after the other. For a
formula that parses, the same verdict comes after the printed formula in a quiet report and after
the formula and its table in a full one: it says `Valid` when no row of the table shows `F` as the
output, and otherwise gives, in alphabetical order, the letters that show `T` in the first row that
does. It can be read off the lines of the printed table in the same way. For a text that does not
parse both reports hold the same error. -/
theorem blocks_agree :
    (∀ (quiet : Bool) (texts : List String),
      ofFormulas quiet texts = String.join (texts.map fun text => ofFormulas quiet [text])) ∧
    (∀ text s, Sentence.parse text = .ok s → ∃ line,
      ofFormulas true [text] = s.render ++ "\n" ++ line ++ "\n\n" ∧
      ofFormulas false [text] =
        s.render ++ "\n\n" ++ s.tabulate.1.render ++ "\n" ++ line ++ "\n\n" ∧
      (line = "Valid" ↔ ∀ r ∈ s.tabulate.1.rows, TruthTable.truthChar r.output ≠ 'F') ∧
      (∀ r, (s.tabulate.1.rows.find? fun r => TruthTable.truthChar r.output = 'F') = some r →
        line = "Invalid, true variables in counterexample: " ++ "\x7b" ++
          ", ".intercalate
            ((Letter.sort (s.tabulate.1.shownTrue r)).map fun x => x.name.toString) ++ "\x7d") ∧
      ∃ header rule body, Text.lines s.tabulate.1.render = header :: rule :: body ∧
        s.tabulate.1.ShownBy header rule body ∧ ReadOff line header body) ∧
    ∀ text e, Sentence.parse text = .error e → ∀ quiet,
      ofFormulas quiet [text] = "Failed to parse '" ++ text ++ "': " ++ e.message ++ "\n\n" :=
  ⟨ofFormulas_eq_join,
    fun _ s h => ⟨verdict s, block_quiet h, block_full h, verdict_eq_valid_iff_rows,
      fun _ => verdict_of_find?_rows, exists_readOff s⟩,
    fun _ _ h => block_of_error h⟩

/-- The columns of `~(b & a)` are `B` and `A`, and the verdict names `A` before `B`, with the table
and without it; the text before it does not parse and changes nothing about that. -/
theorem blocks_of_error_and_invalid :
    let s : Sentence := .ofFormula (.neg (.binary .and (.atom ⟨1⟩) (.atom ⟨0⟩)))
    let refused := "Failed to parse 'a &': missing operand at position 2\n\n"
    let counterexample := "Invalid, true variables in counterexample: \x7bA, B\x7d" ++ "\n\n"
    Sentence.parse "a &" = .error (.missingOperand 2) ∧
      Sentence.parse "~(b & a)" = .ok s ∧
      (s.tabulate.1.rows.find? fun r => TruthTable.truthChar r.output = 'F') =
        some ⟨[true, true], false⟩ ∧
      ofFormulas true ["a &", "~(b & a)"] = refused ++ ("( ! ( B & A ) )\n" ++ counterexample) ∧
      ofFormulas false ["a &", "~(b & a)"] = refused ++ ("( ! ( B & A ) )\n\n" ++
        " B | A | \n" ++ "---|---|---\n" ++ " T | T | F\n" ++ " T | F | T\n" ++ " F | T | T\n" ++
          " F | F | T\n" ++ "\n" ++ counterexample) := by
  intro s error shown
  have misspelt : Sentence.parse "a &" = .error (.missingOperand 2) :=
    Sentence.parse_eq_error_iff.mpr rfl
  have parsed : Sentence.parse "~(b & a)" = .ok s := Sentence.parse_eq_ok_iff.mpr rfl
  have first : (s.tabulate.1.rows.find? fun r => TruthTable.truthChar r.output = 'F') =
      some ⟨[true, true], false⟩ := by decide +kernel
  have above : s.tabulate.1.shownTrue ⟨[true, true], false⟩ = [⟨1⟩, ⟨0⟩] := by decide +kernel
  have sorted : Letter.sort [⟨1⟩, ⟨0⟩] = [⟨0⟩, ⟨1⟩] :=
    Letter.sort_eq (by decide) (by decide) fun x => by simp [or_comm]
  obtain ⟨joined, accepted, refused⟩ := blocks_agree
  obtain ⟨line, quiet, full, -, counterexample, -⟩ := accepted _ s parsed
  have named := counterexample _ first
  rw [above, sorted] at named
  refine ⟨misspelt, parsed, first, ?_, ?_⟩
  · rw [joined, List.map_cons, List.map_singleton, refused _ _ misspelt, quiet, named]
    decide +kernel
  · rw [joined, List.map_cons, List.map_singleton, refused _ _ misspelt, full, named]
    decide +kernel

end Report

end Propositional
