import Mathlib.Data.List.Forall2
import Propositional.Proofs.Tables
import Propositional.Text.Lines

/-!
# The layout of a printed table

All lines of a printed table have the same shape: pieces of three characters with a divider after
each, one for every letter, and a last piece (`TruthTable.Divided`). So the dividers are below each
other, at every fourth place from the fourth on, and no character of a line could end it. In the
header and in the lines of rows a cell stands in the middle of its piece
(`TruthTable.getElem?_cellLine`).

The lines are found again in the text (`TruthTable.lines_render`), and they determine the letters
and the rows, because a place of the header or of a row shows one letter or one truth value only
(`TruthTable.ShownBy.unique`). So nothing is lost when a table is printed. Main statement:
`Sentence.lines_render_tabulate`.
-/

namespace Propositional

namespace TruthTable

/-! ## Dividers -/

/-- A character that neither divides a line nor ends it. -/
def IsCell (c : Char) : Prop := c ∉ ['|', '\n', '\r']

instance (c : Char) : Decidable (IsCell c) :=
  inferInstanceAs (Decidable (c ∉ ['|', '\n', '\r']))

theorem IsCell.ne_divider {c : Char} (h : IsCell c) : c ≠ '|' := by
  rintro rfl
  exact h (by decide)

theorem isCell_name (x : Letter) : IsCell x.name := by
  obtain ⟨i⟩ := x
  revert i
  decide

theorem isCell_truthChar (b : Bool) : IsCell (truthChar b) := by
  cases b <;> decide

/-- The line is `n` pieces of three characters, each with a divider after it, and a last piece. -/
inductive Divided : (n : Nat) → (chars : List Char) → Prop
  | last {chars : List Char} : (∀ c ∈ chars, IsCell c) → Divided 0 chars
  | piece {n : Nat} {a b c : Char} {chars : List Char} : IsCell a → IsCell b → IsCell c →
      Divided n chars → Divided (n + 1) (a :: b :: c :: '|' :: chars)

namespace Divided

variable {n : Nat} {chars : List Char}

/-- The dividers stand at every fourth place from the fourth on, one for each piece. -/
theorem getElem?_eq_divider_iff (h : Divided n chars) (i : Nat) :
    chars[i]? = some '|' ↔ ∃ j < n, i = 4 * j + 3 := by
  induction h generalizing i with
  | last cells =>
    refine iff_of_false (fun found => ?_) ?_
    · exact (cells _ (List.mem_of_getElem? found)).ne_divider rfl
    · rintro ⟨j, hj, -⟩
      exact Nat.not_lt_zero j hj
  | @piece n a b c chars ha hb hc _ ih =>
    match i with
    | 0 => exact iff_of_false (by simpa using ha.ne_divider) (by rintro ⟨j, -, e⟩; omega)
    | 1 => exact iff_of_false (by simpa using hb.ne_divider) (by rintro ⟨j, -, e⟩; omega)
    | 2 => exact iff_of_false (by simpa using hc.ne_divider) (by rintro ⟨j, -, e⟩; omega)
    | 3 => exact iff_of_true rfl ⟨0, Nat.succ_pos n, rfl⟩
    | i + 4 =>
      show chars[i]? = some '|' ↔ _
      rw [ih]
      constructor
      · rintro ⟨j, hj, rfl⟩
        exact ⟨j + 1, Nat.succ_lt_succ hj, rfl⟩
      · rintro ⟨j, hj, e⟩
        exact ⟨j - 1, by omega, by omega⟩

/-- Such a line has no character that ends lines. -/
theorem not_ending (h : Divided n chars) : ∀ c ∈ chars, c ∉ ['\n', '\r'] := by
  have plain {c : Char} (hc : IsCell c) : c ∉ ['\n', '\r'] := List.not_mem_of_not_mem_cons hc
  induction h with
  | last cells => exact fun c hc => plain (cells c hc)
  | piece ha hb hc _ ih =>
    simp only [List.forall_mem_cons]
    exact ⟨plain ha, plain hb, plain hc, by decide, ih⟩

end Divided

/-! ## Lines -/

/-- The characters of a line of cells. -/
def cellLine : (cells last : List Char) → List Char
  | [], last => ' ' :: last
  | c :: cells, last => ' ' :: c :: ' ' :: '|' :: cellLine cells last

/-- The characters of the rule below a header with `n` letters. -/
def ruleLine : (n : Nat) → List Char
  | 0 => ['-', '-', '-']
  | n + 1 => '-' :: '-' :: '-' :: '|' :: ruleLine n

theorem mem_ruleLine {n : Nat} : ∀ c ∈ ruleLine n, c = '-' ∨ c = '|' := by
  induction n with
  | zero => simp [ruleLine]
  | succ n ih => simpa [ruleLine] using ih

theorem divided_cellLine {cells last : List Char} (hc : ∀ c ∈ cells, IsCell c)
    (hl : ∀ c ∈ last, IsCell c) : Divided cells.length (cellLine cells last) := by
  have blank : IsCell ' ' := by decide
  induction cells with
  | nil => exact .last (List.forall_mem_cons.mpr ⟨blank, hl⟩)
  | cons c cells ih =>
    obtain ⟨first, others⟩ := List.forall_mem_cons.mp hc
    exact .piece blank first blank (ih others)

theorem divided_ruleLine (n : Nat) : Divided n (ruleLine n) := by
  have dash : IsCell '-' := by decide
  induction n with
  | zero => exact .last (by simpa [ruleLine] using dash)
  | succ n ih => exact .piece dash dash dash ih

/-- The cells, and the character that comes after the last divider if there is one, stand in the
middle of the pieces. -/
theorem getElem?_cellLine (cells : List Char) {last : List Char} (h : last.length ≤ 1) (j : Nat) :
    (cellLine cells last)[4 * j + 1]? = (cells ++ last)[j]? := by
  induction cells generalizing j with
  | nil =>
    cases j with
    | zero => rfl
    | succ j =>
      rw [List.getElem?_eq_none (by rw [cellLine, List.length_cons]; omega),
        List.getElem?_eq_none (by rw [List.nil_append]; omega)]
  | cons c cells ih =>
    cases j with
    | zero => rfl
    | succ j => exact ih j

/-- The characters of the header. -/
def headerChars (t : TruthTable) : List Char :=
  cellLine (t.letters.map Letter.name) []

/-- The characters of the line of a row. -/
def Row.chars (r : Row) : List Char :=
  cellLine (r.inputs.map truthChar) [truthChar r.output]

/-- The characters of the lines of a table. -/
def lineChars (t : TruthTable) : List (List Char) :=
  t.headerChars :: ruleLine t.letters.length :: t.rows.map Row.chars

/-- Every row has a truth value for each letter. -/
def Rectangular (t : TruthTable) : Prop :=
  ∀ r ∈ t.rows, r.inputs.length = t.letters.length

/-- All lines of a table are divided alike. -/
theorem divided_of_mem_lineChars {t : TruthTable} (h : t.Rectangular) {l : List Char}
    (hl : l ∈ t.lineChars) : Divided t.letters.length l := by
  rw [lineChars, List.mem_cons, List.mem_cons, List.mem_map] at hl
  rcases hl with rfl | rfl | ⟨r, hr, rfl⟩
  · have line := divided_cellLine
      (List.forall_mem_map.mpr fun x (_ : x ∈ t.letters) => isCell_name x)
      (List.forall_mem_nil IsCell)
    rwa [List.length_map] at line
  · exact divided_ruleLine _
  · have line := divided_cellLine
      (List.forall_mem_map.mpr fun b (_ : b ∈ r.inputs) => isCell_truthChar b)
      (List.forall_mem_singleton.mpr (isCell_truthChar r.output))
    rwa [List.length_map, h r hr] at line

/-! ## The printed text -/

theorem line_eq (cells : List Char) (last : String) :
    line cells last = String.ofList (cellLine cells last.toList) ++ "\n" := by
  have chars : cellLine cells last.toList =
      ' ' :: (cells.flatMap fun c => [c, ' ', '|', ' ']) ++ last.toList := by
    induction cells with
    | nil => rfl
    | cons c cells ih => rw [cellLine, ih]; rfl
  rw [← String.toList_inj, chars, line]
  simp [List.flatMap_map]

theorem rule_eq (t : TruthTable) :
    t.rule = String.ofList (ruleLine t.letters.length) ++ "\n" := by
  rw [rule]
  induction t.letters with
  | nil => rfl
  | cons x xs ih =>
    rw [List.map_cons, String.join_cons, String.append_assoc, ih, ← String.toList_inj]
    simp [ruleLine]

theorem Row.render_eq (r : Row) : r.render = String.ofList r.chars ++ "\n" := by
  rw [Row.render, line_eq, Row.chars]
  simp

/-- The text of a table is its lines, each ended by a line feed. -/
theorem render_eq_join (t : TruthTable) :
    t.render = String.join (t.lineChars.map fun l => String.ofList l ++ "\n") := by
  rw [render, header, line_eq, rule_eq, lineChars, List.map_cons, List.map_cons, String.join_cons,
    String.join_cons, List.map_map, String.append_assoc, funext Row.render_eq]
  rfl

/-- The lines that are found in the text of a table are its lines. -/
theorem lines_render {t : TruthTable} (h : t.Rectangular) :
    Text.lines t.render = t.lineChars.map String.ofList := by
  rw [render_eq_join]
  refine Text.lines_join fun l hl => ?_
  have plain := (divided_of_mem_lineChars h hl).not_ending
  refine ⟨fun found => plain _ found (by decide), fun found => ?_⟩
  exact plain _ (List.mem_of_getLast? found) (by decide)

/-- The lines as texts. -/
theorem map_ofList_lineChars (t : TruthTable) :
    t.lineChars.map String.ofList =
      String.ofList t.headerChars :: String.ofList (ruleLine t.letters.length) ::
        t.rows.map fun r => String.ofList r.chars := by
  rw [lineChars, List.map_cons, List.map_cons, List.map_map]
  rfl

/-! ## What the lines show -/

/-- The line shows the row: under each of `n` letters its truth value, and the output after the last
divider. -/
structure Row.ShownBy (n : Nat) (r : Row) (line : String) : Prop where
  length_inputs : r.inputs.length = n
  inputs : ∀ j < n, line.toList[4 * j + 1]? = (r.inputs.map truthChar)[j]?
  output : line.toList[4 * n + 1]? = some (truthChar r.output)

/-- The lines show the table: in all of them there is a divider for each letter and no other, the
header has the letters and nothing after them, the rule is of dashes otherwise, and there is one
line for each row. -/
structure ShownBy (t : TruthTable) (header rule : String) (body : List String) : Prop where
  dividers : ∀ l ∈ header :: rule :: body, ∀ i,
    l.toList[i]? = some '|' ↔ ∃ j < t.letters.length, i = 4 * j + 3
  letters : ∀ j, header.toList[4 * j + 1]? = (t.letters.map Letter.name)[j]?
  dashes : ∀ c ∈ rule.toList, c = '-' ∨ c = '|'
  rows : List.Forall₂ (Row.ShownBy t.letters.length) t.rows body

theorem truthChar_injective : Function.Injective truthChar := by
  decide

/-- A line shows one row only. -/
theorem Row.ShownBy.unique {n : Nat} {r r' : Row} {line : String} (h : r.ShownBy n line)
    (h' : r'.ShownBy n line) : r = r' := by
  obtain ⟨inputs, output⟩ := r
  obtain ⟨inputs', output'⟩ := r'
  have same_output : output = output' :=
    truthChar_injective (Option.some.inj (h.output.symm.trans h'.output))
  have same_inputs : inputs.map truthChar = inputs'.map truthChar := by
    refine List.ext_getElem? fun j => ?_
    rcases Nat.lt_or_ge j n with hj | hj
    · exact (h.inputs j hj).symm.trans (h'.inputs j hj)
    · rw [List.getElem?_eq_none (by rw [List.length_map, h.length_inputs]; exact hj),
        List.getElem?_eq_none (by rw [List.length_map, h'.length_inputs]; exact hj)]
  rw [same_output, List.map_injective_iff.mpr truthChar_injective same_inputs]

/-- Lines show one table only. -/
theorem ShownBy.unique {t t' : TruthTable} {header rule rule' : String} {body : List String}
    (h : t.ShownBy header rule body) (h' : t'.ShownBy header rule' body) : t = t' := by
  obtain ⟨letters, rows⟩ := t
  obtain ⟨letters', rows'⟩ := t'
  have same_names : letters.map Letter.name = letters'.map Letter.name :=
    List.ext_getElem? fun j => (h.letters j).symm.trans (h'.letters j)
  obtain rfl : letters = letters' :=
    List.map_injective_iff.mpr (fun _ _ => Letter.name_injective) same_names
  have one_row : Relator.LeftUnique (Row.ShownBy letters.length) :=
    fun _ _ _ => Row.ShownBy.unique
  have same_rows : rows = rows' := List.left_unique_forall₂' one_row h.rows h'.rows
  rw [same_rows]

theorem Row.shownBy_chars (r : Row) : r.ShownBy r.inputs.length (String.ofList r.chars) := by
  have one : [truthChar r.output].length ≤ 1 := Nat.le_refl 1
  refine ⟨rfl, fun j hj => ?_, ?_⟩
  · rw [String.toList_ofList, Row.chars, getElem?_cellLine _ one,
      List.getElem?_append_left (by rwa [List.length_map])]
  · rw [String.toList_ofList, Row.chars, getElem?_cellLine _ one,
      List.getElem?_append_right (by rw [List.length_map]), List.length_map, Nat.sub_self]
    rfl

/-- The lines of a table show it. -/
theorem shownBy_lineChars {t : TruthTable} (h : t.Rectangular) :
    t.ShownBy (String.ofList t.headerChars) (String.ofList (ruleLine t.letters.length))
      (t.rows.map fun r => String.ofList r.chars) where
  dividers := by
    rw [← map_ofList_lineChars, List.forall_mem_map]
    intro l hl i
    rw [String.toList_ofList]
    exact (divided_of_mem_lineChars h hl).getElem?_eq_divider_iff i
  letters j := by
    have none_last : ([] : List Char).length ≤ 1 := Nat.zero_le 1
    rw [String.toList_ofList, headerChars, getElem?_cellLine _ none_last, List.append_nil]
  dashes := by
    rw [String.toList_ofList]
    exact mem_ruleLine
  rows := by
    rw [List.forall₂_map_right_iff, List.forall₂_same]
    intro r hr
    rw [← h r hr]
    exact r.shownBy_chars

end TruthTable

namespace Sentence

/-! ## Tables of sentences -/

theorem rectangular_tabulate (s : Sentence) : s.tabulate.1.Rectangular := by
  intro r hr
  rw [rows_tabulate] at hr
  obtain ⟨v, -, rfl⟩ := List.mem_map.mp hr
  exact List.length_map v.get

theorem length_rows_tabulate (s : Sentence) :
    s.tabulate.1.rows.length = 2 ^ s.letters.length := by
  rw [rows_tabulate, List.length_map, Enumeration.length_toList, valuations, Enumeration.left_start,
    Nat.one_shiftLeft]

/-- The lines in the text of a table are the header, the rule and the rows. -/
theorem lines_render_tabulate_eq (s : Sentence) :
    Text.lines s.tabulate.1.render =
      String.ofList s.tabulate.1.headerChars ::
        String.ofList (TruthTable.ruleLine s.letters.length) ::
          s.tabulate.1.rows.map fun r => String.ofList r.chars :=
  (TruthTable.lines_render s.rectangular_tabulate).trans s.tabulate.1.map_ofList_lineChars

/-- They show the table. -/
theorem exists_lines_render_tabulate (s : Sentence) : ∃ header rule body,
    Text.lines s.tabulate.1.render = header :: rule :: body ∧
      s.tabulate.1.ShownBy header rule body :=
  ⟨_, _, _, s.lines_render_tabulate_eq, TruthTable.shownBy_lineChars s.rectangular_tabulate⟩

/-- The printed table of a sentence with `n` letters is `2 ^ n + 2` lines, each ended by a line
feed: a header, a rule and the rows in order. All of them have their dividers at the same `n`
places, and they show the letters and the rows of the table. Sentences whose tables are printed
alike have the same letters and the same rows. -/
theorem lines_render_tabulate (s : Sentence) :
    let t := s.tabulate.1
    (∃ header rule body, Text.lines t.render = header :: rule :: body ∧
        t.ShownBy header rule body) ∧
      t.letters = s.letters ∧
      (Text.lines t.render).length = 2 ^ s.letters.length + 2 ∧
      t.render = String.join ((Text.lines t.render).map fun l => l ++ "\n") ∧
      ∀ s' : Sentence, s'.tabulate.1.render = t.render ↔
        s'.letters = s.letters ∧ s'.tabulate.1.rows = t.rows := by
  intro t
  obtain ⟨header, rule, body, lines, shown⟩ := s.exists_lines_render_tabulate
  refine ⟨⟨header, rule, body, lines, shown⟩, rfl, ?_, ?_, fun s' => ⟨fun same => ?_, ?_⟩⟩
  · rw [lines, List.length_cons, List.length_cons, ← shown.rows.length_eq, length_rows_tabulate]
  · rw [TruthTable.lines_render s.rectangular_tabulate, List.map_map]
    exact t.render_eq_join
  · obtain ⟨header', rule', body', lines', shown'⟩ := s'.exists_lines_render_tabulate
    rw [same, lines] at lines'
    obtain ⟨rfl, tail⟩ := List.cons.inj lines'
    obtain ⟨rfl, rfl⟩ := List.cons.inj tail
    have table := shown'.unique shown
    exact ⟨congrArg TruthTable.letters table, congrArg TruthTable.rows table⟩
  · rintro ⟨letters, rows⟩
    have table : s'.tabulate.1 = t := by
      show TruthTable.mk s'.letters s'.tabulate.1.rows = TruthTable.mk s.letters t.rows
      rw [letters, rows]
    rw [table]

end Sentence

end Propositional
