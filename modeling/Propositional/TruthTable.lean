import Propositional.Sentence

/-!
# Truth tables

The truth table of a sentence has a column for each letter and a row for each valuation of the
letters. It is filled in on the sentence itself: for every row the letters are set to their values,
each by its name, and the value that the leaves then give is the output. So the sentence is left
with the values of the last row.

The printed form is a header with the letters, a rule, and a line for each row.
-/

namespace Propositional

/-- A row of a truth table: the values of the letters and the value of the formula. -/
structure TruthTable.Row where
  inputs : List Bool
  output : Bool
deriving DecidableEq

/-- A truth table: the letters of its columns and its rows from top to bottom. -/
structure TruthTable where
  letters : List Letter
  rows : List TruthTable.Row
deriving DecidableEq

namespace TruthTable

/-- Fill in the row for a valuation, below the rows that are done, on the sentence as they left it:
the letters of the columns are set by their names, and then the value is read. -/
def fillRow (letters : List Letter) : Array Row × Sentence → Valuation → Array Row × Sentence
  | (done, s), v =>
    let inputs := letters.map v.get
    let s := s.setAll ((letters.map Letter.name).zip inputs)
    (done.push ⟨inputs, s.value⟩, s)

/-- Fill in the rows for valuations one after the other. -/
def fillRows (letters : List Letter) (vs : List Valuation) (s : Sentence) : Array Row × Sentence :=
  vs.foldl (fillRow letters) (#[], s)

/-- Whether the formula is true in every row. -/
def isValid (t : TruthTable) : Bool :=
  t.rows.all Row.output

/-! ## Printed form -/

/-- A truth value as a table shows it. -/
def truthChar (b : Bool) : Char := if b then 'T' else 'F'

/-- A line of cells: a blank, the cells with a divider after each, and what comes last. -/
def line (cells : List Char) (last : String) : String :=
  " " ++ String.join (cells.map fun c => c.toString ++ " | ") ++ last ++ "\n"

/-- The line that names the columns; the column of outputs has no name. -/
def header (t : TruthTable) : String :=
  line (t.letters.map Letter.name) ""

/-- The rule below the header. -/
def rule (t : TruthTable) : String :=
  String.join (t.letters.map fun _ => "---|") ++ "---\n"

/-- The line of a row. -/
def Row.render (r : Row) : String :=
  line (r.inputs.map truthChar) (truthChar r.output).toString

/-- The table as text. -/
def render (t : TruthTable) : String :=
  t.header ++ t.rule ++ String.join (t.rows.map Row.render)

end TruthTable

namespace Sentence

/-- The truth table of a sentence, and the sentence with the values of the last row. -/
def tabulate (s : Sentence) : TruthTable × Sentence :=
  let filled := TruthTable.fillRows s.letters s.valuations.toList s
  (⟨s.letters, filled.1.toList⟩, filled.2)

end Sentence

end Propositional
