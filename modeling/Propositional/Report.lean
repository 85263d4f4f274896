import Propositional.Text.Lines
import Propositional.TruthTable

/-!
# Reports on formulas

What is printed about a list of formulas: for each a block of its own, with the formula, its truth
table unless only the verdict is asked for, and the verdict. Formulas are given one by one, or
else as the lines of a text, which are read up to the first blank one.
-/

namespace Propositional.Report

/-- Whether a sentence is valid, and if it is not, the letters that are true in the first valuation
that refutes it. -/
def verdict (s : Sentence) : String :=
  match s.counterexample with
  | none => "Valid"
  | some v => "Invalid, true variables in counterexample: " ++ v.render

/-- An output with a line added at its end. -/
def addLine (output line : String) : String :=
  output ++ line ++ "\n"

/-- Add the verdict on a sentence and the blank line that ends its block. -/
def addVerdict (output : String) (s : Sentence) : String :=
  addLine (addLine output (verdict s)) ""

/-- Add the block for a sentence. The truth table is filled in on the sentence itself, so the
verdict is then asked of the sentence that the table leaves behind. -/
def addSentence (quiet : Bool) (output : String) (s : Sentence) : String :=
  let output := addLine output s.render
  if quiet then addVerdict output s
  else
    let (table, s) := s.tabulate
    addVerdict (addLine (addLine output "" ++ table.render) "") s

/-- Add the block for the text of a formula; one that does not parse has the error in its block. -/
def addText (quiet : Bool) (output text : String) : String :=
  match Sentence.parse text with
  | .ok s => addSentence quiet output s
  | .error e => addLine (addLine output ("Failed to parse '" ++ text ++ "': " ++ e.message)) ""

/-- The report on a list of formulas, which are taken one after the other. -/
def ofFormulas (quiet : Bool) (texts : List String) : String :=
  texts.foldl (addText quiet) ""

/-- The formulas among the lines of a text: those before the first blank line. -/
def formulasOf (input : String) : List String :=
  (Text.lines input).takeWhile fun line => !Text.allBlank line

/-- Whether a text can be reported on. The valuations of a sentence have to be enumerated, and that
is a misuse when it has too many letters; a text that does not parse is reported with its error. -/
def check (text : String) : Except Misuse Unit :=
  match Sentence.parse text with
  | .ok s => (Enumeration.ofLetters s.letters).map fun _ => ()
  | .error _ => .ok ()

/-- The report on a list of formulas, if all of them can be reported on. -/
def ofChecked (quiet : Bool) (texts : List String) : Except Misuse String := do
  texts.forM check
  return ofFormulas quiet texts

end Propositional.Report
