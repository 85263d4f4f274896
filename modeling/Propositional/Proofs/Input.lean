import Propositional.Proofs.Reports
import Propositional.Request

/-!
# Formulas in the input

A command reports on the formulas among its arguments, or without any on the lines of its input, up
to the first blank one. Formulas that are written line by line, whatever ends each line, are read
back from the input one by one (`Text.lines_endedLines_append`), as long as each can stand on a
line of its own: no line feed in it, no carriage return at its end that would be taken for a part
of the ending, and something in it that is not white space (`Text.IsFormulaLine`). What comes
after a blank line is not looked at.

How arguments are read is left open but for two rules: what does not begin with a hyphen is a
formula, and so is everything after `--` (`ArgumentReader.Lawful`). For every such reader the
command with formulas among its arguments does not read the input (`command_formulas`), the one
without does (`command_no_formulas`), and the outcomes are the same. Neither command fails, since no
formula has more letters than can be enumerated. Main statement: `run_arguments_eq_run_input`.
-/

namespace Propositional

namespace Text

/-! ## Writing lines -/

/-- What ends a line. -/
inductive Ending where
  | lineFeed
  | returnLineFeed

def Ending.text : Ending → String
  | lineFeed => "\n"
  | returnLineFeed => "\r\n"

/-- Lines one after the other, each with its ending. -/
def endedLines (written : List (String × Ending)) : String :=
  String.join (written.map fun l => l.1 ++ l.2.text)

/-- Lines one after the other, each with its ending but for the last one, which has none. -/
def openLines : List (String × Ending) → String
  | [] => ""
  | [l] => l.1
  | l :: m :: written => l.1 ++ l.2.text ++ openLines (m :: written)

/-- The text can be written as a line and read back, and the line is not blank. -/
structure IsFormulaLine (line : String) : Prop where
  no_lineFeed : '\n' ∉ line.toList
  no_return : line.toList.getLast? ≠ some '\r'
  not_blank : allBlank line = false

/-! ## Reading lines -/

namespace IsFormulaLine

variable {line : String}

theorem isEmpty_eq_false (h : IsFormulaLine line) : line.toList.isEmpty = false := by
  have some_char := h.not_blank
  cases empty : line.toList with
  | nil => simp [allBlank, empty] at some_char
  | cons c cs => rfl

/-- A line is read back whatever ends it. -/
theorem lines_append (h : IsFormulaLine line) (e : Ending) (rest : String) :
    lines (line ++ e.text ++ rest) = line :: lines rest := by
  cases e with
  | lineFeed =>
    have kept : dropReturn line.toList = line.toList := if_neg h.no_return
    rw [Ending.text, lines_append_lineFeed h.no_lineFeed, kept, String.ofList_toList]
  | returnLineFeed =>
    have split : line ++ "\r\n" ++ rest = line ++ "\r" ++ "\n" ++ rest := by
      simp [String.append_assoc]
    have one_line : '\n' ∉ (line ++ "\r").toList := by simp [h.no_lineFeed]
    have dropped : dropReturn (line ++ "\r").toList = line.toList := by
      rw [String.toList_append]
      exact dropReturn_append_return _
    rw [Ending.text, split, lines_append_lineFeed one_line, dropped, String.ofList_toList]

theorem lines_eq (h : IsFormulaLine line) : lines line = [line] := by
  rw [lines_of_not_mem h.no_lineFeed, if_neg (by simp [h.isEmpty_eq_false])]

end IsFormulaLine

/-- Written lines are read back, and then the lines of what comes after them. -/
theorem lines_endedLines_append {written : List (String × Ending)}
    (h : ∀ l ∈ written, IsFormulaLine l.1) (rest : String) :
    lines (endedLines written ++ rest) = written.map Prod.fst ++ lines rest := by
  induction written with
  | nil => simp [endedLines]
  | cons l written ih =>
    obtain ⟨hl, hs⟩ := List.forall_mem_cons.mp h
    have first : endedLines (l :: written) ++ rest =
        l.1 ++ l.2.text ++ (endedLines written ++ rest) := by
      simp [endedLines, String.append_assoc]
    rw [first, hl.lines_append, ih hs]
    rfl

theorem lines_openLines {written : List (String × Ending)}
    (h : ∀ l ∈ written, IsFormulaLine l.1) : lines (openLines written) = written.map Prod.fst := by
  fun_induction openLines written with
  | case1 => rfl
  | case2 l => exact (h l (by simp)).lines_eq
  | case3 l m written ih =>
    obtain ⟨hl, hs⟩ := List.forall_mem_cons.mp h
    rw [hl.lines_append, ih hs]
    rfl

end Text

namespace Report

open Text

/-! ## The formulas of an input -/

theorem takeWhile_formulaLines {written : List (String × Ending)}
    (h : ∀ l ∈ written, IsFormulaLine l.1) (rest : List String) :
    (written.map Prod.fst ++ rest).takeWhile (fun line => !allBlank line) =
      written.map Prod.fst ++ rest.takeWhile fun line => !allBlank line := by
  refine List.takeWhile_append_of_pos fun line hline => ?_
  obtain ⟨l, hl, rfl⟩ := List.mem_map.mp hline
  simp [(h l hl).not_blank]

theorem formulasOf_endedLines_append {written : List (String × Ending)}
    (h : ∀ l ∈ written, IsFormulaLine l.1) (rest : String) :
    formulasOf (endedLines written ++ rest) = written.map Prod.fst ++ formulasOf rest := by
  rw [formulasOf, lines_endedLines_append h, takeWhile_formulaLines h, formulasOf]

theorem formulasOf_openLines {written : List (String × Ending)}
    (h : ∀ l ∈ written, IsFormulaLine l.1) :
    formulasOf (openLines written) = written.map Prod.fst := by
  rw [formulasOf, lines_openLines h]
  simpa using takeWhile_formulaLines h []

/-- No formula is looked for from a blank line on. -/
theorem formulasOf_blank_append {blank : String} (h : '\n' ∉ blank.toList)
    (blank_all : allBlank blank = true) (more : String) :
    formulasOf (blank ++ "\n" ++ more) = [] := by
  have still : allBlank (String.ofList (dropReturn blank.toList)) = true := by
    rw [allBlank, List.all_eq_true] at blank_all ⊢
    intro c hc
    rw [String.toList_ofList, dropReturn] at hc
    split at hc
    · exact blank_all c (List.mem_of_mem_dropLast hc)
    · exact blank_all c hc
  rw [formulasOf, lines_append_lineFeed h, List.takeWhile_cons_of_neg (by simp [still])]

theorem formulasOf_blank {blank : String} (h : '\n' ∉ blank.toList)
    (blank_all : allBlank blank = true) : formulasOf blank = [] := by
  rw [formulasOf, lines_of_not_mem h]
  split
  · rfl
  · rw [List.takeWhile_cons_of_neg (by simp [blank_all])]

/-- There are never too many letters. -/
theorem check_eq (text : String) : check text = .ok () := by
  unfold check
  split
  · rw [Sentence.ofLetters_letters]
    rfl
  · rfl

/-- So every list of formulas can be reported on. -/
theorem ofChecked_eq (quiet : Bool) (texts : List String) :
    ofChecked quiet texts = .ok (ofFormulas quiet texts) := by
  have checked : texts.forM check = .ok () := by
    induction texts with
    | nil => rfl
    | cons text texts ih =>
      rw [List.forM_eq_forM] at ih ⊢
      rw [List.forM_cons, check_eq]
      exact ih
  rw [ofChecked, checked]
  rfl

end Report

open Text

/-! ## Arguments -/

/-- The ways to ask for a quiet report or for a full one. -/
def spellings : Bool → List (List String)
  | false => [[]]
  | true => [["-q"], ["--quiet"]]

/-- The arguments ask for a report on formulas: the formulas come last, after `--` if one of them
begins with a hyphen. -/
inductive CommandLine (quiet : Bool) (texts : List String) : (args : List String) → Prop
  | plain {options : List String} : options ∈ spellings quiet →
      (∀ text ∈ texts, text.toList.head? ≠ some '-') → CommandLine quiet texts (options ++ texts)
  | separated {options : List String} : options ∈ spellings quiet →
      CommandLine quiet texts (options ++ "--" :: texts)

/-- What is relied on when arguments are read. -/
structure ArgumentReader.Lawful (read : ArgumentReader) : Prop where
  /-- Arguments that do not begin with a hyphen are formulas. -/
  plain : ∀ {quiet options texts}, options ∈ spellings quiet →
    (∀ text ∈ texts, text.toList.head? ≠ some '-') → read (options ++ texts) = .ok ⟨quiet, texts⟩
  /-- Arguments after `--` are formulas, whatever they begin with. -/
  separated : ∀ {quiet options texts}, options ∈ spellings quiet →
    read (options ++ "--" :: texts) = .ok ⟨quiet, texts⟩

theorem ArgumentReader.Lawful.read_eq {read : ArgumentReader} (lawful : read.Lawful) {quiet : Bool}
    {texts args : List String} (h : CommandLine quiet texts args) :
    read args = .ok ⟨quiet, texts⟩ := by
  cases h with
  | plain spelt plain => exact lawful.plain spelt plain
  | separated spelt => exact lawful.separated spelt

/-! ### A lawful reader -/

/-- Read formulas, or end the command at an argument that begins with a hyphen. -/
def readFormulas (quiet : Bool) : List String → Except Outcome Request
  | "--" :: texts => .ok ⟨quiet, texts⟩
  | texts =>
    if ∀ text ∈ texts, text.toList.head? ≠ some '-' then .ok ⟨quiet, texts⟩ else .error ⟨"", 2⟩

/-- Read an option, if there is one, and then formulas. -/
def readOptionFirst : ArgumentReader
  | "-q" :: args => readFormulas true args
  | "--quiet" :: args => readFormulas true args
  | args => readFormulas false args

theorem readFormulas_plain (quiet : Bool) {texts : List String}
    (plain : ∀ text ∈ texts, text.toList.head? ≠ some '-') :
    readFormulas quiet texts = .ok ⟨quiet, texts⟩ := by
  unfold readFormulas
  split
  · exact absurd (by decide) (plain "--" List.mem_cons_self)
  · rw [if_pos plain]

theorem readOptionFirst_plain {args : List String}
    (plain : ∀ arg ∈ args, arg.toList.head? ≠ some '-') :
    readOptionFirst args = readFormulas false args := by
  unfold readOptionFirst
  split
  · exact absurd (by decide) (plain "-q" List.mem_cons_self)
  · exact absurd (by decide) (plain "--quiet" List.mem_cons_self)
  · rfl

theorem lawful_readOptionFirst : ArgumentReader.Lawful readOptionFirst where
  plain {quiet options texts} spelt plain := by
    cases quiet with
    | false =>
      obtain rfl := List.mem_singleton.mp spelt
      rw [List.nil_append, readOptionFirst_plain plain, readFormulas_plain false plain]
    | true =>
      rw [spellings, List.mem_pair] at spelt
      rcases spelt with rfl | rfl <;> exact readFormulas_plain true plain
  separated {quiet options texts} spelt := by
    cases quiet with
    | false =>
      obtain rfl := List.mem_singleton.mp spelt
      rfl
    | true =>
      rw [spellings, List.mem_pair] at spelt
      rcases spelt with rfl | rfl <;> rfl

/-! ## Commands -/

section Commands

variable {read : ArgumentReader} {quiet : Bool} {texts args : List String}

/-- With formulas among its arguments a command does not read the input. -/
theorem command_formulas (lawful : read.Lawful) (h : CommandLine quiet texts args)
    (given : texts ≠ []) : command read args = .done ⟨Report.ofFormulas quiet texts, 0⟩ := by
  have some_text : texts.isEmpty ≠ true := by simpa using given
  simp only [command, lawful.read_eq h, Request.course, if_neg some_text, Report.ofChecked_eq]
  rfl

/-- Without any it reports on the formulas that it reads from the input. -/
theorem command_no_formulas (lawful : read.Lawful) (h : CommandLine quiet [] args) :
    command read args =
      .reading fun input => ⟨Report.ofFormulas quiet (Report.formulasOf input), 0⟩ := by
  simp only [command, lawful.read_eq h, Request.course, Report.ofChecked_eq]
  rfl

end Commands

/-- A command that is given formulas as arguments reports on them without a look at the input. A
command without formulas among its arguments reads the input. Its report is the same when the
formulas are the lines of the input, whatever ends each line and whether the last one is ended or
not; and it stays the same when a blank line comes after the last ending, with any text after it.
Both commands succeed. -/
theorem run_arguments_eq_run_input {read : ArgumentReader} (lawful : read.Lawful)
    {written : List (String × Ending)} (given : written ≠ [])
    (h : ∀ l ∈ written, IsFormulaLine l.1) {quiet : Bool} {args options : List String}
    (formulas : CommandLine quiet (written.map Prod.fst) args)
    (no_formulas : CommandLine quiet [] options) :
    let onArguments := command read args
    let onInput := command read options
    let outcome : Outcome := ⟨Report.ofFormulas quiet (written.map Prod.fst), 0⟩
    onArguments.readsInput = false ∧ (∀ input, onArguments.run input = outcome) ∧
      onInput.readsInput = true ∧
      onInput.run (endedLines written) = outcome ∧
      onInput.run (openLines written) = outcome ∧
      ∀ blank, '\n' ∉ blank.toList → allBlank blank = true →
        onInput.run (endedLines written ++ blank) = outcome ∧
        ∀ more, onInput.run (endedLines written ++ (blank ++ "\n" ++ more)) = outcome := by
  intro onArguments onInput outcome
  have some_text : written.map Prod.fst ≠ [] := by simpa using given
  have arguments : onArguments = .done outcome := command_formulas lawful formulas some_text
  have input : onInput = .reading fun input =>
      ⟨Report.ofFormulas quiet (Report.formulasOf input), 0⟩ :=
    command_no_formulas lawful no_formulas
  have reported {text : String} (lines : Report.formulasOf text = written.map Prod.fst) :
      onInput.run text = outcome := by
    rw [input, Course.run, lines]
  have ended (rest : String) (none : Report.formulasOf rest = []) :
      onInput.run (endedLines written ++ rest) = outcome := by
    apply reported
    rw [Report.formulasOf_endedLines_append h, none, List.append_nil]
  refine ⟨?_, fun text => ?_, ?_, ?_, reported (Report.formulasOf_openLines h),
    fun blank one_line all => ⟨ended _ (Report.formulasOf_blank one_line all), fun more =>
      ended _ (Report.formulasOf_blank_append one_line all more)⟩⟩
  · rw [arguments, Course.readsInput]
  · rw [arguments, Course.run]
  · rw [input, Course.readsInput]
  · simpa using ended "" rfl

/-- The first line has a carriage return in it and one that belongs to its ending, and it does not
parse. After the second, a line that holds a tab and a no-break space ends the formulas. -/
theorem run_two_lines :
    let written : List (String × Ending) := [("a\r&", .returnLineFeed), ("~b", .lineFeed)]
    let onArguments := command readOptionFirst ["--quiet", "a\r&", "~b"]
    let onInput := command readOptionFirst ["-q"]
    let outcome : Outcome :=
      ⟨"Failed to parse 'a\r&': missing operand at position 2\n\n" ++
        "( ! B )\nInvalid, true variables in counterexample: \x7bB\x7d\n\n", 0⟩
    (written ≠ [] ∧ (∀ l ∈ written, IsFormulaLine l.1) ∧ ArgumentReader.Lawful readOptionFirst) ∧
      onArguments.readsInput = false ∧ onArguments.run "c" = outcome ∧
      onInput.readsInput = true ∧
      onInput.run "a\r&\r\n~b\n" = outcome ∧
      onInput.run "a\r&\r\n~b" = outcome ∧
      onInput.run "a\r&\r\n~b\n\t\u00a0\nc" = outcome := by
  intro written onArguments onInput outcome
  have some_line : written ≠ [] := by simp [written]
  have formula_lines : ∀ l ∈ written, IsFormulaLine l.1 := by
    simp only [written, List.forall_mem_cons, List.not_mem_nil, false_implies, implies_true,
      and_true]
    exact ⟨⟨by decide +kernel, by decide +kernel, by decide +kernel⟩,
      ⟨by decide +kernel, by decide +kernel, by decide +kernel⟩⟩
  have arguments : CommandLine true (written.map Prod.fst) (["--quiet"] ++ ["a\r&", "~b"]) :=
    .plain (by decide) (by decide)
  have no_arguments : CommandLine true [] (["-q"] ++ []) := .plain (by decide) (by decide)
  obtain ⟨unread, reported, read, ended, opened, blank⟩ :=
    run_arguments_eq_run_input lawful_readOptionFirst some_line formula_lines arguments no_arguments
  have shown : (⟨Report.ofFormulas true (written.map Prod.fst), 0⟩ : Outcome) = outcome :=
    congrArg (Outcome.mk · 0) (by decide +kernel)
  rw [shown] at reported ended opened blank
  exact ⟨⟨some_line, formula_lines, lawful_readOptionFirst⟩, unread, reported "c", read, ended,
    opened, (blank "\t\u00a0" (by decide +kernel) (by decide +kernel)).2 "c"⟩

end Propositional
