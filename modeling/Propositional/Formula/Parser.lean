import Propositional.Formula.Basic
import Propositional.Formula.Group
import Propositional.ParseError

/-!
# Reading formulas

A formula is an operand, or an operand, a connective and a formula; an operand is a letter or a
formula in brackets, negated or not. So there is no precedence: everything after a connective is
its right part. A formula in brackets and the part right of a connective are formulas inside a
formula, and at most `maxOpen` formulas may be open at a time, the whole text among them; a
bracket or a connective that would open one more is unexpected.

Every reader works on a span, the characters up to the end of the text or of the group that it is
in, and is told the position of the first one. The end of a group is found before the group is
read, so the errors come in this order: a bracket that is never closed, then one formula too many,
then whatever is wrong inside. Readers also pass along the letters met so far.
-/

namespace Propositional.Formula

/-- The most formulas that may be open at a time. -/
def maxOpen : Nat := 512

/-- A formula that fills a span, and the letters met up to the end of the span. -/
structure Reading where
  formula : Formula
  seen : List Letter

/-- An operand at the start of a span, the letters met up to its end, and what is left of the span
together with the position where that begins. -/
structure Operand where
  formula : Formula
  seen : List Letter
  position : Nat
  rest : List Char

/-- How to read a formula inside another: given the symbol that opens it, the position of that
symbol, the span after the symbol and the letters met before it. -/
abbrev InnerReader : Type :=
  Char → Nat → List Char → List Letter → Except ParseError Reading

/-- Read a letter or a bracket group. -/
def readPrimary (inner : InnerReader) (position : Nat) (span : List Char) (seen : List Letter) :
    Except ParseError Operand :=
  match span with
  | [] => .error (.missingOperand position)
  | c :: cs =>
    match Symbol.ofChar c with
    | .letter x => .ok ⟨atom x, Letter.note seen x, position + 1, cs⟩
    | .opening =>
      match closeGroup cs with
      | none => .error (.unclosed position)
      | some (inside, rest) => do
        let r ← inner c position inside seen
        .ok ⟨r.formula, r.seen, position + inside.length + 2, rest⟩
    | _ => .error (.unexpected position c)

/-- Read a primary, negated or not. A negation is negated only in brackets. -/
def readOperand (inner : InnerReader) (position : Nat) (span : List Char) (seen : List Letter) :
    Except ParseError Operand :=
  match span with
  | [] => .error (.missingOperand position)
  | c :: cs =>
    if Symbol.ofChar c = .negation then
      (readPrimary inner (position + 1) cs seen).map fun o => { o with formula := neg o.formula }
    else
      readPrimary inner position (c :: cs) seen

/-- Read the formula that fills a span, whatever reads the formulas inside it. -/
def readFormula (inner : InnerReader) (position : Nat) (span : List Char) (seen : List Letter) :
    Except ParseError Reading := do
  let o ← readOperand inner position span seen
  match o.rest with
  | [] => .ok ⟨o.formula, o.seen⟩
  | c :: cs =>
    match Symbol.ofChar c with
    | .connective op => do
      let r ← inner c o.position cs o.seen
      .ok ⟨binary op o.formula r.formula, r.seen⟩
    | _ => .error (.unexpected o.position c)

/-- Read a formula inside another when `room` more formulas may be opened. -/
def readInner : Nat → InnerReader
  | 0, opener, position, _, _ => .error (.unexpected position opener)
  | room + 1, _, position, span, seen => readFormula (readInner room) (position + 1) span seen

/-- Read a whole text: its formula, and the letters in it in the order in which they are met. -/
def parse (text : String) : Except ParseError Reading :=
  match Text.normalize text with
  | [] => .error .emptyText
  | span => readFormula (readInner (maxOpen - 1)) 0 span []

/-! ## Negated and plain operands -/

theorem readOperand_negation {c : Char} (h : Symbol.ofChar c = .negation) (inner : InnerReader)
    (position : Nat) (cs : List Char) (seen : List Letter) :
    readOperand inner position (c :: cs) seen = (readPrimary inner (position + 1) cs seen).map
      fun o => { o with formula := neg o.formula } :=
  if_pos h

theorem readOperand_plain {c : Char} (h : Symbol.ofChar c ≠ .negation) (inner : InnerReader)
    (position : Nat) (cs : List Char) (seen : List Letter) :
    readOperand inner position (c :: cs) seen = readPrimary inner position (c :: cs) seen :=
  if_neg h

/-- A negated operand is a primary with a negation on top. -/
theorem readOperand_negation_eq_ok {c : Char} (h : Symbol.ofChar c = .negation)
    {inner : InnerReader} {position : Nat} {cs : List Char} {seen : List Letter} {o : Operand} :
    readOperand inner position (c :: cs) seen = .ok o ↔
      ∃ p, readPrimary inner (position + 1) cs seen = .ok p ∧
        o = { p with formula := neg p.formula } := by
  rw [readOperand_negation h]
  cases readPrimary inner (position + 1) cs seen with
  | error e => simp [Except.map]
  | ok p => simp [Except.map, eq_comm]

/-! ## Letters met -/

/-- What a reader leaves in the list of letters: those met before, then the new ones of what it has
read, in the order of their first occurrences. -/
def Notes (before : List Letter) (e : Formula) (seen : List Letter) : Prop :=
  seen = (before ++ e.occurrences).eraseDups

/-- An inner reader that notes exactly the letters of what it reads. -/
def NotesLetters (inner : InnerReader) : Prop :=
  ∀ c position span before r, inner c position span before.eraseDups = .ok r →
    Notes before r.formula r.seen

theorem readPrimary_notes {inner : InnerReader} (hi : NotesLetters inner) {position : Nat}
    {span : List Char} {before : List Letter} {o : Operand}
    (h : readPrimary inner position span before.eraseDups = .ok o) :
    Notes before o.formula o.seen := by
  unfold readPrimary at h
  split at h
  · cases h
  · split at h
    · cases h
      exact Letter.note_eraseDups _ _
    · split at h
      · cases h
      · simp only [bind, Except.bind] at h
        split at h
        · cases h
        · next hr =>
          cases h
          exact hi _ _ _ _ _ hr
    · cases h

theorem readOperand_notes {inner : InnerReader} (hi : NotesLetters inner) {position : Nat}
    {span : List Char} {before : List Letter} {o : Operand}
    (h : readOperand inner position span before.eraseDups = .ok o) :
    Notes before o.formula o.seen := by
  cases span with
  | nil => cases h
  | cons c cs =>
    by_cases hc : Symbol.ofChar c = .negation
    · obtain ⟨p, hp, rfl⟩ := (readOperand_negation_eq_ok hc).mp h
      simpa [Notes] using readPrimary_notes hi hp
    · rw [readOperand_plain hc] at h
      exact readPrimary_notes hi h

theorem readFormula_notes {inner : InnerReader} (hi : NotesLetters inner) {position : Nat}
    {span : List Char} {before : List Letter} {r : Reading}
    (h : readFormula inner position span before.eraseDups = .ok r) :
    Notes before r.formula r.seen := by
  simp only [readFormula, bind, Except.bind] at h
  split at h
  · cases h
  · next o ho =>
    have left := readOperand_notes hi ho
    split at h
    · cases h
      exact left
    · split at h
      · split at h
        · cases h
        · next hr =>
          cases h
          rw [left] at hr
          simpa [Notes] using hi _ _ _ _ _ hr
      · cases h

/-- Reading inside another formula notes the letters of what is read. -/
theorem notesLetters_readInner (room : Nat) : NotesLetters (readInner room) := by
  induction room with
  | zero => intro c position span before r h; cases h
  | succ room ih => intro c position span before r h; exact readFormula_notes ih h

/-- The letters met in a text are the letters of its formula, in the same order. -/
theorem parse_seen {text : String} {r : Reading} (h : parse text = .ok r) :
    r.seen = r.formula.letters := by
  unfold parse at h
  split at h
  · cases h
  · exact @readFormula_notes _ (notesLetters_readInner _) 0 _ [] _ h

end Propositional.Formula
