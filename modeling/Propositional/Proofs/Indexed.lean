import Propositional.Formula.Parser

/-!
# Reading by positions

The readers of formulas can be written so that they never take a text apart. A span is then given by
the positions where it begins and ends, the symbols are looked up in the text, the end of a group is
found by counting brackets from its first symbol on, and the letters met and the number of formulas
that are being read are kept in a state.

Such readers can go wrong in ways in which those that take spans apart cannot: a position may lie
outside the text, and a subtraction may go below zero. Here a reader that does so fails, which is
something else than returning an error of the text. It also fails if more calls are nested than it
is allowed. What the calls were, and between which positions, is recorded in the state (`Event`).
-/

namespace Propositional.Formula.Indexed

/-- What is recorded: a call, when it returns, and every change of the number of formulas that are
being read. -/
inductive Event where
  /-- A formula was read between two positions. So many formulas were being read when the call
  began, and when it returned. -/
  | formula (start stop before after : Nat)
  /-- The number of formulas that are being read became `n`. -/
  | opened (n : Nat)
  /-- An operand was read from `start` on. The position after it is there unless it was in error. -/
  | operand (start stop : Nat) (next : Option Nat)
  /-- A group was read that begins at position `p`. -/
  | group (p stop : Nat)
  /-- The bracket was looked for that closes the one at position `p`. -/
  | search (p stop : Nat)
deriving DecidableEq

/-- What the readers keep while they go through a text. -/
structure State where
  seen : List Letter
  depth : Nat
  events : List Event
deriving DecidableEq

/-- The state before anything is read. -/
def State.initial : State := ⟨[], 0, []⟩

/-- Change the number of formulas that are being read. -/
def State.setDepth (s : State) (n : Nat) : State :=
  { s with depth := n, events := .opened n :: s.events }

/-- A reader that fails, or returns a value or an error of the text, and in both cases a state. -/
abbrev Reader (α : Type) : Type := ExceptT ParseError (StateT State Option) α

/-! ## Steps that can fail -/

/-- A difference, which must not be below zero. -/
def minus (m n : Nat) : Option Nat :=
  if n ≤ m then some (m - n) else none

/-- The symbols between two positions, which must be in order and in the text. -/
def slice (text : List Char) (start stop : Nat) : Option (List Char) :=
  if start ≤ stop ∧ stop ≤ text.length then some ((text.take stop).drop start) else none

/-- Look for the symbol that closes the last open bracket, when `level` brackets are open before the
symbol at position `p`. A bracket that is closed must be open. -/
def scan (level p : Nat) : List Char → Option (Option Nat)
  | [] => some none
  | c :: cs =>
    match Symbol.ofChar c with
    | .opening => scan (level + 1) (p + 1) cs
    | .closing =>
      (minus level 1).bind fun level =>
        if level = 0 then some (some p) else scan level (p + 1) cs
    | _ => scan level (p + 1) cs

/-! ## Readers -/

variable {α : Type}

/-- Record a call when it returns, by the states before and after it and by what it returns. -/
def observe (event : State → State → Except ParseError α → Event) (x : Reader α) : Reader α :=
  fun s => (x s).bind fun (r, after) =>
    some (r, { after with events := event s after r :: after.events })

/-- Note a letter that is met. -/
def note (x : Letter) : Reader Unit :=
  modify fun s => { s with seen := Letter.note s.seen x }

/-- Read with one formula more being read, and take it off again whatever is returned. -/
def nested (x : Reader α) : Reader α := fun s =>
  (x (s.setDepth (s.depth + 1))).bind fun (r, after) =>
    (minus after.depth 1).bind fun depth => some (r, after.setDepth depth)

/-- The position of the bracket that closes the one at position `p`. -/
def findClosing (text : List Char) (p stop : Nat) : Reader Nat :=
  observe (fun _ _ _ => .search p stop) do
    let span ← slice text p stop
    match ← scan 0 p span with
    | some close => return close
    | none => throw (.unclosed p)

/-- Read the group that begins at position `p`. -/
def readGroup (formula : Nat → Nat → Reader Formula) (text : List Char) (p stop : Nat) :
    Reader (Formula × Nat) :=
  observe (fun _ _ _ => .group p stop) do
    let close ← findClosing text p stop
    let e ← formula (p + 1) close
    return (e, close + 1)

/-- Read the letter or the group that begins at position `p` with the symbol `c`. -/
def readPrimary (formula : Nat → Nat → Reader Formula) (text : List Char) (c : Char)
    (p stop : Nat) : Reader (Formula × Nat) :=
  match Symbol.ofChar c with
  | .letter x => do
    note x
    return (atom x, p + 1)
  | .opening => readGroup formula text p stop
  | _ => throw (.unexpected p c)

/-- Read the operand that begins at a position, and return the position after it. -/
def readOperand (formula : Nat → Nat → Reader Formula) (text : List Char) (start stop : Nat) :
    Reader (Formula × Nat) :=
  observe (fun _ _ r => .operand start stop (r.toOption.map Prod.snd)) do
    match text[start]?.filter fun _ => start < stop with
    | none => throw (.missingOperand start)
    | some c =>
      if Symbol.ofChar c = .negation then
        if start + 1 = stop then
          throw (.missingOperand (start + 1))
        else
          let d ← text[start + 1]?
          let (e, next) ← readPrimary formula text d (start + 1) stop
          return (neg e, next)
      else
        readPrimary formula text c start stop

/-- Go on at a position after an operand: there is nothing more, or a connective and the part right
of it. -/
def readRight (formula : Nat → Nat → Reader Formula) (text : List Char) (left : Formula)
    (next stop : Nat) : Reader Formula :=
  if next = stop then
    return left
  else do
    let c ← text[next]?
    match Symbol.ofChar c with
    | .connective op => do
      let right ← formula (next + 1) stop
      return binary op left right
    | _ => throw (.unexpected next c)

/-- Read an operand and what comes after it. -/
def readBinary (formula : Nat → Nat → Reader Formula) (text : List Char) (start stop : Nat) :
    Reader Formula := do
  let (left, next) ← readOperand formula text start stop
  readRight formula text left next stop

/-- Read the formula between two positions, when so many calls may be nested. If the most formulas
are being read already, the symbol before the first position is one too many. -/
def readFormula (text : List Char) : (calls start stop : Nat) → Reader Formula
  | 0, _, _ => fun _ => none
  | calls + 1, start, stop =>
    observe (fun s after _ => .formula start stop s.depth after.depth) do
      if (← get).depth = maxOpen then
        let p ← minus start 1
        let c ← text[p]?
        throw (.unexpected p c)
      else
        nested (readBinary (readFormula text calls) text start stop)

/-- Read a whole text. One call more may be nested than formulas may be open, since the call that
finds too many being read is a call as well. -/
def read (text : String) : Option (Except ParseError Reading × State) :=
  match Text.normalize text with
  | [] => some (.error .emptyText, .initial)
  | span => (readFormula span (maxOpen + 1) 0 span.length .initial).map fun (r, s) =>
    (r.map fun e => ⟨e, s.seen⟩, s)

end Propositional.Formula.Indexed
