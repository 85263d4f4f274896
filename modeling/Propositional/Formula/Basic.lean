import Propositional.Connective
import Propositional.Valuation

/-!
# Formulas

A formula is a tree over letters, negation and the four connectives. Every occurrence of a letter
carries a truth value of its own, so a formula can be evaluated in two ways:

* `Formula.eval` reads the letters from a valuation and ignores the values at the leaves;
* `Formula.value` reads the values at the leaves, which `Formula.assign` sets for all occurrences of
  a letter at once.

The printed form (`Formula.render`) puts brackets around every compound, so it needs no rules of
precedence.
-/

namespace Propositional

/-- A formula of propositional logic. A leaf is one occurrence of a letter and the value it holds.
-/
inductive Formula where
  | leaf (x : Letter) (value : Bool)
  | neg (body : Formula)
  | binary (op : Connective) (left right : Formula)
deriving DecidableEq

namespace Formula

/-- The formula that is a single letter, false until it is given a value. -/
def atom (x : Letter) : Formula := leaf x false

instance : Inhabited Formula := ⟨atom ⟨0⟩⟩

/-! ## Truth -/

/-- The truth value under a valuation; the values at the leaves play no part. -/
def eval (v : Valuation) : Formula → Bool
  | leaf x _ => v.get x
  | neg e => !e.eval v
  | binary op l r => op.apply (l.eval v) (r.eval v)

/-- The truth value that the values at the leaves give. -/
def value : Formula → Bool
  | leaf _ b => b
  | neg e => !e.value
  | binary op l r => op.apply l.value r.value

/-- Give every occurrence of a letter a value. -/
def assign (x : Letter) (b : Bool) : Formula → Formula
  | leaf y c => leaf y (if y = x then b else c)
  | neg e => neg (e.assign x b)
  | binary op l r => binary op (l.assign x b) (r.assign x b)

/-- Give letters values in the order of a list. -/
def assignAll (e : Formula) (pairs : List (Letter × Bool)) : Formula :=
  pairs.foldl (fun e p => e.assign p.1 p.2) e

/-- The same formula with every leaf false. -/
def clear : Formula → Formula
  | leaf x _ => atom x
  | neg e => neg e.clear
  | binary op l r => binary op l.clear r.clear

/-! ## Leaves and letters -/

/-- The occurrences of letters from left to right, each with the value it holds. -/
def leaves : Formula → List (Letter × Bool)
  | leaf x b => [(x, b)]
  | neg e => e.leaves
  | binary _ l r => l.leaves ++ r.leaves

/-- The letters from left to right, one for each occurrence. -/
def occurrences (e : Formula) : List Letter :=
  e.leaves.map Prod.fst

/-- The letters that occur, each once, in the order of their first occurrences. -/
def letters (e : Formula) : List Letter :=
  e.occurrences.eraseDups

/-- Go through a formula from left to right and note the letters that have not been seen. -/
def noteLetters : Formula → List Letter → List Letter
  | leaf x _, seen => Letter.note seen x
  | neg e, seen => e.noteLetters seen
  | binary _ l r, seen => r.noteLetters (l.noteLetters seen)

/-! ## Measures and printed form -/

/-- The number of nodes. -/
def size : Formula → Nat
  | leaf _ _ => 1
  | neg e => 1 + e.size
  | binary _ l r => 1 + l.size + r.size

/-- The number of compounds on the longest branch. -/
def depth : Formula → Nat
  | leaf _ _ => 0
  | neg e => 1 + e.depth
  | binary _ l r => 1 + max l.depth r.depth

/-- The printed form: a letter by its name, a compound in round brackets, a blank between any two
symbols. -/
def render : Formula → String
  | leaf x _ => x.name.toString
  | neg e => "( ! " ++ e.render ++ " )"
  | binary op l r => "( " ++ l.render ++ " " ++ op.symbol.toString ++ " " ++ r.render ++ " )"

/-! ## Lemmas -/

@[simp] theorem leaves_leaf (x : Letter) (b : Bool) : (leaf x b).leaves = [(x, b)] := rfl

@[simp] theorem leaves_neg (e : Formula) : (neg e).leaves = e.leaves := rfl

@[simp] theorem leaves_binary (op : Connective) (l r : Formula) :
    (binary op l r).leaves = l.leaves ++ r.leaves := rfl

@[simp] theorem occurrences_leaf (x : Letter) (b : Bool) : (leaf x b).occurrences = [x] := rfl

@[simp] theorem occurrences_neg (e : Formula) : (neg e).occurrences = e.occurrences := rfl

@[simp] theorem occurrences_binary (op : Connective) (l r : Formula) :
    (binary op l r).occurrences = l.occurrences ++ r.occurrences := by
  simp [occurrences]

/-- The listed letters are those that occur. -/
@[simp] theorem mem_letters {e : Formula} {x : Letter} : x ∈ e.letters ↔ x ∈ e.occurrences := by
  simp [letters]

/-- The letters noted along a formula come after those seen before, as its occurrences do. -/
theorem noteLetters_eraseDups (e : Formula) (xs : List Letter) :
    e.noteLetters xs.eraseDups = (xs ++ e.occurrences).eraseDups := by
  induction e generalizing xs with
  | leaf x b => exact Letter.note_eraseDups xs x
  | neg e ih => exact ih xs
  | binary op l r ihl ihr =>
    rw [noteLetters, ihl, ihr, occurrences_binary, List.append_assoc]

/-- The listed letters are those noted along the formula when none has been seen. -/
theorem noteLetters_nil (e : Formula) : e.noteLetters [] = e.letters :=
  e.noteLetters_eraseDups []

/-- No letter is listed twice. -/
theorem nodup_letters (e : Formula) : e.letters.Nodup :=
  Letter.nodup_eraseDups _

/-- Giving a letter a value changes the leaves of this letter only. -/
theorem leaves_assign (x : Letter) (b : Bool) (e : Formula) :
    (e.assign x b).leaves = e.leaves.map fun p => (p.1, if p.1 = x then b else p.2) := by
  induction e with
  | leaf y c => rfl
  | neg e ih => exact ih
  | binary op l r ihl ihr => simp [assign, ihl, ihr]

@[simp] theorem occurrences_assign (x : Letter) (b : Bool) (e : Formula) :
    (e.assign x b).occurrences = e.occurrences := by
  simp [occurrences, leaves_assign, Function.comp_def]

@[simp] theorem letters_assign (x : Letter) (b : Bool) (e : Formula) :
    (e.assign x b).letters = e.letters := by
  simp [letters]

@[simp] theorem occurrences_clear (e : Formula) : e.clear.occurrences = e.occurrences := by
  induction e with
  | leaf x b => rfl
  | neg e ih => simp [clear, ih]
  | binary op l r ihl ihr => simp [clear, ihl, ihr]

@[simp] theorem letters_clear (e : Formula) : e.clear.letters = e.letters := by
  simp [letters]

@[simp] theorem assignAll_nil (e : Formula) : e.assignAll [] = e := rfl

@[simp] theorem assignAll_cons (e : Formula) (p : Letter × Bool) (ps : List (Letter × Bool)) :
    e.assignAll (p :: ps) = (e.assign p.1 p.2).assignAll ps := rfl

@[simp] theorem letters_assignAll (e : Formula) (ps : List (Letter × Bool)) :
    (e.assignAll ps).letters = e.letters := by
  induction ps generalizing e with
  | nil => rfl
  | cons p ps ih => rw [assignAll_cons, ih, letters_assign]

/-- Valuations that agree on the letters of a formula give it the same value. -/
theorem eval_congr {v w : Valuation} {e : Formula} (h : ∀ x ∈ e.occurrences, v.get x = w.get x) :
    e.eval v = e.eval w := by
  induction e with
  | leaf x b => exact h x (by simp)
  | neg e ih => simp [eval, ih h]
  | binary op l r ihl ihr =>
    rw [eval, eval, ihl fun x hx => h x (by simp [hx]), ihr fun x hx => h x (by simp [hx])]

end Formula

end Propositional
