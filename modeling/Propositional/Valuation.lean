import Propositional.Letter

/-!
# Valuations

A valuation gives each of the 26 letters a truth value. It is stored as a bit vector whose bit `i`
is the value of letter `i`, so valuations are cheap to compare and to update, and two of them are
equal exactly when they agree on every letter (`Valuation.ext_get`). All other operations are
described by what they do to `get`. In particular, of the values that a list of pairs gives to a
letter the last one counts (`Valuation.get_setAll`).
-/

namespace Propositional

/-! ## Lists of pairs -/

/-- The last value that pairs give to a letter, if they name it. -/
def lastValue? (pairs : List (Letter × Bool)) (x : Letter) : Option Bool :=
  pairs.reverse.lookup x

@[simp] theorem lastValue?_nil (x : Letter) : lastValue? [] x = none := rfl

/-- A first pair counts when no later one is for the same letter. -/
theorem lastValue?_cons (p : Letter × Bool) (ps : List (Letter × Bool)) (x : Letter) :
    lastValue? (p :: ps) x = (lastValue? ps x).or (if x = p.1 then some p.2 else none) := by
  obtain ⟨y, b⟩ := p
  rw [lastValue?, List.reverse_cons, List.lookup_append, lastValue?]
  by_cases h : x = y
  · simp [h]
  · have hne : (x == y) = false := beq_eq_false_iff_ne.mpr h
    simp [List.lookup_cons, h, hne]

theorem lastValue?_eq_none_iff {ps : List (Letter × Bool)} {x : Letter} :
    lastValue? ps x = none ↔ x ∉ ps.map Prod.fst := by
  induction ps with
  | nil => simp
  | cons p ps ih =>
    rw [lastValue?_cons, Option.or_eq_none_iff, ih, List.map_cons, List.mem_cons]
    split <;> simp_all

/-- When the value depends on the letter only, every listed letter is given its value. -/
theorem lastValue?_map (f : Letter → Bool) (xs : List Letter) (y : Letter) :
    lastValue? (xs.map fun x => (x, f x)) y = if y ∈ xs then some (f y) else none := by
  induction xs with
  | nil => rfl
  | cons x xs ih =>
    rw [List.map_cons, lastValue?_cons, ih]
    by_cases hxs : y ∈ xs
    · simp [hxs]
    · by_cases hx : y = x
      · subst hx
        simp [hxs]
      · simp [hxs, hx]

/-! ## Valuations -/

/-- Truth values for all letters; bit `i` is the value of the letter at place `i`. -/
structure Valuation where
  bits : BitVec 26
deriving DecidableEq

namespace Valuation

/-- The valuation that makes every letter false. -/
def allFalse : Valuation := ⟨0#26⟩

instance : Inhabited Valuation := ⟨allFalse⟩

/-- The value of a letter. -/
def get (v : Valuation) (x : Letter) : Bool := v.bits[x.index]

/-- The bit vector in which only the bit of one letter is set. -/
def mask (x : Letter) : BitVec 26 :=
  BitVec.ofNatLT (1 <<< x.index.val) (by
    rw [Nat.one_shiftLeft]
    exact Nat.pow_lt_pow_right Nat.one_lt_two x.index.isLt)

/-- The valuation that gives one letter a new value and keeps all others. A bit that has to change
is flipped. -/
def set (v : Valuation) (x : Letter) (b : Bool) : Valuation :=
  if v.get x = b then v else ⟨v.bits ^^^ mask x⟩

/-- Give letters values in the order of a list, so that a later pair overrides an earlier one. -/
def setAll (v : Valuation) (pairs : List (Letter × Bool)) : Valuation :=
  pairs.foldl (fun v p => v.set p.1 p.2) v

/-- The valuation that a list of pairs describes: letters that are not listed are false, and of
several pairs for one letter the last counts. -/
def ofPairs (pairs : List (Letter × Bool)) : Valuation :=
  allFalse.setAll pairs

/-- The valuation under which exactly the listed letters are true. -/
def ofList (xs : List Letter) : Valuation :=
  ofPairs (xs.map fun x => (x, true))

/-- The true letters in alphabetical order. -/
def trueLetters (v : Valuation) : List Letter :=
  Letter.all.filter v.get

/-- The text of a valuation: the set of its true letters in alphabetical order. -/
def render (v : Valuation) : String :=
  "\x7b" ++ ", ".intercalate (v.trueLetters.map fun x => x.name.toString) ++ "\x7d"

/-! ## Reading a letter -/

/-- Valuations that agree on every letter are equal. -/
@[ext] theorem ext_get {v w : Valuation} (h : ∀ x, v.get x = w.get x) : v = w := by
  obtain ⟨v⟩ := v
  obtain ⟨w⟩ := w
  have : v = w := BitVec.eq_of_getElem_eq fun i hi => h ⟨⟨i, hi⟩⟩
  rw [this]

@[simp] theorem get_allFalse (x : Letter) : allFalse.get x = false := by
  simp [allFalse, get]

theorem getElem_mask (x y : Letter) : (mask x)[y.index] = decide (y = x) := by
  have h : (mask x)[y.index] = (1 <<< x.index.val).testBit y.index.val := rfl
  rw [h, Nat.one_shiftLeft, Nat.testBit_two_pow, decide_eq_decide, Letter.ext_iff, Fin.ext_iff]
  exact eq_comm

theorem get_set (v : Valuation) (x y : Letter) (b : Bool) :
    (v.set x b).get y = if y = x then b else v.get y := by
  unfold set
  split
  · next h => split <;> simp_all
  · next h =>
    have flip : (mk (v.bits ^^^ mask x)).get y = (v.get y ^^ decide (y = x)) := by
      rw [get, Fin.getElem_fin, BitVec.getElem_xor]
      exact congrArg (v.get y ^^ ·) (getElem_mask x y)
    rw [flip]
    split
    · next e => subst e; cases hb : v.get y <;> simp_all
    · next e => simp [e]

@[simp] theorem get_set_self (v : Valuation) (x : Letter) (b : Bool) : (v.set x b).get x = b := by
  simp [get_set]

theorem get_set_of_ne {x y : Letter} (h : y ≠ x) (v : Valuation) (b : Bool) :
    (v.set x b).get y = v.get y := by
  simp [get_set, h]

theorem set_of_get_eq {v : Valuation} {x : Letter} {b : Bool} (h : v.get x = b) :
    v.set x b = v :=
  if_pos h

/-- Of two values for one letter the second counts. -/
theorem set_set (v : Valuation) (x : Letter) (b c : Bool) : (v.set x b).set x c = v.set x c := by
  ext y
  rw [get_set, get_set, get_set]
  split <;> rfl

@[simp] theorem setAll_nil (v : Valuation) : v.setAll [] = v := rfl

@[simp] theorem setAll_cons (v : Valuation) (p : Letter × Bool) (ps : List (Letter × Bool)) :
    v.setAll (p :: ps) = (v.set p.1 p.2).setAll ps := rfl

/-- Reading a letter after a run of pairs. -/
theorem get_setAll (v : Valuation) (ps : List (Letter × Bool)) (x : Letter) :
    (v.setAll ps).get x = (lastValue? ps x).getD (v.get x) := by
  induction ps generalizing v with
  | nil => rfl
  | cons p ps ih =>
    rw [setAll_cons, ih, get_set, lastValue?_cons]
    cases lastValue? ps x with
    | some b => rfl
    | none => split <;> rfl

/-- A letter that no pair names keeps its value. -/
theorem get_setAll_of_not_mem {x : Letter} {ps : List (Letter × Bool)} (v : Valuation)
    (h : x ∉ ps.map Prod.fst) : (v.setAll ps).get x = v.get x := by
  rw [get_setAll, lastValue?_eq_none_iff.mpr h, Option.getD_none]

/-! ## The true letters -/

@[simp] theorem mem_trueLetters {v : Valuation} {x : Letter} :
    x ∈ v.trueLetters ↔ v.get x = true := by
  simp [trueLetters]

/-- The true letters are listed in strictly ascending order. -/
theorem pairwise_trueLetters (v : Valuation) : v.trueLetters.Pairwise (· < ·) :=
  Letter.pairwise_all.filter _

example : (ofPairs [(⟨2⟩, true), (⟨0⟩, true), (⟨1⟩, false)]).render = "\x7bA, C\x7d" := by
  decide +kernel

end Valuation

end Propositional
