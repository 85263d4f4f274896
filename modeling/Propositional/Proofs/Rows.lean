import Mathlib.Algebra.Group.Nat.Defs
import Propositional.Enumeration

/-!
# The rows of an enumeration

The number of a row says by its bits which letters the row makes false, so every choice of values
for the listed letters is a row: `rowOf` computes its number, and `get_row_rowOf` reads the values
back. Nothing is asked of the list; a letter that is listed twice gets the same value in both
places.

The consequence for searches is `exists_mem_toList_start`: whatever a valuation says about the
listed letters, one of the rows says too.

The letters after a letter tell which bit decides it, and so does its place in the list, as long as
the list is not too long: `row?` computes rows in that way and can fail, and `row?_eq` says that it
does not.
-/

namespace Propositional

/-- Giving letters values that depend on the letter only leaves each listed letter with its value,
in whatever order they are listed. -/
theorem Valuation.get_setAll_map (v : Valuation) (f : Letter → Bool) (xs : List Letter)
    (y : Letter) :
    (v.setAll (xs.map fun x => (x, f x))).get y = if y ∈ xs then f y else v.get y := by
  rw [get_setAll, lastValue?_map]
  split <;> rfl

namespace Enumeration

/-- The number of the row that gives the listed letters the values of a valuation: the bit of a
letter is set when the letter is false. -/
def rowOf (v : Valuation) : List Letter → Nat
  | [] => 0
  | x :: xs => if v.get x then rowOf v xs else 2 ^ xs.length + rowOf v xs

theorem rowOf_lt (v : Valuation) (letters : List Letter) :
    rowOf v letters < 2 ^ letters.length := by
  induction letters with
  | nil => exact Nat.one_pos
  | cons x xs ih =>
    rw [rowOf, List.length_cons, Nat.pow_succ]
    split <;> omega

/-- A row depends on the bits of the places after a letter only. -/
theorem rowPairs_congr {letters : List Letter} {k k' : Nat}
    (h : ∀ i < letters.length, k.testBit i = k'.testBit i) :
    rowPairs letters k = rowPairs letters k' := by
  induction letters with
  | nil => rfl
  | cons x xs ih =>
    have head : k.testBit xs.length = k'.testBit xs.length := h xs.length (by simp)
    have tail : rowPairs xs k = rowPairs xs k' :=
      ih fun i hi => h i (Nat.lt_succ_of_lt hi)
    rw [rowPairs, rowPairs, head, tail]

/-- The row with the number computed from a valuation gives every listed letter the value that the
valuation gives it. -/
theorem rowPairs_rowOf (v : Valuation) (letters : List Letter) :
    rowPairs letters (rowOf v letters) = letters.map fun x => (x, v.get x) := by
  induction letters with
  | nil => rfl
  | cons x xs ih =>
    have lt := rowOf_lt v xs
    rw [rowOf, List.map_cons]
    split
    · next hx =>
      rw [rowPairs, ih, Nat.testBit_lt_two_pow lt, hx]
      rfl
    · next hx =>
      -- The bit of the first letter lies above those that the other letters look at.
      have tail : rowPairs xs (2 ^ xs.length + rowOf v xs) = rowPairs xs (rowOf v xs) :=
        rowPairs_congr fun i hi => Nat.testBit_two_pow_add_gt hi _
      rw [rowPairs, tail, ih, Nat.testBit_two_pow_add_eq, Nat.testBit_lt_two_pow lt]
      simp [hx]

theorem get_row_rowOf (v : Valuation) {letters : List Letter} {x : Letter} (h : x ∈ letters) :
    (row letters (rowOf v letters)).get x = v.get x := by
  rw [row, rowPairs_rowOf, Valuation.ofPairs, Valuation.get_setAll_map, if_pos h]

theorem mem_toList_start {letters : List Letter} {w : Valuation} :
    w ∈ (start letters).toList ↔ ∃ k < 2 ^ letters.length, row letters k = w := by
  simp [toList, start, left, total, Nat.one_shiftLeft]

/-- Every valuation agrees with one of the rows on the listed letters. -/
theorem exists_mem_toList_start (v : Valuation) (letters : List Letter) :
    ∃ w ∈ (start letters).toList, ∀ x ∈ letters, w.get x = v.get x :=
  ⟨row letters (rowOf v letters), mem_toList_start.mpr ⟨_, rowOf_lt v letters, rfl⟩,
    fun _ h => get_row_rowOf v h⟩

/-! ## Rows, place by place -/

/-- The bit of a row number that decides the letter at place `j` of `n`. There is none when `n - 1`
or `n - 1 - j` would be below zero, or when the number of the bit is 64 or more. -/
def bitFor? (n j : Nat) : Option Nat :=
  if 1 ≤ n ∧ j ≤ n - 1 ∧ n - 1 - j < 64 then some (n - 1 - j) else none

/-- Row `k` computed from the places of the letters, if the bit for every place can be computed. -/
def row? (letters : List Letter) (k : Nat) : Option Valuation := do
  let pairs ← letters.zipIdx.mapM fun p => do
    let b ← bitFor? letters.length p.2
    pure (p.1, !k.testBit b)
  pure (.ofPairs pairs)

theorem mapM_zipIdx_eq {n i : Nat} {letters : List Letter} (hn : n ≤ 64)
    (h : i + letters.length = n) (k : Nat) :
    ((letters.zipIdx i).mapM fun p => do
      let b ← bitFor? n p.2
      pure (p.1, !k.testBit b)) = some (rowPairs letters k) := by
  induction letters generalizing i with
  | nil => rfl
  | cons x xs ih =>
    rw [List.length_cons] at h
    have bit : bitFor? n i = some xs.length := by
      rw [bitFor?, if_pos (by omega)]
      congr 1
      omega
    rw [List.zipIdx_cons, List.mapM_cons, ih (by omega), bit, rowPairs]
    rfl

/-- Over at most 64 letters every row can be computed from the places of the letters. -/
theorem row?_eq {letters : List Letter} (h : letters.length ≤ 64) (k : Nat) :
    row? letters k = some (row letters k) := by
  rw [row?, mapM_zipIdx_eq h (Nat.zero_add _)]
  rfl

end Enumeration

end Propositional
