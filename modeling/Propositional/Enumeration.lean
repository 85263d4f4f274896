import Propositional.Valuation

/-!
# Enumerating valuations

All valuations over an ordered list of letters, in the order of the rows of a truth table: the
first row makes every letter true, the last one every letter false, and the first letter changes
slowest. Letters that are not listed are false in every row.

An `Enumeration` is a place in the sequence of rows. What is left of the sequence is
`Enumeration.toList`; `next` takes its first element, `nth` drops some before that, and `find?`
and `count` walk through it without building the list, which may have 2 ^ 26 elements. `call` gives
the reply to any of the calls that change the place.
-/

namespace Propositional

namespace Enumeration

/-- The values that row `k` gives to the letters of a list: a letter with `n` letters after it is
true when bit `n` of `k` is clear. -/
def rowPairs : List Letter → Nat → List (Letter × Bool)
  | [], _ => []
  | x :: xs, k => (x, !k.testBit xs.length) :: rowPairs xs k

/-- Row `k` as a valuation. If a letter is listed twice, its later place counts. -/
def row (letters : List Letter) (k : Nat) : Valuation :=
  Valuation.ofPairs (rowPairs letters k)

end Enumeration

/-- A place among the rows over a list of letters: `taken` rows have been produced. -/
@[ext] structure Enumeration where
  letters : List Letter
  taken : Nat
  taken_le : taken ≤ 1 <<< letters.length

namespace Enumeration

/-- The place before the first row. -/
def start (letters : List Letter) : Enumeration where
  letters := letters
  taken := 0
  taken_le := Nat.zero_le _

/-- All rows over a list of at most 26 letters; repeated ones count. -/
def ofLetters (letters : List Letter) : Except Misuse Enumeration :=
  if letters.length ≤ 26 then .ok (start letters) else .error .tooManyLetters

/-- The number of rows, taken or not. -/
def total (r : Enumeration) : Nat := 1 <<< r.letters.length

/-- The number of rows that are left. -/
def left (r : Enumeration) : Nat := r.total - r.taken

/-- The rows that are left, in order. -/
def toList (r : Enumeration) : List Valuation :=
  (List.range' r.taken r.left).map (row r.letters)

/-- The enumeration from which all rows have been taken. -/
def exhaust (r : Enumeration) : Enumeration :=
  { r with taken := r.total, taken_le := Nat.le_refl _ }

/-- Skip `k` rows and take the one after them. When there are not that many, nothing is left. -/
def nth (r : Enumeration) (k : Nat) : Option Valuation × Enumeration :=
  if h : r.taken + k < r.total then
    (some (row r.letters (r.taken + k)), { r with taken := r.taken + k + 1, taken_le := h })
  else
    (none, r.exhaust)

/-- Take the next row. -/
def next (r : Enumeration) : Option Valuation × Enumeration :=
  if h : r.taken < r.total then
    (some (row r.letters r.taken), { r with taken := r.taken + 1, taken_le := h })
  else
    (none, r)

/-- Taking a row leaves one less. -/
theorem left_next {r after : Enumeration} {v : Valuation} (h : r.next = (some v, after)) :
    after.left + 1 = r.left := by
  unfold next at h
  split at h
  · next lt =>
    cases h
    simp only [left, total] at lt ⊢
    omega
  · cases h

/-- The rows that are taken one after the other until there is none. -/
def drain (r : Enumeration) : List Valuation :=
  match h : r.next with
  | (some v, after) =>
    have : after.left < r.left := Nat.lt_of_succ_le (Nat.le_of_eq (left_next h))
    v :: drain after
  | (none, _) => []
termination_by r.left

/-- Test `n` rows from row `k` on, up to the first that passes. -/
def findFrom (p : Valuation → Bool) (letters : List Letter) : (n k : Nat) → Option Valuation
  | 0, _ => none
  | n + 1, k => if p (row letters k) then some (row letters k) else findFrom p letters n (k + 1)

/-- The first row left that passes a test. -/
def find? (r : Enumeration) (p : Valuation → Bool) : Option Valuation :=
  findFrom p r.letters r.left r.taken

/-- Test `n` rows from row `k` on, and add the number of those that pass to `found`. -/
def countFrom (p : Valuation → Bool) (letters : List Letter) : (n k found : Nat) → Nat
  | 0, _, found => found
  | n + 1, k, found =>
    countFrom p letters n (k + 1) (if p (row letters k) then found + 1 else found)

/-- The number of rows left that pass a test. -/
def count (r : Enumeration) (p : Valuation → Bool) : Nat :=
  countFrom p r.letters r.left r.taken 0

/-- What can be asked of an enumeration. -/
inductive Call where
  /-- The next row. -/
  | next
  /-- The row that comes after the next `k` ones. -/
  | nth (k : Nat)
  /-- The next row, taken from a copy. -/
  | nextOfCopy
  /-- All rows that are left, one after the other. -/
  | rest
deriving DecidableEq

/-- The reply to a call: a row unless there is none, or the rows that were left. -/
inductive Reply where
  | row (v : Option Valuation)
  | rows (vs : List Valuation)
deriving DecidableEq

/-- The reply to a call, and the place after it. -/
def call (r : Enumeration) : Call → Reply × Enumeration
  | .next => (.row r.next.1, r.next.2)
  | .nth k => (.row (r.nth k).1, (r.nth k).2)
  | .nextOfCopy => (.row r.next.1, r)
  | .rest => (.rows r.toList, r.exhaust)

/-! ## Rows -/

@[simp] theorem map_fst_rowPairs (letters : List Letter) (k : Nat) :
    (rowPairs letters k).map Prod.fst = letters := by
  induction letters with
  | nil => rfl
  | cons x xs ih => simp [rowPairs, ih]

/-- A row makes letters that are not listed false. -/
theorem get_row_of_not_mem {letters : List Letter} {x : Letter} (h : x ∉ letters) (k : Nat) :
    (row letters k).get x = false := by
  rw [row, Valuation.ofPairs, Valuation.get_setAll_of_not_mem _ (by simpa using h),
    Valuation.get_allFalse]

/-! ## What is left -/

@[simp] theorem left_start (letters : List Letter) :
    (start letters).left = 1 <<< letters.length := by
  simp [left, start, total]

@[simp] theorem length_toList (r : Enumeration) : r.toList.length = r.left := by
  simp [toList]

theorem left_eq_zero_iff {r : Enumeration} : r.left = 0 ↔ r.taken = r.total := by
  have := r.taken_le
  unfold left total
  omega

/-- Taking a row removes the first element of what is left. -/
theorem toList_next (r : Enumeration) :
    r.toList = r.next.1.toList ++ r.next.2.toList := by
  unfold next
  split
  · next h =>
    have : r.left = r.total - (r.taken + 1) + 1 := by unfold left; omega
    rw [toList, this, List.range'_succ]
    rfl
  · rfl

theorem toList_of_next_eq_none {r after : Enumeration} (h : r.next = (none, after)) :
    r.toList = [] := by
  unfold next at h
  split at h
  · cases h
  · next ge =>
    have : r.left = 0 := by unfold left; omega
    simp [toList, this]

/-- Taking rows until there is none takes what is left. -/
theorem drain_eq_toList (r : Enumeration) : r.drain = r.toList := by
  fun_induction drain r with
  | case1 r v after h less ih => rw [toList_next, h, ih]; rfl
  | case2 r after h => rw [toList_of_next_eq_none h]

/-- Skipping rows before taking one drops as many elements first. -/
theorem toList_nth (r : Enumeration) (k : Nat) :
    (r.nth k).1 = r.toList[k]? ∧ (r.nth k).2.toList = r.toList.drop (k + 1) := by
  have le := r.taken_le
  unfold nth
  split
  · next h =>
    have : k < r.left := by unfold left; omega
    refine ⟨?_, ?_⟩
    · simp [toList, List.getElem?_range' this]
    · rw [toList, toList, ← List.map_drop, List.drop_range', left, left, Nat.sub_sub, Nat.mul_one]
      rfl
  · next h =>
    have : r.left ≤ k := by unfold left; omega
    refine ⟨?_, ?_⟩
    · rw [List.getElem?_eq_none (by simpa using this)]
    · rw [List.drop_of_length_le (by rw [length_toList]; omega)]
      simp [toList, exhaust, left, total]

/-! ## Skipping row by row -/

theorem exhaust_eq_self {r : Enumeration} (h : r.total ≤ r.taken) : r.exhaust = r :=
  Enumeration.ext rfl (Nat.le_antisymm h r.taken_le)

theorem exhaust_next (r : Enumeration) : r.next.2.exhaust = r.exhaust := by
  unfold next
  split <;> rfl

theorem next_of_le {r : Enumeration} (h : r.total ≤ r.taken) : r.next = (none, r) :=
  dif_neg (Nat.not_lt.mpr h)

theorem nth_of_le {r : Enumeration} {k : Nat} (h : r.total ≤ r.taken + k) :
    r.nth k = (none, r.exhaust) :=
  dif_neg (Nat.not_lt.mpr h)

/-- Skipping no row is taking the next one. -/
theorem nth_zero (r : Enumeration) : r.nth 0 = r.next := by
  rcases Nat.lt_or_ge r.taken r.total with h | h
  · rw [nth, next, dif_pos h, dif_pos (by simpa using h)]
    rfl
  · rw [nth_of_le (by simpa using h), next_of_le h, exhaust_eq_self h]

/-- While there are rows left, the place after the next row is one further. -/
theorem next_of_lt {r : Enumeration} (h : r.taken < r.total) :
    ∃ after, r.next = (some (row r.letters r.taken), after) ∧
      after.letters = r.letters ∧ after.taken = r.taken + 1 :=
  ⟨_, dif_pos h, rfl, rfl⟩

/-- To skip one row more is to take a row first, and to stop if there is none. -/
theorem nth_succ (r : Enumeration) (k : Nat) :
    r.nth (k + 1) = if r.next.1.isSome then r.next.2.nth k else (none, r.next.2) := by
  rcases Nat.lt_or_ge r.taken r.total with h | h
  · obtain ⟨after, first, letters, taken⟩ := next_of_lt h
    have total : after.total = r.total := by rw [Enumeration.total, letters, Enumeration.total]
    have place : r.taken + (k + 1) = after.taken + k := by omega
    simp only [first, Option.isSome_some, if_true]
    unfold nth
    simp only [place, total, letters]
    split
    · rfl
    · rw [Prod.mk.injEq]
      exact ⟨rfl, Enumeration.ext letters.symm total.symm⟩
  · rw [next_of_le h, nth_of_le (Nat.le_add_right_of_le h), exhaust_eq_self h]
    rfl

theorem findFrom_eq (p : Valuation → Bool) (letters : List Letter) (n k : Nat) :
    findFrom p letters n k = ((List.range' k n).map (row letters)).find? p := by
  induction n generalizing k with
  | zero => rfl
  | succ n ih =>
    rw [findFrom, ih, List.range'_succ, List.map_cons, List.find?_cons]
    split <;> simp_all

/-- Searching finds the first element of what is left that passes. -/
theorem find?_eq (r : Enumeration) (p : Valuation → Bool) : r.find? p = r.toList.find? p :=
  findFrom_eq ..

theorem countFrom_eq (p : Valuation → Bool) (letters : List Letter) (n k found : Nat) :
    countFrom p letters n k found = found + ((List.range' k n).map (row letters)).countP p := by
  induction n generalizing k found with
  | zero => rfl
  | succ n ih =>
    rw [countFrom, ih, List.range'_succ, List.map_cons, List.countP_cons]
    by_cases h : p (row letters k) = true
    · rw [if_pos h, if_pos h]
      omega
    · simp [h]

/-- Counting counts the elements of what is left that pass. -/
theorem count_eq (r : Enumeration) (p : Valuation → Bool) : r.count p = r.toList.countP p := by
  rw [count, countFrom_eq, Nat.zero_add, toList]

end Enumeration

end Propositional
