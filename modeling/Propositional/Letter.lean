import Propositional.Misuse
import Propositional.Text.Normal

/-!
# Propositional letters

A formula is built over 26 letters, `A` to `Z`. A letter is its place in the alphabet, so two
letters are equal exactly when their names are, and the alphabetical order is the order of the
places.

* `Letter.ofChar?_name`: every letter is read back from its name;
* `Letter.ofChar?_eq_some_iff`: a character names a letter in upper or in lower case;
* `Letter.sort_perm` and `Letter.sort_sorted`: sorting rearranges letters into alphabetical order.
-/

namespace Propositional

/-- A propositional letter, given by its place in the alphabet: 0 for `A`, 25 for `Z`. -/
@[ext] structure Letter where
  index : Fin 26
deriving DecidableEq

namespace Letter

instance : LE Letter := ⟨fun x y => x.index ≤ y.index⟩

instance : LT Letter := ⟨fun x y => x.index < y.index⟩

instance (x y : Letter) : Decidable (x ≤ y) := inferInstanceAs (Decidable (x.index ≤ y.index))

instance (x y : Letter) : Decidable (x < y) := inferInstanceAs (Decidable (x.index < y.index))

theorem le_def {x y : Letter} : x ≤ y ↔ x.index ≤ y.index := Iff.rfl

/-- The 26 letters in alphabetical order. -/
def all : List Letter := (List.finRange 26).map mk

/-- The upper case character that names a letter. -/
def name (x : Letter) : Char := Char.ofNat ('A'.toNat + x.index)

/-- The letter at a place of the alphabet, if there is one. -/
def ofIndex? (n : Nat) : Option Letter :=
  if h : n < 26 then some ⟨⟨n, h⟩⟩ else none

/-- The letter that a character names in either case, if it names one. -/
def ofChar? (c : Char) : Option Letter :=
  if 'A'.toNat ≤ c.toUpper.toNat then ofIndex? (c.toUpper.toNat - 'A'.toNat) else none

/-- The letter that a character names in either case; any other character is a misuse. -/
def ofChar (c : Char) : Except Misuse Letter :=
  match ofChar? c with
  | some x => .ok x
  | none => .error (.notALetter c)

/-- The letters that the characters of a text name, up to the first character that names none. -/
def ofNames (names : String) : Except Misuse (List Letter) :=
  names.toList.mapM ofChar

/-- The text of a list of letters: their names, one after the other. -/
def names (xs : List Letter) : String :=
  String.ofList (xs.map name)

/-- A list of letters in alphabetical order, repeated ones kept. -/
def sort (xs : List Letter) : List Letter :=
  xs.mergeSort fun x y => decide (x ≤ y)

/-- Add a letter to a list of distinct ones, at the end and only if it is new. -/
def note (seen : List Letter) (x : Letter) : List Letter :=
  if x ∈ seen then seen else seen ++ [x]

/-! ## The alphabet -/

@[simp] theorem mem_all (x : Letter) : x ∈ all := by
  simp only [all, List.mem_map, List.mem_finRange, true_and]
  exact ⟨x.index, rfl⟩

@[simp] theorem length_all : all.length = 26 := by
  simp [all]

/-- The alphabet lists no letter twice, and lists the letters in their order. -/
theorem pairwise_all : all.Pairwise (· < ·) := by decide

/-- Letters in strictly ascending order are distinct. -/
theorem nodup_of_pairwise_lt {xs : List Letter} (h : xs.Pairwise (· < ·)) : xs.Nodup := by
  refine h.imp fun lt => ?_
  rintro rfl
  exact Nat.lt_irrefl _ lt

/-- Distinct letters are at most as many as there are letters. -/
theorem length_le_of_nodup {xs : List Letter} (h : xs.Nodup) : xs.length ≤ 26 := by
  rw [← length_all]
  exact h.length_le_of_subset fun x _ => mem_all x

/-! ## Names -/

/-- A character that is already in upper case is left alone by raising it. -/
theorem toUpper_name (x : Letter) : x.name.toUpper = x.name := by
  obtain ⟨i⟩ := x
  revert i
  decide

/-- Every letter is read back from its name. -/
@[simp] theorem ofChar?_name (x : Letter) : ofChar? x.name = some x := by
  obtain ⟨i⟩ := x
  revert i
  decide

/-- Different letters have different names. -/
theorem name_injective {x y : Letter} (h : x.name = y.name) : x = y := by
  have := ofChar?_name x
  rw [h, ofChar?_name] at this
  exact (Option.some.inj this).symm

@[simp] theorem ofIndex?_index (x : Letter) : ofIndex? x.index = some x := by
  simp [ofIndex?]

theorem ofIndex?_eq_some_iff {n : Nat} {x : Letter} : ofIndex? n = some x ↔ n = x.index := by
  unfold ofIndex?
  split
  · simp only [Option.some.injEq, Letter.ext_iff, Fin.ext_iff]
  · next h => simp only [reduceCtorEq, false_iff]; have := x.index.isLt; omega

/-- A character names a letter when raising it gives the name of that letter. -/
theorem ofChar?_eq_some_iff {c : Char} {x : Letter} : ofChar? c = some x ↔ c.toUpper = x.name := by
  constructor
  · intro h
    unfold ofChar? at h
    split at h
    · next hle =>
      rw [ofIndex?_eq_some_iff] at h
      rw [name, ← h, Nat.add_sub_cancel' hle, Char.ofNat_toNat]
    · cases h
  · intro h
    rw [← ofChar?_name x, ofChar?, ofChar?, h, toUpper_name]

/-- Reading a letter looks at the raised character only. -/
theorem ofChar?_toUpper (c : Char) : ofChar? c.toUpper = ofChar? c := by
  rw [ofChar?, ofChar?, Text.toUpper_toUpper]

/-- A character names a letter when it is one of `A` to `Z` and `a` to `z`. -/
theorem isSome_ofChar? (c : Char) : (ofChar? c).isSome = c.isAlpha := by
  have raised := Text.toNat_toUpper c
  have upper : c.isUpper = true ↔ 65 ≤ c.toNat ∧ c.toNat ≤ 90 := by
    show decide (c.val ≥ 'A'.val ∧ c.val ≤ 'Z'.val) = true ↔ _
    rw [decide_eq_true_iff]
    exact Iff.rfl
  have lower : c.isLower = true ↔ 97 ≤ c.toNat ∧ c.toNat ≤ 122 := by
    show (decide (c.val ≥ 'a'.val) && decide (c.val ≤ 'z'.val)) = true ↔ _
    rw [Bool.and_eq_true, decide_eq_true_iff, decide_eq_true_iff]
    exact Iff.rfl
  have named : (ofChar? c).isSome = true ↔ 65 ≤ c.toUpper.toNat ∧ c.toUpper.toNat ≤ 90 := by
    have base : 'A'.toNat = 65 := rfl
    rw [ofChar?, ofIndex?, base]
    split
    · split <;> simp <;> omega
    · simp
      omega
  have alpha : c.isAlpha = (c.isUpper || c.isLower) := rfl
  rw [Bool.eq_iff_iff, named, alpha, Bool.or_eq_true, upper, lower]
  split at raised <;> omega

/-! ## Order -/

/-- Sorting only rearranges. -/
theorem sort_perm (xs : List Letter) : (sort xs).Perm xs :=
  List.mergeSort_perm xs _

/-- A sorted list is in alphabetical order. -/
theorem sort_sorted (xs : List Letter) : (sort xs).Pairwise (· ≤ ·) := by
  have h := @List.pairwise_mergeSort Letter (fun x y => decide (x ≤ y))
    (fun a b c hab hbc => by simp only [decide_eq_true_eq, le_def] at *; omega)
    (fun a b => by simp only [Bool.or_eq_true, decide_eq_true_eq, le_def]; omega) xs
  simpa [sort] using h

/-! ## Lists of distinct letters -/

/-- Noting letters one after the other keeps the first occurrence of each. -/
theorem note_eraseDups (xs : List Letter) (x : Letter) :
    note xs.eraseDups x = (xs ++ [x]).eraseDups := by
  rw [List.eraseDups_append]
  by_cases h : x ∈ xs <;> simp [note, List.removeAll, h, List.eraseDups_cons]

/-- A list without the later repetitions has no repetitions left. -/
theorem nodup_eraseDups : (xs : List Letter) → xs.eraseDups.Nodup
  | [] => List.nodup_nil
  | x :: xs => by
    rw [List.eraseDups_cons, List.nodup_cons]
    exact ⟨by simp [List.mem_eraseDups], nodup_eraseDups _⟩
termination_by xs => xs.length
decreasing_by exact Nat.lt_succ_of_le (List.length_filter_le _ _)

end Letter

end Propositional
