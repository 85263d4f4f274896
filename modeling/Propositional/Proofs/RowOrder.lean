import Mathlib.Data.Finset.Card
import Propositional.Proofs.Rows

/-!
# Which rows there are, and in which order

The rows over a list of letters are two copies of the rows over its tail, one after the other: the
first letter is true in the first copy and false in the second (`toList_start_cons_of_not_mem`). If
the letter is listed again later, then its later place counts and the copies are the same
(`toList_start_cons_of_mem`).

Both questions follow this recursion. A repeated letter doubles how often each valuation occurs, a
new one splits the valuations into two kinds (`count_toList_start`); and a row of the first copy
comes before one of the second in the lexicographic order that has true above false
(`pairwise_toList_start`).
-/

namespace Propositional

namespace Valuation

/-- The value that a letter had before a run of pairs does not matter if the pairs name it. -/
theorem setAll_set_of_mem {x : Letter} {ps : List (Letter × Bool)} (h : x ∈ ps.map Prod.fst)
    (v : Valuation) (b : Bool) : (v.set x b).setAll ps = v.setAll ps := by
  ext y
  rw [get_setAll, get_setAll]
  cases hy : lastValue? ps y with
  | some c => rfl
  | none =>
    have hne : y ≠ x := by
      rintro rfl
      exact lastValue?_eq_none_iff.mp hy h
    rw [get_set_of_ne hne]

/-- If the pairs do not name it, the letter may be set after them as well. -/
theorem setAll_set_of_not_mem {x : Letter} {ps : List (Letter × Bool)} (h : x ∉ ps.map Prod.fst)
    (v : Valuation) (b : Bool) : (v.set x b).setAll ps = (v.setAll ps).set x b := by
  ext y
  rw [get_set, get_setAll, get_set]
  split
  · next e => rw [e, lastValue?_eq_none_iff.mpr h, Option.getD_none]
  · rw [get_setAll]

/-- From a valuation with a letter false, setting the letter leads to those with the new value that
are as before when the letter is made false again. -/
theorem set_eq_iff {v : Valuation} {x : Letter} (off : v.get x = false) {b : Bool}
    {w : Valuation} : v.set x b = w ↔ w.get x = b ∧ w.set x false = v := by
  constructor
  · rintro rfl
    exact ⟨get_set_self v x b, by rw [set_set, set_of_get_eq off]⟩
  · rintro ⟨hb, rfl⟩
    rw [set_set, set_of_get_eq hb]

/-- One valuation is below another in the lexicographic order over listed letters: at the first of
them on which they differ it is false and the other is true. -/
def Below (letters : List Letter) (v w : Valuation) : Prop :=
  List.Lex (fun a b => a = false ∧ b = true) (letters.map v.get) (letters.map w.get)

end Valuation

namespace Enumeration

/-! ## The rows over a longer list -/

theorem toList_start (letters : List Letter) :
    (start letters).toList = (List.range (2 ^ letters.length)).map (row letters) := by
  rw [toList, left_start, Nat.one_shiftLeft, List.range_eq_range']
  rfl

/-- Adding a bit above those that the letters look at changes no row. -/
theorem row_two_pow_add (letters : List Letter) (k : Nat) :
    row letters (2 ^ letters.length + k) = row letters k := by
  rw [row, row, rowPairs_congr fun i hi => Nat.testBit_two_pow_add_gt hi k]

theorem row_cons_of_mem {x : Letter} {xs : List Letter} (h : x ∈ xs) (k : Nat) :
    row (x :: xs) k = row xs k := by
  rw [row, Valuation.ofPairs, rowPairs, Valuation.setAll_cons,
    Valuation.setAll_set_of_mem (by simpa using h)]
  rfl

theorem row_cons_of_not_mem {x : Letter} {xs : List Letter} (h : x ∉ xs) (k : Nat) :
    row (x :: xs) k = (row xs k).set x (!k.testBit xs.length) := by
  rw [row, Valuation.ofPairs, rowPairs, Valuation.setAll_cons,
    Valuation.setAll_set_of_not_mem (by simpa using h)]
  rfl

/-- The rows over a list with one letter more are the rows with the bit of that letter clear, and
then those with the bit set. -/
theorem toList_start_cons (x : Letter) (xs : List Letter) :
    (start (x :: xs)).toList = (List.range (2 ^ xs.length)).map (row (x :: xs)) ++
      (List.range (2 ^ xs.length)).map fun k => row (x :: xs) (2 ^ xs.length + k) := by
  rw [toList_start, List.length_cons, Nat.pow_succ, Nat.mul_two, List.range_add, List.map_append,
    List.map_map]
  rfl

/-- A letter that is listed again later doubles the sequence of rows. -/
theorem toList_start_cons_of_mem {x : Letter} {xs : List Letter} (h : x ∈ xs) :
    (start (x :: xs)).toList = (start xs).toList ++ (start xs).toList := by
  rw [toList_start_cons, toList_start]
  congr 1
  · exact List.map_congr_left fun k _ => row_cons_of_mem h k
  · refine List.map_congr_left fun k _ => ?_
    rw [row_cons_of_mem h, row_two_pow_add]

/-- A letter that is not listed later is true in the first half of the rows and false in the second.
-/
theorem toList_start_cons_of_not_mem {x : Letter} {xs : List Letter} (h : x ∉ xs) :
    (start (x :: xs)).toList = (start xs).toList.map (fun v => v.set x true) ++
      (start xs).toList.map fun v => v.set x false := by
  rw [toList_start_cons, toList_start, List.map_map, List.map_map]
  congr 1
  · refine List.map_congr_left fun k hk => ?_
    rw [row_cons_of_not_mem h, Nat.testBit_lt_two_pow (List.mem_range.mp hk)]
    rfl
  · refine List.map_congr_left fun k hk => ?_
    rw [row_cons_of_not_mem h, row_two_pow_add, Nat.testBit_two_pow_add_eq,
      Nat.testBit_lt_two_pow (List.mem_range.mp hk)]
    rfl

theorem get_eq_false_of_mem_toList_start {letters : List Letter} {v : Valuation}
    (h : v ∈ (start letters).toList) {x : Letter} (hx : x ∉ letters) : v.get x = false := by
  obtain ⟨k, -, rfl⟩ := mem_toList_start.mp h
  exact get_row_of_not_mem hx k

/-! ## How often a valuation occurs -/

/-- Giving a letter the same value in all valuations, where it was false, moves them to where it has
that value. -/
theorem count_map_set {vs : List Valuation} {x : Letter} (off : ∀ v ∈ vs, v.get x = false)
    (b : Bool) (w : Valuation) : (vs.map fun v => v.set x b).count w =
      if w.get x = b then vs.count (w.set x false) else 0 := by
  rw [List.count, List.countP_map]
  split
  · next hb =>
    refine List.countP_congr fun v hv => ?_
    rw [Function.comp_apply, beq_iff_eq, beq_iff_eq, Valuation.set_eq_iff (off v hv)]
    exact ⟨fun h => h.2.symm, fun h => ⟨hb, h.symm⟩⟩
  · next hb =>
    refine List.countP_eq_zero.mpr fun v hv => ?_
    rw [Function.comp_apply, beq_iff_eq, Valuation.set_eq_iff (off v hv)]
    exact fun h => hb h.1

/-- A valuation that makes listed letters true only is among the rows once for each choice of values
for the repeated places of the list. -/
theorem count_toList_start {letters : List Letter} {v : Valuation}
    (h : ∀ x, v.get x = true → x ∈ letters) :
    (start letters).toList.count v = 2 ^ (letters.length - letters.toFinset.card) := by
  induction letters generalizing v with
  | nil =>
    have : v = .allFalse := by
      ext x
      simpa using h x
    rw [this]
    rfl
  | cons x xs ih =>
    have card := xs.toFinset_card_le
    by_cases hx : x ∈ xs
    · have again : (x :: xs).toFinset = xs.toFinset := by simp [hx]
      have listed : ∀ y, v.get y = true → y ∈ xs := fun y hy => by
        rcases List.mem_cons.mp (h y hy) with rfl | hy
        · exact hx
        · exact hy
      rw [toList_start_cons_of_mem hx, List.count_append, ih listed, again, List.length_cons,
        Nat.sub_add_comm card, Nat.pow_succ, Nat.mul_two]
    · have new : (x :: xs).toFinset.card = xs.toFinset.card + 1 := by
        rw [List.toFinset_cons, Finset.card_insert_of_notMem (by simpa using hx)]
      have off : ∀ w ∈ (start xs).toList, w.get x = false :=
        fun w hw => get_eq_false_of_mem_toList_start hw hx
      have listed : ∀ y, (v.set x false).get y = true → y ∈ xs := fun y hy => by
        rw [Valuation.get_set] at hy
        split at hy
        · cases hy
        · next hne => exact (List.mem_cons.mp (h y hy)).resolve_left hne
      rw [toList_start_cons_of_not_mem hx, List.count_append, count_map_set off,
        count_map_set off, ih listed, new, List.length_cons, Nat.add_sub_add_right]
      -- The value that the valuation gives to the letter decides in which half it is.
      cases v.get x <;> simp

/-! ## The order of the rows -/

/-- A valuation in which the first letter is false is below one in which it is true; if it has the
same value in both, the other letters decide. -/
theorem below_cons_set {x : Letter} {xs : List Letter} (h : x ∉ xs) {v w : Valuation} {a b : Bool} :
    Valuation.Below (x :: xs) (v.set x a) (w.set x b) ↔
      (a = false ∧ b = true) ∨ (a = b ∧ Valuation.Below xs v w) := by
  have rest (u : Valuation) (c : Bool) : xs.map (u.set x c).get = xs.map u.get := by
    refine List.map_congr_left fun y hy => Valuation.get_set_of_ne ?_ u c
    rintro rfl
    exact h hy
  rw [Valuation.Below, List.map_cons, List.map_cons, Valuation.get_set_self,
    Valuation.get_set_self, rest, rest, List.cons_lex_cons_iff, Valuation.Below]

/-- Over distinct letters every row is below all rows before it. -/
theorem pairwise_toList_start {letters : List Letter} (h : letters.Nodup) :
    (start letters).toList.Pairwise fun v w => Valuation.Below letters w v := by
  induction letters with
  | nil => exact List.pairwise_singleton _ _
  | cons x xs ih =>
    obtain ⟨hx, hxs⟩ := List.nodup_cons.mp h
    have half (b : Bool) : ((start xs).toList.map fun v => v.set x b).Pairwise fun v w =>
        Valuation.Below (x :: xs) w v :=
      List.pairwise_map.mpr ((ih hxs).imp fun hw => (below_cons_set hx).mpr (.inr ⟨rfl, hw⟩))
    rw [toList_start_cons_of_not_mem hx, List.pairwise_append]
    refine ⟨half true, half false, fun v hv w hw => ?_⟩
    obtain ⟨v, -, rfl⟩ := List.mem_map.mp hv
    obtain ⟨w, -, rfl⟩ := List.mem_map.mp hw
    exact (below_cons_set hx).mpr (.inl ⟨rfl, rfl⟩)

example : (start [⟨2⟩, ⟨0⟩]).toList.map Valuation.trueLetters = [[⟨0⟩, ⟨2⟩], [⟨2⟩], [⟨0⟩], []] := by
  decide +kernel

/-! ## The first row and the last -/

theorem row_zero (letters : List Letter) : row letters 0 = .ofList letters := by
  have pairs : rowPairs letters 0 = letters.map fun x => (x, true) := by
    induction letters with
    | nil => rfl
    | cons x xs ih => rw [rowPairs, ih, Nat.zero_testBit, List.map_cons, Bool.not_false]
  rw [row, pairs, Valuation.ofList]

theorem row_two_pow_sub_one (letters : List Letter) :
    row letters (2 ^ letters.length - 1) = .allFalse := by
  have pairs : rowPairs letters (2 ^ letters.length - 1) = letters.map fun x => (x, false) := by
    induction letters with
    | nil => rfl
    | cons x xs ih =>
      -- All bits that the other letters look at are set with one letter less as well.
      have tail : rowPairs xs (2 ^ (xs.length + 1) - 1) = rowPairs xs (2 ^ xs.length - 1) := by
        refine rowPairs_congr fun i hi => ?_
        rw [Nat.testBit_two_pow_sub_one, Nat.testBit_two_pow_sub_one, decide_eq_true hi,
          decide_eq_true (Nat.lt_succ_of_lt hi)]
      rw [rowPairs, List.length_cons, tail, ih, Nat.testBit_two_pow_sub_one,
        decide_eq_true (Nat.lt_succ_self _), List.map_cons, Bool.not_true]
  rw [row, pairs, Valuation.ofPairs]
  ext x
  rw [Valuation.get_setAll_map, Valuation.get_allFalse, ite_self]

/-- In the first row every listed letter is true. -/
theorem head?_toList_start (letters : List Letter) :
    (start letters).toList.head? = some (.ofList letters) := by
  rw [toList_start, List.head?_map, List.head?_range, if_neg (Nat.two_pow_pos _).ne']
  exact congrArg some (row_zero letters)

/-- In the last row every letter is false. -/
theorem getLast?_toList_start (letters : List Letter) :
    (start letters).toList.getLast? = some .allFalse := by
  rw [toList_start, List.getLast?_map, List.getLast?_range, if_neg (Nat.two_pow_pos _).ne']
  exact congrArg some (row_two_pow_sub_one letters)

/-- Taking the rows over at most 26 letters one after the other gives `2 ^ n` valuations for `n`
places in the list. They make letters outside the list false, and each valuation that does so occurs
as often as there are choices of values for the repeated places. They begin with all listed letters
true and end with all false, and over distinct letters they descend in the lexicographic order. -/
theorem rows_of_letters {letters : List Letter} (h : letters.length ≤ 26) :
    ∃ r, ofLetters letters = .ok r ∧
      r.drain.length = 2 ^ letters.length ∧
      (∀ v ∈ r.drain, ∀ x, x ∉ letters → v.get x = false) ∧
      (∀ v : Valuation, (∀ x, v.get x = true → x ∈ letters) →
        r.drain.count v = 2 ^ (letters.length - letters.toFinset.card)) ∧
      (letters.Nodup → (∀ v : Valuation, (∀ x, v.get x = true → x ∈ letters) →
          r.drain.count v = 1) ∧
        r.drain.Pairwise fun v w => Valuation.Below letters w v) ∧
      r.drain.head? = some (.ofList letters) ∧ r.drain.getLast? = some .allFalse := by
  refine ⟨start letters, if_pos h, ?_⟩
  rw [drain_eq_toList]
  refine ⟨?_, fun v hv x hx => get_eq_false_of_mem_toList_start hv hx,
    fun v hv => count_toList_start hv, fun nodup => ⟨fun v hv => ?_, pairwise_toList_start nodup⟩,
    head?_toList_start letters, getLast?_toList_start letters⟩
  · rw [length_toList, left_start, Nat.one_shiftLeft]
  · rw [count_toList_start hv, List.toFinset_card_of_nodup nodup, Nat.sub_self, Nat.pow_zero]

/-- With `B` listed twice the valuation that makes only `A` true occurs twice; over `C` and `A` the
rows descend. -/
theorem rows_of_repeated_and_distinct_letters :
    let bab : List Letter := [⟨1⟩, ⟨0⟩, ⟨1⟩]
    let ca : List Letter := [⟨2⟩, ⟨0⟩]
    let onlyA : Valuation := .ofList [⟨0⟩]
    (bab.length ≤ 26 ∧ ∃ r, ofLetters bab = .ok r ∧ r.drain.count onlyA = 2) ∧
      ca.length ≤ 26 ∧ ca.Nodup ∧ ∃ r, ofLetters ca = .ok r ∧ r.drain.count onlyA = 1 ∧
        r.drain.Pairwise fun v w => Valuation.Below ca w v := by
  intro bab ca onlyA
  have true_in_onlyA : ∀ x, onlyA.get x = true → x = ⟨0⟩ := by
    intro x hx
    unfold onlyA at hx
    rw [Valuation.ofList, Valuation.ofPairs, Valuation.get_setAll_map] at hx
    simpa using hx
  have nodup : ca.Nodup := by decide
  obtain ⟨r, hr, -, -, count_bab, -⟩ := @rows_of_letters bab (by decide)
  obtain ⟨t, ht, -, -, -, distinct, -⟩ := @rows_of_letters ca (by decide)
  obtain ⟨count_ca, descend⟩ := distinct nodup
  refine ⟨⟨by decide, r, hr, ?_⟩, by decide, nodup, t, ht, count_ca onlyA fun x hx => ?_, descend⟩
  · rw [count_bab onlyA fun x hx => by simp [bab, true_in_onlyA x hx]]
    decide
  · simp [ca, true_in_onlyA x hx]

end Enumeration

end Propositional
