import Propositional.Proofs.RowOrder

/-!
# Calls on an enumeration

Whatever calls are made on an enumeration, it behaves like a position in a fixed list, the list of
all rows: a call reads the row at the position, or the row some places on, and moves the position,
never beyond the end. `Enumeration.StandsAt` ties a place to its position by what is left of the
rows, each call keeps it (`StandsAt.call`), and so any run of calls gets the replies of the
position.

A place can also be kept in two words of 64 bits, with the number of rows taken counted up by one
at a time, so that skipping rows is taking them one by one and the number of rows left is a
difference of words (`Enumeration.Counter`). The words hold the numbers of the place
(`Counter.Tracks`): counting never wraps around, the difference is never below zero, and a jump of
any size is as many single steps. Main statement: `Enumeration.replies_of_letters`.
-/

namespace Propositional.Enumeration

/-! ## Runs of calls -/

section Runs

variable {σ τ : Type}

/-- The replies to calls that are made one after the other, each with the number of rows that are
left after it. -/
def replies (call : σ → Call → Reply × σ) (left : σ → Option Nat) :
    σ → List Call → List (Reply × Option Nat)
  | _, [] => []
  | s, a :: calls => ((call s a).1, left (call s a).2) :: replies call left (call s a).2 calls

/-- If related states have the same rows left and give the same reply to any call, and are related
again after it, then they give the same replies to any calls. -/
theorem replies_congr {call : σ → Call → Reply × σ} {left : σ → Option Nat}
    {call' : τ → Call → Reply × τ} {left' : τ → Option Nat} {R : σ → τ → Prop}
    (same_left : ∀ {s t}, R s t → left s = left' t)
    (same_call : ∀ {s t}, R s t → ∀ a, (call s a).1 = (call' t a).1 ∧ R (call s a).2 (call' t a).2)
    {s : σ} {t : τ} (h : R s t) (calls : List Call) :
    replies call left s calls = replies call' left' t calls := by
  induction calls generalizing s t with
  | nil => rfl
  | cons a calls ih =>
    obtain ⟨reply, after⟩ := same_call h a
    rw [replies, replies, reply, same_left after, ih after]

end Runs

/-! ## Positions in a list of rows -/

/-- The reply to a call at position `p` of a list of rows, and the position after it. -/
def callAt (rows : List Valuation) (p : Nat) : Call → Reply × Nat
  | .next => (.row rows[p]?, min (p + 1) rows.length)
  | .nth k => (.row rows[p + k]?, min (p + k + 1) rows.length)
  | .nextOfCopy => (.row rows[p]?, p)
  | .rest => (.rows (rows.drop p), rows.length)

/-- What is left of an enumeration are the rows of a list from position `p` on. -/
def StandsAt (rows : List Valuation) (r : Enumeration) (p : Nat) : Prop :=
  r.toList = rows.drop p

namespace StandsAt

variable {rows : List Valuation} {r : Enumeration} {p : Nat}

theorem start (r : Enumeration) : StandsAt r.toList r 0 :=
  rfl

theorem left (h : StandsAt rows r p) : r.left = rows.length - p := by
  rw [← length_toList, h, List.length_drop]

theorem nth (h : StandsAt rows r p) (k : Nat) :
    (r.nth k).1 = rows[p + k]? ∧ StandsAt rows (r.nth k).2 (min (p + k + 1) rows.length) := by
  obtain ⟨reply, rest⟩ := toList_nth r k
  rw [h, List.getElem?_drop] at reply
  rw [h, List.drop_drop, ← Nat.add_assoc] at rest
  refine ⟨reply, rest.trans ?_⟩
  rcases Nat.le_total (p + k + 1) rows.length with le | le
  · rw [Nat.min_eq_left le]
  · rw [Nat.min_eq_right le, List.drop_of_length_le le, List.drop_length]

theorem next (h : StandsAt rows r p) :
    r.next.1 = rows[p]? ∧ StandsAt rows r.next.2 (min (p + 1) rows.length) := by
  rw [← nth_zero]
  exact h.nth 0

theorem exhaust (rows : List Valuation) (r : Enumeration) :
    StandsAt rows r.exhaust rows.length := by
  rw [StandsAt, List.drop_length, ← List.length_eq_zero_iff, length_toList, left_eq_zero_iff]
  rfl

/-- A call gets the reply of the position and leads to the position after it. -/
theorem call (h : StandsAt rows r p) (a : Call) :
    (r.call a).1 = (callAt rows p a).1 ∧ StandsAt rows (r.call a).2 (callAt rows p a).2 := by
  cases a with
  | next => exact ⟨congrArg Reply.row h.next.1, h.next.2⟩
  | nth k => exact ⟨congrArg Reply.row (h.nth k).1, (h.nth k).2⟩
  | nextOfCopy => exact ⟨congrArg Reply.row h.next.1, h⟩
  | rest => exact ⟨congrArg Reply.rows h, exhaust rows r⟩

end StandsAt

/-! ## Counting in words -/

/-- A place among the rows over a list of letters, kept in words: the number of rows that have been
taken and the number of all rows. -/
structure Counter where
  letters : List Letter
  taken : UInt64
  total : UInt64

namespace Counter

/-- The place before the first row. -/
def start (letters : List Letter) : Counter :=
  ⟨letters, 0, 1 <<< letters.length.toUInt64⟩

/-- Take the next row and count it. -/
def next (c : Counter) : Option Valuation × Counter :=
  if c.total ≤ c.taken then (none, c)
  else (some (row c.letters c.taken.toNat), { c with taken := c.taken + 1 })

/-- Take `k` rows one by one, as long as there are any, and then the one after them. -/
def nth : Nat → Counter → Option Valuation × Counter
  | 0, c => c.next
  | k + 1, c => if c.next.1.isSome then nth k c.next.2 else (none, c.next.2)

/-- The number of rows left, if it is not below zero. -/
def left? (c : Counter) : Option Nat :=
  if c.taken ≤ c.total then some (c.total - c.taken).toNat else none

theorem next_of_lt {c : Counter} (h : c.taken < c.total) :
    c.next = (some (row c.letters c.taken.toNat), { c with taken := c.taken + 1 }) :=
  if_neg (UInt64.not_le.mpr h)

theorem next_of_le {c : Counter} (h : c.total ≤ c.taken) : c.next = (none, c) :=
  if_pos h

/-- While there are rows left, counting one more does not wrap around. -/
theorem toNat_taken_add_one {c : Counter} (h : c.taken < c.total) :
    (c.taken + 1).toNat = c.taken.toNat + 1 := by
  have lt := UInt64.lt_iff_toNat_lt.mp h
  have small := c.total.toNat_lt
  rw [UInt64.toNat_add, UInt64.toNat_one]
  omega

/-- Taking a row brings the count closer to the number of all rows. -/
theorem next_closer {c after : Counter} {v : Valuation} (h : c.next = (some v, after)) :
    after.total.toNat - after.taken.toNat < c.total.toNat - c.taken.toNat := by
  rcases UInt64.lt_or_le c.taken c.total with lt | le
  · have counted := toNat_taken_add_one lt
    rw [next_of_lt lt] at h
    cases h
    rw [UInt64.lt_iff_toNat_lt] at lt
    show c.total.toNat - (c.taken + 1).toNat < c.total.toNat - c.taken.toNat
    omega
  · rw [next_of_le le] at h
    cases h

/-- The rows that are taken one after the other until there is none, and the place after that. -/
def rest (c : Counter) : List Valuation × Counter :=
  match h : c.next with
  | (some v, after) =>
    have := next_closer h
    (v :: (rest after).1, (rest after).2)
  | (none, after) => ([], after)
termination_by c.total.toNat - c.taken.toNat

/-- The reply to a call, and the place after it. -/
def call (c : Counter) : Call → Reply × Counter
  | .next => (.row c.next.1, c.next.2)
  | .nth k => (.row (c.nth k).1, (c.nth k).2)
  | .nextOfCopy => (.row c.next.1, c)
  | .rest => (.rows c.rest.1, c.rest.2)

/-- The words hold the numbers of a place. -/
structure Tracks (c : Counter) (r : Enumeration) : Prop where
  letters_eq : c.letters = r.letters
  toNat_taken : c.taken.toNat = r.taken
  toNat_total : c.total.toNat = r.total

namespace Tracks

variable {c : Counter} {r : Enumeration}

theorem start {letters : List Letter} (h : letters.length < 64) :
    Tracks (.start letters) (.start letters) := by
  refine ⟨rfl, rfl, ?_⟩
  have shift : letters.length.toUInt64.toNat % 64 = letters.length := by
    rw [Nat.toUInt64_eq, UInt64.toNat_ofNat']
    omega
  show (1 <<< letters.length.toUInt64 : UInt64).toNat = 1 <<< letters.length
  rw [UInt64.toNat_shiftLeft, shift, UInt64.toNat_one, Nat.one_shiftLeft]
  exact Nat.mod_eq_of_lt (Nat.pow_lt_pow_right Nat.one_lt_two h)

theorem taken_lt_iff (h : Tracks c r) : c.taken < c.total ↔ r.taken < r.total := by
  rw [UInt64.lt_iff_toNat_lt, h.toNat_taken, h.toNat_total]

theorem taken_le (h : Tracks c r) : c.taken ≤ c.total := by
  rw [UInt64.le_iff_toNat_le, h.toNat_taken, h.toNat_total]
  exact r.taken_le

/-- The number of rows left is a difference of words that is not below zero. -/
theorem left? (h : Tracks c r) : c.left? = some r.left := by
  rw [Counter.left?, if_pos h.taken_le, UInt64.toNat_sub_of_le _ _ h.taken_le, h.toNat_taken,
    h.toNat_total, Enumeration.left]

theorem next (h : Tracks c r) : c.next.1 = r.next.1 ∧ Tracks c.next.2 r.next.2 := by
  rcases Nat.lt_or_ge r.taken r.total with lt | le
  · have more := h.taken_lt_iff.mpr lt
    obtain ⟨after, first, letters, taken⟩ := Enumeration.next_of_lt lt
    rw [Counter.next_of_lt more, first, h.letters_eq, h.toNat_taken]
    refine ⟨rfl, letters.symm, ?_, ?_⟩
    · rw [taken, ← h.toNat_taken]
      exact Counter.toNat_taken_add_one more
    · rw [Enumeration.total, letters]
      exact h.toNat_total
  · have done : c.total ≤ c.taken :=
      UInt64.not_lt.mp (mt h.taken_lt_iff.mp (Nat.not_lt.mpr le))
    rw [Counter.next_of_le done, Enumeration.next_of_le le]
    exact ⟨rfl, h⟩

/-- A jump leads where as many single steps lead. -/
theorem nth (h : Tracks c r) (k : Nat) :
    (c.nth k).1 = (r.nth k).1 ∧ Tracks (c.nth k).2 (r.nth k).2 := by
  induction k generalizing c r with
  | zero =>
    rw [Enumeration.nth_zero]
    exact h.next
  | succ k ih =>
    obtain ⟨reply, after⟩ := h.next
    rw [Counter.nth, Enumeration.nth_succ, reply]
    split
    · exact ih after
    · exact ⟨rfl, after⟩

/-- Taking rows one by one until there is none takes what is left. -/
theorem rest (h : Tracks c r) : c.rest.1 = r.toList ∧ Tracks c.rest.2 r.exhaust := by
  fun_induction Counter.rest c generalizing r with
  | case1 c v after first closer ih =>
    obtain ⟨reply, tracks⟩ := h.next
    rw [first] at reply tracks
    obtain ⟨rows, last⟩ := ih tracks
    refine ⟨?_, r.exhaust_next ▸ last⟩
    rw [r.toList_next, ← reply, rows]
    rfl
  | case2 c after first =>
    obtain ⟨reply, tracks⟩ := h.next
    rw [first] at reply tracks
    have last : r.total ≤ r.taken := Nat.not_lt.mp fun lt => by
      obtain ⟨_, more, -⟩ := Enumeration.next_of_lt lt
      rw [more] at reply
      cases reply
    rw [Enumeration.next_of_le last] at tracks
    rw [toList_of_next_eq_none (Enumeration.next_of_le last), exhaust_eq_self last]
    exact ⟨rfl, tracks⟩

/-- A call gets the same reply from the words and leads to words that hold the numbers of the place
that it leads to. -/
theorem call (h : Tracks c r) (a : Call) :
    (c.call a).1 = (r.call a).1 ∧ Tracks (c.call a).2 (r.call a).2 := by
  cases a with
  | next => exact ⟨congrArg Reply.row h.next.1, h.next.2⟩
  | nth k => exact ⟨congrArg Reply.row (h.nth k).1, (h.nth k).2⟩
  | nextOfCopy => exact ⟨congrArg Reply.row h.next.1, h⟩
  | rest => exact ⟨congrArg Reply.rows h.rest.1, h.rest.2⟩

end Tracks

end Counter

/-! ## The replies -/

/-- On an enumeration over at most 26 letters, all calls get the replies of a position in the list
of the `2 ^ n` rows that starts at 0, and the number of rows left is always `2 ^ n` less the
position. Counting the rows one by one in words of 64 bits gives the same replies and the same
numbers. -/
theorem replies_of_letters {letters : List Letter} (h : letters.length ≤ 26) :
    let rows := (List.range (2 ^ letters.length)).map (row letters)
    let left := fun p => some (2 ^ letters.length - p)
    ∃ r, ofLetters letters = .ok r ∧ r.drain = rows ∧ r.left = 2 ^ letters.length ∧
      (Counter.start letters).left? = some (2 ^ letters.length) ∧
      ∀ calls : List Call,
        replies call (fun r => some r.left) r calls = replies (callAt rows) left 0 calls ∧
        replies Counter.call Counter.left? (.start letters) calls =
          replies (callAt rows) left 0 calls := by
  intro rows left
  have all : (start letters).toList = rows := toList_start letters
  have length : rows.length = 2 ^ letters.length := by simp [rows]
  have tracks : Counter.Tracks (.start letters) (start letters) := .start (by omega)
  have position (calls : List Call) : replies call (fun r => some r.left) (start letters) calls =
      replies (callAt rows) left 0 calls :=
    replies_congr (R := StandsAt rows) (fun at_p => by rw [at_p.left, length])
      (fun at_p => at_p.call) (all ▸ .start _) calls
  refine ⟨start letters, if_pos h, (drain_eq_toList _).trans all, ?_, ?_, fun calls =>
    ⟨position calls, ?_⟩⟩
  · rw [left_start, Nat.one_shiftLeft]
  · rw [tracks.left?, left_start, Nat.one_shiftLeft]
  · rw [← position]
    exact replies_congr (R := Counter.Tracks) (fun h => h.left?) (fun h => h.call) tracks calls

/-- Over `B`, `A` and `B` again, the rows repeat after four. A jump that would lead beyond what a
word can hold finds no row, and leaves none. -/
theorem replies_over_repeated_letter :
    let bab : List Letter := [⟨1⟩, ⟨0⟩, ⟨1⟩]
    let calls : List Call := [.next, .nextOfCopy, .nth 2, .rest, .nth (2 ^ 64 - 1), .next]
    let answers : List (Reply × Option Nat) :=
      [(.row (some (.ofList [⟨0⟩, ⟨1⟩])), some 7), (.row (some (.ofList [⟨0⟩])), some 7),
        (.row (some .allFalse), some 4),
        (.rows [.ofList [⟨0⟩, ⟨1⟩], .ofList [⟨0⟩], .ofList [⟨1⟩], .allFalse], some 0),
        (.row none, some 0), (.row none, some 0)]
    bab.length ≤ 26 ∧ ∃ r, ofLetters bab = .ok r ∧
      replies call (fun r => some r.left) r calls = answers ∧
      replies Counter.call Counter.left? (.start bab) calls = answers := by
  intro bab calls answers
  have few : bab.length ≤ 26 := by decide
  have shown : replies (callAt ((List.range (2 ^ bab.length)).map (row bab)))
      (fun p => some (2 ^ bab.length - p)) 0 calls = answers := by decide +kernel
  obtain ⟨r, hr, -, -, -, same⟩ := replies_of_letters few
  obtain ⟨places, words⟩ := same calls
  exact ⟨few, r, hr, places.trans shown, words.trans shown⟩

end Propositional.Enumeration
