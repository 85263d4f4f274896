import Mathlib.Tactic.TFAE
import Propositional.Valuation

/-!
# Valuations as sets of letters

A valuation begins with every letter false and is then edited: letters are given values, in place or
in a copy, and it is collected anew from pairs. Whatever was done to it, it gives a letter the last
value since it was last collected (`Valuation.after_eq_ofPairs`), and its text shows just the true
letters (`Valuation.filterMap_render`). So valuations can be compared by their values, by their true
letters or by their texts.

They can also be compared as words of 32 bits, in which a letter is set and cleared by masks
(`Word`). This needs more than equal values for all letters, since there are six bits that belong to
no letter. They are clear in the beginning and no edit touches them: the word always has the bits of
the valuation and no others (`Word.Tracks`), and so all that is read from it is what is read from
the valuation. Main statement: `Valuation.get_trueLetters_render_after`.
-/

namespace Propositional

/-- Every piece but the first comes after a separator. -/
theorem Text.intercalate_cons (separator first : String) (others : List String) :
    separator.intercalate (first :: others) =
      first ++ String.join (others.map fun text => separator ++ text) := by
  induction others generalizing first with
  | nil => simp
  | cons second others ih =>
    rw [String.intercalate_cons_cons, ih, List.map_cons, String.join_cons, String.append_assoc,
      String.append_assoc]

namespace Valuation

/-! ## Edits -/

/-- What can be done to a valuation. -/
inductive Edit where
  /-- A letter is given a value. -/
  | set (x : Letter) (b : Bool)
  /-- A copy takes the place of the valuation, in which a letter has a value. -/
  | replace (x : Letter) (b : Bool)
  /-- The valuation that pairs describe takes its place. -/
  | collect (pairs : List (Letter × Bool))

/-- The valuation after an edit. -/
def edit (v : Valuation) : Edit → Valuation
  | .set x b | .replace x b => v.set x b
  | .collect pairs => ofPairs pairs

/-- The valuation after edits, with every letter false at first. -/
def after (edits : List Edit) : Valuation :=
  edits.foldl edit allFalse

/-- The pairs that count after an edit, from those that counted before it. -/
def Edit.givenAfter (given : List (Letter × Bool)) : Edit → List (Letter × Bool)
  | .set x b | .replace x b => given ++ [(x, b)]
  | .collect pairs => pairs

/-- The values given to letters since the valuation was last collected, in their order. -/
def given (edits : List Edit) : List (Letter × Bool) :=
  edits.foldl Edit.givenAfter []

theorem setAll_append (v : Valuation) (ps qs : List (Letter × Bool)) :
    v.setAll (ps ++ qs) = (v.setAll ps).setAll qs :=
  List.foldl_append

/-- An edit of the valuation that pairs describe leads to the one that the pairs after it describe.
-/
theorem edit_ofPairs (pairs : List (Letter × Bool)) (a : Edit) :
    (ofPairs pairs).edit a = ofPairs (a.givenAfter pairs) := by
  cases a with
  | set x b => exact (setAll_append allFalse pairs [(x, b)]).symm
  | replace x b => exact (setAll_append allFalse pairs [(x, b)]).symm
  | collect ps => rfl

theorem foldl_edit_ofPairs (pairs : List (Letter × Bool)) (edits : List Edit) :
    edits.foldl edit (ofPairs pairs) = ofPairs (edits.foldl Edit.givenAfter pairs) := by
  induction edits generalizing pairs with
  | nil => rfl
  | cons a edits ih => rw [List.foldl_cons, edit_ofPairs, ih, List.foldl_cons]

/-- After edits, a valuation is the one that the values given since it was last collected describe.
-/
theorem after_eq_ofPairs (edits : List Edit) : after edits = ofPairs (given edits) :=
  foldl_edit_ofPairs [] edits

theorem get_ofPairs (pairs : List (Letter × Bool)) (x : Letter) :
    (ofPairs pairs).get x = (lastValue? pairs x).getD false := by
  rw [ofPairs, get_setAll, get_allFalse]

/-! ## Texts -/

/-- The letters are read back from a text that separates their names by commas. -/
theorem filterMap_intercalate_names (xs : List Letter) :
    (", ".intercalate (xs.map fun x => x.name.toString)).toList.filterMap Letter.ofChar? = xs := by
  have separator : ", ".toList.filterMap Letter.ofChar? = [] := rfl
  have named (x : Letter) : x.name.toString.toList.filterMap Letter.ofChar? = [x] := by
    have chars : x.name.toString.toList = [x.name] := String.toList_singleton x.name
    rw [chars, List.filterMap_cons_some (Letter.ofChar?_name x), List.filterMap_nil]
  induction xs with
  | nil => rfl
  | cons x xs ih =>
    cases xs with
    | nil => rw [List.map_singleton, String.intercalate_singleton, named]
    | cons y ys =>
      rw [List.map_cons] at ih ⊢
      rw [List.map_cons, String.intercalate_cons_cons, String.toList_append, String.toList_append,
        List.filterMap_append, List.filterMap_append, ih, named, separator]
      rfl

/-- The letters in the text of a valuation are the true ones. -/
theorem filterMap_render (v : Valuation) :
    v.render.toList.filterMap Letter.ofChar? = v.trueLetters := by
  have opened : "\x7b".toList.filterMap Letter.ofChar? = [] := rfl
  have closed : "\x7d".toList.filterMap Letter.ofChar? = [] := rfl
  rw [render, String.toList_append, String.toList_append, List.filterMap_append,
    List.filterMap_append, filterMap_intercalate_names, opened, closed]
  simp

theorem trueLetters_of_render_eq {v w : Valuation} (h : v.render = w.render) :
    v.trueLetters = w.trueLetters := by
  rw [← filterMap_render, h, filterMap_render]

theorem eq_of_trueLetters_eq {v w : Valuation} (h : v.trueLetters = w.trueLetters) : v = w := by
  ext x
  rw [Bool.eq_iff_iff, ← mem_trueLetters, h, mem_trueLetters]

/-- A bit that belongs to a letter is its value; there are no others. -/
theorem getLsbD_bits (v : Valuation) (i : Nat) :
    v.bits.getLsbD i = if h : i < 26 then v.get ⟨⟨i, h⟩⟩ else false := by
  split
  · next h => exact BitVec.getLsbD_eq_getElem h
  · next h => exact BitVec.getLsbD_of_ge _ _ (Nat.le_of_not_lt h)

theorem getLsbD_bits_set (v : Valuation) (x : Letter) (b : Bool) (i : Nat) :
    (v.set x b).bits.getLsbD i = if i = x.index then b else v.bits.getLsbD i := by
  have bound := x.index.isLt
  rw [getLsbD_bits, getLsbD_bits]
  by_cases h : i < 26
  · simp only [dif_pos h, get_set, Letter.ext_iff, Fin.ext_iff]
  · rw [dif_neg h, dif_neg h, if_neg (by omega)]

end Valuation

/-! ## Words -/

/-- Truth values for all letters in a word of 32 bits. -/
structure Word where
  bits : UInt32
deriving DecidableEq

namespace Word

/-- The word with no bit set. -/
def allFalse : Word := ⟨0⟩

/-- The mask for the bit of a letter. -/
def mask (x : Letter) : UInt32 := 1 <<< x.index.val.toUInt32

/-- The value of a letter. -/
def get (w : Word) (x : Letter) : Bool := w.bits &&& mask x != 0

/-- Set or clear the bit of a letter. -/
def set (w : Word) (x : Letter) (b : Bool) : Word :=
  if b then ⟨w.bits ||| mask x⟩ else ⟨w.bits &&& ~~~mask x⟩

/-- Start with no bit set and give letters values in the order of a list. -/
def ofPairs (pairs : List (Letter × Bool)) : Word :=
  pairs.foldl (fun w p => w.set p.1 p.2) allFalse

/-- The true letters, by going through the places of the alphabet. -/
def trueLetters (w : Word) : List Letter :=
  ((List.range 26).filterMap Letter.ofIndex?).filter w.get

/-- Write a letter of the list of true ones, after a separator if it is not the first. -/
def writeLetter (text : String) : Letter × Nat → String
  | (x, i) => (if 0 < i then text ++ ", " else text) ++ x.name.toString

/-- The text of a word: its true letters in curly brackets. -/
def render (w : Word) : String :=
  w.trueLetters.zipIdx.foldl writeLetter "\x7b" ++ "\x7d"

/-- The word after an edit. -/
def edit (w : Word) : Valuation.Edit → Word
  | .set x b | .replace x b => w.set x b
  | .collect pairs => ofPairs pairs

/-- The word after edits, with no bit set at first. -/
def after (edits : List Valuation.Edit) : Word :=
  edits.foldl edit allFalse

/-- The mask is small enough for a word. -/
theorem toNat_mask (x : Letter) : (mask x).toNat = 1 <<< x.index.val := by
  have bound := x.index.isLt
  have shift : x.index.val.toUInt32.toNat % 32 = x.index := by
    rw [Nat.toUInt32_eq, UInt32.toNat_ofNat']
    omega
  have fits : 1 <<< x.index.val < 2 ^ 32 := by
    rw [Nat.one_shiftLeft]
    exact Nat.pow_lt_pow_right Nat.one_lt_two (by omega)
  rw [mask, UInt32.toNat_shiftLeft, shift, UInt32.toNat_one, Nat.mod_eq_of_lt fits]

/-- The mask has the bit of the letter and no other. -/
theorem getLsbD_mask (x : Letter) (i : Nat) :
    (mask x).toBitVec.getLsbD i = decide (i = x.index) := by
  show (mask x).toNat.testBit i = _
  rw [toNat_mask, Nat.one_shiftLeft, Nat.testBit_two_pow, decide_eq_decide]
  exact eq_comm

/-- Setting a letter changes its bit and no other, one that belongs to no letter included. -/
theorem getLsbD_bits_set (w : Word) (x : Letter) (b : Bool) (i : Nat) :
    (w.set x b).bits.toBitVec.getLsbD i =
      if i = x.index then b else w.bits.toBitVec.getLsbD i := by
  unfold set
  cases b with
  | true =>
    rw [if_pos rfl, UInt32.toBitVec_or, BitVec.getLsbD_or, getLsbD_mask]
    split <;> simp [*]
  | false =>
    rw [if_neg Bool.false_ne_true, UInt32.toBitVec_and, UInt32.toBitVec_not, BitVec.getLsbD_and,
      BitVec.getLsbD_not, getLsbD_mask]
    split
    · simp [*]
    · next other =>
      -- Beyond the end of the word there is nothing to clear.
      by_cases h : i < 32
      · simp [other, h]
      · simp [BitVec.getLsbD_of_ge w.bits.toBitVec i (by omega)]

/-- Masking tells whether the bit of the letter is set. -/
theorem get_eq_getLsbD (w : Word) (x : Letter) :
    w.get x = w.bits.toBitVec.getLsbD x.index := by
  have masked (i : Nat) : (w.bits &&& mask x).toBitVec.getLsbD i =
      (w.bits.toBitVec.getLsbD i && decide (i = x.index)) := by
    rw [UInt32.toBitVec_and, BitVec.getLsbD_and, getLsbD_mask]
  cases bit : w.bits.toBitVec.getLsbD x.index with
  | true =>
    refine bne_iff_ne.mpr fun none => ?_
    have shown := masked x.index
    rw [none, bit] at shown
    simp at shown
  | false =>
    have none : w.bits &&& mask x = 0 := by
      refine UInt32.toBitVec_inj.mp (BitVec.eq_of_getLsbD_eq fun i _ => ?_)
      rw [masked]
      by_cases h : i = x.index
      · simp [h, bit]
      · simp [h]
    rw [get, none]
    rfl

/-- Letters that are not the first ones are written with a separator before each. -/
theorem foldl_writeLetter_succ (text : String) (xs : List Letter) (i : Nat) :
    (xs.zipIdx (i + 1)).foldl writeLetter text =
      text ++ String.join (xs.map fun x => ", " ++ x.name.toString) := by
  induction xs generalizing text i with
  | nil => simp
  | cons x xs ih =>
    rw [List.zipIdx_cons, List.foldl_cons, ih, writeLetter, if_pos (Nat.succ_pos i), List.map_cons,
      String.join_cons, String.append_assoc, String.append_assoc, String.append_assoc]

/-- Letters that are written one after the other have separators between them. -/
theorem foldl_writeLetter (text : String) (xs : List Letter) :
    xs.zipIdx.foldl writeLetter text =
      text ++ ", ".intercalate (xs.map fun x => x.name.toString) := by
  cases xs with
  | nil => simp
  | cons x xs =>
    rw [List.zipIdx_cons, List.foldl_cons, foldl_writeLetter_succ, List.map_cons,
      Text.intercalate_cons, List.map_map, writeLetter, if_neg (Nat.lt_irrefl 0),
      String.append_assoc]
    rfl

/-! ## Words and valuations -/

/-- The word has the bits of the valuation and no others. -/
def Tracks (w : Word) (v : Valuation) : Prop :=
  ∀ i, w.bits.toBitVec.getLsbD i = v.bits.getLsbD i

namespace Tracks

variable {w : Word} {v : Valuation}

theorem allFalse : Tracks allFalse .allFalse := by
  intro i
  rw [Valuation.allFalse, BitVec.getLsbD_zero]
  exact BitVec.getLsbD_zero

theorem set (h : Tracks w v) (x : Letter) (b : Bool) : Tracks (w.set x b) (v.set x b) := by
  intro i
  rw [getLsbD_bits_set, Valuation.getLsbD_bits_set, h i]

theorem setAll (h : Tracks w v) (pairs : List (Letter × Bool)) :
    Tracks (pairs.foldl (fun w p => w.set p.1 p.2) w) (v.setAll pairs) := by
  induction pairs generalizing w v with
  | nil => exact h
  | cons p ps ih => exact ih (h.set p.1 p.2)

/-- An edit keeps the bits of the word and of the valuation the same. -/
theorem edit (h : Tracks w v) (a : Valuation.Edit) : Tracks (w.edit a) (v.edit a) := by
  cases a with
  | set x b => exact h.set x b
  | replace x b => exact h.set x b
  | collect pairs => exact allFalse.setAll pairs

theorem foldl_edit (h : Tracks w v) (edits : List Valuation.Edit) :
    Tracks (edits.foldl Word.edit w) (edits.foldl Valuation.edit v) := by
  induction edits generalizing w v with
  | nil => exact h
  | cons a edits ih => exact ih (h.edit a)

theorem get_eq (h : Tracks w v) : w.get = v.get := by
  funext x
  rw [get_eq_getLsbD, h x.index]
  exact BitVec.getLsbD_eq_getElem x.index.isLt

theorem trueLetters_eq (h : Tracks w v) : w.trueLetters = v.trueLetters := by
  have places : (List.range 26).filterMap Letter.ofIndex? = Letter.all := by decide
  rw [Word.trueLetters, places, h.get_eq, Valuation.trueLetters]

theorem render_eq (h : Tracks w v) : w.render = v.render := by
  rw [Word.render, h.trueLetters_eq, foldl_writeLetter, Valuation.render]

/-- Words are equal when the valuations are that have the same bits. -/
theorem eq_iff {w' : Word} {v' : Valuation} (h : Tracks w v) (h' : Tracks w' v') :
    w = w' ↔ v = v' := by
  constructor
  · rintro rfl
    ext x
    rw [← h.get_eq, h'.get_eq]
  · rintro rfl
    obtain ⟨bits⟩ := w
    obtain ⟨bits'⟩ := w'
    have same : bits = bits' := UInt32.toBitVec_inj.mp
      (BitVec.eq_of_getLsbD_eq fun i _ => (h i).trans (h' i).symm)
    rw [same]

end Tracks

theorem tracks_after (edits : List Valuation.Edit) : Tracks (after edits) (.after edits) :=
  Tracks.allFalse.foldl_edit edits

end Word

/-- After any edits, a valuation gives each letter the last value since it was last collected, and
false without one; giving a letter a value changes no other; and the true letters are listed in
alphabetical order. Valuations that any edits lead to are equal exactly when they agree on every
letter, when the same letters are true, and when they have the same text, and exactly when the words
are equal that the edits lead to. What is read from the word is what is read from the valuation. -/
theorem Valuation.get_trueLetters_render_after (edits edits' : List Edit) :
    (∀ x, (after edits).get x = (lastValue? (given edits) x).getD false) ∧
      (∀ x b y, ((after edits).set x b).get y = if y = x then b else (after edits).get y) ∧
      (∀ x, x ∈ (after edits).trueLetters ↔ (after edits).get x = true) ∧
      (after edits).trueLetters.Pairwise (· < ·) ∧
      [after edits = after edits', Word.after edits = Word.after edits',
        ∀ x, (after edits).get x = (after edits').get x,
        (after edits).trueLetters = (after edits').trueLetters,
        (after edits).render = (after edits').render].TFAE ∧
      (Word.after edits).get = (after edits).get ∧
      (Word.after edits).trueLetters = (after edits).trueLetters ∧
      (Word.after edits).render = (after edits).render := by
  have tracks := Word.tracks_after edits
  refine ⟨fun x => ?_, fun x b y => get_set _ x y b, fun x => mem_trueLetters,
    pairwise_trueLetters _, ?_, tracks.get_eq, tracks.trueLetters_eq, tracks.render_eq⟩
  · rw [after_eq_ofPairs, get_ofPairs]
  · tfae_have 1 ↔ 2 := (tracks.eq_iff (Word.tracks_after edits')).symm
    tfae_have 1 → 3 := fun same x => by rw [same]
    tfae_have 3 → 4 := fun same => by rw [ext_get same]
    tfae_have 4 → 5 := fun same => by rw [eq_of_trueLetters_eq same]
    tfae_have 5 → 1 := fun same => eq_of_trueLetters_eq (trueLetters_of_render_eq same)
    tfae_finish

end Propositional
