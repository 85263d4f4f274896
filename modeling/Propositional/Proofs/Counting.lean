import Propositional.Proofs.Models

/-!
# Counting models of compounds

The models of a sentence are counted over its own letters, so the counts for two sentences are
about different rows. What makes them comparable is that evaluating a sentence looks at its own
letters only (`Valuation.ReadsOnly`). When two tests look at lists without a common letter, then a
row over both lists is a row over the first and a row over the second, and the rows that pass both
tests are counted by a product (`Enumeration.count_append`). With a second test that everything
passes, this says that every letter that is not looked at doubles the count
(`Enumeration.count_mul_two_pow`).

The product is the law for conjunctions, and with the count of a negation it gives the law for
disjunctions (`Sentence.countModels_of_compounds`). Doubling carries the counts of two sentences
to the rows over the whole alphabet, where the rows that make a sentence true are among those that
make true what it entails (`Sentence.countModels_of_valid`).
-/

namespace Propositional

namespace Valuation

/-- The test gives valuations that agree on the listed letters the same answer. -/
def ReadsOnly (p : Valuation → Bool) (letters : List Letter) : Prop :=
  ∀ v w : Valuation, (∀ x ∈ letters, v.get x = w.get x) → p v = p w

namespace ReadsOnly

variable {p : Valuation → Bool} {x : Letter} {xs : List Letter}

/-- Setting a letter that the test does not look at changes nothing. -/
theorem set (h : ReadsOnly p xs) (hx : x ∉ xs) (v : Valuation) (b : Bool) :
    p (v.set x b) = p v := by
  refine h _ _ fun y hy => get_set_of_ne ?_ v b
  rintro rfl
  exact hx hy

/-- When a letter is set first, the test no longer looks at it. -/
theorem after_set (h : ReadsOnly p (x :: xs)) (b : Bool) :
    ReadsOnly (fun v => p (v.set x b)) xs := by
  intro v w agree
  refine h _ _ fun y hy => ?_
  rw [get_set, get_set]
  split
  · rfl
  · next hne => exact agree y ((List.mem_cons.mp hy).resolve_left hne)

end ReadsOnly

end Valuation

namespace Enumeration

/-! ## Counts over more letters -/

variable {p q : Valuation → Bool} {x : Letter} {xs ys : List Letter}

/-- The rows over a list with a new letter in front are counted with this letter true and with it
false. -/
theorem count_cons (h : x ∉ xs) (p : Valuation → Bool) :
    (start (x :: xs)).count p =
      (start xs).count (fun v => p (v.set x true)) +
        (start xs).count (fun v => p (v.set x false)) := by
  simp only [count_eq, toList_start_cons_of_not_mem h, List.countP_append, List.countP_map,
    Function.comp_def]

/-- Over two lists without a common letter, the rows that pass a test on the first list and a test
on the second are counted by the product of the counts over the two lists. -/
theorem count_append (nodup : xs.Nodup) (disjoint : xs.Disjoint ys)
    (hp : Valuation.ReadsOnly p xs) (hq : Valuation.ReadsOnly q ys) :
    (start (xs ++ ys)).count (fun v => p v && q v) = (start xs).count p * (start ys).count q := by
  induction xs generalizing p with
  | nil =>
    -- There is one row, and the test looks at nothing: all valuations pass or none does.
    have constant : p = fun _ => p .allFalse := funext fun v => hp v _ (by simp)
    have one : (start []).count p = if p .allFalse then 1 else 0 := by
      rw [count_eq, toList_start]
      exact List.countP_singleton
    rw [one, constant, List.nil_append]
    cases p .allFalse with
    | true => simp
    | false => simp [count_eq]
  | cons x xs ih =>
    obtain ⟨hx, hxs⟩ := List.nodup_cons.mp nodup
    obtain ⟨hy, disjoint⟩ := List.disjoint_cons_left.mp disjoint
    have new : x ∉ xs ++ ys := by simp [hx, hy]
    rw [List.cons_append, count_cons new, count_cons hx, Nat.add_mul]
    -- The second test does not look at the letter in front, which the first one has set.
    simp only [hq.set hy]
    rw [ih hxs disjoint (hp.after_set true), ih hxs disjoint (hp.after_set false)]

/-- Over distinct letters the count does not depend on their order. -/
theorem count_perm (h : xs.Perm ys) (nodup : xs.Nodup) (p : Valuation → Bool) :
    (start xs).count p = (start ys).count p := by
  have rows : (start xs).toList.Perm (start ys).toList := by
    rw [List.perm_ext_iff_of_nodup (nodup_toList_start nodup)
      (nodup_toList_start (h.nodup_iff.mp nodup))]
    intro v
    rw [mem_toList_start_iff, mem_toList_start_iff]
    exact h.subset_congr_right
  rw [count_eq, count_eq, rows.countP_eq]

theorem count_true (letters : List Letter) :
    (start letters).count (fun _ => true) = 2 ^ letters.length := by
  rw [count_eq, List.countP_true, length_toList, left_start, Nat.one_shiftLeft]

/-- A row over the letters that a test looks at stands for all rows over more letters that agree
with it on these, and there are as many of them for each. -/
theorem count_mul_two_pow (hx : xs.Nodup) (hy : ys.Nodup) (sub : xs ⊆ ys)
    (hp : Valuation.ReadsOnly p xs) :
    (start ys).count p * 2 ^ xs.length = (start xs).count p * 2 ^ ys.length := by
  let rest := ys.filter fun x => x ∉ xs
  have disjoint : xs.Disjoint rest := fun x hx hr => by
    simpa [hx] using (List.mem_filter.mp hr).2
  have both : (xs ++ rest).Nodup := hx.append (hy.filter _) disjoint
  have perm : (xs ++ rest).Perm ys := by
    refine (List.perm_ext_iff_of_nodup both hy).mpr fun x => ?_
    by_cases hx : x ∈ xs
    · simp [hx, sub hx]
    · simp [rest, hx]
  have fibres : (start ys).count p = (start xs).count p * 2 ^ rest.length := by
    have unread : Valuation.ReadsOnly (fun _ => true) rest := fun _ _ _ => rfl
    rw [← count_perm perm both, ← count_true, ← count_append hx disjoint hp unread]
    simp only [Bool.and_true]
  rw [fibres, ← perm.length_eq, List.length_append, Nat.pow_add, Nat.mul_assoc,
    Nat.mul_comm (2 ^ rest.length)]

end Enumeration

namespace Formula

/-- When two formulas have no letter in common, a compound of them lists the letters of the first
and then those of the second. -/
theorem letters_binary {l r : Formula} (op : Connective) (disjoint : l.letters.Disjoint r.letters) :
    (binary op l r).letters = l.letters ++ r.letters := by
  have new : r.occurrences.removeAll l.occurrences = r.occurrences := by
    refine List.filter_eq_self.mpr fun x hx => ?_
    have unused : x ∉ l.occurrences := fun h =>
      disjoint (mem_letters.mpr h) (mem_letters.mpr hx)
    simp [unused]
  rw [letters, occurrences_binary, List.eraseDups_append, new, letters, letters]

end Formula

namespace Sentence

variable {s t : Sentence} {l r : Formula}

theorem readsOnly_eval (s : Sentence) : Valuation.ReadsOnly s.eval s.letters :=
  fun _ _ agree => eval_congr agree

/-! ## Negation, conjunction and disjunction -/

/-- A row is a model of a formula or of its negation, and not of both. -/
theorem countModels_add_neg (e : Formula) :
    (ofFormula e).countModels + (ofFormula (.neg e)).countModels = 2 ^ e.letters.length := by
  have rows : (ofFormula (.neg e)).countModels =
      (ofFormula e).valuations.toList.countP fun v => ¬(ofFormula e).eval v = true := by
    rw [countModels, Enumeration.count_eq]
    exact List.countP_congr fun v _ => by simp [eval, ofFormula, Formula.eval]
  rw [rows, countModels, Enumeration.count_eq, ← List.length_eq_countP_add_countP,
    length_valuations]
  rfl

/-- The first row that is no model of a formula is the first model of its negation. -/
theorem counterexample_eq_head? (e : Formula) :
    (ofFormula e).counterexample = (ofFormula (.neg e)).models.head? := by
  rw [counterexample, Enumeration.find?_eq, models, List.head?_filter]
  rfl

theorem counterexample_eq_none_iff_models (e : Formula) :
    (ofFormula e).counterexample = none ↔ (ofFormula (.neg e)).models = [] := by
  rw [counterexample_eq_head?, List.head?_eq_none_iff]

theorem countModels_and (disjoint : l.letters.Disjoint r.letters) :
    (ofFormula (.binary .and l r)).countModels =
      (ofFormula l).countModels * (ofFormula r).countModels := by
  have rows : (ofFormula (.binary .and l r)).valuations = .start (l.letters ++ r.letters) :=
    congrArg Enumeration.start (Formula.letters_binary .and disjoint)
  rw [countModels, rows]
  exact Enumeration.count_append l.nodup_letters disjoint (readsOnly_eval (ofFormula l))
    (readsOnly_eval (ofFormula r))

/-- What refutes a disjunction is a model of both negations. -/
theorem countModels_neg_or (l r : Formula) :
    (ofFormula (.neg (.binary .or l r))).countModels =
      (ofFormula (.binary .and (.neg l) (.neg r))).countModels := by
  have same : (ofFormula (.neg (.binary .or l r))).eval =
      (ofFormula (.binary .and (.neg l) (.neg r))).eval := by
    funext v
    exact Bool.not_or (l.eval v) (r.eval v)
  rw [countModels, countModels, same]
  rfl

theorem countModels_or (disjoint : l.letters.Disjoint r.letters) :
    ((ofFormula (.binary .or l r)).countModels : ℤ) =
      2 ^ (l.letters.length + r.letters.length) -
        (2 ^ l.letters.length - (ofFormula l).countModels) *
          (2 ^ r.letters.length - (ofFormula r).countModels) := by
  have refuted := countModels_neg_or l r
  rw [countModels_and (l := .neg l) (r := .neg r) disjoint] at refuted
  have either := countModels_add_neg (.binary .or l r)
  rw [refuted, Formula.letters_binary .or disjoint, List.length_append] at either
  have left := countModels_add_neg l
  have right := countModels_add_neg r
  rw [← Nat.cast_inj (R := ℤ)] at either left right
  push_cast at either left right
  rw [← left, ← right, ← either, add_sub_cancel_left, add_sub_cancel_left, add_sub_cancel_right]

/-- Counting the models of a formula and of its negation counts all rows, and the counterexample
of the formula is the first model of the negation. For formulas without a common letter the models
of a conjunction are counted by the product, and those of a disjunction are all rows but the
product of the rows that make neither part true. -/
theorem countModels_of_compounds :
    (∀ e : Formula,
      (ofFormula e).countModels + (ofFormula (.neg e)).countModels = 2 ^ e.letters.length ∧
      (ofFormula e).counterexample = (ofFormula (.neg e)).models.head? ∧
      ((ofFormula e).counterexample = none ↔ (ofFormula (.neg e)).models = [])) ∧
    ∀ l r : Formula, l.letters.Disjoint r.letters →
      (ofFormula (.binary .and l r)).countModels =
        (ofFormula l).countModels * (ofFormula r).countModels ∧
      ((ofFormula (.binary .or l r)).countModels : ℤ) =
        2 ^ (l.letters.length + r.letters.length) -
          (2 ^ l.letters.length - (ofFormula l).countModels) *
            (2 ^ r.letters.length - (ofFormula r).countModels) :=
  ⟨fun e => ⟨countModels_add_neg e, counterexample_eq_head? e, counterexample_eq_none_iff_models e⟩,
    fun _ _ disjoint => ⟨countModels_and disjoint, countModels_or disjoint⟩⟩

/-- `b > a` and `~c` have three models and one, and no letter in common. -/
theorem countModels_of_implication_and_negation :
    let l : Formula := .binary .implies (.atom ⟨1⟩) (.atom ⟨0⟩)
    let r : Formula := .neg (.leaf ⟨2⟩ true)
    (ofFormula l).countModels + (ofFormula (.neg l)).countModels = 4 ∧
      (ofFormula (.neg l)).models.head? = some (.ofList [⟨1⟩]) ∧
      l.letters.Disjoint r.letters ∧ (ofFormula (.binary .and l r)).countModels = 3 * 1 ∧
      ((ofFormula (.binary .or l r)).countModels : ℤ) = 2 ^ 3 - (2 ^ 2 - 3) * (2 ^ 1 - 1) := by
  intro l r
  have left : (ofFormula l).countModels = 3 := by decide +kernel
  have right : (ofFormula r).countModels = 1 := by decide +kernel
  have refuted : (ofFormula l).counterexample = some (.ofList [⟨1⟩]) := by decide +kernel
  have letters : l.letters = [⟨1⟩, ⟨0⟩] ∧ r.letters = [⟨2⟩] := by decide +kernel
  have disjoint : l.letters.Disjoint r.letters := by simp [letters.1, letters.2]
  obtain ⟨negations, pairs⟩ := countModels_of_compounds
  obtain ⟨all, first, -⟩ := negations l
  obtain ⟨both, either⟩ := pairs l r disjoint
  rw [letters.1] at all
  rw [refuted] at first
  rw [left, right] at both either
  rw [letters.1, letters.2] at either
  exact ⟨all, first.symm, disjoint, both, either⟩

/-! ## Implication and equivalence -/

/-- Every valuation that makes the first sentence true makes the second one true. -/
def Entails (s t : Sentence) : Prop :=
  ∀ v, s.eval v = true → t.eval v = true

/-- The rows over all letters of the alphabet that make a sentence true are its models, each taken
once for every choice of values for the other letters. -/
theorem count_rows_of_alphabet (s : Sentence) :
    (Enumeration.start Letter.all).count s.eval * 2 ^ s.letters.length =
      s.countModels * 2 ^ 26 := by
  have distinct : Letter.all.Nodup := Letter.nodup_of_pairwise_lt Letter.pairwise_all
  rw [Enumeration.count_mul_two_pow s.nodup_letters distinct (fun x _ => Letter.mem_all x)
    s.readsOnly_eval, Letter.length_all]
  rfl

/-- A sentence has no larger share of the rows over its letters than one that it entails has of the
rows over the letters of that one. -/
theorem Entails.countModels_le (h : Entails s t) :
    s.countModels * 2 ^ t.letters.length ≤ t.countModels * 2 ^ s.letters.length := by
  have fewer : (Enumeration.start Letter.all).count s.eval ≤
      (Enumeration.start Letter.all).count t.eval := by
    rw [Enumeration.count_eq, Enumeration.count_eq]
    exact List.countP_mono_left fun v _ => h v
  refine Nat.le_of_mul_le_mul_right ?_ (Nat.two_pow_pos 26)
  calc s.countModels * 2 ^ t.letters.length * 2 ^ 26
      = s.countModels * 2 ^ 26 * 2 ^ t.letters.length := Nat.mul_right_comm ..
    _ = (Enumeration.start Letter.all).count s.eval * 2 ^ s.letters.length *
          2 ^ t.letters.length := by rw [count_rows_of_alphabet]
    _ ≤ (Enumeration.start Letter.all).count t.eval * 2 ^ s.letters.length *
          2 ^ t.letters.length :=
        Nat.mul_le_mul_right _ (Nat.mul_le_mul_right _ fewer)
    _ = (Enumeration.start Letter.all).count t.eval * 2 ^ t.letters.length *
          2 ^ s.letters.length := Nat.mul_right_comm ..
    _ = t.countModels * 2 ^ 26 * 2 ^ s.letters.length := by rw [count_rows_of_alphabet]
    _ = t.countModels * 2 ^ s.letters.length * 2 ^ 26 := Nat.mul_right_comm ..

theorem Entails.isTautology (h : Entails s t) (valid : s.isTautology = true) :
    t.isTautology = true :=
  isTautology_iff.mpr fun v => h v (isTautology_iff.mp valid v)

theorem Entails.isSatisfiable (h : Entails s t) (satisfied : s.isSatisfiable = true) :
    t.isSatisfiable = true := by
  obtain ⟨v, hv⟩ := isSatisfiable_iff.mp satisfied
  exact isSatisfiable_iff.mpr ⟨v, h v hv⟩

/-- An implication is valid exactly when its left part entails its right part. -/
theorem isTautology_implies_iff {a b : Formula} :
    (ofFormula (.binary .implies a b)).isTautology = true ↔
      Entails (ofFormula a) (ofFormula b) := by
  rw [isTautology_iff]
  refine forall_congr' fun v => ?_
  show (!a.eval v || b.eval v) = true ↔ (a.eval v = true → b.eval v = true)
  cases a.eval v <;> simp

/-- An equivalence is valid exactly when its parts entail each other. -/
theorem isTautology_iff_iff {a b : Formula} :
    (ofFormula (.binary .iff a b)).isTautology = true ↔
      Entails (ofFormula a) (ofFormula b) ∧ Entails (ofFormula b) (ofFormula a) := by
  rw [isTautology_iff, Entails, Entails, ← forall_and]
  refine forall_congr' fun v => ?_
  show (a.eval v == b.eval v) = true ↔
    (a.eval v = true → b.eval v = true) ∧ (b.eval v = true → a.eval v = true)
  rw [beq_iff_eq, Bool.eq_iff_iff]
  exact iff_def

/-- When an implication is valid, the models of its left part are no larger share of the rows over
the letters of this part than those of its right part are, and validity and satisfiability pass
from left to right. When an equivalence is valid, the shares are the same, and so are the
verdicts. -/
theorem countModels_of_valid (a b : Formula) :
    ((ofFormula (.binary .implies a b)).isTautology = true →
      (ofFormula a).countModels * 2 ^ b.letters.length ≤
        (ofFormula b).countModels * 2 ^ a.letters.length ∧
      ((ofFormula a).isTautology = true → (ofFormula b).isTautology = true) ∧
      ((ofFormula a).isSatisfiable = true → (ofFormula b).isSatisfiable = true)) ∧
    ((ofFormula (.binary .iff a b)).isTautology = true →
      (ofFormula a).countModels * 2 ^ b.letters.length =
        (ofFormula b).countModels * 2 ^ a.letters.length ∧
      (ofFormula a).isTautology = (ofFormula b).isTautology ∧
      (ofFormula a).isSatisfiable = (ofFormula b).isSatisfiable ∧
      (ofFormula a).isContradiction = (ofFormula b).isContradiction) := by
  constructor
  · intro valid
    have there := isTautology_implies_iff.mp valid
    exact ⟨there.countModels_le, there.isTautology, there.isSatisfiable⟩
  · intro valid
    obtain ⟨there, back⟩ := isTautology_iff_iff.mp valid
    have satisfiable : (ofFormula a).isSatisfiable = (ofFormula b).isSatisfiable :=
      Bool.eq_iff_iff.mpr ⟨there.isSatisfiable, back.isSatisfiable⟩
    refine ⟨Nat.le_antisymm there.countModels_le back.countModels_le,
      Bool.eq_iff_iff.mpr ⟨there.isTautology, back.isTautology⟩, satisfiable, ?_⟩
    rw [isContradiction, isContradiction, satisfiable]

/-- `a & b` implies `c | a | d`, which has two other letters instead of `B`; and `a` is equivalent
to `a & (d | ~d)`, in which the letter `D` makes no difference. -/
theorem countModels_of_valid_implication_and_equivalence :
    let a : Formula := .atom ⟨0⟩
    let l : Formula := .binary .and a (.atom ⟨1⟩)
    let r : Formula := .binary .or (.atom ⟨2⟩) (.binary .or a (.atom ⟨3⟩))
    let d : Formula := .binary .or (.atom ⟨3⟩) (.neg (.atom ⟨3⟩))
    ((ofFormula (.binary .implies l r)).isTautology = true ∧
      (ofFormula l).countModels * 2 ^ 3 ≤ (ofFormula r).countModels * 2 ^ 2) ∧
    (ofFormula (.binary .iff a (.binary .and a d))).isTautology = true ∧
      (ofFormula a).countModels * 2 ^ 2 = (ofFormula (.binary .and a d)).countModels * 2 ^ 1 ∧
      (ofFormula a).isSatisfiable = (ofFormula (.binary .and a d)).isSatisfiable := by
  intro a l r d
  have implied : (ofFormula (.binary .implies l r)).isTautology = true := by decide +kernel
  have equivalent : (ofFormula (.binary .iff a (.binary .and a d))).isTautology = true := by
    decide +kernel
  have lengths : l.letters.length = 2 ∧ r.letters.length = 3 ∧ a.letters.length = 1 ∧
      (Formula.binary .and a d).letters.length = 2 := by decide +kernel
  obtain ⟨hl, hr, ha, had⟩ := lengths
  obtain ⟨le, -⟩ := (countModels_of_valid l r).1 implied
  obtain ⟨eq, -, satisfiable, -⟩ := (countModels_of_valid a (.binary .and a d)).2 equivalent
  rw [hl, hr] at le
  rw [ha, had] at eq
  exact ⟨⟨implied, le⟩, equivalent, eq, satisfiable⟩

end Sentence

end Propositional
