import Propositional.Formula.Derivation

/-!
# Reading recognizes the grammar

`Formula.Derivation` compares the readers with the grammar span by span. This module carries the
comparison to whole texts: a text is read, as a formula `e`, exactly when the grammar derives `e`
from its normal form with at most `maxOpen` formulas open at once (`derives_of_parse`,
`parse_of_derives`).

The grammar leaves no choice. A text begins with at most one operand, because reading it is a
function and finds every operand that is derived (`DerivesOperand.unique`); so a text has one
formula, and one depth at which formulas are open in it (`Derives.unique`).
-/

namespace Propositional.Formula

/-! ## Texts begin with one operand at most -/

/-- Operands that begin the same text are the same, and so is what follows them. -/
theorem DerivesOperand.unique {j j' : Nat} {text text' rest rest' : List Char} {e e' : Formula}
    (h : DerivesOperand j text e) (h' : DerivesOperand j' text' e')
    (same : text ++ rest = text' ++ rest') : text = text' ∧ e = e' ∧ rest = rest' := by
  -- With enough room for both, each of them is what reading the common text returns.
  have reads := readsAllDerived_readInner (max j j')
  obtain ⟨after, ha⟩ := readOperand_of_derives reads (Nat.le_max_left j j') h 0 rest []
  obtain ⟨after', ha'⟩ := readOperand_of_derives reads (Nat.le_max_right j j') h' 0 rest' []
  rw [same, ha'] at ha
  obtain ⟨he, -, -, hr⟩ := Operand.mk.inj (Except.ok.inj ha)
  subst hr
  exact ⟨List.append_cancel_right same, he.symm, rfl⟩

/-- What follows the first operand of a formula: nothing, or a connective and the right part. The
operand has the formula `l` with `j` formulas open in it, the whole one has `e` with `k`. -/
inductive Continues (j : Nat) (l : Formula) : (k : Nat) → (tail : List Char) → Formula → Prop
  | stop : Continues j l (j + 1) [] l
  | binary {k c right r} (op : Connective) : c ∈ op.spellings → Derives k right r →
      Continues j l (max j k + 1) (c :: right) (.binary op l r)

/-- Every formula begins with an operand. -/
theorem Derives.firstOperand {k : Nat} {text : List Char} {e : Formula} (h : Derives k text e) :
    ∃ j left l tail, text = left ++ tail ∧ DerivesOperand j left l ∧ Continues j l k tail e := by
  cases h with
  | operand h => exact ⟨_, text, e, [], by simp, h, .stop⟩
  | binary op hl hc hr => exact ⟨_, _, _, _, rfl, hl, .binary op hc hr⟩

/-! ## The depth of a derivation -/

/-- Texts derived with `k` formulas open are derived with no other number. -/
def OneDepth (k : Nat) : Prop :=
  ∀ {text e k' e'}, Derives k text e → Derives k' text e' → k = k'

/-- A primary begins with a letter or an opening bracket. -/
theorem DerivesPrimary.head {k : Nat} {c : Char} {text rest tail : List Char} {e : Formula}
    (h : DerivesPrimary k text e) (same : c :: rest = text ++ tail) :
    (∃ x, Symbol.ofChar c = .letter x) ∨ Symbol.ofChar c = .opening := by
  cases h with
  | letter x =>
    obtain ⟨rfl, -⟩ := List.cons.inj same
    exact .inl ⟨x, Symbol.ofChar_name x⟩
  | group ho _ _ =>
    obtain ⟨rfl, -⟩ := List.cons.inj same
    exact .inr (Symbol.ofChar_eq_opening_iff_mem.mpr ho)

theorem DerivesPrimary.head_ne_negation {k : Nat} {c : Char} {text rest tail : List Char}
    {e : Formula} (h : DerivesPrimary k text e) (same : c :: rest = text ++ tail) :
    Symbol.ofChar c ≠ .negation := by
  rcases h.head same with ⟨x, hx⟩ | ho
  · simp [hx]
  · simp [ho]

/-- What is negated is not a primary. -/
theorem DerivesPrimary.ne_negated {k : Nat} {c : Char} {text inner : List Char} {e : Formula}
    (h : DerivesPrimary k text e) (hc : c ∈ ['~', '!']) : text ≠ c :: inner := by
  intro same
  have same : c :: inner = text ++ [] := by rw [same, List.append_nil]
  exact h.head_ne_negation same (Symbol.ofChar_eq_negation_iff_mem.mpr hc)

theorem DerivesPrimary.depth_unique {k k' : Nat} {text text' : List Char} {e e' : Formula}
    (ih : OneDepth k) (h : DerivesPrimary k text e) (h' : DerivesPrimary k' text' e')
    (same : text = text') : k = k' := by
  cases h with
  | letter x =>
    cases h' with
    | letter y => rfl
    | group _ _ _ => simp at same
  | group _ hin _ =>
    cases h' with
    | letter y => simp at same
    | group _ hin' _ =>
      obtain ⟨rfl, -⟩ := List.append_inj' (List.cons.inj same).2 rfl
      exact ih hin hin'

theorem DerivesOperand.depth_unique {k k' : Nat} {text text' : List Char} {e e' : Formula}
    (ih : OneDepth k) (h : DerivesOperand k text e) (h' : DerivesOperand k' text' e')
    (same : text = text') : k = k' := by
  cases h with
  | primary h =>
    cases h' with
    | primary h' => exact h.depth_unique ih h' same
    | neg hc _ => exact absurd same (h.ne_negated hc)
  | neg hc h =>
    cases h' with
    | primary h' => exact absurd same.symm (h'.ne_negated hc)
    | neg _ h' => exact h.depth_unique ih h' (List.cons.inj same).2

theorem oneDepth (k : Nat) : OneDepth k := by
  induction k using Nat.strongRecOn with
  | ind k ih =>
    intro text e k' e' h h'
    -- Both derivations begin with the same operand, so they go on after it in the same way.
    obtain ⟨j, left, l, tail, rfl, hl, ht⟩ := h.firstOperand
    obtain ⟨j', left', l', tail', same, hl', ht'⟩ := h'.firstOperand
    obtain ⟨rfl, rfl, rfl⟩ := hl.unique hl' same
    cases ht with
    | stop =>
      rw [hl.depth_unique (ih j (by omega)) hl' rfl]
      cases ht'
      rfl
    | @binary m _ _ _ op _ hr =>
      have hj : j = j' := hl.depth_unique (ih j (by omega)) hl' rfl
      cases ht' with
      | binary op' _ hr' => rw [hj, ih m (by omega) hr hr']

/-- A text has one formula, and one number of formulas open at its deepest place. -/
theorem Derives.unique {k k' : Nat} {text : List Char} {e e' : Formula} (h : Derives k text e)
    (h' : Derives k' text e') : k = k' ∧ e = e' := by
  have reads := readsAllDerived_readInner (max k k')
  obtain ⟨after, ha⟩ := readFormula_of_derives reads (by omega) h 0 []
  obtain ⟨after', ha'⟩ := readFormula_of_derives reads (by omega) h' 0 []
  rw [ha'] at ha
  exact ⟨oneDepth k h h', (Reading.mk.inj (Except.ok.inj ha)).1.symm⟩

/-! ## Normal form -/

theorem isNormal_name (x : Letter) : Text.IsNormal x.name := by
  obtain ⟨i⟩ := x
  revert i
  decide

theorem isNormal_of_all {cs : List Char} (h : cs.all fun c => Text.IsNormal c) {c : Char}
    (hc : c ∈ cs) : Text.IsNormal c :=
  of_decide_eq_true (List.all_eq_true.mp h c hc)

mutual

/-- Formulas are written without white space and in upper case. -/
theorem Derives.isNormal : {k : Nat} → {text : List Char} → {e : Formula} → Derives k text e →
    ∀ c ∈ text, Text.IsNormal c
  | _, _, _, .operand h => h.isNormal
  | _, _, _, .binary op hl hc hr => by
    have left := hl.isNormal
    have right := hr.isNormal
    have connective := isNormal_of_all (by cases op <;> decide) hc
    grind

theorem DerivesOperand.isNormal : {k : Nat} → {text : List Char} → {e : Formula} →
    DerivesOperand k text e → ∀ c ∈ text, Text.IsNormal c
  | _, _, _, .primary h => h.isNormal
  | _, _, _, .neg hc h => List.forall_mem_cons.mpr ⟨isNormal_of_all (by decide) hc, h.isNormal⟩

theorem DerivesPrimary.isNormal : {k : Nat} → {text : List Char} → {e : Formula} →
    DerivesPrimary k text e → ∀ c ∈ text, Text.IsNormal c
  | _, _, _, .letter x => by simpa using isNormal_name x
  | _, _, _, .group ho h hc => by
    have inside := h.isNormal
    have opening := isNormal_of_all (by decide) ho
    have closing := isNormal_of_all (by decide) hc
    grind

end

/-! ## Leaves of what is read -/

mutual

/-- The grammar derives formulas without true leaves only. -/
theorem Derives.clear_eq : {k : Nat} → {text : List Char} → {e : Formula} → Derives k text e →
    e.clear = e
  | _, _, _, .operand h => h.clear_eq
  | _, _, _, .binary _ hl _ hr => by rw [clear, hl.clear_eq, hr.clear_eq]

theorem DerivesOperand.clear_eq : {k : Nat} → {text : List Char} → {e : Formula} →
    DerivesOperand k text e → e.clear = e
  | _, _, _, .primary h => h.clear_eq
  | _, _, _, .neg _ h => by rw [clear, h.clear_eq]

theorem DerivesPrimary.clear_eq : {k : Nat} → {text : List Char} → {e : Formula} →
    DerivesPrimary k text e → e.clear = e
  | _, _, _, .letter _ => rfl
  | _, _, _, .group _ h _ => h.clear_eq

end

/-! ## Whole texts -/

/-- No formula is written by the empty text. -/
theorem Derives.ne_nil {k : Nat} {text : List Char} {e : Formula} (h : Derives k text e) :
    text ≠ [] := by
  rintro rfl
  obtain ⟨after, ha⟩ := readFormula_of_derives (readsAllDerived_readInner k) (Nat.le_succ k) h 0 []
  cases ha

/-- A text that is not blank is read as a formula that fills its normal form. -/
theorem parse_of_ne_nil {text : String} (h : Text.normalize text ≠ []) :
    parse text = readFormula (readInner (maxOpen - 1)) 0 (Text.normalize text) [] := by
  unfold parse
  split
  · next e => exact absurd e h
  · rfl

/-- What is read from a text is derived from its normal form. -/
theorem derives_of_parse {text : String} {r : Reading} (h : parse text = .ok r) :
    ∃ k ≤ maxOpen, Derives k (Text.normalize text) r.formula := by
  have hne : Text.normalize text ≠ [] := by
    intro e
    simp [parse, e] at h
  rw [parse_of_ne_nil hne] at h
  exact readFormula_derived (readsDerived_readInner _)
    (fun a ha => Text.toUpper_of_mem_normalize ha) h

/-- What is read from a text has no true leaf. -/
theorem clear_of_parse {text : String} {r : Reading} (h : parse text = .ok r) :
    r.formula.clear = r.formula := by
  obtain ⟨k, -, hd⟩ := derives_of_parse h
  exact hd.clear_eq

/-- What is derived from the normal form of a text is read from it, with the letters of the formula
as the letters met. -/
theorem parse_of_derives {text : String} {k : Nat} {e : Formula} (hk : k ≤ maxOpen)
    (h : Derives k (Text.normalize text) e) : parse text = .ok ⟨e, e.letters⟩ := by
  obtain ⟨after, ha⟩ := readFormula_of_derives (readsAllDerived_readInner (maxOpen - 1)) hk h 0 []
  have read : parse text = .ok ⟨e, after⟩ := by
    rw [parse_of_ne_nil h.ne_nil, ha]
  rw [read, ← parse_seen read]

/-- A text is read as a formula exactly when the grammar derives the formula from its normal form
with at most 512 formulas open at once, and the derivation is then the only one. -/
theorem parse_ok_iff_derives (text : String) (e : Formula) :
    ((∃ seen, parse text = .ok ⟨e, seen⟩) ↔ ∃ k ≤ 512, Derives k (Text.normalize text) e) ∧
      ∀ k k' e', Derives k (Text.normalize text) e → Derives k' (Text.normalize text) e' →
        k = k' ∧ e = e' := by
  refine ⟨⟨?_, ?_⟩, fun k k' e' h h' => h.unique h'⟩
  · rintro ⟨seen, h⟩
    exact derives_of_parse h
  · rintro ⟨k, hk, h⟩
    exact ⟨e.letters, parse_of_derives hk h⟩

end Propositional.Formula
