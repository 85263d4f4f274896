import Propositional.Formula.Grammar
import Propositional.Formula.Group

/-!
# Matching brackets

Brackets are matched by counting: `level` is the number of brackets open after a text, and fails on
a text that closes more than are open. A text between two brackets that belong together takes level
0 to level 0 (`Balanced`).

The search for the end of a group finds the bracket that belongs to the first one
(`closeGroup_balanced`), and the grammar derives balanced texts only (`Derives.balanced`).
-/

namespace Propositional.Formula

/-- The number of open brackets after a symbol. The shape of a bracket plays no part. -/
def levelStep (n : Nat) (c : Char) : Option Nat :=
  match Symbol.ofChar c, n with
  | .opening, n => some (n + 1)
  | .closing, 0 => none
  | .closing, n + 1 => some n
  | _, n => some n

/-- The number of open brackets after a text, when `n` are open before it. -/
def level (n : Nat) (text : List Char) : Option Nat :=
  text.foldlM levelStep n

/-- All brackets of the text match each other. -/
def Balanced (text : List Char) : Prop :=
  level 0 text = some 0

/-- The symbol at position `p` closes a bracket opened before it: the brackets between the two match
each other. -/
def Closes (text : List Char) (p : Nat) : Prop :=
  ∃ before o inside c rest, text = before ++ o :: (inside ++ c :: rest) ∧
    p = (before ++ o :: inside).length ∧ Symbol.ofChar o = .opening ∧
      Symbol.ofChar c = .closing ∧ Balanced inside

/-! ## Counting -/

theorem levelStep_opening {c : Char} (h : Symbol.ofChar c = .opening) (n : Nat) :
    levelStep n c = some (n + 1) := by
  simp only [levelStep, h]

theorem levelStep_closing_zero {c : Char} (h : Symbol.ofChar c = .closing) :
    levelStep 0 c = none := by
  simp only [levelStep, h]

theorem levelStep_closing_succ {c : Char} (h : Symbol.ofChar c = .closing) (n : Nat) :
    levelStep (n + 1) c = some n := by
  simp only [levelStep, h]

theorem levelStep_other {c : Char} (ho : Symbol.ofChar c ≠ .opening)
    (hc : Symbol.ofChar c ≠ .closing) (n : Nat) : levelStep n c = some n := by
  unfold levelStep
  split
  · next h => exact absurd h ho
  · next h => exact absurd h hc
  · next h => exact absurd h hc
  · rfl

/-- Brackets that are open all the time do not change what a symbol does. -/
theorem levelStep_add {n m : Nat} {c : Char} (h : levelStep n c = some m) (d : Nat) :
    levelStep (n + d) c = some (m + d) := by
  by_cases ho : Symbol.ofChar c = .opening
  · rw [levelStep_opening ho] at h ⊢
    cases h
    rw [Nat.add_right_comm]
  · by_cases hc : Symbol.ofChar c = .closing
    · cases n with
      | zero =>
        rw [levelStep_closing_zero hc] at h
        cases h
      | succ n =>
        rw [levelStep_closing_succ hc] at h
        cases h
        rw [Nat.add_right_comm, levelStep_closing_succ hc]
    · rw [levelStep_other ho hc] at h ⊢
      cases h
      rfl

@[simp] theorem level_nil (n : Nat) : level n [] = some n := rfl

@[simp] theorem level_cons (n : Nat) (c : Char) (cs : List Char) :
    level n (c :: cs) = (levelStep n c).bind fun m => level m cs :=
  List.foldlM_cons

@[simp] theorem level_append (n : Nat) (a b : List Char) :
    level n (a ++ b) = (level n a).bind fun m => level m b :=
  List.foldlM_append

/-- Brackets that are open all the time do not change what a text does. -/
theorem level_add {n m : Nat} {text : List Char} (h : level n text = some m) (d : Nat) :
    level (n + d) text = some (m + d) := by
  induction text generalizing n with
  | nil =>
    cases h
    rfl
  | cons c cs ih =>
    rw [level_cons] at h ⊢
    obtain ⟨k, hk, hm⟩ := Option.bind_eq_some_iff.mp h
    have step : levelStep (n + d) c = some (k + d) := levelStep_add hk d
    rw [step]
    exact ih hm

/-- A balanced text keeps the number of open brackets. -/
theorem Balanced.level {text : List Char} (h : Balanced text) (n : Nat) :
    level n text = some n := by
  simpa using level_add h n

/-- What is left of a balanced text after a balanced beginning is balanced. -/
theorem Balanced.of_append {a b : List Char} (h : Balanced (a ++ b)) (ha : Balanced a) :
    Balanced b := by
  rw [Balanced, level_append, ha] at h
  exact h

theorem Balanced.append {a b : List Char} (ha : Balanced a) (hb : Balanced b) :
    Balanced (a ++ b) := by
  rw [Balanced, level_append, ha]
  exact hb

theorem balanced_singleton {c : Char} (ho : Symbol.ofChar c ≠ .opening)
    (hc : Symbol.ofChar c ≠ .closing) : Balanced [c] := by
  rw [Balanced, level_cons, levelStep_other ho hc]
  rfl

/-- A balanced text in brackets is balanced. -/
theorem Balanced.group {o c : Char} {inside : List Char} (ho : Symbol.ofChar o = .opening)
    (h : Balanced inside) (hc : Symbol.ofChar c = .closing) : Balanced (o :: (inside ++ [c])) := by
  rw [Balanced, level_cons, levelStep_opening ho, Option.bind_some, level_append, h.level,
    Option.bind_some, level_cons, levelStep_closing_succ hc]
  rfl

/-- A balanced text does not begin with a closing bracket. -/
theorem Balanced.not_closing {c : Char} {cs : List Char} (h : Balanced (c :: cs)) :
    Symbol.ofChar c ≠ .closing := by
  intro hc
  rw [Balanced, level_cons, levelStep_closing_zero hc] at h
  cases h

/-! ## Groups -/

theorem closeGroupFrom_level {n : Nat} {passed cs inside rest : List Char}
    (h : closeGroupFrom n passed cs = some (inside, rest)) :
    ∃ body c, inside = passed.reverse ++ body ∧ cs = body ++ c :: rest ∧
      Symbol.ofChar c = .closing ∧ level n body = some 0 := by
  induction cs generalizing n passed with
  | nil => simp [closeGroupFrom] at h
  | cons d ds ih =>
    by_cases hc : Symbol.ofChar d = .closing
    · cases n with
      | zero =>
        rw [closeGroupFrom_closing_zero hc] at h
        cases h
        exact ⟨[], d, by simp, rfl, hc, rfl⟩
      | succ n =>
        rw [closeGroupFrom_closing_succ hc] at h
        obtain ⟨body, c, rfl, rfl, hl, hcl⟩ := ih h
        refine ⟨d :: body, c, by simp, rfl, hl, ?_⟩
        rwa [level_cons, levelStep_closing_succ hc]
    · by_cases ho : Symbol.ofChar d = .opening
      · rw [closeGroupFrom_opening ho] at h
        obtain ⟨body, c, rfl, rfl, hl, hcl⟩ := ih h
        refine ⟨d :: body, c, by simp, rfl, hl, ?_⟩
        rwa [level_cons, levelStep_opening ho]
      · rw [closeGroupFrom_other ho hc] at h
        obtain ⟨body, c, rfl, rfl, hl, hcl⟩ := ih h
        refine ⟨d :: body, c, by simp, rfl, hl, ?_⟩
        rwa [level_cons, levelStep_other ho hc]

/-- A group ends at the bracket that belongs to the one it began with. -/
theorem closeGroup_balanced {cs inside rest : List Char} (h : closeGroup cs = some (inside, rest)) :
    ∃ c, cs = inside ++ c :: rest ∧ Symbol.ofChar c = .closing ∧ Balanced inside := by
  obtain ⟨body, c, hi, hcs, hc, hl⟩ := closeGroupFrom_level h
  simp only [List.reverse_nil, List.nil_append] at hi
  subst hi
  exact ⟨c, hcs, hc, hl⟩

/-! ## Derived texts -/

theorem balanced_connective {op : Connective} {c : Char} (h : c ∈ op.spellings) :
    Balanced [c] := by
  have h := Symbol.ofChar_eq_connective_iff.mpr h
  exact balanced_singleton (by simp [h]) (by simp [h])

theorem balanced_negation {c : Char} (h : c ∈ ['~', '!']) : Balanced [c] := by
  have h := Symbol.ofChar_eq_negation_iff_mem.mpr h
  exact balanced_singleton (by simp [h]) (by simp [h])

mutual

/-- The brackets of a text that writes a formula match each other. -/
theorem Derives.balanced : {k : Nat} → {text : List Char} → {e : Formula} → Derives k text e →
    Balanced text
  | _, _, _, .operand h => h.balanced
  | _, _, _, .binary _ hl hc hr =>
    hl.balanced.append ((balanced_connective hc).append hr.balanced)

theorem DerivesOperand.balanced : {k : Nat} → {text : List Char} → {e : Formula} →
    DerivesOperand k text e → Balanced text
  | _, _, _, .primary h => h.balanced
  | _, _, _, .neg hc h => (balanced_negation hc).append h.balanced

theorem DerivesPrimary.balanced : {k : Nat} → {text : List Char} → {e : Formula} →
    DerivesPrimary k text e → Balanced text
  | _, _, _, .letter _ => balanced_singleton (by simp) (by simp)
  | _, _, _, .group ho h hc =>
    .group (Symbol.ofChar_eq_opening_iff_mem.mpr ho) h.balanced
      (Symbol.ofChar_eq_closing_iff_mem.mpr hc)

end

end Propositional.Formula
