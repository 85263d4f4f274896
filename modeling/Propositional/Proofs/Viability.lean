import Propositional.Proofs.Recognition

/-!
# How a text may go on

A text begins a formula (`Begins`) when something can be appended that makes it one. What can be
appended depends on the place that the text leads to, and there are two kinds of places where
something is still to come:

* `FormulaHole`: a formula is to come, at the start of the text, of a group or of the part right of
  a connective;
* `PrimaryHole`: a letter or a group is to come, after a negation or where a formula is to come.

Each of them says two things: everything of that kind, if it does not nest too deep, continues the
text (`fill`), and nothing else does (`only`). The holes follow each other as the symbols of a text
do (`primary`, `negated`, `group`, `right`), which starts with `formulaHole_nil`. What a symbol does
to the text is then read off the hole before it (`begins`, `not_begins`).
-/

namespace Propositional.Formula

/-- The text writes a formula in which not too many formulas are open at once. -/
def Complete (text : List Char) : Prop :=
  ∃ k ≤ maxOpen, ∃ e, Derives k text e

/-- The text can be continued to one that writes a formula. -/
def Begins (text : List Char) : Prop :=
  ∃ rest, Complete (text ++ rest)

theorem Begins.of_append {a b : List Char} (h : Begins (a ++ b)) : Begins a := by
  obtain ⟨rest, h⟩ := h
  refine ⟨b ++ rest, ?_⟩
  rwa [← List.append_assoc]

/-- What may come after a formula: nothing, or the bracket that closes the group it is in. -/
inductive EndsFormula : (grouped : Bool) → (tail : List Char) → Prop
  | text : EndsFormula false []
  | group {c cs} : Symbol.ofChar c = .closing → EndsFormula true (c :: cs)

/-- After `before` comes a formula with at most `room` formulas open in it, counting itself. It
fills a group, or what is left of the text. -/
structure FormulaHole (room : Nat) (grouped : Bool) (before : List Char) : Prop where
  fill : ∀ {k text e}, k ≤ room → Derives k text e → Begins (before ++ text)
  only : ∀ {rest}, Complete (before ++ rest) → ∃ k ≤ room, ∃ text e tail,
    Derives k text e ∧ rest = text ++ tail ∧ EndsFormula grouped tail

/-- After `before` comes a letter or a group with at most `room` formulas open inside. Unless there
is a negation already, a negation may come too. -/
structure PrimaryHole (room : Nat) (negated : Bool) (before : List Char) : Prop where
  fill : ∀ {k text e}, k ≤ room → DerivesPrimary k text e → Begins (before ++ text)
  only : ∀ {c rest}, (Symbol.ofChar c = .negation → negated = true) →
    Complete (before ++ c :: rest) → ∃ k ≤ room, ∃ text e tail,
      DerivesPrimary k text e ∧ c :: rest = text ++ tail

/-! ## From hole to hole -/

/-- An operand has fewer formulas open inside than the formula that begins with it. -/
theorem Continues.lt {j k : Nat} {l e : Formula} {tail : List Char} (h : Continues j l k tail e) :
    j < k := by
  cases h <;> omega

/-- At the start of a text comes a formula that fills it. -/
theorem formulaHole_nil : FormulaHole maxOpen false [] where
  fill hk h := ⟨[], _, hk, _, by simpa using h⟩
  only h := by
    -- The whole text is the formula, and nothing comes after it.
    obtain ⟨k, hk, e, h⟩ := h
    exact ⟨k, hk, _, e, [], h, by simp, .text⟩

/-- What comes where a formula is to come begins with an operand. -/
theorem FormulaHole.only_operand {room : Nat} {grouped : Bool} {before rest : List Char}
    (h : FormulaHole (room + 1) grouped before) (hc : Complete (before ++ rest)) :
    ∃ j ≤ room, ∃ left l k tail e more, DerivesOperand j left l ∧ k ≤ room + 1 ∧
      Continues j l k tail e ∧ rest = left ++ (tail ++ more) ∧ EndsFormula grouped more := by
  obtain ⟨k, hk, text, e, more, hd, rfl, hends⟩ := h.only hc
  obtain ⟨j, left, l, tail, rfl, hl, ht⟩ := hd.firstOperand
  have hlt := ht.lt
  exact ⟨j, by omega, left, l, k, tail, e, more, hl, hk, ht, by simp, hends⟩

theorem FormulaHole.primary {room : Nat} {grouped : Bool} {before : List Char}
    (h : FormulaHole (room + 1) grouped before) : PrimaryHole room false before where
  fill hk hp := h.fill (Nat.succ_le_succ hk) (.operand (.primary hp))
  only hn hc := by
    obtain ⟨j, hj, left, l, _, tail, _, more, hl, -, -, same, -⟩ := h.only_operand hc
    cases hl with
    | primary hp => exact ⟨j, hj, left, l, tail ++ more, hp, same⟩
    | neg hneg _ =>
      obtain ⟨rfl, -⟩ := List.cons.inj same
      exact absurd (hn (Symbol.ofChar_eq_negation_iff_mem.mpr hneg)) Bool.false_ne_true

theorem FormulaHole.negated {room : Nat} {grouped : Bool} {before : List Char}
    (h : FormulaHole (room + 1) grouped before) {n : Char} (hn : Symbol.ofChar n = .negation) :
    PrimaryHole room true (before ++ [n]) where
  fill hk hp := by
    have hn := Symbol.ofChar_eq_negation_iff_mem.mp hn
    simpa using h.fill (Nat.succ_le_succ hk) (.operand (.neg hn hp))
  only _ hc := by
    rw [List.append_assoc] at hc
    obtain ⟨j, hj, left, l, _, tail, _, more, hl, -, -, same, -⟩ := h.only_operand hc
    cases hl with
    | primary hp => exact absurd hn (hp.head_ne_negation same)
    | @neg _ _ text e _ hp =>
      obtain ⟨-, same⟩ := List.cons.inj same
      exact ⟨j, hj, text, e, tail ++ more, hp, same⟩

/-- After an opening bracket comes a formula that fills the group. -/
theorem PrimaryHole.group {room : Nat} {negated : Bool} {before : List Char}
    (h : PrimaryHole room negated before) {o : Char} (ho : Symbol.ofChar o = .opening) :
    FormulaHole room true (before ++ [o]) where
  fill {k text e} hk hd := by
    have ho := Symbol.ofChar_eq_opening_iff_mem.mp ho
    -- The group may be closed by a round bracket, whatever bracket opened it.
    have closed : Begins (before ++ [o] ++ text ++ [')']) := by
      simpa using h.fill hk (.group ho hd (by simp))
    exact closed.of_append
  only {rest} hc := by
    rw [List.append_assoc] at hc
    obtain ⟨k, hk, text, e, tail, hp, same⟩ := h.only (by simp [ho]) hc
    cases hp with
    | letter x =>
      obtain ⟨rfl, -⟩ := List.cons.inj same
      simp at ho
    | @group _ _ c text _ _ hin hclose =>
      obtain ⟨-, same⟩ := List.cons.inj same
      refine ⟨k, hk, text, e, c :: tail, hin, by simpa using same, .group ?_⟩
      exact Symbol.ofChar_eq_closing_iff_mem.mpr hclose

/-- After an operand comes a connective with a formula right of it, or the bracket that closes the
group. -/
theorem FormulaHole.after_operand {room j : Nat} {grouped : Bool} {before left rest : List Char}
    {l : Formula} {c : Char} (h : FormulaHole (room + 1) grouped before)
    (hl : DerivesOperand j left l) (hc : Complete (before ++ (left ++ c :: rest))) :
    (∃ op, Symbol.ofChar c = .connective op ∧ ∃ k ≤ room, ∃ right r more,
      Derives k right r ∧ rest = right ++ more ∧ EndsFormula grouped more) ∨
        grouped = true ∧ Symbol.ofChar c = .closing := by
  -- Whatever comes begins with an operand, and `left` is the only one that it can begin with.
  obtain ⟨j', -, left', l', k, tail, e, more, hl', hk, ht, same, hends⟩ := h.only_operand hc
  obtain ⟨rfl, -, same⟩ := hl.unique hl' same
  cases ht with
  | stop =>
    cases hends with
    | text => cases same
    | group hclose =>
      obtain ⟨rfl, -⟩ := List.cons.inj same
      exact .inr ⟨rfl, hclose⟩
  | @binary k' _ right r op hspell hr =>
    obtain ⟨rfl, hrest⟩ := List.cons.inj same
    have hop := Symbol.ofChar_eq_connective_iff.mpr hspell
    exact .inl ⟨op, hop, k', by omega, right, r, more, hr, hrest, hends⟩

/-- After an operand and a connective comes the part right of the connective, with one formula open
around it. -/
theorem FormulaHole.right {room j : Nat} {grouped : Bool} {before left : List Char} {l : Formula}
    (h : FormulaHole (room + 1) grouped before) (hj : j ≤ room) (hl : DerivesOperand j left l)
    {c : Char} {op : Connective} (hop : Symbol.ofChar c = .connective op) :
    FormulaHole room grouped (before ++ (left ++ [c])) where
  fill hk hr := by
    have hop := Symbol.ofChar_eq_connective_iff.mp hop
    simpa using h.fill (by omega) (.binary op hl hop hr)
  only {rest} hc := by
    have hc : Complete (before ++ (left ++ c :: rest)) := by simpa using hc
    rcases h.after_operand hl hc with ⟨-, -, right⟩ | ⟨-, hclose⟩
    · exact right
    · rw [hop] at hclose
      cases hclose

/-! ## What a symbol does to a text -/

theorem PrimaryHole.begins {room : Nat} {negated : Bool} {before : List Char}
    (h : PrimaryHole room negated before) : Begins before :=
  (h.fill (Nat.zero_le _) (.letter ⟨0⟩)).of_append

/-- A text may end with a whole operand, since whatever is open around it can be closed. -/
theorem FormulaHole.begins_operand {room j : Nat} {grouped : Bool} {before left : List Char}
    {l : Formula} (h : FormulaHole (room + 1) grouped before) (hj : j ≤ room)
    (hl : DerivesOperand j left l) : Begins (before ++ left) :=
  h.fill (Nat.succ_le_succ hj) (.operand hl)

/-- Nothing can be continued to a formula when there is no room for the formula to come. -/
theorem FormulaHole.not_begins {grouped : Bool} {before : List Char}
    (h : FormulaHole 0 grouped before) : ¬ Begins before := by
  rintro ⟨rest, hc⟩
  obtain ⟨k, hk, text, e, tail, hd, -, -⟩ := h.only hc
  cases hd <;> omega

/-- Where a letter or a group is to come, no other symbol can come. -/
theorem PrimaryHole.not_begins {room : Nat} {negated : Bool} {before : List Char}
    (h : PrimaryHole room negated before) {c : Char}
    (hn : Symbol.ofChar c = .negation → negated = true) (hl : ∀ x, Symbol.ofChar c ≠ .letter x)
    (ho : Symbol.ofChar c ≠ .opening) : ¬ Begins (before ++ [c]) := by
  rintro ⟨rest, hc⟩
  rw [List.append_assoc] at hc
  obtain ⟨k, hk, text, e, tail, hp, same⟩ := h.only hn hc
  rcases hp.head same with ⟨x, hx⟩ | ho'
  · exact hl x hx
  · exact ho ho'

/-- After an operand only a connective can come, or the bracket that closes the group. -/
theorem FormulaHole.not_begins_operand {room j : Nat} {grouped : Bool} {before left : List Char}
    {l : Formula} (h : FormulaHole (room + 1) grouped before) (hl : DerivesOperand j left l)
    {c : Char} (hop : ∀ op, Symbol.ofChar c ≠ .connective op)
    (hclose : grouped = true → Symbol.ofChar c ≠ .closing) :
    ¬ Begins (before ++ (left ++ [c])) := by
  rintro ⟨rest, hc⟩
  have hc : Complete (before ++ (left ++ c :: rest)) := by simpa using hc
  rcases h.after_operand hl hc with ⟨op, hop', -⟩ | ⟨hg, hclose'⟩
  · exact hop op hop'
  · exact hclose hg hclose'

end Propositional.Formula
