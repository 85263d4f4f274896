import Propositional.Formula.Grammar
import Propositional.Formula.Parser

/-!
# Reading and the grammar

The readers return exactly what the grammar derives. One direction goes through the readers case
by case (`readsDerived_readInner`): a text that is read is derived, as the formula that was read,
with no more formulas open than there was room for. The other direction
(`readsAllDerived_readInner`) needs that a group is cut where the derivation closes it. It is,
because the brackets of a derived text match each other, so the search for the closing bracket
passes over such a text as a whole (`closeGroupFrom_derives`).

All of this is about texts in upper case, as normal forms are.
-/

namespace Propositional.Formula

/-! ## What is read is derived -/

/-- An inner reader that returns only what the grammar derives with at most `room` formulas open. -/
def ReadsDerived (room : Nat) (inner : InnerReader) : Prop :=
  ∀ c position span seen r, (∀ a ∈ span, a.toUpper = a) → inner c position span seen = .ok r →
    ∃ k ≤ room, Derives k span r.formula

theorem readPrimary_derived {room : Nat} {inner : InnerReader} (hi : ReadsDerived room inner)
    {position : Nat} {span : List Char} {seen : List Letter} {o : Operand}
    (hs : ∀ a ∈ span, a.toUpper = a)
    (h : readPrimary inner position span seen = .ok o) :
    ∃ k ≤ room, ∃ text, span = text ++ o.rest ∧ DerivesPrimary k text o.formula := by
  unfold readPrimary at h
  split at h
  · cases h
  · next c cs =>
    split at h
    · next x hx =>
      cases h
      have hc := Letter.ofChar?_eq_some_iff.mp (Symbol.ofChar_eq_letter_iff.mp hx)
      rw [hs c (by simp)] at hc
      exact ⟨0, Nat.zero_le _, [c], rfl, hc ▸ .letter x⟩
    · next ho =>
      split at h
      · cases h
      · next inside rest hg =>
        simp only [bind, Except.bind] at h
        split at h
        · cases h
        · next r hr =>
          cases h
          obtain ⟨d, hd, rfl⟩ := closeGroup_eq_some hg
          obtain ⟨k, hk, hk'⟩ := hi _ _ _ _ _ (fun a ha => hs a (by simp [ha])) hr
          refine ⟨k, hk, c :: (inside ++ [d]), by simp, .group ?_ hk' ?_⟩
          · exact Symbol.ofChar_eq_opening_iff_mem.mp ho
          · exact Symbol.ofChar_eq_closing_iff_mem.mp hd
    · cases h

theorem readOperand_derived {room : Nat} {inner : InnerReader} (hi : ReadsDerived room inner)
    {position : Nat} {span : List Char} {seen : List Letter} {o : Operand}
    (hs : ∀ a ∈ span, a.toUpper = a)
    (h : readOperand inner position span seen = .ok o) :
    ∃ k ≤ room, ∃ text, span = text ++ o.rest ∧ DerivesOperand k text o.formula := by
  cases span with
  | nil => cases h
  | cons c cs =>
    by_cases hc : Symbol.ofChar c = .negation
    · obtain ⟨p, hp, rfl⟩ := (readOperand_negation_eq_ok hc).mp h
      obtain ⟨k, hk, text, rfl, ht⟩ := readPrimary_derived hi (fun a ha => hs a (by simp [ha])) hp
      exact ⟨k, hk, c :: text, rfl, .neg (Symbol.ofChar_eq_negation_iff_mem.mp hc) ht⟩
    · rw [readOperand_plain hc] at h
      obtain ⟨k, hk, text, e, ht⟩ := readPrimary_derived hi hs h
      exact ⟨k, hk, text, e, .primary ht⟩

theorem readFormula_derived {room : Nat} {inner : InnerReader} (hi : ReadsDerived room inner)
    {position : Nat} {span : List Char} {seen : List Letter} {r : Reading}
    (hs : ∀ a ∈ span, a.toUpper = a)
    (h : readFormula inner position span seen = .ok r) :
    ∃ k ≤ room + 1, Derives k span r.formula := by
  simp only [readFormula, bind, Except.bind] at h
  split at h
  · cases h
  · next o ho =>
    obtain ⟨j, hj, text, rfl, ht⟩ := readOperand_derived hi hs ho
    split at h
    · next hr =>
      cases h
      rw [hr, List.append_nil]
      exact ⟨j + 1, by omega, .operand ht⟩
    · next c cs hr =>
      split at h
      · next op hop =>
        split at h
        · cases h
        · next q hq =>
          cases h
          obtain ⟨k, hk, hk'⟩ := hi _ _ _ _ _ (fun a ha => hs a (by simp [hr, ha])) hq
          rw [hr]
          exact ⟨max j k + 1, by omega, .binary op ht (Symbol.ofChar_eq_connective_iff.mp hop) hk'⟩
      · cases h

theorem readsDerived_readInner (room : Nat) : ReadsDerived room (readInner room) := by
  induction room with
  | zero => intro c position span seen r _ h; cases h
  | succ room ih => intro c position span seen r hs h; exact readFormula_derived ih hs h

/-! ## What is derived is read -/

/-- The search for a closing bracket passes over the text and ends up at the level it came with. -/
def PassedOver (text : List Char) : Prop :=
  ∀ level passed rest, closeGroupFrom level passed (text ++ rest)
    = closeGroupFrom level (text.reverse ++ passed) rest

theorem closeGroupFrom_primary {k : Nat} {text : List Char} {e : Formula}
    (h : DerivesPrimary k text e)
    (ih : ∀ {text' e'}, Derives k text' e' → PassedOver text') : PassedOver text := by
  intro level passed rest
  cases h with
  | letter x =>
    exact closeGroupFrom_other (by simp) (by simp) level passed rest
  | @group _ o c inside _ ho hin hc =>
    have ho : Symbol.ofChar o = .opening := Symbol.ofChar_eq_opening_iff_mem.mpr ho
    have hc : Symbol.ofChar c = .closing := Symbol.ofChar_eq_closing_iff_mem.mpr hc
    simp only [List.cons_append, List.append_assoc, List.nil_append]
    rw [closeGroupFrom_opening ho, ih hin, closeGroupFrom_closing_succ hc]
    simp

theorem closeGroupFrom_operand {k : Nat} {text : List Char} {e : Formula}
    (h : DerivesOperand k text e)
    (ih : ∀ {text' e'}, Derives k text' e' → PassedOver text') : PassedOver text := by
  intro level passed rest
  cases h with
  | primary h => exact closeGroupFrom_primary h ih level passed rest
  | @neg _ c text _ hc h =>
    have hc : Symbol.ofChar c = .negation := Symbol.ofChar_eq_negation_iff_mem.mpr hc
    rw [List.cons_append, closeGroupFrom_other (by simp [hc]) (by simp [hc]),
      closeGroupFrom_primary h ih]
    simp

/-- A derived text is passed over as a whole: its brackets match each other. -/
theorem closeGroupFrom_derives {k : Nat} {text : List Char} {e : Formula} (h : Derives k text e) :
    PassedOver text := by
  induction k using Nat.strongRecOn generalizing text e with
  | ind k ih =>
    intro level passed rest
    cases h with
    | operand h =>
      exact closeGroupFrom_operand h (fun h => ih _ (by omega) h) level passed rest
    | @binary j k c left right l r op hl hc hr =>
      have hc : Symbol.ofChar c = .connective op := Symbol.ofChar_eq_connective_iff.mpr hc
      rw [List.append_assoc, closeGroupFrom_operand hl (fun h => ih _ (by omega) h),
        List.cons_append, closeGroupFrom_other (by simp [hc]) (by simp [hc]), ih k (by omega) hr]
      simp

/-- A group that holds a derived text is cut at the bracket after that text. -/
theorem closeGroup_derives {k : Nat} {text : List Char} {e : Formula} (h : Derives k text e)
    {c : Char} (hc : c ∈ [')', ']', '\x7d']) (rest : List Char) :
    closeGroup (text ++ c :: rest) = some (text, rest) := by
  have hc : Symbol.ofChar c = .closing := Symbol.ofChar_eq_closing_iff_mem.mpr hc
  rw [closeGroup, closeGroupFrom_derives h, closeGroupFrom_closing_zero hc]
  simp

/-- An inner reader that reads everything that the grammar derives with at most `room` formulas
open, and reads it as the formula derived. -/
def ReadsAllDerived (room : Nat) (inner : InnerReader) : Prop :=
  ∀ k ≤ room, ∀ span e, Derives k span e → ∀ c position seen,
    ∃ after, inner c position span seen = .ok ⟨e, after⟩

theorem readPrimary_of_derives {room k : Nat} {inner : InnerReader}
    (hi : ReadsAllDerived room inner) (hk : k ≤ room) {text : List Char} {e : Formula}
    (h : DerivesPrimary k text e) (position : Nat) (rest : List Char) (seen : List Letter) :
    ∃ after, readPrimary inner position (text ++ rest) seen
      = .ok ⟨e, after, position + text.length, rest⟩ := by
  cases h with
  | letter x => exact ⟨Letter.note seen x, by simp [readPrimary]⟩
  | @group _ o c inside _ ho hin hc =>
    have ho : Symbol.ofChar o = .opening := Symbol.ofChar_eq_opening_iff_mem.mpr ho
    obtain ⟨after, ha⟩ := hi k hk inside e hin o position seen
    refine ⟨after, ?_⟩
    have hg := closeGroup_derives hin hc rest
    simp [readPrimary, ho, hg, ha, bind, Except.bind, Nat.add_assoc]

/-- A primary has no negation in front, so reading it as an operand is reading it as a primary. -/
theorem readOperand_derivesPrimary {k : Nat} {text : List Char} {e : Formula}
    (h : DerivesPrimary k text e) (inner : InnerReader) (position : Nat) (rest : List Char)
    (seen : List Letter) :
    readOperand inner position (text ++ rest) seen
      = readPrimary inner position (text ++ rest) seen := by
  cases h with
  | letter x => exact readOperand_plain (by simp) ..
  | group ho _ _ => exact readOperand_plain (by simp [Symbol.ofChar_eq_opening_iff_mem.mpr ho]) ..

theorem readOperand_of_derives {room k : Nat} {inner : InnerReader}
    (hi : ReadsAllDerived room inner) (hk : k ≤ room) {text : List Char} {e : Formula}
    (h : DerivesOperand k text e) (position : Nat) (rest : List Char) (seen : List Letter) :
    ∃ after, readOperand inner position (text ++ rest) seen
      = .ok ⟨e, after, position + text.length, rest⟩ := by
  cases h with
  | primary h =>
    rw [readOperand_derivesPrimary h]
    exact readPrimary_of_derives hi hk h position rest seen
  | @neg _ c text _ hc h =>
    have hc : Symbol.ofChar c = .negation := Symbol.ofChar_eq_negation_iff_mem.mpr hc
    obtain ⟨after, ha⟩ := readPrimary_of_derives hi hk h (position + 1) rest seen
    exact ⟨after, by simp [readOperand_negation hc, ha, Except.map, Nat.add_assoc, Nat.add_comm 1]⟩

theorem readFormula_of_derives {room k : Nat} {inner : InnerReader}
    (hi : ReadsAllDerived room inner) (hk : k ≤ room + 1) {span : List Char} {e : Formula}
    (h : Derives k span e) (position : Nat) (seen : List Letter) :
    ∃ after, readFormula inner position span seen = .ok ⟨e, after⟩ := by
  cases h with
  | operand h =>
    obtain ⟨after, ha⟩ := readOperand_of_derives hi (by omega) h position [] seen
    rw [List.append_nil] at ha
    exact ⟨after, by simp [readFormula, ha, bind, Except.bind]⟩
  | @binary j k c left right l r op hl hc hr =>
    have hc : Symbol.ofChar c = .connective op := Symbol.ofChar_eq_connective_iff.mpr hc
    obtain ⟨after, ha⟩ := readOperand_of_derives hi (by omega) hl position (c :: right) seen
    obtain ⟨last, hb⟩ := hi k (by omega) right r hr c (position + left.length) after
    exact ⟨last, by simp [readFormula, ha, hc, hb, bind, Except.bind]⟩

theorem readsAllDerived_readInner (room : Nat) : ReadsAllDerived room (readInner room) := by
  induction room with
  | zero =>
    intro k hk span e h
    cases h <;> omega
  | succ room ih =>
    intro k hk span e h c position seen
    exact readFormula_of_derives ih hk h (position + 1) seen

end Propositional.Formula
