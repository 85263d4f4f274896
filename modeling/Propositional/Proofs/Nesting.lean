import Propositional.Proofs.Recognition

/-!
# Texts that nest too deep

A text that the grammar derives can be refused for one reason only: more formulas are open in it
at once than there is room for. The readers then stop at the symbol that opens the first formula
without room, which is an opening bracket or a connective (`refusesDeeper_readInner`,
`parse_of_derives_deep`).
-/

namespace Propositional.Formula

/-- A symbol that opens a formula inside another. -/
def OpensFormula (c : Char) : Prop :=
  Symbol.ofChar c = .opening ∨ ∃ op, Symbol.ofChar c = .connective op

/-- The error is that a symbol of the text opens a formula for which there is no room. -/
def OneTooMany (text : List Char) (err : ParseError) : Prop :=
  ∃ position, ∃ c ∈ text, OpensFormula c ∧ err = .unexpected position c

theorem OneTooMany.mono {text text' : List Char} {err : ParseError} (h : OneTooMany text err)
    (sub : ∀ c ∈ text, c ∈ text') : OneTooMany text' err := by
  obtain ⟨position, c, hc, opens, rfl⟩ := h
  exact ⟨position, c, sub c hc, opens, rfl⟩

/-- An inner reader that refuses everything that the grammar derives with more than `room` formulas
open, and blames a symbol that opens one formula too many. -/
def RefusesDeeper (room : Nat) (inner : InnerReader) : Prop :=
  ∀ k > room, ∀ span e, Derives k span e → ∀ c position seen, OpensFormula c →
    ∃ err, inner c position span seen = .error err ∧ OneTooMany (c :: span) err

theorem readPrimary_of_derives_deep {room k : Nat} {inner : InnerReader}
    (hi : RefusesDeeper room inner) (hk : k > room) {text : List Char} {e : Formula}
    (h : DerivesPrimary k text e) (position : Nat) (rest : List Char) (seen : List Letter) :
    ∃ err, readPrimary inner position (text ++ rest) seen = .error err ∧ OneTooMany text err := by
  cases h with
  | letter x => exact absurd hk (Nat.not_lt_zero _)
  | @group _ o c inside _ ho hin hc =>
    have ho : Symbol.ofChar o = .opening := Symbol.ofChar_eq_opening_iff_mem.mpr ho
    obtain ⟨err, he, hm⟩ := hi k hk inside e hin o position seen (.inl ho)
    refine ⟨err, ?_, hm.mono (by simp +contextual)⟩
    have hg := closeGroup_derives hin hc rest
    simp [readPrimary, ho, hg, he, bind, Except.bind]

theorem readOperand_of_derives_deep {room k : Nat} {inner : InnerReader}
    (hi : RefusesDeeper room inner) (hk : k > room) {text : List Char} {e : Formula}
    (h : DerivesOperand k text e) (position : Nat) (rest : List Char) (seen : List Letter) :
    ∃ err, readOperand inner position (text ++ rest) seen = .error err ∧ OneTooMany text err := by
  cases h with
  | primary h =>
    rw [readOperand_derivesPrimary h]
    exact readPrimary_of_derives_deep hi hk h position rest seen
  | @neg _ c text _ hc h =>
    have hc : Symbol.ofChar c = .negation := Symbol.ofChar_eq_negation_iff_mem.mpr hc
    obtain ⟨err, he, hm⟩ := readPrimary_of_derives_deep hi hk h (position + 1) rest seen
    refine ⟨err, ?_, hm.mono (by simp +contextual)⟩
    rw [List.cons_append, readOperand_negation hc, he]
    rfl

theorem readFormula_of_derives_deep {room k : Nat} {inner : InnerReader}
    (reads : ReadsAllDerived room inner) (hi : RefusesDeeper room inner) (hk : k > room + 1)
    {span : List Char} {e : Formula} (h : Derives k span e) (position : Nat) (seen : List Letter) :
    ∃ err, readFormula inner position span seen = .error err ∧ OneTooMany span err := by
  cases h with
  | operand h =>
    obtain ⟨err, he, hm⟩ := readOperand_of_derives_deep hi (by omega) h position [] seen
    rw [List.append_nil] at he
    exact ⟨err, by simp [readFormula, he, bind, Except.bind], hm⟩
  | @binary j k c left right l r op hl hc hr =>
    have hc : Symbol.ofChar c = .connective op := Symbol.ofChar_eq_connective_iff.mpr hc
    by_cases hj : j > room
    · obtain ⟨err, he, hm⟩ := readOperand_of_derives_deep hi hj hl position (c :: right) seen
      refine ⟨err, ?_, hm.mono (by simp +contextual)⟩
      simp [readFormula, he, bind, Except.bind]
    · -- The left operand fits, so it is the right part that does not.
      obtain ⟨after, ha⟩ := readOperand_of_derives reads (by omega) hl position (c :: right) seen
      obtain ⟨err, he, hm⟩ :=
        hi k (by omega) right r hr c (position + left.length) after (.inr ⟨op, hc⟩)
      refine ⟨err, ?_, hm.mono (by simp +contextual)⟩
      simp [readFormula, ha, hc, he, bind, Except.bind]

theorem refusesDeeper_readInner (room : Nat) : RefusesDeeper room (readInner room) := by
  induction room with
  | zero =>
    intro k hk span e h c position seen hc
    exact ⟨.unexpected position c, rfl, position, c, by simp, hc, rfl⟩
  | succ room ih =>
    intro k hk span e h c position seen hc
    obtain ⟨err, he, hm⟩ := readFormula_of_derives_deep (readsAllDerived_readInner room) ih hk h
      (position + 1) seen
    exact ⟨err, he, hm.mono (by simp +contextual)⟩

/-- A text in which too many formulas are open at once is refused for that reason. -/
theorem parse_of_derives_deep {text : String} {k : Nat} {e : Formula} (hk : k > maxOpen)
    (h : Derives k (Text.normalize text) e) :
    ∃ err, parse text = .error err ∧ OneTooMany (Text.normalize text) err := by
  rw [parse_of_ne_nil h.ne_nil]
  exact readFormula_of_derives_deep (readsAllDerived_readInner _) (refusesDeeper_readInner _) hk h
    0 []

end Propositional.Formula
