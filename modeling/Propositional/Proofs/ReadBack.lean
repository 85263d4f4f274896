import Propositional.Proofs.RoundTrip

/-!
# Printing what was read

A formula that was read from a text has no true leaf, so its printed form is read back as the very
same formula or not at all; which of the two depends on how deep the printed form nests
(`parse_render_eq_self_iff`).

The printed form can nest deeper than the text that was read. In a text every connective opens one
formula, the part right of it. The printed form puts that part in brackets of its own, which open a
second one. So it nests at most twice as deep (`Derives.nest_lt`): a text with no more than 256
formulas open at once is always read back when it is printed. The chain of 257 letters is read and
is not read back (`chain_not_read_back`).
-/

namespace Propositional.Formula

/-! ## The printed form nests at most twice as deep -/

mutual

/-- What the grammar derives with `k` formulas open is printed with at most `2 * k` open. -/
theorem Derives.nest_lt : {k : Nat} → {text : List Char} → {e : Formula} → Derives k text e →
    e.nest < 2 * k
  | _, _, _, .operand h => by
    have := h.nest_le
    omega
  | _, _, _, .binary op hl _ hr => by
    have left := hl.nest_le
    have right := hr.nest_lt
    rw [nest]
    omega

/-- A negated letter opens no formula in the text, but it is printed in brackets. -/
theorem DerivesOperand.nest_le : {k : Nat} → {text : List Char} → {e : Formula} →
    DerivesOperand k text e → e.nest ≤ max 1 (2 * k)
  | _, _, _, .primary h => by
    have := h.nest_le
    omega
  | _, _, _, .neg _ h => by
    have := h.nest_le
    rw [nest]
    omega

theorem DerivesPrimary.nest_le : {k : Nat} → {text : List Char} → {e : Formula} →
    DerivesPrimary k text e → e.nest ≤ 2 * k - 1
  | _, _, _, .letter _ => Nat.zero_le _
  | _, _, _, .group _ h _ => by
    have := h.nest_lt
    omega

end

/-! ## Reading back -/

/-- The grammar derives the printed form of a formula that was read, as that formula. -/
theorem derives_render_of_parse {text : String} {r : Reading} (h : parse text = .ok r) :
    Derives (r.formula.nest + 1) (Text.normalize r.formula.render) r.formula := by
  have printed := derives_render r.formula
  rwa [clear_of_parse h] at printed

/-- A formula that was read is read back when its printed form does not nest too deep. -/
theorem read_back_of_nest_le {text : String} {r : Reading} (h : parse text = .ok r)
    (hn : r.formula.nest ≤ 511) : parse r.formula.render = .ok r := by
  rw [parse_of_derives (Nat.succ_le_succ hn) (derives_render_of_parse h), ← parse_seen h]

/-- When the printed form nests too deep, it is refused at a bracket or a connective. -/
theorem refused_of_lt_nest {text : String} {r : Reading} (h : parse text = .ok r)
    (hn : 511 < r.formula.nest) : ∃ position, ∃ c ∈ ['(', '&', '|', '>', '='],
      parse r.formula.render = .error (.unexpected position c) := by
  obtain ⟨err, he, position, c, hc, opens, rfl⟩ :=
    parse_of_derives_deep (Nat.succ_lt_succ hn) (derives_render_of_parse h)
  rw [normalize_render] at hc
  exact ⟨position, c, opener_of_mem_symbols hc opens, he⟩

/-- What was read from a text is read back from its printed form exactly when that nests at most 511
deep, and is refused otherwise. It does not nest deeper when the text has at most 256 formulas open
at once. -/
theorem parse_render_eq_self_iff {text : String} {r : Reading} (h : parse text = .ok r) :
    (parse r.formula.render = .ok r ↔ r.formula.nest ≤ 511) ∧
      (511 < r.formula.nest → ∃ position, ∃ c ∈ ['(', '&', '|', '>', '='],
        parse r.formula.render = .error (.unexpected position c)) ∧
      ∀ k ≤ 256, Derives k (Text.normalize text) r.formula → parse r.formula.render = .ok r := by
  refine ⟨⟨fun back => Nat.le_of_not_lt fun deep => ?_, read_back_of_nest_le h⟩,
    refused_of_lt_nest h, fun k hk hd => ?_⟩
  · obtain ⟨position, c, -, refused⟩ := refused_of_lt_nest h deep
    cases back.symm.trans refused
  · have := hd.nest_lt
    exact read_back_of_nest_le h (by omega)

/-! ## Chains -/

/-- The conjunction of `n + 1` times a letter, grouped to the right. -/
def chain (x : Letter) : Nat → Formula
  | 0 => atom x
  | n + 1 => binary .and (atom x) (chain x n)

/-- The same conjunction as a text without brackets. -/
def chainText (x : Letter) : Nat → String
  | 0 => x.name.toString
  | n + 1 => x.name.toString ++ "&" ++ chainText x n

theorem derives_chain (x : Letter) (n : Nat) :
    Derives (n + 1) (Text.normalize (chainText x n)) (chain x n) := by
  have letter : DerivesOperand 0 [x.name] (atom x) := .primary (.letter x)
  have conjunction : Text.normalize "&" = ['&'] := rfl
  induction n with
  | zero =>
    rw [chainText, normalize_name]
    exact .operand letter
  | succ n ih =>
    have chained := Derives.binary .and letter (c := '&') (by decide) ih
    rw [Nat.zero_max] at chained
    rwa [chainText, Text.normalize_append, Text.normalize_append, normalize_name, conjunction]

theorem nest_chain (x : Letter) (n : Nat) : (chain x n).nest = 2 * n := by
  induction n with
  | zero => rfl
  | succ n ih =>
    rw [chain, nest, ih, atom, nest]
    omega

theorem parse_chainText (x : Letter) {n : Nat} (h : n < 512) :
    parse (chainText x n) = .ok ⟨chain x n, (chain x n).letters⟩ :=
  parse_of_derives h (derives_chain x n)

/-- The chain of 256 letters `A` is read back. -/
theorem chain_read_back :
    parse (chainText ⟨0⟩ 255) = .ok ⟨chain ⟨0⟩ 255, (chain ⟨0⟩ 255).letters⟩ ∧
      parse (chain ⟨0⟩ 255).render = .ok ⟨chain ⟨0⟩ 255, (chain ⟨0⟩ 255).letters⟩ := by
  have h := parse_chainText ⟨0⟩ (n := 255) (by omega)
  exact ⟨h, (parse_render_eq_self_iff h).1.mpr (by rw [nest_chain]; omega)⟩

/-- The chain of 257 letters `A` is read, and its printed form is refused. -/
theorem chain_not_read_back :
    parse (chainText ⟨0⟩ 256) = .ok ⟨chain ⟨0⟩ 256, (chain ⟨0⟩ 256).letters⟩ ∧
      ∃ position c, parse (chain ⟨0⟩ 256).render = .error (.unexpected position c) := by
  have h := parse_chainText ⟨0⟩ (n := 256) (by omega)
  obtain ⟨position, c, -, refused⟩ := refused_of_lt_nest h (by rw [nest_chain]; omega)
  exact ⟨h, position, c, refused⟩

end Propositional.Formula
