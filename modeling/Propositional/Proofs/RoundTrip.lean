import Propositional.Proofs.Nesting

/-!
# Printing and reading back

What a formula is printed as is read back as the same formula with every leaf false, as long as the
printed text does not nest too deep. How deep it nests is a matter of the shape of the formula
(`Formula.nest`): the brackets around a compound open one formula inside another, and the part right
of a connective opens one more.

The printed text without its blanks (`Formula.symbols`) is what the readers see of it. The grammar
derives it as a primary with `nest` formulas open (`derivesPrimary_symbols`), and the rest is what
`Proofs.Recognition` and `Proofs.Nesting` say about derived texts.
-/

namespace Propositional.Formula

/-- How many formulas are open at the deepest place of the printed form, the whole formula not
counted. -/
def nest : Formula → Nat
  | leaf _ _ => 0
  | neg e => 1 + e.nest
  | binary _ l r => max (1 + l.nest) (2 + r.nest)

/-- The symbols of the printed form, without the blanks. -/
def symbols : Formula → List Char
  | leaf x _ => [x.name]
  | neg e => '(' :: ('!' :: e.symbols ++ [')'])
  | binary op l r => '(' :: (l.symbols ++ op.symbol :: r.symbols ++ [')'])

/-! ## The printed text -/

theorem normalize_name (x : Letter) : Text.normalize x.name.toString = [x.name] := by
  obtain ⟨i⟩ := x
  revert i
  decide

theorem normalize_symbol (op : Connective) : Text.normalize op.symbol.toString = [op.symbol] := by
  cases op <;> rfl

/-- The normal form of the printed text is the printed text without blanks. -/
theorem normalize_render (e : Formula) : Text.normalize e.render = e.symbols := by
  have hopen : Text.normalize "( " = ['('] := rfl
  have hneg : Text.normalize "( ! " = ['(', '!'] := rfl
  have hclose : Text.normalize " )" = [')'] := rfl
  have hblank : Text.normalize " " = [] := rfl
  induction e with
  | leaf x b => exact normalize_name x
  | neg e ih =>
    simp [render, symbols, Text.normalize_append, hneg, hclose, ih]
  | binary op l r ihl ihr =>
    rw [render, symbols]
    simp only [Text.normalize_append, hopen, hclose, hblank, normalize_symbol, ihl, ihr]
    simp

/-- The printed form is a primary: a letter, or a compound in brackets. -/
theorem derivesPrimary_symbols (e : Formula) : DerivesPrimary e.nest e.symbols e.clear := by
  induction e with
  | leaf x b => exact .letter x
  | neg e ih =>
    rw [nest, Nat.add_comm]
    exact .group (by simp) (.operand (.neg (by simp) ih)) (by simp)
  | binary op l r ihl ihr =>
    have hop : op.symbol ∈ op.spellings := by cases op <;> decide
    have hnest : nest (binary op l r) = max l.nest (r.nest + 1) + 1 := by
      rw [nest]
      omega
    rw [hnest]
    -- The right part is a formula of its own, so its operand is one formula deeper than the left.
    exact .group (by simp) (.binary op (.primary ihl) hop (.operand (.primary ihr))) (by simp)

/-- The only symbols of the printed form that open formulas are the bracket and the connectives as
they are printed. -/
theorem opener_of_mem_symbols {e : Formula} {c : Char} (h : c ∈ e.symbols) (hc : OpensFormula c) :
    c ∈ ['(', '&', '|', '>', '='] := by
  have negation : Symbol.ofChar '!' = .negation := rfl
  have closing : Symbol.ofChar ')' = .closing := rfl
  induction e with
  | leaf x b =>
    rw [symbols, List.mem_singleton] at h
    simp [OpensFormula, h] at hc
  | neg e ih =>
    simp only [symbols, List.cons_append, List.mem_cons, List.mem_append, List.not_mem_nil,
      or_false] at h
    rcases h with rfl | rfl | h | rfl
    · simp
    · simp [OpensFormula, negation] at hc
    · exact ih h
    · simp [OpensFormula, closing] at hc
  | binary op l r ihl ihr =>
    simp only [symbols, List.mem_cons, List.mem_append, List.not_mem_nil, or_false] at h
    rcases h with rfl | (h | rfl | h) | rfl
    · simp
    · exact ihl h
    · cases op <;> simp [Connective.symbol]
    · exact ihr h
    · simp [OpensFormula, closing] at hc

/-! ## Reading it back -/

/-- The whole printed text opens one formula more than what is inside it. -/
theorem derives_render (e : Formula) : Derives (e.nest + 1) (Text.normalize e.render) e.clear := by
  rw [normalize_render]
  exact .operand (.primary (derivesPrimary_symbols e))

/-- A printed formula is read back as itself with every leaf false when it nests at most 511 deep.
When it nests deeper it is refused at a bracket or a connective. -/
theorem parse_render (e : Formula) :
    (e.nest ≤ 511 → parse e.render = .ok ⟨e.clear, e.letters⟩) ∧
      (511 < e.nest → ∃ position, ∃ c ∈ ['(', '&', '|', '>', '='],
        parse e.render = .error (.unexpected position c)) := by
  constructor
  · intro h
    rw [parse_of_derives (Nat.succ_le_succ h) (derives_render e), letters_clear]
  · intro h
    obtain ⟨err, he, position, c, hc, opens, rfl⟩ :=
      parse_of_derives_deep (Nat.succ_lt_succ h) (derives_render e)
    rw [normalize_render] at hc
    exact ⟨position, c, opener_of_mem_symbols hc opens, he⟩

/-- The limit lies between 511 and 512 negations, whatever the leaf holds. -/
theorem parse_render_at_limit :
    let negations (n : Nat) : Formula := Nat.repeat neg n (leaf ⟨0⟩ true)
    ((negations 511).nest ≤ 511 ∧
        parse (negations 511).render = .ok ⟨(negations 511).clear, (negations 511).letters⟩) ∧
      (511 < (negations 512).nest ∧ ∃ position, ∃ c ∈ ['(', '&', '|', '>', '='],
        parse (negations 512).render = .error (.unexpected position c)) := by
  intro negations
  have fits : (negations 511).nest ≤ 511 := by decide +kernel
  have deep : 511 < (negations 512).nest := by decide +kernel
  exact ⟨⟨fits, (parse_render _).1 fits⟩, deep, (parse_render _).2 deep⟩

end Propositional.Formula
