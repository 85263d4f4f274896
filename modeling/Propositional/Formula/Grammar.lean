import Propositional.Formula.Basic

/-!
# The grammar of formulas

Which texts, in normal form, write which formulas, stated as a relation and independent of how
texts are read. A bracket of any shape may be closed by a bracket of any other.

    formula := operand | operand connective formula
    operand := primary | negation primary
    primary := letter | opening formula closing

A derivation also counts how many formulas are open at once in it: a formula counts itself on top
of the deepest formula inside it, and the formulas inside it are those in brackets and the part
right of the connective.
-/

namespace Propositional.Formula

mutual

/-- The text writes the formula, and at the deepest place `k` formulas are open at once, this one
among them. -/
inductive Derives : (k : Nat) → (text : List Char) → Formula → Prop
  | operand {k text e} : DerivesOperand k text e → Derives (k + 1) text e
  | binary {j k c left right l r} (op : Connective) : DerivesOperand j left l →
      c ∈ op.spellings → Derives k right r →
      Derives (max j k + 1) (left ++ c :: right) (.binary op l r)

/-- The text writes the formula as an operand, with `k` formulas open at the deepest place inside
it. -/
inductive DerivesOperand : (k : Nat) → (text : List Char) → Formula → Prop
  | primary {k text e} : DerivesPrimary k text e → DerivesOperand k text e
  | neg {k c text e} : c ∈ ['~', '!'] → DerivesPrimary k text e →
      DerivesOperand k (c :: text) (.neg e)

/-- The text writes the formula as a letter or a group, with `k` formulas open at the deepest
place inside it. -/
inductive DerivesPrimary : (k : Nat) → (text : List Char) → Formula → Prop
  | letter (x : Letter) : DerivesPrimary 0 [x.name] (.atom x)
  | group {k o c text e} : o ∈ ['(', '[', '\x7b'] → Derives k text e → c ∈ [')', ']', '\x7d'] →
      DerivesPrimary k (o :: (text ++ [c])) e

end

end Propositional.Formula
