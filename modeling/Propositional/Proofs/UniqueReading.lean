import Propositional.Proofs.Answers
import Propositional.Proofs.RoundTrip

/-!
# Printed forms tell formulas apart

A text can be printed for formulas of any depth, also for those that are too deep to be read back.
Nevertheless it belongs to one formula only, up to the values at the leaves, which are not printed.
The grammar has no limit: it derives every printed form as an operand (`derivesPrimary_symbols`),
and a text begins with at most one operand (`DerivesOperand.unique`), whatever comes after it.

So two texts that begin with a printed form, and are the same, begin with the same one
(`Formula.render_append_inj`). With nothing after the printed forms this says that they tell
formulas apart, and with something after one of them that no printed form is the beginning of
another. Main statement: `Formula.render_identifies`.
-/

namespace Propositional.Formula

/-- Printed forms that begin the same symbols are those of one formula. -/
theorem clear_eq_of_symbols_append {e e' : Formula} {rest rest' : List Char}
    (same : e.symbols ++ rest = e'.symbols ++ rest') : e.clear = e'.clear := by
  have operand : DerivesOperand e.nest e.symbols e.clear := .primary (derivesPrimary_symbols e)
  have operand' : DerivesOperand e'.nest e'.symbols e'.clear := .primary (derivesPrimary_symbols e')
  exact (operand.unique operand' same).2.1

/-- Formulas with the same leaves but for their values are printed alike. -/
theorem render_eq_of_clear_eq {e e' : Formula} (h : e.clear = e'.clear) : e.render = e'.render := by
  rw [← render_clear e, h, render_clear]

/-- Where printed forms begin the same text, they are those of one formula, and the rest of the text
is the same. -/
theorem render_append_inj {e e' : Formula} {rest rest' : String}
    (same : e.render ++ rest = e'.render ++ rest') : e.clear = e'.clear ∧ rest = rest' := by
  have symbols : e.symbols ++ Text.normalize rest = e'.symbols ++ Text.normalize rest' := by
    rw [← normalize_render, ← normalize_render, ← Text.normalize_append, same,
      Text.normalize_append]
  have cleared := clear_eq_of_symbols_append symbols
  rw [render_eq_of_clear_eq cleared] at same
  exact ⟨cleared, (String.append_right_inj e'.render).mp same⟩

/-- Formulas have the same printed form exactly when they differ in the values at their leaves at
most, and no printed form is followed by something else in the printed form of another formula. -/
theorem render_identifies (e e' : Formula) :
    (e.render = e'.render ↔ e.clear = e'.clear) ∧
      ¬ ∃ rest, rest ≠ "" ∧ e'.render = e.render ++ rest := by
  refine ⟨⟨fun same => ?_, render_eq_of_clear_eq⟩, ?_⟩
  · exact (render_append_inj (congrArg (· ++ "") same)).1
  · rintro ⟨rest, some_rest, longer⟩
    have same : e.render ++ rest = e'.render ++ "" := by rw [longer, String.append_empty]
    exact some_rest (render_append_inj same).2

end Propositional.Formula
