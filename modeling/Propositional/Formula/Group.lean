import Propositional.Symbol

/-!
# Bracket groups

Where a group ends: at the bracket that closes the one it began with, when every opening bracket
in between takes the next closing bracket that is left. The shapes of the brackets play no part.
-/

namespace Propositional.Formula

/-- Look for the bracket that closes a group. `inside` holds the characters of the group passed so
far, the last one first, and `level` counts the brackets opened and not yet closed among them. -/
def closeGroupFrom (level : Nat) (inside : List Char) : List Char → Option (List Char × List Char)
  | [] => none
  | c :: cs =>
    match Symbol.ofChar c, level with
    | .closing, 0 => some (inside.reverse, cs)
    | .closing, level + 1 => closeGroupFrom level (c :: inside) cs
    | .opening, level => closeGroupFrom (level + 1) (c :: inside) cs
    | _, level => closeGroupFrom level (c :: inside) cs

/-- Cut the text after an opening bracket at the bracket that closes it, into what the group holds
and what comes after the group; there is nothing to return if the group is never closed. -/
def closeGroup (cs : List Char) : Option (List Char × List Char) :=
  closeGroupFrom 0 [] cs

/-! ## One step of the search -/

theorem closeGroupFrom_opening {c : Char} (h : Symbol.ofChar c = .opening) (level : Nat)
    (inside cs : List Char) :
    closeGroupFrom level inside (c :: cs) = closeGroupFrom (level + 1) (c :: inside) cs := by
  simp only [closeGroupFrom, h]

theorem closeGroupFrom_closing_zero {c : Char} (h : Symbol.ofChar c = .closing)
    (inside cs : List Char) : closeGroupFrom 0 inside (c :: cs) = some (inside.reverse, cs) := by
  simp only [closeGroupFrom, h]

theorem closeGroupFrom_closing_succ {c : Char} (h : Symbol.ofChar c = .closing) (level : Nat)
    (inside cs : List Char) :
    closeGroupFrom (level + 1) inside (c :: cs) = closeGroupFrom level (c :: inside) cs := by
  simp only [closeGroupFrom, h]

theorem closeGroupFrom_other {c : Char} (ho : Symbol.ofChar c ≠ .opening)
    (hc : Symbol.ofChar c ≠ .closing) (level : Nat) (inside cs : List Char) :
    closeGroupFrom level inside (c :: cs) = closeGroupFrom level (c :: inside) cs := by
  conv => lhs; unfold closeGroupFrom
  split
  · next h => exact absurd h hc
  · next h => exact absurd h hc
  · next h => exact absurd h ho
  · rfl

/-! ## The cut -/

/-- The cut loses the closing bracket and nothing else. -/
theorem closeGroupFrom_eq_some {level : Nat} {passed cs inside rest : List Char}
    (h : closeGroupFrom level passed cs = some (inside, rest)) :
    ∃ c, Symbol.ofChar c = .closing ∧ passed.reverse ++ cs = inside ++ c :: rest := by
  induction cs generalizing level passed with
  | nil => simp [closeGroupFrom] at h
  | cons d ds ih =>
    unfold closeGroupFrom at h
    split at h
    · next hd =>
      simp only [Option.some.injEq, Prod.mk.injEq] at h
      obtain ⟨rfl, rfl⟩ := h
      exact ⟨d, hd, rfl⟩
    all_goals
      obtain ⟨c, hc, e⟩ := ih h
      exact ⟨c, hc, by simpa using e⟩

/-- A group, its closing bracket and what follows make up the text that was cut. -/
theorem closeGroup_eq_some {cs inside rest : List Char} (h : closeGroup cs = some (inside, rest)) :
    ∃ c, Symbol.ofChar c = .closing ∧ cs = inside ++ c :: rest := by
  simpa using closeGroupFrom_eq_some h

end Propositional.Formula
