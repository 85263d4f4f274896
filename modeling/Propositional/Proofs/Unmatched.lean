import Propositional.Proofs.Brackets

/-!
# Brackets without a partner

Every closing bracket is the partner of the last opening bracket before it that has none yet. Going
through a text with a stack of the opening brackets that are still waiting leaves the brackets
without a partner (`unmatched`).

A text is balanced, or there is a first bracket without a partner, with a balanced text before it
(`balanced_or_firstStray`). This is the bracket that the search for the end of a group is about: a
closing one there is outside all groups, and for an opening one the search finds nothing
(`FirstStray`). The stack has nothing from before that place and keeps the bracket there
(`FirstStray.le_of_mem`, `FirstStray.mem_openings_iff`, `FirstStray.mem_closings`).
-/

namespace Propositional.Formula

/-- The positions of brackets without a partner: of the opening ones that are waiting, the last one
first, and of the closing ones that found none waiting, the first one first. -/
structure Unmatched where
  openings : List Nat
  closings : List Nat
deriving DecidableEq

namespace Unmatched

/-- Go past the symbol at a position. A closing bracket takes the last opening bracket that is
waiting, whatever the shapes of the two. -/
def step (u : Unmatched) (position : Nat) (c : Char) : Unmatched :=
  match Symbol.ofChar c, u.openings with
  | .opening, waiting => { u with openings := position :: waiting }
  | .closing, [] => { u with closings := u.closings ++ [position] }
  | .closing, _ :: waiting => { u with openings := waiting }
  | _, _ => u

/-- Go past the symbols of a text that begins at a position. -/
def after (u : Unmatched) (position : Nat) : List Char → Unmatched
  | [] => u
  | c :: cs => (u.step position c).after (position + 1) cs

/-- The brackets without a partner, of either kind. -/
def positions (u : Unmatched) : List Nat := u.openings ++ u.closings

variable {u : Unmatched} {c : Char}

theorem step_opening (h : Symbol.ofChar c = .opening) (waiting closings : List Nat) (p : Nat) :
    (mk waiting closings).step p c = ⟨p :: waiting, closings⟩ := by
  simp only [step, h]

theorem step_closing_nil (h : Symbol.ofChar c = .closing) (closings : List Nat) (p : Nat) :
    (mk [] closings).step p c = ⟨[], closings ++ [p]⟩ := by
  simp only [step, h]

theorem step_closing_cons (h : Symbol.ofChar c = .closing) (o : Nat) (waiting closings : List Nat)
    (p : Nat) : (mk (o :: waiting) closings).step p c = ⟨waiting, closings⟩ := by
  simp only [step, h]

theorem step_other (ho : Symbol.ofChar c ≠ .opening) (hc : Symbol.ofChar c ≠ .closing) (p : Nat) :
    u.step p c = u := by
  unfold step
  split
  · next h => exact absurd h ho
  · next h _ => exact absurd h hc
  · next h _ => exact absurd h hc
  · rfl

theorem after_append (u : Unmatched) (p : Nat) (a b : List Char) :
    u.after p (a ++ b) = (u.after p a).after (p + a.length) b := by
  induction a generalizing u p with
  | nil => rfl
  | cons c cs ih =>
    rw [List.cons_append, after, ih, after, List.length_cons, Nat.add_assoc, Nat.add_comm 1]

/-- How a text from position `p` on changes what has no partner: positions are added from `p` on
only, and a closing bracket that found none waiting stays. -/
structure Extends (p : Nat) (u u' : Unmatched) : Prop where
  openings : ∀ q ∈ u'.openings, q ∈ u.openings ∨ p ≤ q
  closings : ∀ q ∈ u'.closings, q ∈ u.closings ∨ p ≤ q
  kept : ∀ q ∈ u.closings, q ∈ u'.closings

theorem Extends.refl (p : Nat) (u : Unmatched) : Extends p u u :=
  ⟨fun _ => .inl, fun _ => .inl, fun _ => id⟩

theorem Extends.trans {p : Nat} {u u' u'' : Unmatched} (h : Extends p u u')
    (h' : Extends (p + 1) u' u'') : Extends p u u'' where
  openings q hq := by
    rcases h'.openings q hq with hq | hq
    · exact h.openings q hq
    · exact .inr (Nat.le_of_succ_le hq)
  closings q hq := by
    rcases h'.closings q hq with hq | hq
    · exact h.closings q hq
    · exact .inr (Nat.le_of_succ_le hq)
  kept q hq := h'.kept q (h.kept q hq)

theorem extends_step (u : Unmatched) (p : Nat) (c : Char) : Extends p u (u.step p c) := by
  obtain ⟨waiting, closings⟩ := u
  by_cases ho : Symbol.ofChar c = .opening
  · rw [step_opening ho]
    refine ⟨fun q hq => ?_, fun _ => .inl, fun _ => id⟩
    rcases List.mem_cons.mp hq with rfl | hq
    · exact .inr (Nat.le_refl q)
    · exact .inl hq
  by_cases hc : Symbol.ofChar c = .closing
  · rcases waiting with _ | ⟨o, waiting⟩
    · rw [step_closing_nil hc]
      refine ⟨fun _ => .inl, fun q hq => ?_, fun q hq => List.mem_append_left _ hq⟩
      rcases List.mem_append.mp hq with hq | hq
      · exact .inl hq
      · exact .inr (Nat.le_of_eq (List.mem_singleton.mp hq).symm)
    · rw [step_closing_cons hc]
      exact ⟨fun q hq => .inl (List.mem_cons_of_mem o hq), fun _ => .inl, fun _ => id⟩
  · rw [step_other ho hc]
    exact .refl p _

theorem extends_after (u : Unmatched) (p : Nat) (text : List Char) :
    Extends p u (u.after p text) := by
  induction text generalizing u p with
  | nil => exact .refl p u
  | cons c cs ih => exact (extends_step u p c).trans (ih (u.step p c) (p + 1))

/-- A text that closes the brackets on top of the stack takes just these. -/
theorem after_of_level {n p : Nat} {text : List Char} {top waiting closings : List Nat}
    (h : level n text = some 0) (hn : top.length = n) :
    (mk (top ++ waiting) closings).after p text = ⟨waiting, closings⟩ := by
  induction text generalizing n top p with
  | nil =>
    cases h
    rw [List.length_eq_zero_iff.mp hn]
    rfl
  | cons c cs ih =>
    obtain ⟨m, hm, h⟩ := Option.bind_eq_some_iff.mp (level_cons n c cs ▸ h)
    rw [after]
    by_cases ho : Symbol.ofChar c = .opening
    · rw [levelStep_opening ho] at hm
      cases hm
      rw [step_opening ho]
      have grown : (p :: top).length = n + 1 := by rw [List.length_cons, hn]
      exact ih h grown
    by_cases hc : Symbol.ofChar c = .closing
    · rcases top with _ | ⟨o, top⟩
      · subst hn
        rw [List.length_nil, levelStep_closing_zero hc] at hm
        cases hm
      · subst hn
        rw [List.length_cons, levelStep_closing_succ hc] at hm
        cases hm
        rw [List.cons_append, step_closing_cons hc]
        exact ih h rfl
    · rw [levelStep_other ho hc] at hm
      cases hm
      rw [step_other ho hc]
      exact ih h hn

/-- A bracket stays on the stack when the text after it does not close as many brackets as are on
top of it, and one more. -/
theorem mem_openings_after {n p q : Nat} {passed text : List Char}
    {top waiting closings : List Nat} (h : closeGroupFrom n passed text = none)
    (hn : top.length = n) : q ∈ ((mk (top ++ q :: waiting) closings).after p text).openings := by
  induction text generalizing n passed top p closings with
  | nil => exact List.mem_append_right _ List.mem_cons_self
  | cons c cs ih =>
    rw [after]
    by_cases ho : Symbol.ofChar c = .opening
    · rw [closeGroupFrom_opening ho] at h
      rw [step_opening ho]
      have grown : (p :: top).length = n + 1 := by rw [List.length_cons, hn]
      exact ih h grown
    by_cases hc : Symbol.ofChar c = .closing
    · rcases top with _ | ⟨o, top⟩
      · subst hn
        rw [List.length_nil, closeGroupFrom_closing_zero hc] at h
        cases h
      · subst hn
        rw [List.length_cons, closeGroupFrom_closing_succ hc] at h
        rw [List.cons_append, step_closing_cons hc]
        exact ih h rfl
    · rw [closeGroupFrom_other ho hc] at h
      rw [step_other ho hc]
      exact ih h hn

end Unmatched

/-- The brackets of a text that have no partner. -/
def unmatched (text : List Char) : Unmatched :=
  Unmatched.after ⟨[], []⟩ 0 text

/-- In a balanced text every bracket has a partner. -/
theorem Balanced.unmatched {text : List Char} (h : Balanced text) : unmatched text = ⟨[], []⟩ := by
  have empty : ([] : List Nat).length = 0 := rfl
  exact Unmatched.after_of_level h empty

/-- What is left without a partner after a balanced beginning is so in the rest. -/
theorem Balanced.unmatched_append {before : List Char} (h : Balanced before) (rest : List Char) :
    Formula.unmatched (before ++ rest) = Unmatched.after ⟨[], []⟩ before.length rest := by
  rw [Formula.unmatched, Unmatched.after_append, Nat.zero_add]
  exact congrArg (fun u => Unmatched.after u before.length rest) h.unmatched

/-! ## The first one -/

/-- The first bracket without a partner is the symbol `c` between `before` and `rest`. -/
structure FirstStray (text before : List Char) (c : Char) (rest : List Char) : Prop where
  eq_append : text = before ++ c :: rest
  balanced : Balanced before
  stray : Symbol.ofChar c = .closing ∨ Symbol.ofChar c = .opening ∧ closeGroup rest = none

/-- A text after a balanced one. -/
theorem FirstStray.append {pre text before rest : List Char} {c : Char}
    (h : FirstStray text before c rest) (hp : Balanced pre) :
    FirstStray (pre ++ text) (pre ++ before) c rest where
  eq_append := by rw [h.eq_append, List.append_assoc]
  balanced := hp.append h.balanced
  stray := h.stray

/-- If not all brackets match each other, there is a first one without a partner. -/
theorem balanced_or_firstStray (text : List Char) :
    Balanced text ∨ ∃ before c rest, FirstStray text before c rest := by
  induction h : text.length using Nat.strongRecOn generalizing text with
  | ind n ih =>
    -- A beginning that is balanced leaves a shorter text to be looked at.
    have shorter (pre rest : List Char) (hp : Balanced pre) (hlt : rest.length < n) :
        Balanced (pre ++ rest) ∨ ∃ before c more, FirstStray (pre ++ rest) before c more := by
      rcases ih rest.length hlt rest rfl with hb | ⟨before, c, more, hs⟩
      · exact .inl (hp.append hb)
      · exact .inr ⟨pre ++ before, c, more, hs.append hp⟩
    rcases text with _ | ⟨c, cs⟩
    · exact .inl rfl
    by_cases hc : Symbol.ofChar c = .closing
    · exact .inr ⟨[], c, cs, rfl, rfl, .inl hc⟩
    by_cases ho : Symbol.ofChar c = .opening
    · cases hg : closeGroup cs with
      | none => exact .inr ⟨[], c, cs, rfl, rfl, .inr ⟨ho, hg⟩⟩
      | some cut =>
        obtain ⟨inside, rest⟩ := cut
        obtain ⟨d, rfl, hd, hi⟩ := closeGroup_balanced hg
        have behind := shorter (c :: (inside ++ [d])) rest (.group ho hi hd) (by simp [← h]; omega)
        simpa using behind
    · exact shorter [c] cs (balanced_singleton ho hc) (by simp [← h])

namespace FirstStray

variable {text before rest : List Char} {c : Char}

/-- What has no partner is found from that bracket on. -/
theorem unmatched_eq (h : FirstStray text before c rest) : unmatched text =
    ((Unmatched.mk [] []).step before.length c).after (before.length + 1) rest := by
  rw [h.eq_append, h.balanced.unmatched_append, Unmatched.after]

/-- Brackets before it have partners. -/
theorem le_of_mem (h : FirstStray text before c rest) {q : Nat}
    (hq : q ∈ (unmatched text).positions) : before.length ≤ q := by
  have found := Unmatched.extends_after ⟨[], []⟩ before.length (c :: rest)
  rw [Unmatched.after, ← h.unmatched_eq] at found
  rcases List.mem_append.mp hq with hq | hq
  · exact (found.openings q hq).resolve_left List.not_mem_nil
  · exact (found.closings q hq).resolve_left List.not_mem_nil

theorem mem_closings (h : FirstStray text before c rest) (hc : Symbol.ofChar c = .closing) :
    before.length ∈ (unmatched text).closings := by
  rw [h.unmatched_eq, Unmatched.step_closing_nil hc]
  exact (Unmatched.extends_after _ _ rest).kept _ List.mem_cons_self

/-- It is on the stack exactly when it is an opening bracket. -/
theorem mem_openings_iff (h : FirstStray text before c rest) :
    before.length ∈ (unmatched text).openings ↔ Symbol.ofChar c = .opening := by
  rw [h.unmatched_eq]
  rcases h.stray with hc | ⟨ho, hg⟩
  · rw [Unmatched.step_closing_nil hc, hc]
    refine iff_of_false (fun hq => ?_) (by simp)
    -- Behind a closing bracket, only later ones get on the empty stack.
    rcases (Unmatched.extends_after _ _ rest).openings _ hq with hq | hq
    · exact List.not_mem_nil hq
    · exact absurd hq (Nat.not_succ_le_self _)
  · rw [Unmatched.step_opening ho]
    have empty : ([] : List Nat).length = 0 := rfl
    exact iff_of_true (Unmatched.mem_openings_after hg empty) ho

theorem mem_positions (h : FirstStray text before c rest) :
    before.length ∈ (unmatched text).positions := by
  rcases h.stray with hc | ⟨ho, -⟩
  · exact List.mem_append_right _ (h.mem_closings hc)
  · exact List.mem_append_left _ (h.mem_openings_iff.mpr ho)

/-- There is one first bracket without a partner. -/
theorem unique {before' rest' : List Char} {c' : Char} (h : FirstStray text before c rest)
    (h' : FirstStray text before' c' rest') : before = before' ∧ c = c' ∧ rest = rest' := by
  have le := h.le_of_mem h'.mem_positions
  have ge := h'.le_of_mem h.mem_positions
  have same := h.eq_append.symm.trans h'.eq_append
  obtain ⟨rfl, tail⟩ := List.append_inj same (Nat.le_antisymm le ge)
  obtain ⟨rfl, rfl⟩ := List.cons.inj tail
  exact ⟨rfl, rfl, rfl⟩

/-- If there is a first one, there is one. -/
theorem unmatched_ne (h : FirstStray text before c rest) : unmatched text ≠ ⟨[], []⟩ := by
  intro none
  have found := h.mem_positions
  rw [none] at found
  exact List.not_mem_nil found

/-- A balanced text has none. -/
theorem not_balanced (h : FirstStray text before c rest) : ¬ Balanced text :=
  fun hb => h.unmatched_ne hb.unmatched

/-- It is behind every balanced beginning of the text. -/
theorem of_append {pre : List Char} (h : FirstStray (pre ++ text) before c rest)
    (hp : Balanced pre) : ∃ between, before = pre ++ between ∧ FirstStray text between c rest := by
  rcases balanced_or_firstStray text with hb | ⟨between, d, more, hs⟩
  · exact absurd (hp.append hb) h.not_balanced
  · obtain ⟨rfl, rfl, rfl⟩ := h.unique (hs.append hp)
    exact ⟨between, rfl, hs⟩

end FirstStray

end Propositional.Formula
