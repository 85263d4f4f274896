import Propositional.Proofs.Recording
import Propositional.Proofs.ErrorPosition

/-!
# Reading by positions does not fail

The readers by positions return what the readers of spans return, on every text, and so they fail on
none (`read_eq_parse`). A reader that follows another one (`Follows`) also records nothing but what
is sound (`Event.Sound`), and leaves as many formulas being read as there were.

The proof goes through the readers one by one, for whatever reads the formulas inside, and puts them
together along the number of formulas that may still be opened (`followsInner_readFormula`). A text
is split into what comes before a span, the span, and what comes after it, so that the positions are
lengths and looking up a symbol is reading the first one of what is left.
-/

namespace Propositional.Formula.Indexed

/-- What is recorded is as it should be: spans lie in the text, an operand ends behind its beginning
and in its span, groups begin with an opening bracket, the number of formulas that are being read
stays within the limit and is the same after reading a formula as before, and only a formula with a
symbol before it is one too many. -/
def Event.Sound (text : List Char) : Event → Prop
  | .formula start stop before after =>
    start ≤ stop ∧ stop ≤ text.length ∧ before ≤ maxOpen ∧ (before = maxOpen → 1 ≤ start) ∧
      after = before
  | .opened n => n ≤ maxOpen
  | .operand start stop next =>
    start ≤ stop ∧ stop ≤ text.length ∧ ∀ p, next = some p → start < p ∧ p ≤ stop
  | .group p stop | .search p stop =>
    p < stop ∧ stop ≤ text.length ∧ ∃ c, text[p]? = some c ∧ Symbol.ofChar c = .opening

/-! ## Runs of readers -/

variable {text : List Char} {s s' s'' : State}

/-- From the first state to the second one, as many formulas are being read as before, and what is
recorded in between is sound. -/
structure Keeps (text : List Char) (s s' : State) : Prop where
  depth : s'.depth = s.depth
  events : ∀ e ∈ s'.events, e ∈ s.events ∨ e.Sound text

theorem Keeps.refl (text : List Char) (s : State) : Keeps text s s :=
  ⟨rfl, fun _ => .inl⟩

theorem Keeps.trans (h : Keeps text s s') (h' : Keeps text s' s'') : Keeps text s s'' where
  depth := h'.depth.trans h.depth
  events e he := by
    rcases h'.events e he with he | he
    · exact h.events e he
    · exact .inr he

/-- From a state, the reader does not fail. It returns what `view` shows of the expected result, has
noted the letters that go with it, and keeps the rest of the state. -/
def Follows {α β : Type} (text : List Char) (x : Reader α) (s : State) (r : Except ParseError β)
    (view : β → α × List Letter) : Prop :=
  ∃ s', x s = some (r.map fun b => (view b).1, s') ∧ Keeps text s s' ∧
    ∀ b, r = .ok b → s'.seen = (view b).2

namespace Follows

variable {α β γ δ : Type} {x : Reader α} {f : α → Reader γ} {view : β → α × List Letter}
  {view' : δ → γ × List Letter} {r : Except ParseError β} {r' : Except ParseError δ}

protected theorem pure {a : α} {b : β} (h : view b = (a, s.seen)) :
    Follows text (Pure.pure a) s (.ok b) view := by
  refine ⟨s, ?_, .refl text s, fun b' hb => ?_⟩
  · show some (Except.ok a, s) = some (Except.ok (view b).1, s)
    rw [h]
  · cases hb
    rw [h]

protected theorem throw (e : ParseError) : Follows text (throw e : Reader α) s (.error e) view :=
  ⟨s, rfl, .refl text s, fun _ hb => nomatch hb⟩

/-- After an error nothing comes next. -/
theorem bind_error {e : ParseError} (h : Follows text x s (.error e) view) :
    Follows text (x >>= f) s (.error e) view' := by
  obtain ⟨s', hx, keeps, -⟩ := h
  refine ⟨s', ?_, keeps, fun _ hb => nomatch hb⟩
  rw [bind_apply, hx]
  rfl

/-- After a value comes what follows the rest. -/
theorem bind_ok {b : β} (h : Follows text x s (.ok b) view)
    (hf : ∀ s', Keeps text s s' → s'.seen = (view b).2 → Follows text (f (view b).1) s' r' view') :
    Follows text (x >>= f) s r' view' := by
  obtain ⟨s', hx, keeps, seen⟩ := h
  obtain ⟨s'', hf, keeps', seen'⟩ := hf s' keeps (seen b rfl)
  refine ⟨s'', ?_, keeps.trans keeps', seen'⟩
  rw [bind_apply, hx]
  exact hf

protected theorem bind {g : β → Except ParseError δ} (h : Follows text x s r view)
    (hf : ∀ b s', r = .ok b → Keeps text s s' → s'.seen = (view b).2 →
      Follows text (f (view b).1) s' (g b) view') :
    Follows text (x >>= f) s (r >>= g) view' := by
  cases r with
  | error e => exact h.bind_error
  | ok b => exact h.bind_ok fun s' => hf b s' rfl

/-- After a value comes another one. -/
protected theorem map {g : β → δ} {k : α → γ} (h : Follows text x s r view)
    (hg : ∀ b, view' (g b) = (k (view b).1, (view b).2)) :
    Follows text (x >>= fun a => Pure.pure (k a)) s (r.map g) view' := by
  cases r with
  | error e => exact h.bind_error
  | ok b =>
    refine h.bind_ok fun s' _ seen => Follows.pure ?_
    rw [hg, seen]

/-- A check that holds. -/
theorem check_bind {o : Option α} {a : α} (ho : o = some a) (h : Follows text (f a) s r' view') :
    Follows text ((liftM o : Reader α) >>= f) s r' view' := by
  subst ho
  exact h

theorem note_bind {x : Letter} {f : Unit → Reader γ}
    (h : Follows text (f ()) { s with seen := Letter.note s.seen x } r' view') :
    Follows text (note x >>= f) s r' view' := by
  obtain ⟨s', hx, keeps, seen⟩ := h
  exact ⟨s', hx, ⟨keeps.depth, keeps.events⟩, seen⟩

protected theorem observe {event : State → State → Except ParseError α → Event}
    (h : Follows text x s r view)
    (he : ∀ s', Keeps text s s' → (event s s' (r.map fun b => (view b).1)).Sound text) :
    Follows text (observe event x) s r view := by
  obtain ⟨s', hx, keeps, seen⟩ := h
  refine ⟨{ s' with events := event s s' (r.map fun b => (view b).1) :: s'.events }, ?_,
    ⟨keeps.depth, fun e h => ?_⟩, seen⟩
  · rw [Indexed.observe, hx]
    rfl
  · rcases List.mem_cons.mp h with rfl | h
    · exact .inr (he s' keeps)
    · exact keeps.events e h

protected theorem nested (lt : s.depth < maxOpen)
    (h : Follows text x (s.setDepth (s.depth + 1)) r view) :
    Follows text (nested x) s r view := by
  obtain ⟨s', hx, keeps, seen⟩ := h
  have depth : s'.depth = s.depth + 1 := keeps.depth
  refine ⟨s'.setDepth s.depth, ?_, ⟨rfl, fun e h => ?_⟩, seen⟩
  · rw [Indexed.nested, hx, Option.bind_some]
    show (minus s'.depth 1).bind _ = _
    rw [depth]
    rfl
  · rcases List.mem_cons.mp h with rfl | h
    · exact .inr (Nat.le_of_lt lt)
    rcases keeps.events e h with h | h
    · rcases List.mem_cons.mp h with rfl | h
      · exact .inr lt
      · exact .inl h
    · exact .inr h

end Follows

/-! ## Looking for the end of a group -/

theorem scan_opening {c : Char} (h : Symbol.ofChar c = .opening) (level p : Nat) (cs : List Char) :
    scan level p (c :: cs) = scan (level + 1) (p + 1) cs := by
  simp only [scan, h]

theorem scan_closing_one {c : Char} (h : Symbol.ofChar c = .closing) (p : Nat) (cs : List Char) :
    scan 1 p (c :: cs) = some (some p) := by
  simp only [scan, h]
  rfl

theorem scan_closing_succ {c : Char} (h : Symbol.ofChar c = .closing) (level p : Nat)
    (cs : List Char) : scan (level + 2) p (c :: cs) = scan (level + 1) (p + 1) cs := by
  simp only [scan, h]
  rfl

theorem scan_other {c : Char} (ho : Symbol.ofChar c ≠ .opening) (hc : Symbol.ofChar c ≠ .closing)
    (level p : Nat) (cs : List Char) : scan level p (c :: cs) = scan level (p + 1) cs := by
  conv => lhs; unfold scan
  split
  · next h => exact absurd h ho
  · next h => exact absurd h hc
  · rfl

/-- Inside a group, the first bracket at which none is open any more ends the group. -/
theorem scan_succ (level p : Nat) (passed cs : List Char) : scan (level + 1) p cs =
    some ((closeGroupFrom level passed cs).map fun cut => p + cut.1.length - passed.length) := by
  induction cs generalizing level p passed with
  | nil => rfl
  | cons c cs ih =>
    have next (level : Nat) : scan (level + 1) (p + 1) cs =
        some ((closeGroupFrom level (c :: passed) cs).map fun cut =>
          p + cut.1.length - passed.length) := by
      rw [ih level (p + 1) (c :: passed)]
      simp [Nat.add_right_comm]
    by_cases ho : Symbol.ofChar c = .opening
    · rw [closeGroupFrom_opening ho, scan_opening ho, next]
    by_cases hc : Symbol.ofChar c = .closing
    · rcases level with _ | level
      · rw [closeGroupFrom_closing_zero hc, scan_closing_one hc]
        simp
      · rw [closeGroupFrom_closing_succ hc, scan_closing_succ hc, next]
    · rw [closeGroupFrom_other ho hc, scan_other ho hc, next]

/-- From its first bracket on, a group ends where the text is cut after that bracket. -/
theorem scan_group {o : Char} (ho : Symbol.ofChar o = .opening) (p : Nat) (cs : List Char) :
    scan 0 p (o :: cs) = some ((closeGroup cs).map fun cut => p + 1 + cut.1.length) := by
  rw [scan_opening ho, scan_succ 0 (p + 1) []]
  rfl

theorem slice_append (before span after : List Char) :
    slice (before ++ (span ++ after)) before.length (before.length + span.length) = some span := by
  have within : before.length ≤ before.length + span.length ∧
      before.length + span.length ≤ (before ++ (span ++ after)).length := by
    simp
  rw [slice, if_pos within, ← List.append_assoc, ← List.length_append, List.take_left,
    List.drop_left]

/-! ## The readers -/

/-- The expected result of reading a formula, as a reader by positions returns it. -/
def formulaView (r : Reading) : Formula × List Letter := (r.formula, r.seen)

/-- The expected result of reading an operand, as a reader by positions returns it. -/
def operandView (o : Operand) : (Formula × Nat) × List Letter := ((o.formula, o.position), o.seen)

/-- The reader by positions follows the inner reader of spans when `room` more formulas may be
opened. -/
def FollowsInner (text : List Char) (room : Nat) (formula : Nat → Nat → Reader Formula)
    (inner : InnerReader) : Prop :=
  ∀ {before c span after s}, text = before ++ c :: (span ++ after) → s.depth + room = maxOpen →
    Follows text (formula (before.length + 1) (before.length + 1 + span.length)) s
      (inner c before.length span s.seen) formulaView

variable {room : Nat} {formula : Nat → Nat → Reader Formula} {inner : InnerReader}
  {before after span cs : List Char} {c o : Char}

/-- The first symbol after what comes before. -/
theorem symbol_at (e : text = before ++ c :: after) : text[before.length]? = some c := by
  simp [e]

/-- A position of an opening bracket in a span of the text. -/
theorem opening_at (e : text = before ++ (o :: cs ++ after)) (ho : Symbol.ofChar o = .opening) :
    before.length < before.length + (o :: cs).length ∧
      before.length + (o :: cs).length ≤ text.length ∧
        ∃ c, text[before.length]? = some c ∧ Symbol.ofChar c = .opening :=
  ⟨by simp, by simp [e], o, symbol_at e, ho⟩

theorem findClosing_follows (e : text = before ++ (o :: cs ++ after))
    (ho : Symbol.ofChar o = .opening) :
    Follows text (findClosing text before.length (before.length + (o :: cs).length)) s
      (match closeGroup cs with
        | none => .error (.unclosed before.length)
        | some cut => .ok cut)
      fun cut => (before.length + 1 + cut.1.length, s.seen) := by
  refine Follows.observe ?_ fun _ _ => opening_at e ho
  refine Follows.check_bind (a := o :: cs) (by rw [e]; exact slice_append ..) ?_
  refine Follows.check_bind (scan_group ho before.length cs) ?_
  cases closeGroup cs with
  | none => exact Follows.throw _
  | some cut => exact Follows.pure rfl

theorem readGroup_follows (hi : FollowsInner text room formula inner)
    (e : text = before ++ (o :: cs ++ after)) (hroom : s.depth + room = maxOpen)
    (ho : Symbol.ofChar o = .opening) :
    Follows text (readGroup formula text before.length (before.length + (o :: cs).length)) s
      (Formula.readPrimary inner before.length (o :: cs) s.seen) operandView := by
  refine Follows.observe ?_ fun _ _ => opening_at e ho
  have found := findClosing_follows (s := s) e ho
  simp only [Formula.readPrimary, ho]
  cases hg : closeGroup cs with
  | none =>
    rw [hg] at found
    exact found.bind_error
  | some cut =>
    obtain ⟨inside, rest⟩ := cut
    obtain ⟨d, -, rfl⟩ := closeGroup_eq_some hg
    rw [hg] at found
    refine found.bind_ok fun s' keeps seen => ?_
    have e : text = before ++ o :: (inside ++ (d :: rest ++ after)) := by simpa using e
    have inside_follows := hi e (keeps.depth ▸ hroom)
    rw [seen] at inside_follows
    refine inside_follows.bind fun r s'' _ _ seen => Follows.pure ?_
    have noted : s''.seen = r.seen := seen
    have position : before.length + inside.length + 2 = before.length + 1 + inside.length + 1 := by
      omega
    show ((r.formula, before.length + inside.length + 2), r.seen) = _
    rw [noted, position]
    rfl

theorem readPrimary_follows (hi : FollowsInner text room formula inner)
    (e : text = before ++ (c :: cs ++ after)) (hroom : s.depth + room = maxOpen) :
    Follows text (readPrimary formula text c before.length (before.length + (c :: cs).length)) s
      (Formula.readPrimary inner before.length (c :: cs) s.seen) operandView := by
  by_cases ho : Symbol.ofChar c = .opening
  · have group := readGroup_follows hi e hroom ho
    rwa [readPrimary, ho]
  rw [readPrimary, Formula.readPrimary]
  cases hc : Symbol.ofChar c with
  | letter x => exact Follows.note_bind (Follows.pure rfl)
  | opening => exact absurd hc ho
  | _ => exact Follows.throw _

/-- An operand takes a beginning of the span that is not empty. -/
theorem readOperand_takes {position : Nat} {seen : List Letter} {r : Operand}
    (hu : ∀ a ∈ span, a.toUpper = a)
    (h : Formula.readOperand (readInner room) position span seen = .ok r) :
    ∃ taken, span = taken ++ r.rest ∧ r.position = position + taken.length ∧ 0 < taken.length := by
  obtain ⟨j, -, taken, split, derived, next⟩ := readOperand_readInner_eq_ok hu h
  have some_taken : taken ≠ [] := (Derives.operand derived).ne_nil
  exact ⟨taken, split, next, List.length_pos_iff.mpr some_taken⟩

/-- What is recorded of reading an operand is sound. -/
theorem sound_operand (hu : ∀ a ∈ text, a.toUpper = a) (e : text = before ++ (span ++ after)) :
    Event.Sound text (.operand before.length (before.length + span.length)
      (((Formula.readOperand (readInner room) before.length span s.seen).map fun o =>
        (operandView o).1).toOption.map Prod.snd)) := by
  refine ⟨Nat.le_add_right .., by simp [e], fun p hp => ?_⟩
  cases h : Formula.readOperand (readInner room) before.length span s.seen with
  | error err =>
    rw [h] at hp
    cases hp
  | ok o =>
    obtain ⟨taken, split, next, pos⟩ := readOperand_takes (fun a ha => hu a (by simp [e, ha])) h
    rw [h] at hp
    have hp : o.position = p := Option.some.inj hp
    have length : span.length = taken.length + o.rest.length := by
      rw [split, List.length_append]
    omega

theorem readOperand_follows (hi : FollowsInner text room formula (readInner room))
    (hu : ∀ a ∈ text, a.toUpper = a) (e : text = before ++ (span ++ after))
    (hroom : s.depth + room = maxOpen) :
    Follows text (readOperand formula text before.length (before.length + span.length)) s
      (Formula.readOperand (readInner room) before.length span s.seen) operandView := by
  refine Follows.observe ?_ fun _ _ => sound_operand hu e
  rcases span with _ | ⟨c, cs⟩
  · -- There may be a symbol at the position, but it is behind the span.
    have outside : text[before.length]?.filter (fun _ =>
        before.length < before.length + ([] : List Char).length) = none := by
      simp
    rw [outside]
    exact Follows.throw _
  have first : text[before.length]?.filter (fun _ =>
      before.length < before.length + (c :: cs).length) = some c := by
    simp [e]
  rw [first]
  by_cases hc : Symbol.ofChar c = .negation
  · rw [readOperand_negation hc]
    simp only [if_pos hc]
    rcases cs with _ | ⟨d, ds⟩
    · have last : before.length + 1 = before.length + [c].length := rfl
      rw [if_pos last]
      exact Follows.throw _
    · have more : before.length + 1 ≠ before.length + (c :: d :: ds).length := by simp
      rw [if_neg more]
      have e : text = (before ++ [c]) ++ (d :: ds ++ after) := by simpa using e
      have stop : before.length + (c :: d :: ds).length
          = (before ++ [c]).length + (d :: ds).length := by
        simp
        omega
      have start : before.length + 1 = (before ++ [c]).length := by simp
      rw [stop, start]
      refine Follows.check_bind (symbol_at e) ?_
      exact (readPrimary_follows hi e hroom).map fun _ => rfl
  · rw [readOperand_plain hc]
    simp only [if_neg hc]
    exact readPrimary_follows hi e hroom

theorem readRight_follows (hi : FollowsInner text room formula (readInner room))
    (e : text = before ++ (span ++ after)) (hroom : s.depth + room = maxOpen) (left : Formula) :
    Follows text (readRight formula text left before.length (before.length + span.length)) s
      (match span with
        | [] => .ok ⟨left, s.seen⟩
        | c :: cs =>
          match Symbol.ofChar c with
          | .connective op => do
            let r ← readInner room c before.length cs s.seen
            .ok ⟨binary op left r.formula, r.seen⟩
          | _ => .error (.unexpected before.length c)) formulaView := by
  rw [readRight]
  rcases span with _ | ⟨c, cs⟩
  · have ended : before.length = before.length + ([] : List Char).length := rfl
    rw [if_pos ended]
    exact Follows.pure rfl
  · have more : before.length ≠ before.length + (c :: cs).length := by simp
    rw [if_neg more]
    refine Follows.check_bind (symbol_at e) ?_
    cases hc : Symbol.ofChar c with
    | connective op =>
      have stop : before.length + (c :: cs).length = before.length + 1 + cs.length := by
        simp
        omega
      simp only [hc]
      rw [stop]
      exact (hi e hroom).bind fun r s' _ _ seen => Follows.pure (by rw [seen]; rfl)
    | _ =>
      simp only [hc]
      exact Follows.throw _

theorem readBinary_follows (hi : FollowsInner text room formula (readInner room))
    (hu : ∀ a ∈ text, a.toUpper = a) (e : text = before ++ (span ++ after))
    (hroom : s.depth + room = maxOpen) :
    Follows text (readBinary formula text before.length (before.length + span.length)) s
      (Formula.readFormula (readInner room) before.length span s.seen) formulaView := by
  refine (readOperand_follows hi hu e hroom).bind fun o s' ho keeps seen => ?_
  obtain ⟨taken, split, next, -⟩ := readOperand_takes (fun a ha => hu a (by simp [e, ha])) ho
  have e : text = (before ++ taken) ++ (o.rest ++ after) := by
    rw [e, split]
    simp
  have right := readRight_follows (s := s') hi e (keeps.depth ▸ hroom) o.formula
  have seen : s'.seen = o.seen := seen
  have stop : (before ++ taken).length + o.rest.length = before.length + span.length := by
    rw [split, List.length_append, List.length_append, Nat.add_assoc]
  rw [stop, List.length_append, ← next, seen] at right
  exact right

/-! ## Formulas -/

/-- What is recorded of reading a formula is sound if the symbol before it is there whenever it is
one too many. -/
theorem sound_formula (e : text = before ++ (span ++ after)) (limit : s.depth ≤ maxOpen)
    (inside : s.depth = maxOpen → 1 ≤ before.length) {s' : State} (keeps : Keeps text s s') :
    Event.Sound text
      (.formula before.length (before.length + span.length) s.depth s'.depth) :=
  ⟨Nat.le_add_right .., by simp [e], limit, inside, keeps.depth⟩

/-- Reading a formula that may be opened. -/
theorem readFormula_follows {calls : Nat}
    (hi : FollowsInner text room (readFormula text calls) (readInner room))
    (hu : ∀ a ∈ text, a.toUpper = a) (e : text = before ++ (span ++ after))
    (hroom : s.depth + (room + 1) = maxOpen) :
    Follows text (readFormula text (calls + 1) before.length (before.length + span.length)) s
      (Formula.readFormula (readInner room) before.length span s.seen) formulaView := by
  have lt : s.depth < maxOpen := by omega
  refine Follows.observe ?_ fun s' keeps =>
    sound_formula e (Nat.le_of_lt lt) (fun h => absurd h (Nat.ne_of_lt lt)) keeps
  have opened : (s.setDepth (s.depth + 1)).depth + room = maxOpen := by
    show s.depth + 1 + room = maxOpen
    omega
  have body := (readBinary_follows hi hu e opened).nested lt
  show Follows text (if s.depth = maxOpen then _ else _) s _ _
  rw [if_neg (Nat.ne_of_lt lt)]
  exact body

/-- Reading a formula inside another follows the reader of spans, by induction on the number of
formulas that may still be opened. One call more may be nested than that. -/
theorem followsInner_readFormula (hu : ∀ a ∈ text, a.toUpper = a) (room : Nat) :
    FollowsInner text room (readFormula text (room + 1)) (readInner room) := by
  induction room with
  | zero =>
    intro before c span after s e hroom
    have full : s.depth = maxOpen := hroom
    refine Follows.observe ?_ fun s' keeps => ?_
    · show Follows text (if s.depth = maxOpen then _ else _) s _ _
      rw [if_pos full]
      have last : minus (before.length + 1) 1 = some before.length := rfl
      exact Follows.check_bind last (Follows.check_bind (symbol_at e) (Follows.throw _))
    · have e' : text = (before ++ [c]) ++ (span ++ after) := by simpa using e
      have inside : s.depth = maxOpen → 1 ≤ (before ++ [c]).length := fun _ => by simp
      have sound := sound_formula e' (Nat.le_of_eq full) inside keeps
      rwa [List.length_append] at sound
  | succ room ih =>
    intro before c span after s e hroom
    have e' : text = (before ++ [c]) ++ (span ++ after) := by simpa using e
    have start : (before ++ [c]).length = before.length + 1 := by simp
    have := readFormula_follows ih hu e' hroom
    rw [start] at this
    exact this

/-! ## Whole texts -/

theorem read_of_ne_nil {text : String} (h : Text.normalize text ≠ []) :
    read text = (readFormula (Text.normalize text) (maxOpen + 1) 0 (Text.normalize text).length
      .initial).map fun (r, s) => (r.map fun e => ⟨e, s.seen⟩, s) := by
  unfold read
  split
  · next e => exact absurd e h
  · rfl

/-- On every text the reader by positions returns what `parse` returns: it looks up no symbol
outside the text, takes no slice outside it, subtracts nothing from less, and nests at most one call
more than formulas may be open. No formula is left that is being read, and what is recorded is
sound. Unless the text is blank, reading all of it as a formula is recorded, and with every call the
calls of formulas, operands, groups and searches that it leads to. -/
theorem read_eq_parse (text : String) :
    ∃ s, read text = some (parse text, s) ∧ s.depth = 0 ∧
      (∀ e ∈ s.events, e.Sound (Text.normalize text)) ∧
      (Text.normalize text ≠ [] → .formula 0 (Text.normalize text).length 0 0 ∈ s.events) ∧
      ∀ e ∈ s.events, e.Traced (Text.normalize text) s.events := by
  by_cases blank : Text.normalize text = []
  · refine ⟨.initial, ?_, rfl, List.forall_mem_nil _, fun h => absurd blank h,
      List.forall_mem_nil _⟩
    rw [read, parse, blank]
  have hu : ∀ a ∈ Text.normalize text, a.toUpper = a := fun a => Text.toUpper_of_mem_normalize
  have whole : Text.normalize text = [] ++ (Text.normalize text ++ []) := by simp
  have follows : Follows (Text.normalize text) (readFormula (Text.normalize text) (maxOpen + 1) 0
      (Text.normalize text).length) .initial (parse text) formulaView := by
    have follows := readFormula_follows (s := .initial) (followsInner_readFormula hu (maxOpen - 1))
      hu whole rfl
    rw [List.length_nil, Nat.zero_add] at follows
    rw [parse_of_ne_nil blank]
    exact follows
  obtain ⟨s, run, keeps, seen⟩ := follows
  refine ⟨s, ?_, keeps.depth, fun e he => ?_, fun _ => ?_, fun e he => ?_⟩
  · rw [read_of_ne_nil blank, run]
    cases h : parse text with
    | error err => rfl
    | ok r =>
      have noted : s.seen = r.seen := seen r h
      show some (Except.ok (Reading.mk r.formula s.seen), s) = some (.ok r, s)
      rw [noted]
  · rcases keeps.events e he with he | he
    · cases he
    · exact he
  · have recorded := mem_events_readFormula run
    rwa [keeps.depth] at recorded
  · rcases ((traces_readFormula _).traces _ _).traced run e he with he | traced
    · cases he
    · exact traced

end Propositional.Formula.Indexed
