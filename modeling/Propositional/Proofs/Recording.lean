import Propositional.Proofs.Indexed

/-!
# What reading by positions records

A reader by positions records every call when the call returns. This is not said of the outermost
call only: what is recorded stays recorded (`Traces.keeps`), and with a call the calls that it leads
to are recorded too (`Event.Traced`). A formula that may be opened leads to its operand, and if a
connective comes next, to the formula right of it; an operand that begins with an opening bracket
leads to a group, also behind a negation; a group leads to the search for its closing bracket, and
if the search finds one, to the formula inside.

Each reader is gone through once, for whatever reads the formulas inside. Reading a formula then
follows by induction on the number of calls that may be nested (`traces_readFormula`).
-/

namespace Propositional.Formula.Indexed

/-- The calls that a recorded call leads to are recorded. -/
def Event.Traced (text : List Char) (events : List Event) : Event → Prop
  | .formula start stop before _ => before ≠ maxOpen →
    .opened (before + 1) ∈ events ∧
      ∃ next, .operand start stop next ∈ events ∧
        ∀ p c op, next = some p → p ≠ stop → text[p]? = some c →
          Symbol.ofChar c = .connective op →
            ∃ before after, .formula (p + 1) stop before after ∈ events
  | .operand start stop _ => ∀ c, start < stop → text[start]? = some c →
    (Symbol.ofChar c = .opening → .group start stop ∈ events) ∧
      (Symbol.ofChar c = .negation → start + 1 < stop → ∀ d, text[start + 1]? = some d →
        Symbol.ofChar d = .opening → .group (start + 1) stop ∈ events)
  | .group p stop =>
    .search p stop ∈ events ∧
      ∀ span close, slice text p stop = some span → scan 0 p span = some (some close) →
        ∃ before after, .formula (p + 1) close before after ∈ events
  | .opened _ | .search _ _ => True

/-- It stays so when more is recorded. -/
theorem Event.Traced.mono {text : List Char} {events events' : List Event}
    (more : events ⊆ events') {e : Event} (h : e.Traced text events) : e.Traced text events' := by
  cases e with
  | formula start stop before after =>
    intro room
    obtain ⟨opened, next, operand, right⟩ := h room
    refine ⟨more opened, next, more operand, fun p c op hp hstop hc hop => ?_⟩
    obtain ⟨before, after, formula⟩ := right p c op hp hstop hc hop
    exact ⟨before, after, more formula⟩
  | operand start stop next =>
    intro c hstop hc
    obtain ⟨plain, negated⟩ := h c hstop hc
    exact ⟨fun ho => more (plain ho), fun hn hstop d hd ho => more (negated hn hstop d hd ho)⟩
  | group p stop =>
    obtain ⟨search, inside⟩ := h
    refine ⟨more search, fun span close hspan hclose => ?_⟩
    obtain ⟨before, after, formula⟩ := inside span close hspan hclose
    exact ⟨before, after, more formula⟩
  | opened n => trivial
  | search p stop => trivial

/-! ## Runs of readers -/

variable {text : List Char} {s s' : State} {α β : Type}

theorem bind_apply (x : Reader α) (f : α → Reader β) (s : State) :
    (x >>= f) s = (x s).bind fun p => match p.1 with
      | .ok a => f a p.2
      | .error e => some (.error e, p.2) := by
  show StateT.bind x (ExceptT.bindCont f) s = _
  simp only [StateT.bind, Bind.bind]
  congr
  funext p
  obtain ⟨r, s⟩ := p
  cases r <;> rfl

/-- A reader that goes on with another one has run first, and the other one after it unless it
returned an error. -/
theorem of_bind {x : Reader α} {f : α → Reader β} {r : Except ParseError β}
    (run : (x >>= f) s = some (r, s')) :
    (∃ a mid, x s = some (.ok a, mid) ∧ f a mid = some (r, s')) ∨
      ∃ e, x s = some (.error e, s') := by
  rw [bind_apply] at run
  obtain ⟨⟨first, mid⟩, hx, next⟩ := Option.bind_eq_some_iff.mp run
  cases first with
  | ok a => exact .inl ⟨a, mid, hx, next⟩
  | error e =>
    cases next
    exact .inr ⟨e, hx⟩

/-- After a check that holds the reader goes on in the same state. -/
theorem of_check_bind {o : Option α} {a : α} (ho : o = some a) {f : α → Reader β}
    {r : Except ParseError β} (run : ((liftM o : Reader α) >>= f) s = some (r, s')) :
    f a s = some (r, s') := by
  subst ho
  exact run

/-- Returning something else than was read does not change the state. -/
theorem of_bind_pure {x : Reader α} {g : α → β} {r : Except ParseError β}
    (run : (x >>= fun a => Pure.pure (g a)) s = some (r, s')) :
    ∃ first, x s = some (first, s') := by
  rcases of_bind run with ⟨a, mid, first, last⟩ | ⟨e, first⟩
  · cases last
    exact ⟨_, first⟩
  · exact ⟨_, first⟩

/-- What is read with one formula more being read, in the state with this recorded. -/
theorem of_nested {x : Reader α} {r : Except ParseError α} (run : nested x s = some (r, s')) :
    ∃ after n, x (s.setDepth (s.depth + 1)) = some (r, after) ∧ s' = after.setDepth n := by
  obtain ⟨⟨r', after⟩, inner, last⟩ := Option.bind_eq_some_iff.mp run
  obtain ⟨n, -, last⟩ := Option.bind_eq_some_iff.mp last
  cases last
  exact ⟨after, n, inner, rfl⟩

/-- The event of a call is recorded when the call has run. -/
theorem of_observe {event : State → State → Except ParseError α → Event} {x : Reader α}
    {r : Except ParseError α} (run : observe event x s = some (r, s')) :
    ∃ after, x s = some (r, after) ∧
      s' = { after with events := event s after r :: after.events } := by
  obtain ⟨⟨r', after⟩, inner, last⟩ := Option.bind_eq_some_iff.mp run
  cases last
  exact ⟨after, inner, rfl⟩

/-- A call that returns is recorded. -/
theorem mem_events_of_observe {event : State → State → Except ParseError α → Event}
    {x : Reader α} {r : Except ParseError α} (run : observe event x s = some (r, s')) :
    ∃ after, after.depth = s'.depth ∧ event s after r ∈ s'.events := by
  obtain ⟨after, -, rfl⟩ := of_observe run
  exact ⟨after, rfl, List.mem_cons_self⟩

/-- Whatever the reader is run on, what was recorded before stays recorded, and the calls that the
new events lead to are recorded. -/
structure Traces (text : List Char) (x : Reader α) : Prop where
  keeps : ∀ {s r s'}, x s = some (r, s') → s.events ⊆ s'.events
  traced : ∀ {s r s'}, x s = some (r, s') →
    ∀ e ∈ s'.events, e ∈ s.events ∨ e.Traced text s'.events

namespace Traces

variable {x : Reader α} {f : α → Reader β}

/-- A reader that records nothing. -/
theorem of_silent (h : ∀ {s r s'}, x s = some (r, s') → s'.events = s.events) :
    Traces text x where
  keeps run := by
    rw [h run]
    exact List.Subset.refl _
  traced run e he := by
    rw [h run] at he
    exact .inl he

protected theorem pure (a : α) : Traces text (Pure.pure a : Reader α) :=
  of_silent fun run => by cases run; rfl

protected theorem throw (e : ParseError) : Traces text (throw e : Reader α) :=
  of_silent fun run => by cases run; rfl

protected theorem check (o : Option α) : Traces text (liftM o : Reader α) := by
  cases o with
  | none => exact of_silent fun run => nomatch run
  | some a => exact Traces.pure a

protected theorem get : Traces text (get : Reader State) :=
  of_silent fun run => by cases run; rfl

protected theorem note (x : Letter) : Traces text (note x) :=
  of_silent fun run => by cases run; rfl

protected theorem bind (hx : Traces text x) (hf : ∀ a, Traces text (f a)) :
    Traces text (x >>= f) where
  keeps run := by
    rcases of_bind run with ⟨a, mid, first, next⟩ | ⟨e, first⟩
    · exact List.Subset.trans (hx.keeps first) ((hf a).keeps next)
    · exact hx.keeps first
  traced run e he := by
    rcases of_bind run with ⟨a, mid, first, next⟩ | ⟨_, first⟩
    · rcases (hf a).traced next e he with he | traced
      · rcases hx.traced first e he with he | traced
        · exact .inl he
        · exact .inr (traced.mono ((hf a).keeps next))
      · exact .inr traced
    · exact hx.traced first e he

/-- A call may be recorded when the calls that it leads to are. -/
protected theorem observe {event : State → State → Except ParseError α → Event}
    (hx : Traces text x)
    (he : ∀ {s r s'}, x s = some (r, s') → (event s s' r).Traced text s'.events) :
    Traces text (observe event x) where
  keeps run := by
    obtain ⟨after, inner, rfl⟩ := of_observe run
    exact fun e he => List.mem_cons_of_mem _ (hx.keeps inner he)
  traced run e mem := by
    obtain ⟨after, inner, rfl⟩ := of_observe run
    rcases List.mem_cons.mp mem with rfl | mem
    · exact .inr ((he inner).mono (List.subset_cons_self ..))
    · rcases hx.traced inner e mem with mem | traced
      · exact .inl mem
      · exact .inr (traced.mono (List.subset_cons_self ..))

/-- With one formula more being read, only the numbers of formulas are recorded besides. -/
protected theorem nested (hx : Traces text x) : Traces text (nested x) where
  keeps run := by
    obtain ⟨after, n, inner, rfl⟩ := of_nested run
    exact fun e he => List.mem_cons_of_mem _ (hx.keeps inner (List.mem_cons_of_mem _ he))
  traced run e mem := by
    obtain ⟨after, n, inner, rfl⟩ := of_nested run
    rcases List.mem_cons.mp mem with rfl | mem
    · exact .inr trivial
    rcases hx.traced inner e mem with mem | traced
    · rcases List.mem_cons.mp mem with rfl | mem
      · exact .inr trivial
      · exact .inl mem
    · exact .inr (traced.mono (List.subset_cons_self ..))

end Traces

/-! ## The readers -/

/-- The reader records that it reads a formula between its positions, and what that leads to. -/
structure TracesFormula (text : List Char) (formula : Nat → Nat → Reader Formula) : Prop where
  traces : ∀ start stop, Traces text (formula start stop)
  mem_events : ∀ {start stop s r s'}, formula start stop s = some (r, s') →
    ∃ before after, .formula start stop before after ∈ s'.events

variable {formula : Nat → Nat → Reader Formula} {start stop p : Nat}

/-- Looking for the end of a group is recorded. -/
theorem mem_events_findClosing {r : Except ParseError Nat}
    (run : findClosing text p stop s = some (r, s')) : .search p stop ∈ s'.events := by
  obtain ⟨-, -, recorded⟩ := mem_events_of_observe run
  exact recorded

theorem traces_findClosing : Traces text (findClosing text p stop) := by
  refine Traces.observe ?_ fun _ => trivial
  refine (Traces.check _).bind fun span => (Traces.check _).bind fun found => ?_
  cases found with
  | none => exact Traces.throw _
  | some close => exact Traces.pure close

/-- What counting brackets finds is returned. -/
theorem findClosing_eq {r : Except ParseError Nat} {span : List Char} {close : Nat}
    (run : findClosing text p stop s = some (r, s')) (hspan : slice text p stop = some span)
    (hclose : scan 0 p span = some (some close)) : r = .ok close := by
  obtain ⟨after, inner, -⟩ := of_observe run
  have found := of_check_bind hclose (of_check_bind hspan inner)
  cases found
  rfl

/-- Reading a group is recorded. -/
theorem mem_events_readGroup {r : Except ParseError (Formula × Nat)}
    (run : readGroup formula text p stop s = some (r, s')) : .group p stop ∈ s'.events := by
  obtain ⟨-, -, recorded⟩ := mem_events_of_observe run
  exact recorded

theorem traces_readGroup (hf : TracesFormula text formula) :
    Traces text (readGroup formula text p stop) := by
  refine Traces.observe ?_ fun run => ⟨?_, fun span close hspan hclose => ?_⟩
  · exact traces_findClosing.bind fun close => (hf.traces _ _).bind fun e => Traces.pure _
  · rcases of_bind run with ⟨close, mid, search, inside⟩ | ⟨e, search⟩
    · have rest : Traces text (formula (p + 1) close >>= fun e => Pure.pure (e, close + 1)) :=
        (hf.traces _ _).bind fun e => Traces.pure _
      exact rest.keeps inside (mem_events_findClosing search)
    · exact mem_events_findClosing search
  · rcases of_bind run with ⟨found, mid, search, inside⟩ | ⟨e, search⟩
    · cases findClosing_eq search hspan hclose
      obtain ⟨r, inside⟩ := of_bind_pure inside
      exact hf.mem_events inside
    · cases findClosing_eq search hspan hclose

theorem traces_readPrimary (hf : TracesFormula text formula) (c : Char) :
    Traces text (readPrimary formula text c p stop) := by
  rw [readPrimary]
  cases Symbol.ofChar c with
  | letter x => exact (Traces.note x).bind fun _ => Traces.pure _
  | opening => exact traces_readGroup hf
  | _ => exact Traces.throw _

/-- A primary that begins with an opening bracket is a group. -/
theorem mem_events_readPrimary {c : Char} (hc : Symbol.ofChar c = .opening)
    {r : Except ParseError (Formula × Nat)}
    (run : readPrimary formula text c p stop s = some (r, s')) : .group p stop ∈ s'.events := by
  rw [readPrimary, hc] at run
  exact mem_events_readGroup run

/-- Reading an operand is recorded, with the position after it. -/
theorem mem_events_readOperand {r : Except ParseError (Formula × Nat)}
    (run : readOperand formula text start stop s = some (r, s')) :
    .operand start stop (r.toOption.map Prod.snd) ∈ s'.events := by
  obtain ⟨-, -, recorded⟩ := mem_events_of_observe run
  exact recorded

theorem traces_readOperand (hf : TracesFormula text formula) :
    Traces text (readOperand formula text start stop) := by
  refine Traces.observe ?_ fun run c hstop hc => ⟨fun ho => ?_, fun hn more d hd ho => ?_⟩
  · split
    · exact Traces.throw _
    · next c _ =>
      split
      · split
        · exact Traces.throw _
        · refine (Traces.check _).bind fun d => ?_
          exact (traces_readPrimary hf d).bind fun _ => Traces.pure _
      · exact traces_readPrimary hf c
  · have plain : Symbol.ofChar c ≠ .negation := by simp [ho]
    simp only [hc, hstop, decide_true, Option.filter_some, if_true, if_neg plain] at run
    exact mem_events_readPrimary ho run
  · simp only [hc, hstop, decide_true, Option.filter_some, if_true, if_pos hn,
      if_neg (Nat.ne_of_lt more)] at run
    obtain ⟨r, inside⟩ := of_bind_pure (of_check_bind hd run)
    exact mem_events_readPrimary ho inside

theorem traces_readRight (hf : TracesFormula text formula) (left : Formula) (next : Nat) :
    Traces text (readRight formula text left next stop) := by
  rw [readRight]
  split
  · exact Traces.pure left
  · refine (Traces.check _).bind fun c => ?_
    split
    · exact (hf.traces _ _).bind fun right => Traces.pure _
    · exact Traces.throw _

/-- After a connective the formula right of it is read. -/
theorem mem_events_readRight (hf : TracesFormula text formula) {left : Formula} {next : Nat}
    {r : Except ParseError Formula} (run : readRight formula text left next stop s = some (r, s'))
    (more : next ≠ stop) {c : Char} (hc : text[next]? = some c) {op : Connective}
    (hop : Symbol.ofChar c = .connective op) :
    ∃ before after, .formula (next + 1) stop before after ∈ s'.events := by
  rw [readRight, if_neg more] at run
  have connected := of_check_bind hc run
  simp only [hop] at connected
  obtain ⟨r, inside⟩ := of_bind_pure connected
  exact hf.mem_events inside

theorem traces_readBinary (hf : TracesFormula text formula) :
    Traces text (readBinary formula text start stop) :=
  (traces_readOperand hf).bind fun o => traces_readRight hf o.1 o.2

/-! ## Formulas -/

/-- Reading a formula is recorded. -/
theorem mem_events_readFormula {calls : Nat} {r : Except ParseError Formula}
    (run : readFormula text calls start stop s = some (r, s')) :
    .formula start stop s.depth s'.depth ∈ s'.events := by
  cases calls with
  | zero => cases run
  | succ calls =>
    rw [readFormula] at run
    obtain ⟨after, depth, recorded⟩ := mem_events_of_observe run
    rwa [depth] at recorded

/-- What reading a formula that may be opened leads to. -/
theorem traced_formula (hf : TracesFormula text formula) {r : Except ParseError Formula}
    (run : nested (readBinary formula text start stop) s = some (r, s')) (after : Nat) :
    (Event.formula start stop s.depth after).Traced text s'.events := by
  intro _
  obtain ⟨last, n, inner, rfl⟩ := of_nested run
  have kept : last.events ⊆ (last.setDepth n).events := List.subset_cons_self ..
  refine ⟨kept ((traces_readBinary hf).keeps inner List.mem_cons_self), ?_⟩
  rcases of_bind inner with ⟨⟨left, next⟩, mid, operand, right⟩ | ⟨e, operand⟩
  · have stays := (traces_readRight hf left next).keeps right
    refine ⟨some next, kept (stays (mem_events_readOperand operand)), ?_⟩
    intro p c op hp more hc hop
    cases hp
    obtain ⟨before, after, inside⟩ := mem_events_readRight hf right more hc hop
    exact ⟨before, after, kept inside⟩
  · exact ⟨none, kept (mem_events_readOperand operand), fun _ _ _ hp => nomatch hp⟩

/-- By induction on the number of calls that may be nested. -/
theorem traces_readFormula (calls : Nat) : TracesFormula text (readFormula text calls) := by
  induction calls with
  | zero => exact ⟨fun _ _ => .of_silent (fun run => nomatch run), fun run => nomatch run⟩
  | succ calls ih =>
    refine ⟨fun start stop => ?_, fun run => ⟨_, _, mem_events_readFormula run⟩⟩
    rw [readFormula]
    refine Traces.observe (Traces.get.bind fun state => ?_) fun {s r s'} run room => ?_
    · split
      · exact (Traces.check _).bind fun p => (Traces.check _).bind fun c => Traces.throw _
      · exact (traces_readBinary ih).nested
    · change (if s.depth = maxOpen then _ else _ : Reader Formula) s = _ at run
      rw [if_neg room] at run
      exact traced_formula ih run s'.depth room

end Propositional.Formula.Indexed
