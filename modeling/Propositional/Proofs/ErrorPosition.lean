import Propositional.Proofs.Brackets
import Propositional.Proofs.Nesting
import Propositional.Proofs.Viability

/-!
# Where errors are reported

An error names the first position at which the text goes wrong. What comes before that position can
still be continued to a formula, and, unless the error is a bracket that is never closed, what comes
up to and including it cannot (`Locates`).

The readers work on spans of the text and know nothing of what surrounds them. `Spans` says how a
span lies in the text: it reaches to the end, or to the bracket that closes the group it is in. From
that and from the hole that the text before the span leads to (`Proofs.Viability`), each error is
located where it arises, so no error has to be moved on its way out of the readers.
-/

namespace Propositional.Formula

/-- A symbol that must be followed by an operand. -/
def AwaitsOperand (c : Char) : Prop :=
  Symbol.ofChar c = .negation ∨ OpensFormula c

/-- What an error says about the text, given which texts are viable:

* an unexpected symbol is the first after which the text is no longer viable;
* a bracket that is never closed could stand where it does;
* a missing operand is missing after a symbol that needs one, at the end of the text or before the
  bracket that closes the group, where the text is no longer viable. -/
def Locates (viable : List Char → Prop) (text : List Char) : ParseError → Prop
  | .emptyText => text = []
  | .unexpected p c => text[p]? = some c ∧ viable (text.take p) ∧ ¬ viable (text.take (p + 1))
  | .unclosed p => viable (text.take p) ∧ ∃ c, text[p]? = some c ∧ Symbol.ofChar c = .opening
  | .missingOperand p => viable (text.take p) ∧
      (∃ q c, p = q + 1 ∧ text[q]? = some c ∧ AwaitsOperand c) ∧
        (p = text.length ∨ Closes text p ∧ ¬ viable (text.take (p + 1)))

/-! ## Spans of a text -/

/-- The span comes after `before` and reaches to the end of the text or of a group. -/
inductive Spans (text : List Char) : (grouped : Bool) → (before span : List Char) → Prop
  | whole {before span} : text = before ++ span → Spans text false before span
  | group {before o passed span c rest} : Symbol.ofChar o = .opening → Balanced passed →
      Balanced span → Symbol.ofChar c = .closing →
      text = before ++ o :: (passed ++ (span ++ c :: rest)) →
      Spans text true (before ++ o :: passed) span

variable {text : List Char}

theorem Spans.eq_append {grouped : Bool} {before span : List Char}
    (h : Spans text grouped before span) : ∃ after, text = before ++ (span ++ after) := by
  cases h with
  | whole e => exact ⟨[], by simpa using e⟩
  | group _ _ _ _ e => exact ⟨_, by simpa using e⟩

/-- A span without a balanced beginning. -/
theorem Spans.drop {grouped : Bool} {before passed span : List Char}
    (h : Spans text grouped before (passed ++ span)) (hp : Balanced passed) :
    Spans text grouped (before ++ passed) span := by
  cases h with
  | whole e => exact .whole (by simpa using e)
  | @group before o mid _ c rest ho hm hs hc e =>
    have : Spans text true (before ++ o :: (mid ++ passed)) span :=
      .group ho (hm.append hp) (hs.of_append hp) hc (by simpa using e)
    simpa using this

/-- A span without a symbol that is no bracket. -/
theorem Spans.drop_symbol {grouped : Bool} {before span : List Char} {c : Char}
    (h : Spans text grouped before (c :: span)) (ho : Symbol.ofChar c ≠ .opening)
    (hc : Symbol.ofChar c ≠ .closing) : Spans text grouped (before ++ [c]) span := by
  have h : Spans text grouped before ([c] ++ span) := h
  exact h.drop (balanced_singleton ho hc)

/-- The inside of a group at the start of a span. -/
theorem Spans.group_inside {grouped : Bool} {before cs inside rest : List Char} {o : Char}
    (h : Spans text grouped before (o :: cs)) (ho : Symbol.ofChar o = .opening)
    (hg : closeGroup cs = some (inside, rest)) : Spans text true (before ++ [o]) inside := by
  obtain ⟨after, e⟩ := h.eq_append
  obtain ⟨c, rfl, hc, hi⟩ := closeGroup_balanced hg
  have e : text = before ++ o :: ([] ++ (inside ++ c :: (rest ++ after))) := by simpa using e
  exact .group ho rfl hi hc e

/-- A group does not go on with a closing bracket before its end. -/
theorem Spans.not_closing {before cs : List Char} {c : Char}
    (h : Spans text true before (c :: cs)) : Symbol.ofChar c ≠ .closing := by
  cases h with
  | group _ _ hs _ _ => exact hs.not_closing

/-! ## Errors where they arise -/

theorem locates_unexpected {before rest : List Char} {c : Char} (h : text = before ++ c :: rest)
    (hb : Begins before) (hn : ¬ Begins (before ++ [c])) :
    Locates Begins text (.unexpected before.length c) := by
  subst h
  refine ⟨by simp, by simpa using hb, ?_⟩
  rwa [List.take_length_add_append]

theorem locates_unclosed {before rest : List Char} {o : Char} (h : text = before ++ o :: rest)
    (hb : Begins before) (ho : Symbol.ofChar o = .opening) :
    Locates Begins text (.unclosed before.length) := by
  subst h
  exact ⟨by simpa using hb, o, by simp, ho⟩

/-- At the end of a span there is no operand. -/
theorem locates_missingOperand {room : Nat} {negated grouped : Bool} {before : List Char} {c : Char}
    (hs : Spans text grouped (before ++ [c]) []) (hole : PrimaryHole room negated (before ++ [c]))
    (hc : AwaitsOperand c) : Locates Begins text (.missingOperand (before ++ [c]).length) := by
  have hb : Begins (before ++ [c]) := hole.begins
  -- The span has its own decomposition of what comes before it, so this one gets a name.
  generalize hpre : before ++ [c] = pre at *
  obtain ⟨after, e⟩ := hs.eq_append
  refine ⟨by simpa [e] using hb, ⟨before.length, c, by simp [← hpre], by simp [e, ← hpre], hc⟩, ?_⟩
  cases hs with
  | whole e => exact .inl (by simp [e])
  | @group outer o passed _ d rest ho hp _ hd e =>
    right
    refine ⟨⟨outer, o, passed, d, rest, by simpa using e, rfl, ho, hd, hp⟩, ?_⟩
    have e : text = (outer ++ o :: passed) ++ d :: rest := by simpa using e
    rw [e, List.take_length_add_append]
    exact hole.not_begins (by simp [hd]) (by simp [hd]) (by simp [hd])

/-! ## Errors of the readers -/

/-- An inner reader that locates errors in what it reads with `room` formulas to open. The symbol
before its span is the one that opens the formula to be read. -/
def LocatesErrors (text : List Char) (room : Nat) (inner : InnerReader) : Prop :=
  ∀ {grouped before c span seen err}, Spans text grouped (before ++ [c]) span → Begins before →
    FormulaHole room grouped (before ++ [c]) → OpensFormula c →
    inner c before.length span seen = .error err → Locates Begins text err

theorem readPrimary_locates {room : Nat} {inner : InnerReader} (hi : LocatesErrors text room inner)
    {negated grouped : Bool} {before span : List Char} {seen : List Letter} {err : ParseError}
    (hs : Spans text grouped before span) (hole : PrimaryHole room negated before)
    (hn : ∀ c cs, span = c :: cs → Symbol.ofChar c = .negation → negated = true)
    (hlast : span = [] → ∃ pre c, before = pre ++ [c] ∧ AwaitsOperand c)
    (h : readPrimary inner before.length span seen = .error err) : Locates Begins text err := by
  cases span with
  | nil =>
    cases h
    obtain ⟨pre, c, rfl, hc⟩ := hlast rfl
    exact locates_missingOperand hs hole hc
  | cons c cs =>
    obtain ⟨after, e⟩ := hs.eq_append
    simp only [readPrimary] at h
    split at h
    · cases h
    · next ho =>
      split at h
      · cases h
        exact locates_unclosed e hole.begins ho
      · next inside rest hg =>
        simp only [bind, Except.bind] at h
        split at h
        · next hr =>
          cases h
          exact hi (hs.group_inside ho hg) hole.begins (hole.group ho) (.inl ho) hr
        · cases h
    · next hl ho =>
      cases h
      exact locates_unexpected e hole.begins (hole.not_begins (hn c cs rfl) hl ho)

theorem readOperand_locates {room : Nat} {inner : InnerReader} (hi : LocatesErrors text room inner)
    {grouped : Bool} {before span : List Char} {seen : List Letter} {err : ParseError}
    (hs : Spans text grouped before span) (hole : FormulaHole (room + 1) grouped before)
    (hlast : span = [] → ∃ pre c, before = pre ++ [c] ∧ AwaitsOperand c)
    (h : readOperand inner before.length span seen = .error err) : Locates Begins text err := by
  cases span with
  | nil =>
    cases h
    obtain ⟨pre, c, rfl, hc⟩ := hlast rfl
    exact locates_missingOperand hs hole.primary hc
  | cons c cs =>
    by_cases hc : Symbol.ofChar c = .negation
    · rw [readOperand_negation hc] at h
      have hs : Spans text grouped (before ++ [c]) cs :=
        hs.drop_symbol (by simp [hc]) (by simp [hc])
      cases hr : readPrimary inner (before.length + 1) cs seen with
      | ok p =>
        rw [hr] at h
        cases h
      | error err' =>
        rw [hr] at h
        cases h
        exact readPrimary_locates hi hs (hole.negated hc)
          (fun _ _ _ _ => rfl) (fun _ => ⟨before, c, rfl, .inl hc⟩) (by simpa using hr)
    · rw [readOperand_plain hc] at h
      refine readPrimary_locates hi hs hole.primary ?_ (fun e => absurd e (List.cons_ne_nil _ _)) h
      rintro d ds e hd
      cases e
      exact absurd hd hc

/-- An operand that is read is derived, and the position after it is told. -/
theorem readOperand_readInner_eq_ok {room position : Nat} {span : List Char} {seen : List Letter}
    {o : Operand} (hu : ∀ a ∈ span, a.toUpper = a)
    (h : readOperand (readInner room) position span seen = .ok o) :
    ∃ j ≤ room, ∃ left, span = left ++ o.rest ∧ DerivesOperand j left o.formula ∧
      o.position = position + left.length := by
  obtain ⟨j, hj, left, hspan, hl⟩ := readOperand_derived (readsDerived_readInner room) hu h
  obtain ⟨after, ha⟩ :=
    readOperand_of_derives (readsAllDerived_readInner room) hj hl position o.rest seen
  rw [← hspan, h] at ha
  exact ⟨j, hj, left, hspan, hl, congrArg Operand.position (Except.ok.inj ha)⟩

theorem readFormula_locates {room : Nat} (hu : ∀ a ∈ text, a.toUpper = a)
    (hi : LocatesErrors text room (readInner room)) {grouped : Bool} {before span : List Char}
    {seen : List Letter} {err : ParseError} (hs : Spans text grouped before span)
    (hole : FormulaHole (room + 1) grouped before)
    (hlast : span = [] → ∃ pre c, before = pre ++ [c] ∧ AwaitsOperand c)
    (h : readFormula (readInner room) before.length span seen = .error err) :
    Locates Begins text err := by
  obtain ⟨after, e⟩ := hs.eq_append
  simp only [readFormula, bind, Except.bind] at h
  split at h
  · next ho =>
    cases h
    exact readOperand_locates hi hs hole hlast ho
  · next o ho =>
    obtain ⟨j, hj, left, hspan, hl, hpos⟩ :=
      readOperand_readInner_eq_ok (fun a ha => hu a (by simp [e, ha])) ho
    split at h
    · cases h
    · next c cs hrest =>
      rw [hrest] at hspan
      subst hspan
      have hpos : o.position = (before ++ left).length := by simp [hpos]
      have hs := hs.drop hl.balanced
      rw [hpos] at h
      split at h
      · next op hop =>
        split at h
        · next hr =>
          cases h
          have hright : Spans text grouped (before ++ left ++ [c]) cs :=
            hs.drop_symbol (by simp [hop]) (by simp [hop])
          refine hi hright (hole.begins_operand hj hl) ?_ (.inr ⟨op, hop⟩) hr
          simpa using hole.right hj hl hop
        · cases h
      · next hop =>
        cases h
        refine locates_unexpected (by simpa using e) (hole.begins_operand hj hl) ?_
        rw [List.append_assoc]
        -- A closing bracket can be in the way only outside all groups, where it closes nothing.
        refine hole.not_begins_operand hl hop fun hg => ?_
        subst hg
        exact hs.not_closing

theorem locatesErrors_readInner (hu : ∀ a ∈ text, a.toUpper = a) (room : Nat) :
    LocatesErrors text room (readInner room) := by
  induction room with
  | zero =>
    -- Without room the error is about the symbol before the span.
    intro grouped before c span seen err hs hb hole hc h
    obtain ⟨after, e⟩ := hs.eq_append
    cases h
    exact locates_unexpected (by simpa using e) hb hole.not_begins
  | succ room ih =>
    intro grouped before c span seen err hs hb hole hc h
    exact readFormula_locates hu ih hs hole
      (fun _ => ⟨before, c, rfl, .inr hc⟩) (by simpa [readInner] using h)

/-! ## Errors of a whole text -/

/-- The text can be continued to one that is read as a formula. -/
def Viable (text : List Char) : Prop :=
  ∃ rest r, parse (String.ofList (text ++ rest)) = .ok r

/-- What is read can be told from the grammar, so viable texts are those that begin formulas. -/
theorem viable_iff_begins {text : List Char} (h : ∀ c ∈ text, Text.IsNormal c) :
    Viable text ↔ Begins text := by
  constructor
  · rintro ⟨rest, r, hr⟩
    obtain ⟨k, hk, hd⟩ := derives_of_parse hr
    rw [String.ofList_append, Text.normalize_append, Text.normalize_ofList h] at hd
    exact ⟨_, k, hk, _, hd⟩
  · rintro ⟨rest, k, hk, e, hd⟩
    refine ⟨rest, ⟨e, e.letters⟩, parse_of_derives hk ?_⟩
    rwa [Text.normalize_ofList hd.isNormal]

/-- An error is located by which beginnings of the text are viable, and by nothing else. -/
theorem Locates.congr {viable viable' : List Char → Prop} {text : List Char} {err : ParseError}
    (same : ∀ p, viable (text.take p) ↔ viable' (text.take p)) (h : Locates viable text err) :
    Locates viable' text err := by
  cases err with
  | emptyText => exact h
  | unexpected p c =>
    rw [Locates, same, same] at h
    exact h
  | unclosed p =>
    rw [Locates, same] at h
    exact h
  | missingOperand p =>
    rw [Locates, same, same] at h
    exact h

theorem locates_begins_of_parse {text : String} {err : ParseError} (h : parse text = .error err) :
    Locates Begins (Text.normalize text) err := by
  by_cases hne : Text.normalize text = []
  · rw [parse, hne] at h
    cases h
    exact hne
  · rw [parse_of_ne_nil hne] at h
    have hu : ∀ a ∈ Text.normalize text, a.toUpper = a := fun a ha =>
      (Text.isNormal_of_mem_normalize ha).2
    have hs : Spans (Text.normalize text) false [] (Text.normalize text) := .whole rfl
    exact readFormula_locates hu (locatesErrors_readInner hu (maxOpen - 1)) hs formulaHole_nil
      (fun e => absurd e hne) h

/-- Every error of reading a text names the first position at which the normal form of the text goes
wrong, and only a blank text is reported as empty. -/
theorem parse_error_locates (text : String) :
    (parse text = .error .emptyText ↔ Text.normalize text = []) ∧
      ∀ err, parse text = .error err → Locates Viable (Text.normalize text) err := by
  have same : ∀ p, Begins ((Text.normalize text).take p) ↔ Viable ((Text.normalize text).take p) :=
    fun p => (viable_iff_begins fun c hc =>
      Text.isNormal_of_mem_normalize (List.mem_of_mem_take hc)).symm
  refine ⟨⟨locates_begins_of_parse, fun h => ?_⟩, fun err h => ?_⟩
  · rw [parse, h]
  · exact (locates_begins_of_parse h).congr same

/-- In `(A&]` the operand is missing before the bracket that closes the group. -/
theorem locates_missing_operand_in_group :
    parse "( a & ]" = .error (.missingOperand 3) ∧
      Locates Viable ['(', 'A', '&', ']'] (.missingOperand 3) := by
  have h : parse "( a & ]" = .error (.missingOperand 3) := rfl
  exact ⟨h, (parse_error_locates "( a & ]").2 _ h⟩

end Propositional.Formula
