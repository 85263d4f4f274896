import Propositional.Proofs.ErrorPosition
import Propositional.Proofs.Unmatched

/-!
# Errors about brackets

A bracket is reported as never closed exactly where an operand should begin and the first bracket
without a partner stands, an opening one. A closing bracket is reported as unexpected only when it
is itself the first bracket without a partner. So these errors never name a bracket that has a
partner.

What the readers say about a span (`Blames`) is about the first bracket of the span without a
partner. Inside a group there is none, so an error from there is about something else and stands
before whatever is wrong behind the group (`Blames.group`). Outside all groups, what has been read
is balanced, and the first bracket without a partner stays ahead (`Blames.skip`). No error stands
behind it: the search for the end of a group comes before all else, in particular before it is asked
whether one more formula may be opened.
-/

namespace Propositional.Formula

/-- A symbol that stands in front of an operand without opening a group. -/
def Joins (c : Char) : Prop :=
  Symbol.ofChar c = .negation ∨ ∃ op, Symbol.ofChar c = .connective op

/-- An operand begins after the text, or the part of it that is negated. -/
def StartsOperand (before : List Char) : Prop :=
  ∀ c, before.getLast? = some c → Joins c

theorem startsOperand_nil : StartsOperand [] :=
  fun _ h => nomatch h

theorem startsOperand_singleton {c : Char} : StartsOperand [c] ↔ Joins c := by
  simp [StartsOperand]

theorem startsOperand_append_singleton {before : List Char} {c : Char} :
    StartsOperand (before ++ [c]) ↔ Joins c := by
  simp [StartsOperand]

theorem StartsOperand.append {a b : List Char} (ha : StartsOperand a) (hb : StartsOperand b) :
    StartsOperand (a ++ b) := by
  intro c hc
  rw [List.getLast?_append, Option.or_eq_some_iff] at hc
  rcases hc with hc | ⟨-, hc⟩
  · exact hb c hc
  · exact ha c hc

theorem StartsOperand.of_append {a b : List Char} (h : StartsOperand (a ++ b)) :
    StartsOperand b := by
  intro c hc
  refine h c ?_
  rw [List.getLast?_append, hc, Option.some_or]

/-- The same by the position after the text. -/
theorem startsOperand_iff (before rest : List Char) : StartsOperand before ↔
    before.length = 0 ∨ ∃ c, (before ++ rest)[before.length - 1]? = some c ∧ Joins c := by
  rcases List.eq_nil_or_concat before with rfl | ⟨init, c, rfl⟩
  · exact iff_of_true startsOperand_nil (.inl rfl)
  · rw [List.concat_eq_append, startsOperand_append_singleton]
    simp

/-- After an operand no operand begins. -/
theorem DerivesOperand.not_startsOperand {k : Nat} {text : List Char} {e : Formula}
    (h : DerivesOperand k text e) : ¬ StartsOperand text := by
  have primary {text : List Char} {e : Formula} (h : DerivesPrimary k text e) :
      ¬ StartsOperand text := by
    cases h with
    | letter x =>
      rw [startsOperand_singleton, Joins, Symbol.ofChar_name]
      simp
    | @group _ o c inside _ _ _ hc =>
      rw [← List.cons_append, startsOperand_append_singleton, Joins,
        Symbol.ofChar_eq_closing_iff_mem.mpr hc]
      simp
  cases h with
  | primary h => exact primary h
  | @neg _ c text _ _ h => exact fun hs => primary h (hs.of_append (a := [c]))

/-- What an error says about the brackets of a span that begins at position `start`:

* a bracket that is never closed is the first one without a partner, and an operand begins with it;
* a closing bracket that is unexpected is the first one without a partner;
* no error stands behind the first bracket without a partner, and if that opens an operand, nothing
  else is wrong with it. -/
def Blames (start : Nat) (span : List Char) : ParseError → Prop
  | .emptyText => False
  | .unclosed p => ∃ before o rest, FirstStray span before o rest ∧ Symbol.ofChar o = .opening ∧
      StartsOperand before ∧ p = start + before.length
  | .unexpected p d => p ≤ start + span.length ∧
      (Symbol.ofChar d = .closing →
        ∃ before rest, FirstStray span before d rest ∧ p = start + before.length) ∧
      ∀ before c rest, FirstStray span before c rest → p ≤ start + before.length ∧
        (Symbol.ofChar c = .opening → StartsOperand before → p ≠ start + before.length)
  | .missingOperand p => p ≤ start + span.length ∧
      ∀ before c rest, FirstStray span before c rest → p ≤ start + before.length

/-- An error about a span is an error about a longer one that begins with a balanced text after
which an operand begins. -/
theorem Blames.skip {start : Nat} {pre span : List Char} {err : ParseError}
    (h : Blames (start + pre.length) span err) (hp : Balanced pre) (hs : StartsOperand pre) :
    Blames start (pre ++ span) err := by
  have length : (pre ++ span).length = pre.length + span.length := List.length_append
  cases err with
  | emptyText => exact h
  | unclosed p =>
    obtain ⟨before, o, rest, hf, ho, hb, rfl⟩ := h
    exact ⟨pre ++ before, o, rest, hf.append hp, ho, hs.append hb, by simp [Nat.add_assoc]⟩
  | unexpected p d =>
    obtain ⟨inside, closes, ahead⟩ := h
    refine ⟨by omega, fun hd => ?_, fun before c rest hf => ?_⟩
    · obtain ⟨before, rest, hf, rfl⟩ := closes hd
      exact ⟨pre ++ before, rest, hf.append hp, by simp [Nat.add_assoc]⟩
    · obtain ⟨between, rfl, later⟩ := hf.of_append hp
      obtain ⟨le, ne⟩ := ahead _ _ _ later
      rw [List.length_append, ← Nat.add_assoc]
      exact ⟨le, fun hc hb => ne hc hb.of_append⟩
  | missingOperand p =>
    obtain ⟨inside, ahead⟩ := h
    refine ⟨by omega, fun before c rest hf => ?_⟩
    obtain ⟨between, rfl, later⟩ := hf.of_append hp
    rw [List.length_append, ← Nat.add_assoc]
    exact ahead _ _ _ later

/-- An error from inside a group is not about brackets, and stands before what comes after the
group. -/
theorem Blames.group {start : Nat} {inside : List Char} {err : ParseError}
    (h : Blames (start + 1) inside err) (hi : Balanced inside) {o c : Char}
    (ho : Symbol.ofChar o = .opening) (hc : Symbol.ofChar c = .closing) (rest : List Char) :
    Blames start (o :: (inside ++ c :: rest)) err := by
  have behind {before more : List Char} {d : Char}
      (hf : FirstStray (o :: (inside ++ c :: rest)) before d more) :
      inside.length + 2 ≤ before.length := by
    have hf : FirstStray ((o :: (inside ++ [c])) ++ rest) before d more := by simpa using hf
    obtain ⟨between, rfl, -⟩ := hf.of_append (hi.group ho hc)
    simp
  have length : (o :: (inside ++ c :: rest)).length = inside.length + rest.length + 2 := by
    simp
    omega
  cases err with
  | emptyText => exact h
  | unclosed p =>
    obtain ⟨before, d, more, hf, -⟩ := h
    exact absurd hi hf.not_balanced
  | unexpected p d =>
    obtain ⟨le, closes, -⟩ := h
    refine ⟨by omega, fun hd => ?_, fun before d' more hf => ?_⟩
    · obtain ⟨before, more, hf, -⟩ := closes hd
      exact absurd hi hf.not_balanced
    · have := behind hf
      exact ⟨by omega, fun _ _ => by omega⟩
  | missingOperand p =>
    refine ⟨by have := h.1; omega, fun before d' more hf => ?_⟩
    have := behind hf
    have := h.1
    omega

/-! ## Errors of the readers -/

/-- An inner reader whose errors are about the first bracket without a partner in its span, or about
the symbol that opens the formula to be read. -/
def BlamesBrackets (inner : InnerReader) : Prop :=
  ∀ {c position span seen err}, Symbol.ofChar c ≠ .closing → (∀ a ∈ span, a.toUpper = a) →
    inner c position span seen = .error err → Blames (position + 1) span err

theorem blames_missingOperand (start : Nat) (span : List Char) :
    Blames start span (.missingOperand start) :=
  ⟨Nat.le_add_right .., fun _ _ _ _ => Nat.le_add_right ..⟩

theorem readPrimary_blames {inner : InnerReader} (hi : BlamesBrackets inner) {position : Nat}
    {span : List Char} {seen : List Letter} {err : ParseError} (hu : ∀ a ∈ span, a.toUpper = a)
    (h : readPrimary inner position span seen = .error err) : Blames position span err := by
  rcases span with _ | ⟨c, cs⟩
  · cases h
    exact blames_missingOperand position []
  simp only [readPrimary] at h
  split at h
  · cases h
  · next ho =>
    split at h
    · next hg =>
      cases h
      exact ⟨[], c, cs, ⟨rfl, rfl, .inr ⟨ho, hg⟩⟩, ho, startsOperand_nil, rfl⟩
    · next inside rest hg =>
      obtain ⟨d, rfl, hd, balanced⟩ := closeGroup_balanced hg
      simp only [bind, Except.bind] at h
      split at h
      · next hr =>
        cases h
        have inner_error := hi (by simp [ho]) (fun a ha => hu a (by simp [ha])) hr
        exact inner_error.group balanced ho hd rest
      · cases h
  · next ho =>
    cases h
    refine ⟨Nat.le_add_right .., fun hc => ⟨[], cs, ⟨rfl, rfl, .inl hc⟩, rfl⟩,
      fun before d rest hf => ⟨Nat.le_add_right .., fun hd _ same => ?_⟩⟩
    -- The symbol is no opening bracket, so that bracket is not here.
    obtain rfl : before = [] := List.length_eq_zero_iff.mp (by omega)
    obtain ⟨rfl, -⟩ := List.cons.inj hf.eq_append
    exact ho hd

theorem readOperand_blames {inner : InnerReader} (hi : BlamesBrackets inner) {position : Nat}
    {span : List Char} {seen : List Letter} {err : ParseError} (hu : ∀ a ∈ span, a.toUpper = a)
    (h : readOperand inner position span seen = .error err) : Blames position span err := by
  rcases span with _ | ⟨c, cs⟩
  · cases h
    exact blames_missingOperand position []
  by_cases hc : Symbol.ofChar c = .negation
  · rw [readOperand_negation hc] at h
    cases hr : readPrimary inner (position + 1) cs seen with
    | ok p =>
      rw [hr] at h
      cases h
    | error _ =>
      rw [hr] at h
      cases h
      have primary_error := readPrimary_blames hi (fun a ha => hu a (by simp [ha])) hr
      have balanced : Balanced [c] := balanced_singleton (by simp [hc]) (by simp [hc])
      have skipped : Blames position ([c] ++ cs) err :=
        Blames.skip primary_error balanced (startsOperand_singleton.mpr (.inl hc))
      exact skipped
  · rw [readOperand_plain hc] at h
    exact readPrimary_blames hi hu h

theorem readFormula_blames {room : Nat} (hi : BlamesBrackets (readInner room)) {position : Nat}
    {span : List Char} {seen : List Letter} {err : ParseError} (hu : ∀ a ∈ span, a.toUpper = a)
    (h : readFormula (readInner room) position span seen = .error err) :
    Blames position span err := by
  simp only [readFormula, bind, Except.bind] at h
  split at h
  · next ho =>
    cases h
    exact readOperand_blames hi hu ho
  · next o ho =>
    obtain ⟨j, -, left, hspan, hl, hpos⟩ := readOperand_readInner_eq_ok hu ho
    split at h
    · cases h
    · next c cs hrest =>
      rw [hrest] at hspan
      subst hspan
      rw [hpos] at h
      split at h
      · next op hop =>
        split at h
        · next hr =>
          cases h
          have inner_error := hi (by simp [hop]) (fun a ha => hu a (by simp [ha])) hr
          have balanced : Balanced (left ++ [c]) :=
            hl.balanced.append (balanced_singleton (by simp [hop]) (by simp [hop]))
          have starts : StartsOperand (left ++ [c]) :=
            startsOperand_append_singleton.mpr (.inr ⟨op, hop⟩)
          have skipped : Blames position ((left ++ [c]) ++ cs) _ :=
            Blames.skip (by simpa [Nat.add_assoc] using inner_error) balanced starts
          simpa using skipped
        · cases h
      · next hop =>
        cases h
        refine ⟨by simp, fun hc => ⟨left, cs, ⟨rfl, hl.balanced, .inl hc⟩, rfl⟩,
          fun before d rest hf => ?_⟩
        obtain ⟨between, rfl, hf⟩ := hf.of_append hl.balanced
        rw [List.length_append]
        refine ⟨by omega, fun _ starts same => ?_⟩
        -- If it is the bracket after the operand, then no operand begins with it.
        obtain rfl : between = [] := List.length_eq_zero_iff.mp (by omega)
        rw [List.append_nil] at starts
        exact hl.not_startsOperand starts

theorem blamesBrackets_readInner (room : Nat) : BlamesBrackets (readInner room) := by
  induction room with
  | zero =>
    -- Without room the error is about the symbol before the span.
    intro c position span seen err hc _ h
    cases h
    exact ⟨by omega, fun h => absurd h hc, fun before d rest _ => ⟨by omega, fun _ _ => by omega⟩⟩
  | succ room ih =>
    intro c position span seen err _ hu h
    exact readFormula_blames ih hu h

/-! ## Errors of a whole text -/

theorem blames_of_parse {text : String} {err : ParseError} (hne : Text.normalize text ≠ [])
    (h : parse text = .error err) : Blames 0 (Text.normalize text) err := by
  rw [parse_of_ne_nil hne] at h
  exact readFormula_blames (blamesBrackets_readInner _)
    (fun a ha => Text.toUpper_of_mem_normalize ha) h

/-- A bracket that is reported as never closed is the first one without a partner. -/
theorem firstStray_of_unclosed {text : String} {p : Nat} (h : parse text = .error (.unclosed p)) :
    ∃ before o rest, FirstStray (Text.normalize text) before o rest ∧
      Symbol.ofChar o = .opening ∧ StartsOperand before ∧ p = before.length := by
  have hne : Text.normalize text ≠ [] := by
    intro e
    rw [parse, e] at h
    cases h
  obtain ⟨before, o, rest, hf, ho, hs, hp⟩ := blames_of_parse hne h
  exact ⟨before, o, rest, hf, ho, hs, by omega⟩

/-- A closing bracket that is unexpected is the first one without a partner. -/
theorem firstStray_of_unexpected {text : String} {p : Nat} {c : Char}
    (h : parse text = .error (.unexpected p c)) (hc : Symbol.ofChar c = .closing) :
    ∃ before rest, FirstStray (Text.normalize text) before c rest ∧ p = before.length := by
  have hne : Text.normalize text ≠ [] := by
    intro e
    rw [parse, e] at h
    cases h
  obtain ⟨-, closes, -⟩ := blames_of_parse hne h
  obtain ⟨before, rest, hf, hp⟩ := closes hc
  exact ⟨before, rest, hf, by omega⟩

/-- When the first bracket without a partner opens an operand and the text before it is viable, it
is reported as never closed. -/
theorem parse_of_firstStray {text : String} {before rest : List Char} {o : Char}
    (hf : FirstStray (Text.normalize text) before o rest) (ho : Symbol.ofChar o = .opening)
    (hs : StartsOperand before) (hb : Begins before) :
    parse text = .error (.unclosed before.length) := by
  have hne : Text.normalize text ≠ [] := by
    rw [hf.eq_append]
    simp
  cases hr : parse text with
  | ok r =>
    obtain ⟨k, -, hd⟩ := derives_of_parse hr
    exact absurd hd.balanced hf.not_balanced
  | error err =>
    have located := locates_begins_of_parse hr
    have blamed := blames_of_parse hne hr
    -- The text is viable up to the bracket, so that nothing before it is wrong.
    have viable {p : Nat} (hp : ¬ Begins ((Text.normalize text).take (p + 1))) :
        before.length ≤ p := by
      refine Nat.le_of_not_lt fun hlt => ?_
      refine hp (Begins.of_append (b := before.drop (p + 1)) ?_)
      rw [hf.eq_append, List.take_append_of_le_length (by omega), List.take_append_drop]
      exact hb
    have here : (Text.normalize text)[before.length]? = some o := by simp [hf.eq_append]
    cases err with
    | emptyText => exact absurd located hne
    | unclosed p =>
      obtain ⟨before', o', rest', hf', -, -, rfl⟩ := blamed
      obtain ⟨rfl, -, -⟩ := hf.unique hf'
      rw [Nat.zero_add]
    | unexpected p d =>
      obtain ⟨-, -, hn⟩ := located
      obtain ⟨-, -, ahead⟩ := blamed
      obtain ⟨le, ne⟩ := ahead _ _ _ hf
      have ge := viable hn
      exact absurd (by omega) (ne ho hs)
    | missingOperand p =>
      obtain ⟨-, -, place⟩ := located
      have le := blamed.2 _ _ _ hf
      have lt : before.length < (Text.normalize text).length := by simp [hf.eq_append]
      rcases place with rfl | ⟨closes, hn⟩
      · omega
      · obtain ⟨first, d, inside, c, more, e, rfl, -, hc, -⟩ := closes
        have ge := viable hn
        have there : (Text.normalize text)[(first ++ d :: inside).length]? = some c := by
          simp [e]
        have same : before.length = (first ++ d :: inside).length := by omega
        rw [← same, here] at there
        cases there
        rw [ho] at hc
        cases hc

/-- The first bracket without a partner, by its position, if it is an opening one. -/
theorem exists_firstStray {text : List Char} {p : Nat} (hp : p ∈ (unmatched text).openings)
    (first : ∀ q ∈ (unmatched text).positions, p ≤ q) :
    ∃ before o rest, FirstStray text before o rest ∧ Symbol.ofChar o = .opening ∧
      p = before.length := by
  rcases balanced_or_firstStray text with hb | ⟨before, o, rest, hf⟩
  · rw [hb.unmatched] at hp
    exact absurd hp List.not_mem_nil
  · have le := first _ hf.mem_positions
    have ge := hf.le_of_mem (List.mem_append_left _ hp)
    obtain rfl : p = before.length := Nat.le_antisymm le ge
    exact ⟨before, o, rest, hf, hf.mem_openings_iff.mp hp, rfl⟩

/-- Brackets are reported as never closed exactly when they are the first ones without a partner,
opening ones, and stand where an operand begins after a viable text. Closing brackets are reported
as unexpected only when they are the first ones without a partner. So neither is reported about a
text whose brackets all have partners. -/
theorem bracket_errors (text : String) :
    (∀ p, parse text = .error (.unclosed p) ↔
      p ∈ (unmatched (Text.normalize text)).openings ∧
        (∀ q ∈ (unmatched (Text.normalize text)).positions, p ≤ q) ∧
        Viable ((Text.normalize text).take p) ∧
        (p = 0 ∨ ∃ c, (Text.normalize text)[p - 1]? = some c ∧ Joins c)) ∧
    (∀ p c, parse text = .error (.unexpected p c) → Symbol.ofChar c = .closing →
      p ∈ (unmatched (Text.normalize text)).closings ∧
        ∀ q ∈ (unmatched (Text.normalize text)).positions, p ≤ q) ∧
    (unmatched (Text.normalize text) = ⟨[], []⟩ →
      (∀ p, parse text ≠ .error (.unclosed p)) ∧
        ∀ p c, parse text = .error (.unexpected p c) → Symbol.ofChar c ≠ .closing) := by
  have viable (p : Nat) :
      Viable ((Text.normalize text).take p) ↔ Begins ((Text.normalize text).take p) :=
    viable_iff_begins fun c hc => Text.isNormal_of_mem_normalize (List.mem_of_mem_take hc)
  refine ⟨fun p => ⟨fun h => ?_, fun h => ?_⟩, fun p c h hc => ?_, fun none => ⟨?_, ?_⟩⟩
  · obtain ⟨before, o, rest, hf, ho, hs, rfl⟩ := firstStray_of_unclosed h
    refine ⟨hf.mem_openings_iff.mpr ho, fun q => hf.le_of_mem, ?_, ?_⟩
    · exact (viable _).mpr (locates_begins_of_parse h).1
    · rw [hf.eq_append]
      exact (startsOperand_iff before (o :: rest)).mp hs
  · obtain ⟨opening, first, begins, starts⟩ := h
    obtain ⟨before, o, rest, hf, ho, rfl⟩ := exists_firstStray opening first
    rw [viable, hf.eq_append, List.take_left] at begins
    rw [hf.eq_append, ← startsOperand_iff] at starts
    exact parse_of_firstStray hf ho starts begins
  · obtain ⟨before, rest, hf, rfl⟩ := firstStray_of_unexpected h hc
    exact ⟨hf.mem_closings hc, fun q => hf.le_of_mem⟩
  · intro p h
    obtain ⟨before, o, rest, hf, -⟩ := firstStray_of_unclosed h
    exact hf.unmatched_ne none
  · intro p c h hc
    obtain ⟨before, rest, hf, -⟩ := firstStray_of_unexpected h hc
    exact hf.unmatched_ne none

/-- In the first text the bracket before `b` is never closed, in the second one the second closing
bracket is unexpected, and in the third one all brackets have partners. -/
theorem bracket_errors_of_three_texts :
    let unclosed := Text.normalize "(a] & ~(b & [c\x7d"
    let stray := Text.normalize "(a)) & (b"
    let paired := Text.normalize "(a $)"
    (5 ∈ (unmatched unclosed).openings ∧ (∀ q ∈ (unmatched unclosed).positions, 5 ≤ q) ∧
      Viable (unclosed.take 5) ∧ (5 = 0 ∨ ∃ c, unclosed[5 - 1]? = some c ∧ Joins c) ∧
      parse "(a] & ~(b & [c\x7d" = .error (.unclosed 5)) ∧
    (parse "(a)) & (b" = .error (.unexpected 3 ')') ∧ Symbol.ofChar ')' = .closing ∧
      3 ∈ (unmatched stray).closings ∧ ∀ q ∈ (unmatched stray).positions, 3 ≤ q) ∧
    unmatched paired = ⟨[], []⟩ ∧ (∀ p, parse "(a $)" ≠ .error (.unclosed p)) ∧
      parse "(a $)" = .error (.unexpected 2 '$') ∧ Symbol.ofChar '$' ≠ .closing := by
  intro unclosed stray paired
  have opening : 5 ∈ (unmatched unclosed).openings := by decide +kernel
  have first : ∀ q ∈ (unmatched unclosed).positions, 5 ≤ q := by decide +kernel
  have completed : parse "(A]&~D" = .ok ⟨.binary .and (.atom ⟨0⟩) (.neg (.atom ⟨3⟩)), [⟨0⟩, ⟨3⟩]⟩ :=
    rfl
  have viable : Viable (unclosed.take 5) := ⟨['D'], _, completed⟩
  have starts : 5 = 0 ∨ ∃ c, unclosed[5 - 1]? = some c ∧ Joins c := .inr ⟨'~', rfl, .inl rfl⟩
  have read : parse "(a)) & (b" = .error (.unexpected 3 ')') := rfl
  have none : unmatched paired = ⟨[], []⟩ := by decide +kernel
  have foreign : parse "(a $)" = .error (.unexpected 2 '$') := rfl
  obtain ⟨exact_place, -, -⟩ := bracket_errors "(a] & ~(b & [c\x7d"
  obtain ⟨-, stray_place, -⟩ := bracket_errors "(a)) & (b"
  obtain ⟨-, -, no_bracket⟩ := bracket_errors "(a $)"
  obtain ⟨closed, not_closing⟩ := no_bracket none
  exact ⟨⟨opening, first, viable, starts, (exact_place 5).mpr ⟨opening, first, viable, starts⟩⟩,
    ⟨read, rfl, stray_place 3 ')' read rfl⟩, none, closed, foreign, not_closing 2 '$' foreign⟩

end Propositional.Formula
