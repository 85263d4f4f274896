import Mathlib.Data.List.Forall2
import Mathlib.Data.Option.Basic
import Propositional.Proofs.ErrorPosition

/-!
# Different spellings of a text

The readers look at characters only through the symbols that they stand for. Two texts that have the
same symbols at the same positions are therefore read alike: each reader, on spans with the same
symbols, returns the same formula or stops with the same kind of error at the same position
(`Formula.readsAlike_readInner`). What such texts may differ in is the character that an error
shows, and since an error shows the character at its position, each text has its own there
(`Formula.parse_of_synonymous`).

White space and case are gone before the readers see a text, so they make no difference at all.
-/

namespace Propositional

/-- The characters are the same or are different spellings of one symbol. -/
inductive Synonymous : Char → Char → Prop
  | same (c : Char) : Synonymous c c
  | negation {c d : Char} : c ∈ ['~', '!'] → d ∈ ['~', '!'] → Synonymous c d
  | conjunction {c d : Char} : c ∈ ['&', '^'] → d ∈ ['&', '^'] → Synonymous c d
  | opening {c d : Char} : c ∈ ['(', '[', '\x7b'] → d ∈ ['(', '[', '\x7b'] → Synonymous c d
  | closing {c d : Char} : c ∈ [')', ']', '\x7d'] → d ∈ [')', ']', '\x7d'] → Synonymous c d

theorem Synonymous.symbol_eq {c d : Char} (h : Synonymous c d) :
    Symbol.ofChar c = Symbol.ofChar d := by
  cases h with
  | same => rfl
  | negation hc hd =>
    rw [Symbol.ofChar_eq_negation_iff_mem.mpr hc, Symbol.ofChar_eq_negation_iff_mem.mpr hd]
  | conjunction hc hd =>
    have conjunction : ∀ {a}, a ∈ ['&', '^'] → Symbol.ofChar a = .connective .and :=
      fun ha => Symbol.ofChar_eq_connective_iff.mpr ha
    rw [conjunction hc, conjunction hd]
  | opening hc hd =>
    rw [Symbol.ofChar_eq_opening_iff_mem.mpr hc, Symbol.ofChar_eq_opening_iff_mem.mpr hd]
  | closing hc hd =>
    rw [Symbol.ofChar_eq_closing_iff_mem.mpr hc, Symbol.ofChar_eq_closing_iff_mem.mpr hd]

/-- The errors are of one kind and name the same position. -/
inductive ParseError.SamePlace : ParseError → ParseError → Prop
  | emptyText : SamePlace .emptyText .emptyText
  | unexpected (p : Nat) (c d : Char) : SamePlace (.unexpected p c) (.unexpected p d)
  | unclosed (p : Nat) : SamePlace (.unclosed p) (.unclosed p)
  | missingOperand (p : Nat) : SamePlace (.missingOperand p) (.missingOperand p)

/-- The results are related values, or errors at the same place. -/
inductive Alike {α : Type} (R : α → α → Prop) : Except ParseError α → Except ParseError α → Prop
  | ok {a b : α} : R a b → Alike R (.ok a) (.ok b)
  | error {e e' : ParseError} : e.SamePlace e' → Alike R (.error e) (.error e')

/-- Going on alike from results that are alike. -/
theorem Alike.bind {α β : Type} {R : α → α → Prop} {S : β → β → Prop} {x y : Except ParseError α}
    {f g : α → Except ParseError β} (h : Alike R x y) (hf : ∀ a b, R a b → Alike S (f a) (g b)) :
    Alike S (x >>= f) (y >>= g) := by
  cases h with
  | ok h => exact hf _ _ h
  | error h => exact .error h

namespace Formula

/-! ## Spans with the same symbols -/

/-- The spans have the same symbols in the same order. -/
abbrev SameSymbols : List Char → List Char → Prop :=
  List.Forall₂ fun c d => Symbol.ofChar c = Symbol.ofChar d

/-- Two ways to cut a span into a group and what follows it, with the same symbols in both. -/
def SameCut (a b : List Char × List Char) : Prop :=
  SameSymbols a.1 b.1 ∧ SameSymbols a.2 b.2

theorem closeGroupFrom_alike {cs ds : List Char} (h : SameSymbols cs ds) (level : Nat)
    {inside inside' : List Char} (hi : SameSymbols inside inside') :
    Option.Rel SameCut (closeGroupFrom level inside cs) (closeGroupFrom level inside' ds) := by
  induction h generalizing level inside inside' with
  | nil => exact .none
  | @cons c d cs ds hc hcs ih =>
    by_cases ho : Symbol.ofChar d = .opening
    · rw [closeGroupFrom_opening (hc.trans ho), closeGroupFrom_opening ho]
      exact ih _ (.cons hc hi)
    · by_cases hd : Symbol.ofChar d = .closing
      · cases level with
        | zero =>
          rw [closeGroupFrom_closing_zero (hc.trans hd), closeGroupFrom_closing_zero hd]
          exact .some ⟨List.rel_reverse hi, hcs⟩
        | succ level =>
          rw [closeGroupFrom_closing_succ (hc.trans hd), closeGroupFrom_closing_succ hd]
          exact ih _ (.cons hc hi)
      · rw [closeGroupFrom_other (hc ▸ ho) (hc ▸ hd), closeGroupFrom_other ho hd]
        exact ih _ (.cons hc hi)

/-- A group ends at the same position in both spans, or in neither. -/
theorem closeGroup_alike {cs ds : List Char} (h : SameSymbols cs ds) :
    Option.Rel SameCut (closeGroup cs) (closeGroup ds) :=
  closeGroupFrom_alike h 0 .nil

/-! ## The readers -/

/-- The operands are the same, apart from how the rest of the span is spelt. -/
inductive SameOperand : Operand → Operand → Prop
  | mk (e : Formula) (seen : List Letter) (position : Nat) {rest rest' : List Char} :
      SameSymbols rest rest' → SameOperand ⟨e, seen, position, rest⟩ ⟨e, seen, position, rest'⟩

/-- An inner reader that reads spans with the same symbols alike, whatever symbol opened them. -/
def ReadsAlike (inner : InnerReader) : Prop :=
  ∀ c d position {span span'} seen, SameSymbols span span' →
    Alike Eq (inner c position span seen) (inner d position span' seen)

variable {inner : InnerReader}

theorem readPrimary_alike (hi : ReadsAlike inner) (position : Nat) {span span' : List Char}
    (seen : List Letter) (h : SameSymbols span span') :
    Alike SameOperand (readPrimary inner position span seen)
      (readPrimary inner position span' seen) := by
  cases h with
  | nil => exact .error (.missingOperand position)
  | @cons c d cs ds hc hcs =>
    simp only [readPrimary, hc]
    split
    · exact .ok (.mk _ _ _ hcs)
    · -- Both groups are cut before what is in them is read.
      have cut := closeGroup_alike hcs
      generalize closeGroup cs = x at cut ⊢
      generalize closeGroup ds = y at cut ⊢
      cases cut with
      | none => exact .error (.unclosed position)
      | some both =>
        obtain ⟨inside, rest⟩ := both
        refine (hi c d position seen inside).bind fun r r' same => ?_
        rw [same, inside.length_eq]
        exact .ok (.mk _ _ _ rest)
    · exact .error (.unexpected position c d)

theorem readOperand_alike (hi : ReadsAlike inner) (position : Nat) {span span' : List Char}
    (seen : List Letter) (h : SameSymbols span span') :
    Alike SameOperand (readOperand inner position span seen)
      (readOperand inner position span' seen) := by
  cases h with
  | nil => exact .error (.missingOperand position)
  | @cons c d cs ds hc hcs =>
    by_cases hn : Symbol.ofChar d = .negation
    · rw [readOperand_negation (hc.trans hn), readOperand_negation hn]
      have read := readPrimary_alike hi (position + 1) seen hcs
      generalize readPrimary inner (position + 1) cs seen = x at read
      generalize readPrimary inner (position + 1) ds seen = y at read
      cases read with
      | ok same =>
        cases same with
        | mk _ _ _ rest => exact .ok (.mk _ _ _ rest)
      | error place => exact .error place
    · rw [readOperand_plain (hc ▸ hn), readOperand_plain hn]
      exact readPrimary_alike hi position seen (.cons hc hcs)

theorem readFormula_alike (hi : ReadsAlike inner) (position : Nat) {span span' : List Char}
    (seen : List Letter) (h : SameSymbols span span') :
    Alike Eq (readFormula inner position span seen) (readFormula inner position span' seen) := by
  refine (readOperand_alike hi position seen h).bind ?_
  rintro _ _ ⟨e, noted, next, rest⟩
  cases rest with
  | nil => exact .ok rfl
  | @cons c d cs ds hc hcs =>
    simp only [hc]
    split
    · refine (hi c d next noted hcs).bind fun r r' same => ?_
      rw [same]
      exact .ok rfl
    · exact .error (.unexpected next c d)

/-- Formulas inside others are read alike: without room both readers blame the symbol that opened
the formula, which is at the same position. -/
theorem readsAlike_readInner (room : Nat) : ReadsAlike (readInner room) := by
  induction room with
  | zero => exact fun c d position _ _ _ _ => .error (.unexpected position c d)
  | succ room ih => exact fun c d position _ _ seen h => readFormula_alike ih (position + 1) seen h

/-- Texts whose normal forms have the same symbols are read alike. -/
theorem parse_alike {f g : String} (h : SameSymbols (Text.normalize f) (Text.normalize g)) :
    Alike Eq (parse f) (parse g) := by
  by_cases hf : Text.normalize f = []
  · have hg : Text.normalize g = [] := by
      rw [hf] at h
      exact List.forall₂_nil_left_iff.mp h
    rw [parse, parse, hf, hg]
    exact .error .emptyText
  · have hg : Text.normalize g ≠ [] := by
      rintro hg
      rw [hg] at h
      exact hf (List.forall₂_nil_right_iff.mp h)
    rw [parse_of_ne_nil hf, parse_of_ne_nil hg]
    exact readFormula_alike (readsAlike_readInner _) 0 [] h

/-! ## Whole texts -/

/-- The outcomes of reading two texts, given by their normal forms, are the same formula with the
same letters, or errors of one kind at the same position. An unexpected symbol is the one that the
text in question has at that position. -/
inductive SameOutcome (cs ds : List Char) :
    Except ParseError Reading → Except ParseError Reading → Prop
  | ok (r : Reading) : SameOutcome cs ds (.ok r) (.ok r)
  | emptyText : SameOutcome cs ds (.error .emptyText) (.error .emptyText)
  | unexpected {p : Nat} {c d : Char} : cs[p]? = some c → ds[p]? = some d →
      SameOutcome cs ds (.error (.unexpected p c)) (.error (.unexpected p d))
  | unclosed (p : Nat) : SameOutcome cs ds (.error (.unclosed p)) (.error (.unclosed p))
  | missingOperand (p : Nat) :
      SameOutcome cs ds (.error (.missingOperand p)) (.error (.missingOperand p))

/-- The symbol of an error is the one at its position. -/
theorem symbol_of_parse {text : String} {p : Nat} {c : Char}
    (h : parse text = .error (.unexpected p c)) : (Text.normalize text)[p]? = some c :=
  (locates_begins_of_parse h).1

theorem sameOutcome_of_sameSymbols {f g : String}
    (h : SameSymbols (Text.normalize f) (Text.normalize g)) :
    SameOutcome (Text.normalize f) (Text.normalize g) (parse f) (parse g) := by
  have alike := parse_alike h
  generalize hx : parse f = x at alike
  generalize hy : parse g = y at alike
  cases alike with
  | ok same =>
    rw [same]
    exact .ok _
  | error place =>
    cases place with
    | emptyText => exact .emptyText
    | unexpected p c d => exact .unexpected (symbol_of_parse hx) (symbol_of_parse hy)
    | unclosed p => exact .unclosed p
    | missingOperand p => exact .missingOperand p

/-- Only the normal form of a text is read. -/
theorem parse_congr {f g : String} (h : Text.normalize f = Text.normalize g) :
    parse f = parse g := by
  rw [parse, parse, h]

/-- The normal form does not depend on the case of letters. -/
theorem normalize_congr_toUpper {f g : String}
    (h : f.toList.map Char.toUpper = g.toList.map Char.toUpper) :
    Text.normalize f = Text.normalize g := by
  have raise (text : String) : Text.normalize text =
      (text.toList.map Char.toUpper).filter fun c => !Text.isBlank c := by
    rw [Text.normalize, List.filter_map]
    congr 1
    exact List.filter_congr fun c _ => by rw [Function.comp_apply, Text.isBlank_toUpper]
  rw [raise, raise, h]

/-- Texts that differ in the spelling of their symbols only are read alike: as the same formula with
the same letters, or with errors of one kind at the same position, which show each the symbol of
their own text. White space put in or left out and the case of letters make no difference. -/
theorem parse_of_synonymous :
    (∀ f g, List.Forall₂ Synonymous (Text.normalize f) (Text.normalize g) →
      SameOutcome (Text.normalize f) (Text.normalize g) (parse f) (parse g)) ∧
    (∀ before blank after, Text.allBlank blank = true →
      parse (before ++ blank ++ after) = parse (before ++ after)) ∧
    ∀ f g : String, f.toList.map Char.toUpper = g.toList.map Char.toUpper → parse f = parse g := by
  refine ⟨fun f g h => ?_, fun before blank after h => parse_congr ?_,
    fun f g h => parse_congr (normalize_congr_toUpper h)⟩
  · exact sameOutcome_of_sameSymbols (h.imp fun _ _ => Synonymous.symbol_eq)
  · rw [Text.normalize_append, Text.normalize_append, Text.normalize_append,
      Text.normalize_eq_nil_iff.mpr h, List.append_nil]

/-- A formula in two spellings is read as the same formula, and each spelling of a text with a stray
bracket is blamed for its own bracket. -/
theorem parse_of_two_spellings :
    (List.Forall₂ Synonymous (Text.normalize "(a & ~b]") (Text.normalize "\x7bA ^ !B)") ∧
      ∃ r, parse "(a & ~b]" = .ok r ∧ parse "\x7bA ^ !B)" = .ok r) ∧
    (List.Forall₂ Synonymous (Text.normalize "a) | b") (Text.normalize "A]|B") ∧
      parse "a) | b" = .error (.unexpected 1 ')') ∧ parse "A]|B" = .error (.unexpected 1 ']')) ∧
    (Text.allBlank "\t " = true ∧ parse ("a >" ++ "\t " ++ "b") = parse ("a >" ++ "b")) ∧
    ("a>B".toList.map Char.toUpper = "A>b".toList.map Char.toUpper ∧
      parse "a>B" = parse "A>b") := by
  obtain ⟨spelling, blanks, case⟩ := parse_of_synonymous
  have group : List.Forall₂ Synonymous (Text.normalize "(a & ~b]") (Text.normalize "\x7bA ^ !B)") :=
    .cons (.opening (by decide) (by decide)) <| .cons (.same 'A') <|
      .cons (.conjunction (by decide) (by decide)) <| .cons (.negation (by decide) (by decide)) <|
        .cons (.same 'B') <| .cons (.closing (by decide) (by decide)) .nil
  have stray : List.Forall₂ Synonymous (Text.normalize "a) | b") (Text.normalize "A]|B") :=
    .cons (.same 'A') <| .cons (.closing (by decide) (by decide)) <| .cons (.same '|') <|
      .cons (.same 'B') .nil
  refine ⟨⟨group, ?_⟩, ⟨stray, ?_⟩, ⟨by decide, blanks _ _ _ (by decide)⟩,
    by decide, case _ _ (by decide)⟩
  · have read : parse "(a & ~b]" =
        .ok ⟨.binary .and (.atom ⟨0⟩) (.neg (.atom ⟨1⟩)), [⟨0⟩, ⟨1⟩]⟩ := rfl
    have same := spelling _ _ group
    rw [read] at same
    generalize parse "\x7bA ^ !B)" = y at same ⊢
    cases same
    exact ⟨_, read, rfl⟩
  · have blamed : parse "a) | b" = .error (.unexpected 1 ')') := rfl
    have same := spelling _ _ stray
    rw [blamed] at same
    generalize parse "A]|B" = y at same ⊢
    cases same with
    | unexpected _ own =>
      have bracket : (Text.normalize "A]|B")[1]? = some ']' := rfl
      rw [bracket] at own
      cases own
      exact ⟨blamed, rfl⟩

end Formula

end Propositional
