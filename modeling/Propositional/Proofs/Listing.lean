import Mathlib.Data.List.Induction
import Propositional.Proofs.Answers

/-!
# The letters of a sentence

The letters of a formula can be found in three ways: the parser notes them as it meets them, the
formula lists those at its leaves, and the text shows them. All three lists are the same, because
the grammar derives a formula whose leaves are the letters of the text, one by one
(`Formula.Derives.occurrences_eq`), and a letter that occurs again is not listed again. It makes no
difference whether repetitions are dropped from the list of all leaves or each leaf is looked up
among those noted before (`Formula.noteLetters_nil`).

Steps that change values at the leaves keep the list. So whatever was done with a sentence, its list
has each letter of the leaves once, in the order of their first occurrences, and between one and 26
of them (`Sentence.Listed`). That is what enumerating valuations relies on: there are not too many
letters, and the bit of a row number that decides a letter can be computed from the place of the
letter in the list (`Enumeration.row?_eq`).
-/

namespace Propositional

/-! ## First occurrences -/

/-- The first list has each element of the second one once, in the order of the places where they
first occur. -/
structure FirstOccurrences (xs ys : List Letter) : Prop where
  mem_iff : ∀ x, x ∈ xs ↔ x ∈ ys
  order : xs.Pairwise fun x y => ys.idxOf x < ys.idxOf y

/-- Dropping later repetitions leaves the first occurrences. -/
theorem firstOccurrences_eraseDups (xs : List Letter) : FirstOccurrences xs.eraseDups xs where
  mem_iff x := List.mem_eraseDups
  order := by
    induction xs using List.reverseRecOn with
    | nil => exact List.Pairwise.nil
    | append_singleton xs x ih =>
      -- Letters that occur before the last place keep their first place.
      have kept : xs.eraseDups.Pairwise fun y z => (xs ++ [x]).idxOf y < (xs ++ [x]).idxOf z := by
        refine ih.imp_of_mem fun hy hz h => ?_
        rw [List.mem_eraseDups] at hy hz
        rwa [List.idxOf_append_of_mem hy, List.idxOf_append_of_mem hz]
      rw [← Letter.note_eraseDups, Letter.note]
      split
      · exact kept
      · next new =>
        rw [List.mem_eraseDups] at new
        refine List.pairwise_append.mpr ⟨kept, List.pairwise_singleton _ _, fun y hy z hz => ?_⟩
        rw [List.mem_eraseDups] at hy
        rw [List.mem_singleton.mp hz, List.idxOf_append_of_mem hy, List.idxOf_append_of_notMem new]
        exact Nat.lt_add_right _ (List.idxOf_lt_length_of_mem hy)

/-- Names are repeated where letters are. -/
theorem Letter.eraseDups_map_name (xs : List Letter) :
    (xs.map name).eraseDups = xs.eraseDups.map name := by
  induction xs using List.reverseRecOn with
  | nil => rfl
  | append_singleton xs x ih =>
    have known : x.name ∈ xs.map name ↔ x ∈ xs :=
      List.mem_map_of_injective fun _ _ => name_injective
    rw [List.map_append, List.map_singleton, List.eraseDups_append, List.eraseDups_append, ih,
      List.map_append, List.removeAll, List.removeAll]
    by_cases h : x ∈ xs
    · simp [h, known.mpr h, -List.mem_map]
    · simp [h, mt known.mp h, List.eraseDups_cons, -List.mem_map]

/-! ## Letters in a text -/

/-- The names of the letters in a text are its alphabetic characters, raised to upper case. -/
theorem Letter.map_name_filterMap_ofChar? (cs : List Char) :
    (cs.filterMap ofChar?).map name = (cs.filter Char.isAlpha).map Char.toUpper := by
  induction cs with
  | nil => rfl
  | cons c cs ih =>
    have alpha := isSome_ofChar? c
    cases h : ofChar? c with
    | none =>
      rw [h] at alpha
      rw [List.filterMap_cons_none h, List.filter_cons_of_neg (by simp [← alpha]), ih]
    | some x =>
      rw [h] at alpha
      rw [List.filterMap_cons_some h, List.filter_cons_of_pos alpha.symm, List.map_cons,
        List.map_cons, ih, ofChar?_eq_some_iff.mp h]

/-- The normal form of a text has the letters of the text. -/
theorem Text.filterMap_normalize (text : String) :
    (normalize text).filterMap Letter.ofChar? = text.toList.filterMap Letter.ofChar? := by
  rw [normalize, List.filterMap_map, List.filterMap_filter]
  refine List.filterMap_congr fun c _ => ?_
  rw [Function.comp_apply, Letter.ofChar?_toUpper]
  cases h : Letter.ofChar? c with
  | none => simp
  | some x =>
    have shown : isBlank c = false := by
      rw [← isBlank_toUpper, Letter.ofChar?_eq_some_iff.mp h]
      exact (Formula.isNormal_name x).1
    simp [shown]

namespace Formula

theorem ofChar?_eq_none {c : Char} (h : ∀ x, Symbol.ofChar c ≠ .letter x) :
    Letter.ofChar? c = none :=
  Option.eq_none_iff_forall_ne_some.mpr fun x hx => h x (Symbol.ofChar_eq_letter_iff.mpr hx)

mutual

/-- The leaves of a formula that the grammar derives from a text are the letters of the text. -/
theorem Derives.occurrences_eq : {k : Nat} → {text : List Char} → {e : Formula} →
    Derives k text e → e.occurrences = text.filterMap Letter.ofChar?
  | _, _, _, .operand h => h.occurrences_eq
  | _, _, _, .binary op hl hc hr => by
    have hc := Symbol.ofChar_eq_connective_iff.mpr hc
    rw [occurrences_binary, hl.occurrences_eq, hr.occurrences_eq, List.filterMap_append,
      List.filterMap_cons_none (ofChar?_eq_none (by simp [hc]))]

theorem DerivesOperand.occurrences_eq : {k : Nat} → {text : List Char} → {e : Formula} →
    DerivesOperand k text e → e.occurrences = text.filterMap Letter.ofChar?
  | _, _, _, .primary h => h.occurrences_eq
  | _, _, _, .neg hc h => by
    have hc := Symbol.ofChar_eq_negation_iff_mem.mpr hc
    rw [occurrences_neg, h.occurrences_eq,
      List.filterMap_cons_none (ofChar?_eq_none (by simp [hc]))]

theorem DerivesPrimary.occurrences_eq : {k : Nat} → {text : List Char} → {e : Formula} →
    DerivesPrimary k text e → e.occurrences = text.filterMap Letter.ofChar?
  | _, _, _, .letter x => by
    rw [List.filterMap_cons_some (Letter.ofChar?_name x)]
    rfl
  | _, _, _, .group ho h hc => by
    have ho := Symbol.ofChar_eq_opening_iff_mem.mpr ho
    have hc := Symbol.ofChar_eq_closing_iff_mem.mpr hc
    rw [List.filterMap_cons_none (ofChar?_eq_none (by simp [ho])), List.filterMap_append,
      List.filterMap_cons_none (ofChar?_eq_none (by simp [hc])), h.occurrences_eq]
    simp

end

/-- The letters of a formula that was read are those of the text, by the names that the text gives
them. -/
theorem map_name_letters_of_parse {text : String} {r : Reading} (h : parse text = .ok r) :
    r.formula.letters.map Letter.name =
      ((text.toList.filter Char.isAlpha).map Char.toUpper).eraseDups := by
  obtain ⟨k, -, hd⟩ := derives_of_parse h
  rw [letters, hd.occurrences_eq, Text.filterMap_normalize, ← Letter.map_name_filterMap_ofChar?,
    Letter.eraseDups_map_name]

/-- A formula has a leaf. -/
theorem occurrences_ne_nil (e : Formula) : e.occurrences ≠ [] := by
  induction e with
  | leaf x b => simp
  | neg e ih => exact ih
  | binary op l r ihl ihr => simp [ihl]

theorem letters_ne_nil (e : Formula) : e.letters ≠ [] := by
  obtain ⟨x, hx⟩ := List.exists_mem_of_ne_nil _ e.occurrences_ne_nil
  exact List.ne_nil_of_mem (mem_letters.mpr hx)

end Formula

namespace Sentence

/-! ## The list of a sentence -/

/-- The letters of the sentence are listed as enumerating its valuations needs them. -/
structure Listed (s : Sentence) : Prop where
  letters_eq : s.letters = s.formula.letters
  /-- Going through the formula and noting new letters finds the same list. -/
  noted : s.letters = s.formula.noteLetters []
  nodup : s.letters.Nodup
  firstOccurrences : FirstOccurrences s.letters (s.formula.leaves.map Prod.fst)
  length_pos : 1 ≤ s.letters.length
  length_le : s.letters.length ≤ 26
  /-- The valuations of the letters can be enumerated. -/
  enumerated : Enumeration.ofLetters s.letters = .ok s.valuations
  /-- Every row of the enumeration can be computed. -/
  rows : (List.range (2 ^ s.letters.length)).mapM (Enumeration.row? s.letters) =
    some s.valuations.drain

theorem listed (s : Sentence) : s.Listed where
  letters_eq := s.letters_eq
  noted := s.letters_eq.trans s.formula.noteLetters_nil.symm
  nodup := s.nodup_letters
  firstOccurrences := by
    rw [s.letters_eq]
    exact firstOccurrences_eraseDups _
  length_pos := by
    rw [s.letters_eq]
    exact List.length_pos_iff.mpr s.formula.letters_ne_nil
  length_le := Letter.length_le_of_nodup s.nodup_letters
  enumerated := s.ofLetters_letters
  rows := by
    have computed : Enumeration.row? s.letters = fun k => pure (Enumeration.row s.letters k) := by
      funext k
      have := Letter.length_le_of_nodup s.nodup_letters
      exact Enumeration.row?_eq (by omega) k
    rw [computed, List.mapM_pure, Enumeration.drain_eq_toList, valuations, Enumeration.toList_start]
    rfl

/-- Steps change values at the leaves, and no list of letters. -/
theorem letters_run (s : Sentence) (steps : List Step) : (s.run steps).letters = s.letters := by
  rw [← letters_clear, clear_run, letters_clear]

/-- The letters that the parser notes are those of the formula that it returns, and by their names
the letters of the text in upper case, without later repetitions. After any steps that change values
at the leaves, a sentence read from a text or built from a formula still has this list; it lists the
letters of the leaves in the order of their first occurrences and is short enough for the
valuations to be enumerated. -/
theorem letters_after_steps :
    (∀ text r, Formula.parse text = .ok r → r.seen = r.formula.letters ∧
      r.seen.map Letter.name = ((text.toList.filter Char.isAlpha).map Char.toUpper).eraseDups) ∧
    (∀ text s, parse text = .ok s → ∀ steps, (s.run steps).Listed ∧
      (s.run steps).letters.map Letter.name =
        ((text.toList.filter Char.isAlpha).map Char.toUpper).eraseDups) ∧
    ∀ e steps, ((ofFormula e).run steps).Listed ∧ ((ofFormula e).run steps).letters = e.letters := by
  refine ⟨fun text r h => ?_, fun text s h steps => ⟨listed _, ?_⟩,
    fun e steps => ⟨listed _, letters_run _ steps⟩⟩
  · have noted := Formula.parse_seen h
    exact ⟨noted, by rw [noted, Formula.map_name_letters_of_parse h]⟩
  · have read := parse_eq_ok_iff.mp h
    rw [letters_run, s.letters_eq]
    exact Formula.map_name_letters_of_parse read

/-- The letters of `b & (~a | B)` are `B` and `A`, before and after steps that change leaves. -/
theorem letters_of_text_after_steps :
    let e : Formula := .binary .and (.atom ⟨1⟩) (.binary .or (.neg (.atom ⟨0⟩)) (.atom ⟨1⟩))
    let s := (ofFormula e).run [.set 'a' true, .tabulate, .set '7' false, .set 'B' true]
    Formula.parse "b & (~a | B)" = .ok ⟨e, [⟨1⟩, ⟨0⟩]⟩ ∧ e.letters = [⟨1⟩, ⟨0⟩] ∧
      parse "b & (~a | B)" = .ok (ofFormula e) ∧ s.Listed ∧ s.letters.map Letter.name = ['B', 'A'] := by
  intro e s
  have noted : Formula.parse "b & (~a | B)" = .ok ⟨e, [⟨1⟩, ⟨0⟩]⟩ := rfl
  have read : parse "b & (~a | B)" = .ok (ofFormula e) := parse_eq_ok_iff.mpr rfl
  obtain ⟨parsed, started, -⟩ := letters_after_steps
  obtain ⟨same, -⟩ := parsed _ _ noted
  obtain ⟨listed, names⟩ := started _ _ read _
  exact ⟨noted, same.symm, read, listed, names.trans (by decide)⟩

end Sentence

end Propositional
