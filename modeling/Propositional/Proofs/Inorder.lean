import Propositional.Proofs.ReadBack

/-!
# A formula in the order of its text

Reading a text drops its brackets and nothing else. Written down in order, each negation in front of
what it negates and each connective between its parts, a formula has one symbol for each of its
nodes (`Formula.length_inorder`). For a formula that the grammar derives these are the symbols of
the text that are no brackets, one by one, apart from the choice among two characters for
conjunction and for negation (`Formula.Derives.inorder_eq`).

The limit on the formulas that are open at once is not a limit on the depth of the formula, but it
implies one. A group that is negated and stands left of a connective is one open formula and two
compounds more, and there is no way to add more of them at once: with `k` formulas open the depth is
below `2 * k` (`Formula.Derives.depth_lt`). Groups of this kind inside each other reach the bound
(`Formula.depth_tower`). Main statement: `Formula.size_inorder_depth_of_parse`.
-/

namespace Propositional.Formula

/-! ## Symbols in order -/

/-- The symbols of a formula in order, without brackets. Negation is written `~`. -/
def inorder : Formula → List Char
  | leaf x _ => [x.name]
  | neg e => '~' :: e.inorder
  | binary op l r => l.inorder ++ op.symbol :: r.inorder

/-- A bracket of any shape, opening or closing. -/
def isBracket (c : Char) : Bool :=
  c ∈ ['(', '[', '\x7b', ')', ']', '\x7d']

/-- A text without its brackets. -/
def dropBrackets (text : List Char) : List Char :=
  text.filter fun c => !isBracket c

/-- One character for every symbol that has two: `^` is written `&`, and `!` is written `~`. -/
def respell (c : Char) : Char :=
  if c = '^' then '&' else if c = '!' then '~' else c

/-- Every node of a formula has its symbol. -/
theorem length_inorder (e : Formula) : e.inorder.length = e.size := by
  induction e with
  | leaf x b => rfl
  | neg e ih => rw [inorder, size, List.length_cons, ih, Nat.add_comm]
  | binary op l r ihl ihr =>
    rw [inorder, size, List.length_append, List.length_cons, ihl, ihr]
    omega

/-! ## Symbols of a text -/

@[simp] theorem dropBrackets_append (a b : List Char) :
    dropBrackets (a ++ b) = dropBrackets a ++ dropBrackets b :=
  List.filter_append a b

theorem dropBrackets_cons_bracket {c : Char} (h : isBracket c = true) (cs : List Char) :
    dropBrackets (c :: cs) = dropBrackets cs :=
  List.filter_cons_of_neg (by simp [h])

theorem dropBrackets_cons_other {c : Char} (h : isBracket c = false) (cs : List Char) :
    dropBrackets (c :: cs) = c :: dropBrackets cs :=
  List.filter_cons_of_pos (by simp [h])

theorem isBracket_of_opening {c : Char} (h : c ∈ ['(', '[', '\x7b']) : isBracket c = true :=
  decide_eq_true (List.mem_append_left [')', ']', '\x7d'] h)

theorem isBracket_of_closing {c : Char} (h : c ∈ [')', ']', '\x7d']) : isBracket c = true :=
  decide_eq_true (List.mem_append_right ['(', '[', '\x7b'] h)

/-- A letter is a symbol with one character. -/
theorem isBracket_respell_name (x : Letter) :
    isBracket x.name = false ∧ respell x.name = x.name := by
  obtain ⟨i⟩ := x
  revert i
  decide

theorem isBracket_respell_negation {c : Char} (h : c ∈ ['~', '!']) :
    isBracket c = false ∧ respell c = '~' := by
  simp only [List.mem_cons, List.not_mem_nil, or_false] at h
  rcases h with rfl | rfl <;> decide

theorem isBracket_respell_connective {op : Connective} {c : Char} (h : c ∈ op.spellings) :
    isBracket c = false ∧ respell c = op.symbol := by
  cases op <;> simp only [Connective.spellings, List.mem_cons, List.not_mem_nil, or_false] at h
  · rcases h with rfl | rfl <;> decide
  all_goals subst h; decide

mutual

/-- A formula in order has the symbols of the text that the grammar derives it from. -/
theorem Derives.inorder_eq : {k : Nat} → {text : List Char} → {e : Formula} → Derives k text e →
    e.inorder = (dropBrackets text).map respell
  | _, _, _, .operand h => h.inorder_eq
  | _, _, _, .binary op hl hc hr => by
    obtain ⟨shown, same⟩ := isBracket_respell_connective hc
    rw [inorder, hl.inorder_eq, hr.inorder_eq, dropBrackets_append, dropBrackets_cons_other shown,
      List.map_append, List.map_cons, same]

theorem DerivesOperand.inorder_eq : {k : Nat} → {text : List Char} → {e : Formula} →
    DerivesOperand k text e → e.inorder = (dropBrackets text).map respell
  | _, _, _, .primary h => h.inorder_eq
  | _, _, _, .neg hc h => by
    obtain ⟨shown, same⟩ := isBracket_respell_negation hc
    rw [inorder, h.inorder_eq, dropBrackets_cons_other shown, List.map_cons, same]

theorem DerivesPrimary.inorder_eq : {k : Nat} → {text : List Char} → {e : Formula} →
    DerivesPrimary k text e → e.inorder = (dropBrackets text).map respell
  | _, _, _, .letter x => by
    obtain ⟨shown, same⟩ := isBracket_respell_name x
    rw [dropBrackets_cons_other shown, List.map_cons, same]
    rfl
  | _, _, _, .group ho h hc => by
    rw [h.inorder_eq, dropBrackets_cons_bracket (isBracket_of_opening ho), dropBrackets_append,
      dropBrackets_cons_bracket (isBracket_of_closing hc)]
    exact congrArg (List.map respell) (List.append_nil _).symm

end

/-! ## Depth -/

/-- Every compound is printed in brackets, so the printed form nests at least as deep as the
formula. -/
theorem depth_le_nest (e : Formula) : e.depth ≤ e.nest := by
  induction e with
  | leaf x b => exact Nat.le_refl 0
  | neg e ih => exact Nat.add_le_add_left ih 1
  | binary op l r ihl ihr =>
    rw [depth, nest]
    omega

/-- With `k` formulas open at once the depth is below `2 * k`. -/
theorem Derives.depth_lt {k : Nat} {text : List Char} {e : Formula} (h : Derives k text e) :
    e.depth < 2 * k :=
  Nat.lt_of_le_of_lt e.depth_le_nest h.nest_lt

/-- A negated letter, put `n` times into a negated group left of a connective. -/
def tower (x : Letter) : Nat → Formula
  | 0 => neg (atom x)
  | n + 1 => binary .and (neg (tower x n)) (atom x)

/-- The text of a tower, with brackets around the groups only. -/
def towerText (x : Letter) : Nat → String
  | 0 => "~" ++ x.name.toString
  | n + 1 => "~(" ++ towerText x n ++ ")&" ++ x.name.toString

/-- Every group of a tower opens one formula. -/
theorem derives_tower (x : Letter) (n : Nat) :
    Derives (n + 1) (Text.normalize (towerText x n)) (tower x n) := by
  have negation : Text.normalize "~" = ['~'] := rfl
  have opened : Text.normalize "~(" = ['~', '('] := rfl
  have closed : Text.normalize ")&" = [')', '&'] := rfl
  have letter : DerivesOperand 0 [x.name] (atom x) := .primary (.letter x)
  induction n with
  | zero =>
    rw [towerText, Text.normalize_append, negation, normalize_name]
    exact .operand (.neg (by decide) (.letter x))
  | succ n ih =>
    have group := DerivesPrimary.group (o := '(') (by decide) ih (c := ')') (by decide)
    have left := DerivesOperand.neg (c := '~') (by decide) group
    have joined := Derives.binary .and left (c := '&') (by decide) (.operand letter)
    rw [Nat.max_eq_left (Nat.le_add_left 1 n)] at joined
    rw [towerText, tower, Text.normalize_append, Text.normalize_append, Text.normalize_append,
      opened, closed, normalize_name]
    simpa using joined

/-- Every group of a tower is two compounds. -/
theorem depth_tower (x : Letter) (n : Nat) : (tower x n).depth = 2 * n + 1 := by
  induction n with
  | zero => rfl
  | succ n ih =>
    rw [tower, depth, depth, ih, atom, depth]
    omega

/-! ## Texts -/

/-- A formula that was read has as many nodes as its text has symbols that are no brackets, and in
order it shows these symbols. Its depth is at most 1023, one less than twice the number of formulas
that may be open at once, and there is a text that is read as a formula of this depth. -/
theorem size_inorder_depth_of_parse :
    (∀ text r, parse text = .ok r →
      r.formula.size = (dropBrackets (Text.normalize text)).length ∧
      r.formula.inorder = (dropBrackets (Text.normalize text)).map respell ∧
      r.formula.depth ≤ 1023) ∧
    ∃ text r, parse text = .ok r ∧ r.formula.depth = 1023 := by
  constructor
  · intro text r h
    obtain ⟨k, hk, hd⟩ := derives_of_parse h
    have depth := hd.depth_lt
    rw [maxOpen] at hk
    refine ⟨?_, hd.inorder_eq, by omega⟩
    rw [← length_inorder, hd.inorder_eq, List.length_map]
  · have read := parse_of_derives (by decide) (derives_tower ⟨0⟩ 511)
    exact ⟨_, _, read, depth_tower ⟨0⟩ 511⟩

/-- Brackets of different shapes and both spellings of negation, in one text. -/
theorem size_inorder_depth_of_negated_group :
    let e : Formula :=
      .binary .iff (.neg (.binary .and (.atom ⟨0⟩) (.neg (.atom ⟨1⟩)))) (.atom ⟨2⟩)
    parse "~[a ^ !b) = \x7bC]" = .ok ⟨e, [⟨0⟩, ⟨1⟩, ⟨2⟩]⟩ ∧
      e.size = ['~', 'A', '^', '!', 'B', '=', 'C'].length ∧
      e.inorder = ['~', 'A', '&', '~', 'B', '=', 'C'] ∧ e.depth ≤ 1023 := by
  intro e
  have read : parse "~[a ^ !b) = \x7bC]" = .ok ⟨e, [⟨0⟩, ⟨1⟩, ⟨2⟩]⟩ := rfl
  obtain ⟨size, order, depth⟩ := size_inorder_depth_of_parse.1 _ _ read
  exact ⟨read, size.trans (by decide), order.trans (by decide), depth⟩

end Propositional.Formula
