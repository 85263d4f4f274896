import Propositional.Proofs.Tables

/-!
# Answers do not depend on the leaves

Two things change a sentence: a letter is set by its name, and a truth table is filled in on it.
Both change values at the leaves only, so what they leave alone is the sentence with every leaf
false (`Sentence.clear_run`). All that can be asked of a sentence apart from its own value, its text
and its truth table included, is the same for the sentence and for its cleared form
(`Sentence.answers_clear`). So no run of such steps shows in an answer, and sentences whose formulas
have the same shape cannot be told apart (`Sentence.answers_independent_of_leaves`).
-/

namespace Propositional

namespace Formula

/-- The formulas differ in the values at their leaves at most. -/
inductive SameShape : Formula → Formula → Prop
  | leaf (x : Letter) (a b : Bool) : SameShape (leaf x a) (leaf x b)
  | neg {e e' : Formula} : SameShape e e' → SameShape (neg e) (neg e')
  | binary (op : Connective) {l l' r r' : Formula} : SameShape l l' → SameShape r r' →
      SameShape (binary op l r) (binary op l' r')

/-- Formulas of the same shape are cleared to the same formula. -/
theorem SameShape.clear_eq {e e' : Formula} (h : SameShape e e') : e.clear = e'.clear := by
  induction h with
  | leaf x a b => rfl
  | neg _ ih => rw [clear, ih, clear]
  | binary op _ _ ihl ihr => rw [clear, ihl, ihr, clear]

/-- Values at the leaves are not printed. -/
theorem render_clear (e : Formula) : e.clear.render = e.render := by
  induction e with
  | leaf x b => rfl
  | neg e ih => rw [clear, render, ih, render]
  | binary op l r ihl ihr => rw [clear, render, ihl, ihr, render]

end Formula

namespace Sentence

/-! ## Steps -/

/-- A step that changes values at the leaves of a sentence. -/
inductive Step where
  /-- The letter that a character names is given a value. -/
  | set (c : Char) (b : Bool)
  /-- The truth table is filled in. -/
  | tabulate

/-- The sentence after a step. -/
def step (s : Sentence) : Step → Sentence
  | .set c b => s.set c b
  | .tabulate => s.tabulate.2

/-- The sentence after a run of steps. -/
def run (s : Sentence) (steps : List Step) : Sentence :=
  steps.foldl step s

@[simp] theorem run_nil (s : Sentence) : s.run [] = s := rfl

@[simp] theorem run_cons (s : Sentence) (a : Step) (steps : List Step) :
    s.run (a :: steps) = (s.step a).run steps := rfl

/-- A step changes values at the leaves only. -/
theorem clear_step (s : Sentence) (a : Step) : (s.step a).clear = s.clear := by
  cases a with
  | set c b => exact clear_setAll s [(c, b)]
  | tabulate => exact clear_foldl_fillRow s.valuations.toList #[] s

/-- A run of steps changes values at the leaves only. -/
theorem clear_run (s : Sentence) (steps : List Step) : (s.run steps).clear = s.clear := by
  induction steps generalizing s with
  | nil => rfl
  | cons a steps ih => rw [run_cons, ih, clear_step]

/-! ## Answers -/

/-- What can be asked of a sentence, apart from the value that its own leaves give. -/
structure Answers where
  text : String
  letters : List Letter
  eval : Valuation → Bool
  valuations : Enumeration
  counterexample : Option Valuation
  isTautology : Bool
  isSatisfiable : Bool
  isContradiction : Bool
  models : List Valuation
  countModels : Nat
  table : TruthTable
  tableText : String

/-- The answers that a sentence gives, those of a new truth table among them. -/
def answers (s : Sentence) : Answers where
  text := s.render
  letters := s.letters
  eval := s.eval
  valuations := s.valuations
  counterexample := s.counterexample
  isTautology := s.isTautology
  isSatisfiable := s.isSatisfiable
  isContradiction := s.isContradiction
  models := s.models
  countModels := s.countModels
  table := s.tabulate.1
  tableText := s.tabulate.1.render

/-- The table of a cleared sentence is that of the sentence. -/
theorem tabulate_clear_fst (s : Sentence) : s.clear.tabulate.1 = s.tabulate.1 := by
  have rows : s.clear.tabulate.1.rows = s.tabulate.1.rows := by
    rw [rows_tabulate, rows_tabulate, rowFor_clear]
    rfl
  exact congrArg (TruthTable.mk s.letters) rows

/-- A cleared sentence gives the answers of the sentence. -/
theorem answers_clear (s : Sentence) : s.clear.answers = s.answers := by
  have text : s.clear.render = s.render := Formula.render_clear s.formula
  have evaluated : s.clear.eval = s.eval := funext (eval_clear s)
  -- The rows that are gone through are the same, since the letters are.
  have rows : s.clear.valuations = s.valuations := rfl
  have refuted : s.clear.counterexample = s.counterexample := by
    rw [counterexample, counterexample, rows, evaluated]
  have satisfied : s.clear.isSatisfiable = s.isSatisfiable := by
    rw [isSatisfiable, isSatisfiable, rows, evaluated]
  have models : s.clear.models = s.models := by
    rw [Sentence.models, Sentence.models, rows, evaluated]
  have count : s.clear.countModels = s.countModels := by
    rw [countModels, countModels, rows, evaluated]
  rw [answers, answers, text, evaluated, rows, refuted, satisfied, models, count,
    tabulate_clear_fst, isTautology, isTautology, refuted, isContradiction, isContradiction,
    satisfied, letters_clear]

/-- Sentences that are the same when cleared give the same answers. -/
theorem answers_congr {s t : Sentence} (h : s.clear = t.clear) : s.answers = t.answers := by
  rw [← answers_clear s, h, answers_clear t]

/-- A run of steps on a sentence changes none of its answers, and sentences built from formulas that
differ in the values at their leaves only give the same answers. -/
theorem answers_independent_of_leaves :
    (∀ (s : Sentence) (steps : List Step), (s.run steps).answers = s.answers) ∧
      ∀ e e' : Formula, Formula.SameShape e e' →
        (ofFormula e).answers = (ofFormula e').answers := by
  refine ⟨fun s steps => answers_congr (clear_run s steps), fun e e' h => answers_congr ?_⟩
  ext1
  · exact h.clear_eq
  · rw [letters_clear, letters_clear, letters_eq, letters_eq, ofFormula, ofFormula,
      ← Formula.letters_clear e, h.clear_eq, Formula.letters_clear]

/-- The leaves of `A > B` can make it true or false, and its answers are the same. -/
theorem answers_of_true_and_false :
    let s : Sentence := ofFormula (.binary .implies (.leaf ⟨0⟩ true) (.leaf ⟨1⟩ false))
    let t : Sentence := ofFormula (.binary .implies (.leaf ⟨0⟩ false) (.leaf ⟨1⟩ true))
    Formula.SameShape s.formula t.formula ∧ s.value ≠ t.value ∧ s.answers = t.answers ∧
      (s.run [.set 'a' false, .tabulate, .set '&' true]).answers = s.answers := by
  intro s t
  have shape : Formula.SameShape s.formula t.formula :=
    .binary .implies (.leaf ⟨0⟩ true false) (.leaf ⟨1⟩ false true)
  obtain ⟨steps, formulas⟩ := answers_independent_of_leaves
  exact ⟨shape, by decide, formulas _ _ shape, steps s _⟩

end Sentence

end Propositional
