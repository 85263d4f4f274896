/-!
# Lines of a text

A line ends with a line feed, which may have one carriage return before it; neither belongs to the
line. A carriage return anywhere else is a character like any other. What follows the last line
feed is a line too unless it is empty.
-/

namespace Propositional.Text

/-- Cut a text at its line feeds: the piece before the first one, and the pieces after each. -/
def pieces (text : List Char) : List Char × List (List Char) :=
  text.foldr (fun c (first, others) =>
    if c = '\n' then ([], first :: others) else (c :: first, others)) ([], [])

/-- A piece that a line feed ended, without the carriage return that came before the line feed. -/
def dropReturn (piece : List Char) : List Char :=
  if piece.getLast? = some '\r' then piece.dropLast else piece

/-- The lines among the pieces of a text. All pieces but the last were ended by a line feed. -/
def linesOfPieces (first : List Char) : List (List Char) → List (List Char)
  | [] => if first.isEmpty then [] else [first]
  | second :: others => dropReturn first :: linesOfPieces second others

/-- The lines of a text. -/
def lines (text : String) : List String :=
  let (first, others) := pieces text.toList
  (linesOfPieces first others).map String.ofList

@[simp] theorem pieces_nil : pieces [] = ([], []) := rfl

/-- A line feed ends the first piece. -/
@[simp] theorem pieces_lineFeed (cs : List Char) :
    pieces ('\n' :: cs) = ([], (pieces cs).1 :: (pieces cs).2) := rfl

/-- Any other character belongs to the first piece. -/
theorem pieces_cons {c : Char} (h : c ≠ '\n') (cs : List Char) :
    pieces (c :: cs) = (c :: (pieces cs).1, (pieces cs).2) := by
  simp [pieces, h]

/-- What has no line feed in it belongs to the first piece. -/
theorem pieces_append {cs : List Char} (h : '\n' ∉ cs) (rest : List Char) :
    pieces (cs ++ rest) = (cs ++ (pieces rest).1, (pieces rest).2) := by
  induction cs with
  | nil => rfl
  | cons c cs ih =>
    rw [List.mem_cons, not_or] at h
    obtain ⟨hc, hcs⟩ := h
    rw [List.cons_append, pieces_cons (Ne.symm hc), ih hcs]
    rfl

/-- The text up to the first line feed, without a carriage return before it, is the first line. -/
theorem lines_append_lineFeed {line : String} (h : '\n' ∉ line.toList) (rest : String) :
    lines (line ++ "\n" ++ rest) = String.ofList (dropReturn line.toList) :: lines rest := by
  have cut : pieces (line ++ "\n" ++ rest).toList =
      (line.toList, (pieces rest.toList).1 :: (pieces rest.toList).2) := by
    have chars : (line ++ "\n" ++ rest).toList = line.toList ++ '\n' :: rest.toList := by simp
    rw [chars, pieces_append h, pieces_lineFeed, List.append_nil]
  rw [lines, cut]
  rfl

/-- Without a line feed the whole text is one line, unless it is empty. -/
theorem lines_of_not_mem {line : String} (h : '\n' ∉ line.toList) :
    lines line = if line.toList.isEmpty then [] else [line] := by
  have cut : pieces line.toList = (line.toList, []) := by
    simpa using pieces_append h []
  rw [lines, cut]
  show (if line.toList.isEmpty then [] else [line.toList]).map String.ofList = _
  split
  · rfl
  · rw [List.map_singleton, String.ofList_toList]

theorem dropReturn_append_return (cs : List Char) : dropReturn (cs ++ ['\r']) = cs := by
  simp [dropReturn]

/-- Lines that are written one after the other, each ended by a line feed, are found again. -/
theorem lines_join {ls : List (List Char)}
    (h : ∀ l ∈ ls, '\n' ∉ l ∧ l.getLast? ≠ some '\r') :
    lines (String.join (ls.map fun l => String.ofList l ++ "\n")) = ls.map String.ofList := by
  induction ls with
  | nil => rfl
  | cons l ls ih =>
    obtain ⟨⟨no_lineFeed, no_return⟩, others⟩ := List.forall_mem_cons.mp h
    have kept : dropReturn l = l := if_neg no_return
    have one_line : '\n' ∉ (String.ofList l).toList := by rwa [String.toList_ofList]
    rw [List.map_cons, String.join_cons, lines_append_lineFeed one_line, String.toList_ofList, kept,
      ih others, List.map_cons]

end Propositional.Text
