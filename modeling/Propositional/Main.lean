import Propositional.Request

/-!
# Command line

Carries out what a command does: standard input is read if the outcome depends on it, then the
output is printed.
-/

namespace Propositional

/-- Everything that is left on a stream, after the text that was read before. -/
partial def readRest (stream : IO.FS.Stream) (before : String) : IO String := do
  let line ← stream.getLine
  if line.isEmpty then return before else readRest stream (before ++ line)

/-- The outcome of a course, on standard input if it reads its input. -/
def outcomeOf : Course Outcome → IO Outcome
  | .done outcome => pure outcome
  | .reading result => return result (← readRest (← IO.getStdin) "")

/-- Run the command that reads its arguments by `read`. -/
def runCommand (read : ArgumentReader) (args : List String) : IO UInt32 := do
  let outcome ← outcomeOf (command read args)
  IO.print outcome.output
  return outcome.status

end Propositional
