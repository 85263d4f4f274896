import Propositional.Report

/-!
# Requests

A command is given arguments, which ask for a report, and prints it. The report is about the
formulas among the arguments. When there are none, it is about the formulas in the input, and only
then is the input read (`Request.course`).

How arguments are written is not settled here. A command has a reader for its arguments, which
finds the request that they make, or ends the command itself, as it may for arguments that make no
request (`command`).
-/

namespace Propositional

/-- A request for a report: on the formulas given, and without their truth tables if it is to be
quiet. -/
structure Request where
  quiet : Bool
  formulas : List String
deriving DecidableEq

/-- How something is brought to a result: the result is there already, or the input has to be read
first. -/
inductive Course (α : Type) where
  | done (result : α)
  | reading (result : String → α)

namespace Course

variable {α β : Type}

/-- Whether the input is read. -/
def readsInput : Course α → Bool
  | done _ => false
  | reading _ => true

/-- The result, with the text that the input holds. -/
def run : Course α → String → α
  | done result, _ => result
  | reading result, input => result input

def map (f : α → β) : Course α → Course β
  | done result => done (f result)
  | reading result => reading fun input => f (result input)

end Course

namespace Request

/-- What is done for a request. Its result is the report, or the misuse that it fails with. -/
def course (r : Request) : Course (Except Misuse String) :=
  if r.formulas.isEmpty then
    .reading fun input => Report.ofChecked r.quiet (Report.formulasOf input)
  else
    .done (Report.ofChecked r.quiet r.formulas)

/-- Carry out a request. -/
def perform (r : Request) (input : String) : Except Misuse String :=
  r.course.run input

/-- The exit status of a command that has carried out a request or failed to. -/
def exitStatus : Except Misuse String → UInt32
  | .ok _ => 0
  | .error _ => 101

end Request

/-! ## Commands -/

/-- How a command ends: with what it has printed, and its exit status. -/
structure Outcome where
  output : String
  status : UInt32
deriving DecidableEq

/-- A command that has carried out a request prints the report; one that failed to prints none. -/
def Outcome.ofResult (result : Except Misuse String) : Outcome where
  output :=
    match result with
    | .ok report => report
    | .error _ => ""
  status := Request.exitStatus result

/-- A reader for arguments: it finds the request that they make, or ends the command. -/
abbrev ArgumentReader : Type := List String → Except Outcome Request

/-- What a command does that reads its arguments like this. -/
def command (read : ArgumentReader) (args : List String) : Course Outcome :=
  match read args with
  | .ok r => r.course.map Outcome.ofResult
  | .error outcome => .done outcome

end Propositional
