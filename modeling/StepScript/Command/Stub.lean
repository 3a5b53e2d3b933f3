import StepScript.Command

/-!
# Stub commands

Commands whose behaviour is given by data: a fixed value, a counter, a refusal, or a list of
answers that is played step by step.  They stand in for the commands of a host.

## Main definitions

* `Stub` — the description of a stub.
* `Playback` — a list of answers that is being played.
-/

namespace StepScript

/-- One answer of a stub. -/
inductive StubStep
  /-- Needs more time. -/
  | suspend
  /-- Warns. -/
  | warn (message : String)
  /-- Asks for an expression. -/
  | request (expression : String)
  /-- Finishes with a value. -/
  | finish (value : Value)
  /-- Finishes with one of its arguments, or nothing if there are fewer. -/
  | finishArgument (index : Nat)
  /-- Finishes with the value that it was last given. -/
  | finishAnswer
  /-- Fails. -/
  | fail (message : String)
  deriving DecidableEq, Repr

/-- What a stub does when it is called. -/
inductive Stub
  /-- Finishes with a value. -/
  | value (v : Value)
  /-- Finishes with whether it has been called at least so many times. -/
  | counter (goal : Int)
  /-- Refuses its arguments. -/
  | reject (message : String)
  /-- Plays a list of answers, once or over and over. -/
  | play (steps : List StubStep) (repeats : Bool)
  deriving DecidableEq, Repr

/-- A list of answers that is being played. -/
structure Playback where
  /-- The name of the command. -/
  name : String
  /-- Its arguments. -/
  arguments : List Value
  /-- The answers. -/
  steps : List StubStep
  /-- Whether they begin again after the last one. -/
  repeats : Bool
  /-- The answers still to come. -/
  ahead : List StubStep
  /-- The value that it was last given. -/
  answer : Value
  deriving DecidableEq, Repr

namespace Playback

/-- What an answer amounts to. -/
def reply (p : Playback) : StubStep → Except Fault Reply
  | .suspend => .ok .suspend
  | .warn message => .ok (.warning message)
  | .request expression => .ok (.request expression)
  | .finish v => .ok (.finished v)
  | .finishArgument i => .ok (.finished (p.arguments[i]?.getD .null))
  | .finishAnswer => .ok (.finished p.answer)
  | .fail message => .error (.invalidArgument p.name message)

/-- The next answer.  Behind the last one the command finishes with nothing. -/
def next (p : Playback) : Except Fault Reply × Playback :=
  match p.ahead, p.repeats, p.steps with
  | step :: ahead, _, _ => (p.reply step, { p with ahead })
  | [], true, step :: ahead => (p.reply step, { p with ahead })
  | [], _, _ => (.ok (.finished .null), p)

/-- Takes a value. -/
def supply (p : Playback) (value : Value) : Playback :=
  { p with answer := value }

end Playback

end StepScript
