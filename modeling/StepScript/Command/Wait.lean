import StepScript.Command
import StepScript.Number.Binary

/-!
# Commands that wait

`wait` needs more time until its time is over.  `wait_until` asks for the value of an expression in
each cycle, until the value counts as true or is nothing; in the latter case it warns.

## Main definitions

* `Timer` — a period of time that has begun.
* `Poll` — an expression that is asked for again and again.
-/

namespace StepScript

/-- A period of time, in nanoseconds. -/
structure Timer where
  /-- When it began. -/
  started : Nat
  /-- How long it lasts. -/
  duration : Nat
  deriving DecidableEq, Repr

namespace Timer

/-- The nanoseconds nearest to a number of milliseconds; `none` if the number is negative, not
finite, or of `2 ^ 64` seconds or more. -/
def nanoseconds? (milliseconds : Float) : Option Nat :=
  match Binary.ofFloat? (milliseconds / 1000.0) with
  | some b =>
    if milliseconds < 0.0 then none
    else if Nat.pow 2 64 ≤ b.whole then none
    else some (Binary.nearest { b with mantissa := b.mantissa * Nat.pow 10 9 })
  | none => none

/-- How long to wait, in nanoseconds. -/
def period (arguments : List Value) : Except Fault Nat :=
  let milliseconds := match arguments with
    | [.int ms] => some (floatOfInt ms)
    | [.float ms] => some ms
    | _ => none
  match milliseconds with
  | none => .error (.invalidArgument "wait" "expected a single number of milliseconds")
  | some ms =>
    match nanoseconds? ms with
    | some duration => .ok duration
    | none =>
      .error (.invalidArgument "wait" ("cannot wait for " ++ FloatFormat.plain.write ms ++ " ms"))

/-- What the command answers at a given time.  Before the beginning no time has passed. -/
def reply (t : Timer) (now : Nat) : Reply :=
  if t.duration ≤ now - t.started then .finished .null else .suspend

end Timer

/-- What is known of the expression that is asked for. -/
inductive PollPhase
  /-- Its value has to be asked for. -/
  | unknown
  /-- Its value in this cycle. -/
  | known (value : Value)
  /-- Its value was nothing, and is asked for no more. -/
  | abandoned
  deriving DecidableEq, Repr

/-- An expression that is asked for until its value decides. -/
structure Poll where
  /-- The expression. -/
  expression : String
  /-- What is known of it. -/
  phase : PollPhase
  deriving DecidableEq, Repr

namespace Poll

/-- Asks for the expression that is the only argument. -/
def ofArguments : List Value → Except Fault Poll
  | [.str expression] => .ok ⟨expression, .unknown⟩
  | _ => .error (.invalidArgument "wait_until" "expected the expression as a single string")

/-- What the command answers, and its state after it. -/
def next (p : Poll) : Reply × Poll :=
  match p.phase with
  | .unknown => (.request p.expression, p)
  | .known .null =>
    (.warning ("`" ++ p.expression ++ "` evaluated to null, no longer waiting"),
      { p with phase := .abandoned })
  | .known v =>
    (if v.isTruthy then .finished v else .suspend, { p with phase := .unknown })
  | .abandoned => (.finished .null, p)

/-- Takes the value of the expression. -/
def supply (p : Poll) (expression : String) (value : Value) : Poll :=
  if expression = p.expression then { p with phase := .known value } else p

end Poll

end StepScript
