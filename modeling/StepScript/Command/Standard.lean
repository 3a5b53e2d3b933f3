import StepScript.Command.Function
import StepScript.Command.Stub
import StepScript.Command.Wait

/-!
# The standard host

The built-in commands need a clock and a source of random numbers.  These are devices of the machine
that they run on, and nothing is said here of what a clock shows or which numbers are drawn.  The
host keeps the state of the machine and the counters of stubs.  Its commands are functions, which
finish at once, timers, polls and played stubs.

## Main definitions

* `Devices` — a clock and a source of random numbers.
* `World` — the state of the standard host.
* `Instance` — its commands while they run.
* `SimpleFunction` — a function that serves as a command.
* `Builtin`, `builtinFunctions`, `builtinCommands` — the built-in commands.
* `builtins` — the registry of all of them.
* `standardCommands` — how they behave.
* `Simulation` — a machine whose time is told from outside.
-/

namespace StepScript

/-- The devices of a machine, where `δ` are the states of the machine. -/
structure Devices (δ : Type) where
  /-- Reads the clock, which shows the time in nanoseconds. -/
  clock : δ → Nat × δ
  /-- Draws a whole number between two ends. -/
  draw : Int64 → Int64 → δ → Int64 × δ

/-- The state of the standard host. -/
structure World (δ : Type) where
  /-- The state of the machine. -/
  machine : δ
  /-- How often each counter was called, by number. -/
  tallies : List (Nat × Nat)

variable {δ : Type}

namespace World

/-- The time now. -/
def time (devices : Devices δ) (w : World δ) : Nat × World δ :=
  let (now, machine) := devices.clock w.machine
  (now, { w with machine })

/-- A random number between two ends. -/
def random (devices : Devices δ) (low high : Int64) (w : World δ) : Int64 × World δ :=
  let (n, machine) := devices.draw low high w.machine
  (n, { w with machine })

/-- Counts one more call. -/
def tally (w : World δ) (counter : Nat) : Nat × World δ :=
  let calls := (w.tallies.lookup counter).getD 0 + 1
  (calls, { w with tallies := (counter, calls) :: w.tallies.filter (·.1 != counter) })

end World

/-- A function that serves as a command.  Nothing is given if it brings down the program. -/
abbrev SimpleFunction (δ : Type) :=
  List Value → World δ → Option (Turn (World δ) (Except Fault Value))

/-- A function of its arguments alone. -/
def SimpleFunction.ofPure (f : List Value → Option (Except Fault Value)) : SimpleFunction δ :=
  fun arguments w => (f arguments).map fun result => .still result w

/-- A command of the standard host while it runs. -/
inductive Instance (δ : Type)
  /-- A function, with its arguments until it is called. -/
  | simple (f : SimpleFunction δ) (arguments : Option (List Value))
  /-- A period of time. -/
  | timer (t : Timer)
  /-- An expression that is asked for. -/
  | poll (p : Poll)
  /-- A stub that plays its answers. -/
  | playback (p : Playback)

namespace Instance

/-- Steps a command.  A function is called once, and then finishes with nothing.  A timer reads the
clock each time. -/
def next (devices : Devices δ) (i : Instance δ) (w : World δ) :
    Option (Turn (World δ) (Except Fault Reply × Instance δ)) :=
  match i with
  | simple f (some arguments) =>
    (f arguments w).map fun turn =>
      { turn with value := (turn.value.map .finished, simple f none) }
  | simple f none => some (.still (.ok (.finished .null), simple f none) w)
  | timer t =>
    let (now, w) := w.time devices
    some (.still (.ok (t.reply now), timer t) w)
  | poll p => some (.still (.ok p.next.1, poll p.next.2) w)
  | playback p => some (.still (p.next.1, playback p.next.2) w)

/-- Hands a command the value of an expression. -/
def supply (i : Instance δ) (expression : String) (value : Value) (w : World δ) :
    Turn (World δ) (Instance δ) :=
  match i with
  | poll p => .still (poll (p.supply expression value)) w
  | playback p => ⟨playback (p.supply value), w, [.supplied p.name expression value]⟩
  | i => .still i w

end Instance

/-- How the commands of a registry behave on the standard host. -/
def standardCommands (devices : Devices δ) (r : Registry (Instance δ) (World δ)) :
    Commands (Instance δ) (World δ) where
  create := r.create
  next := Instance.next devices
  supply := Instance.supply

/-! ### Factories -/

/-- The factory of a function. -/
def SimpleFunction.factory (f : SimpleFunction δ) : Factory (Instance δ) (World δ) :=
  fun arguments w => .still (.ok (.simple f (some arguments))) w

/-- The factory of a stub, with the number of its counter. -/
def Stub.factory (name : String) (counter : Nat) : Stub → Factory (Instance δ) (World δ)
  | .value v => SimpleFunction.factory fun _ w => some (.still (.ok v) w)
  | .counter goal =>
    SimpleFunction.factory fun _ w =>
      let (calls, w) := w.tally counter
      some (.still (.ok (.bool (decide (goal ≤ calls)))) w)
  | .reject message => fun _ w => .still (.error (.invalidArgument name message)) w
  | .play steps repeats => fun arguments w =>
    { value := .ok (.playback ⟨name, arguments, steps, repeats, steps, .null⟩)
      host := w
      notes := [.created name arguments] }

/-- A command that comes with the language. -/
structure Builtin (δ : Type) where
  /-- Its name. -/
  name : String
  /-- One line on what it does. -/
  documentation : String
  /-- What creates its instances. -/
  factory : Factory (Instance δ) (World δ)

/-- A built-in function of its arguments alone. -/
def Builtin.pure (name documentation : String) (f : List Value → Except Fault Value) : Builtin δ :=
  ⟨name, documentation, SimpleFunction.factory (.ofPure fun arguments => some (f arguments))⟩

/-- An operator as a built-in function. -/
def Builtin.operator (name documentation : String) (op : BinaryOp) : Builtin δ :=
  ⟨name, documentation, SimpleFunction.factory (.ofPure (Function.operator name op))⟩

/-- Writes the arguments to the standard output. -/
def printLine : SimpleFunction δ :=
  fun arguments w => some ⟨.ok .null, w, [.printed (Function.line arguments)]⟩

/-- A random whole number between two ends. -/
def randomInt (devices : Devices δ) : SimpleFunction δ :=
  fun arguments w =>
    match Function.range arguments with
    | .error fault => some (.still (.error fault) w)
    | .ok (low, high) =>
      let (n, w) := w.random devices low high
      some (.still (.ok (.int n)) w)

/-- Begins to wait, if the arguments say for how long. -/
def beginWait (devices : Devices δ) : Factory (Instance δ) (World δ) :=
  fun arguments w =>
    match Timer.period arguments with
    | .error fault => .still (.error fault) w
    | .ok duration =>
      let (started, w) := w.time devices
      .still (.ok (.timer ⟨started, duration⟩)) w

/-- Begins to ask for an expression. -/
def beginPoll : Factory (Instance δ) (World δ) :=
  fun arguments w => .still ((Poll.ofArguments arguments).map .poll) w

/-- The built-in commands that finish at once. -/
def builtinFunctions (devices : Devices δ) : List (Builtin δ) := [
  .pure "abs" "Absolute value of a number" Function.abs,
  .operator "add" "Same as `a + b`" .add,
  .operator "sub" "Same as `a - b`" .subtract,
  .operator "mul" "Same as `a * b`" .multiply,
  .operator "div" "Integer division, rounding down. Same as `a // b`" .floorDivide,
  .operator "fdiv" "Division with a floating point result. Same as `a / b`" .divide,
  .operator "mod" "Remainder with the sign of the divisor. Same as `a % b`" .modulo,
  .pure "min" "The smallest of the arguments" (Function.extreme "min" .lt),
  .pure "max" "The largest of the arguments" (Function.extreme "max" .gt),
  .pure "round" "Rounds to the nearest integer, or to `digits` decimals when given" Function.round,
  .pure "int" "Converts a number, boolean or numeric string to an integer" Function.toInt,
  .pure "float" "Converts a number, boolean or numeric string to a float" Function.toFloat,
  .pure "str" "Text representation of a value" Function.toText,
  .pure "bool" "Whether the value is truthy" Function.toBool,
  .pure "len" "Number of characters in a string" Function.length,
  .pure "upper" "The string in upper case" (Function.mapText "upper" upperCase),
  .pure "lower" "The string in lower case" (Function.mapText "lower" lowerCase),
  .pure "title" "The string with every word capitalized" (Function.mapText "title" titleCase),
  .pure "capitalize"
    "The string with its first character in upper case and the rest in lower case"
    (Function.mapText "capitalize" capitalize),
  ⟨"print", "Writes the arguments, separated by spaces, to the standard output",
    SimpleFunction.factory printLine⟩,
  .pure "format"
    "Replaces `\x7b\x7d` and `\x7b0\x7d` placeholders in the template with the arguments"
    Function.format,
  ⟨"randint", "Random integer between `low` and `high`, both inclusive",
    SimpleFunction.factory (randomInt devices)⟩]

/-- The built-in commands that may take several cycles. -/
def builtinCommands (devices : Devices δ) : List (Builtin δ) := [
  ⟨"wait", "Suspends the program until `ms` milliseconds have passed", beginWait devices⟩,
  ⟨"wait_until", "Suspends the program until the given expression is truthy", beginPoll⟩]

/-- All built-in commands. -/
def allBuiltins (devices : Devices δ) : List (Builtin δ) :=
  builtinFunctions devices ++ builtinCommands devices

/-- The registry of all built-in commands. -/
def builtins (devices : Devices δ) : Registry (Instance δ) (World δ) :=
  (allBuiltins devices).foldl (fun r b => r.register b.name b.factory) .empty

/-- What a built-in command does. -/
def builtinDocumentation? (devices : Devices δ) (name : String) : Option String :=
  ((allBuiltins devices).find? (·.name == name)).map (·.documentation)

namespace Builtin

/-- A function is shown with empty parentheses. -/
def display (b : Builtin δ) : String :=
  b.name ++ "()"

/-- The fields that functions and commands have in common. -/
def describeFields (b : Builtin δ) : String :=
  "name: " ++ quote b.name ++ ", documentation: " ++ quote b.documentation

/-- A function with its fields. -/
def describeFunction (b : Builtin δ) : String :=
  "BuiltinFunction \x7b " ++ b.describeFields ++ ", function: " ++ quote "(native)" ++ " \x7d"

/-- A command with its fields. -/
def describeCommand (b : Builtin δ) : String :=
  "BuiltinCommand \x7b " ++ b.describeFields ++ ", .. \x7d"

end Builtin

/-! ### A simulated machine -/

/-- A machine whose time is told from outside, and whose random numbers come from a generator. -/
structure Simulation where
  /-- The time, in nanoseconds. -/
  now : Nat
  /-- Where the next random number comes from. -/
  generator : StdGen

namespace Simulation

/-- The devices of a simulated machine. -/
def devices : Devices Simulation where
  clock s := (s.now, s)
  draw low high s :=
    let (offset, generator) := randNat s.generator 0 (high.toInt - low.toInt).toNat
    (Int64.ofInt (low.toInt + offset), { s with generator })

/-- The same machine some time later. -/
def later (s : Simulation) (nanoseconds : Nat) : Simulation :=
  { s with now := s.now + nanoseconds }

end Simulation

end StepScript
