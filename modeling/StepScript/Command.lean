import StepScript.Program.Action

/-!
# Commands

A command is created with its arguments when a script calls it, and then addressed again and again
until it finishes.  Each time it replies that it is done, that it needs more time, that it wants to
know the value of an expression, or that something is odd.

Programs know commands only by how they answer: `Commands` says how an instance is created,
stepped and given the values that it asked for, over any type of instances and any state of the
host.  A `Registry` lists factories by name.

## Main definitions

* `Reply` — what a command answers.
* `Commands` — how the commands of a host behave.
* `Registry` — the factories of a host's commands.
-/

namespace StepScript

/-- What a command answers when it is stepped. -/
inductive Reply
  /-- The call is complete and has this value. -/
  | finished (value : Value)
  /-- Not done yet: step again in the next cycle. -/
  | suspend
  /-- Evaluate this expression, hand over its value, and step again. -/
  | request (expression : String)
  /-- Log this message, and step again in the same cycle. -/
  | warning (message : String)
  deriving DecidableEq, Repr

/-- How the commands of a host behave, where `ι` are the instances of commands and `ω` the state of
the host. -/
structure Commands (ι ω : Type) where
  /-- Creates an instance for a call. -/
  create : String → List Value → ω → Turn ω (Except Fault ι)
  /-- Steps an instance.  The instance is kept also when the step fails.  Nothing is given if the
  step brings down the program. -/
  next : ι → ω → Option (Turn ω (Except Fault Reply × ι))
  /-- Hands an instance the value of an expression. -/
  supply : ι → String → Value → ω → Turn ω ι

/-- What creates the instances of one command. -/
abbrev Factory (ι ω : Type) :=
  List Value → ω → Turn ω (Except Fault ι)

/-- The commands of a host by name, each name at most once. -/
structure Registry (ι ω : Type) where
  /-- Names and factories. -/
  entries : List (String × Factory ι ω)

namespace Registry

variable {ι ω : Type}

/-- No commands. -/
def empty : Registry ι ω := ⟨[]⟩

/-- Adds a command in place of the one with the same name. -/
def register (r : Registry ι ω) (name : String) (factory : Factory ι ω) : Registry ι ω :=
  ⟨(name, factory) :: r.entries.filter (·.1 != name)⟩

/-- Adds all commands of another registry. -/
def extend (r other : Registry ι ω) : Registry ι ω :=
  other.entries.foldl (fun r (name, factory) => r.register name factory) r

/-- Whether there is a command of this name. -/
def has (r : Registry ι ω) (name : String) : Bool :=
  (r.entries.lookup name).isSome

/-- The names in order. -/
def names (r : Registry ι ω) : List String :=
  (r.entries.map (·.1)).mergeSort fun a b => decide (a ≤ b)

/-- Creates an instance of a command. -/
def create (r : Registry ι ω) (name : String) (arguments : List Value) (host : ω) :
    Turn ω (Except Fault ι) :=
  match r.entries.lookup name with
  | some factory => factory arguments host
  | none => .still (.error (.unknownCommand name)) host

/-- A summary of the registry. -/
def describe (r : Registry ι ω) : String :=
  "CommandRegistry \x7b commands: [" ++ ", ".intercalate (r.names.map quote) ++ "] \x7d"

end Registry

end StepScript
