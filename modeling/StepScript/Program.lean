import StepScript.Program.Evaluation

/-!
# Programs

A program is a script that is being executed.  Each cycle starts or resumes one statement.  A block
is entered by pushing a frame on the stack, and its closing brace takes the frame away; a block
that is not entered is skipped up to its closing brace.

When a statement fails, the program has failed for good: later cycles give the same error.

## Main definitions

* `Program` — a script with the state of its execution.
* `Program.load` — a new program for a source text.
* `Program.cycle` — one step of work.
* `Program.runFor` — cycles up to a limit.
-/

namespace StepScript

/-- Whether a program can go on. -/
inductive Status
  /-- It can. -/
  | running
  /-- It has executed its last statement. -/
  | done
  /-- A statement has failed. -/
  | failed (error : ProgramError)
  deriving DecidableEq, Repr

/-- A script that is being executed, where `ι` are the instances of commands. -/
structure Program (ι : Type) where
  /-- What the program is called in messages. -/
  name : String
  /-- The statements. -/
  script : Script
  /-- The variables. -/
  vars : Variables
  /-- The open blocks, the innermost first. -/
  stack : List Frame
  /-- The index of the current statement. -/
  counter : Nat
  /-- The current statement's expression, if it has been begun. -/
  evaluation : Option (Evaluation ι)
  /-- Whether the program can go on. -/
  status : Status

namespace Program

variable {ι ω : Type}

/-- What programs without a name are called. -/
def defaultName : String := "<script>"

/-- A new program.  Without statements it is done. -/
def ofScript (script : Script) (vars : Variables) : Program ι where
  name := defaultName
  script := script
  vars := vars
  stack := []
  counter := 0
  evaluation := none
  status := if script.statements.isEmpty then .done else .running

/-- A new program for a source text, with some variables set. -/
def load (source : String) (vars : List (String × Value)) :
    Action ω (Except ParseError (Program ι)) := do
  match ← Action.script source with
  | .error e => return .error e
  | .ok script => return .ok (ofScript script.value (Variables.initial.setAll vars))

/-- The program under another name. -/
def named (p : Program ι) (name : String) : Program ι :=
  { p with name }

/-- Whether the program is done or has failed. -/
def isDone (p : Program ι) : Bool :=
  p.status != .running

/-- Whether the current statement waits for a command. -/
def isSuspended (p : Program ι) : Bool :=
  p.evaluation.isSome

/-- The error that the program has failed with. -/
def error? (p : Program ι) : Option ProgramError :=
  match p.status with
  | .failed e => some e
  | _ => none

/-- The current statement. -/
def current? (p : Program ι) : Option Statement :=
  p.script.statements[p.counter]?

/-! ### Blocks -/

/-- Enters the block whose header is the current statement. -/
def push (p : Program ι) (frame : Frame) : Action ω (Program ι) := do
  Action.log .debug .program
    ("Entering `" ++ frame.block.text ++ "` block at line " ++ toString p.counter)
  Action.emit (.pushed frame)
  return { p with stack := frame :: p.stack, counter := p.counter + 1 }

/-- Skips the block whose header is the current statement. -/
def skip (p : Program ι) (block : BlockKind) : Action ω (Program ι × Except Fault Unit) :=
  match p.script.closing? p.counter with
  | none => return (p, .error (.unterminatedBlock block))
  | some stop => do
    Action.log .debug .program
      ("Skipping `" ++ block.text ++ "` block from line " ++ toString p.counter ++ " to " ++
        toString stop)
    return ({ p with counter := stop + 1 }, .ok ())

/-- Matches the value of a case against the innermost selection: whether there is none, whether the
case is entered, and the stack with the selection marked. -/
def matchCase (v : Value) : List Frame → Option (Bool × List Frame)
  | [] => none
  | .selection scrutinee hit :: rest =>
    if !hit && scrutinee.equals v then some (true, .selection scrutinee true :: rest)
    else some (false, .selection scrutinee hit :: rest)
  | frame :: rest => (matchCase v rest).map fun (entered, rest) => (entered, frame :: rest)

/-- Enters or skips a block, according to the value in its header. -/
def enter (p : Program ι) (block : BlockKind) (v : Value) :
    Action ω (Program ι × Except Fault Unit) :=
  match block with
  | .condition => if v.isTruthy then (·, .ok ()) <$> p.push .condition else p.skip block
  | .repetition =>
    if v.isTruthy then (·, .ok ()) <$> p.push (.repetition p.counter) else p.skip block
  | .selection => (·, .ok ()) <$> p.push (.selection v false)
  | .alternative =>
    match matchCase v p.stack with
    | none => return (p, .error .caseWithoutSwitch)
    | some (true, stack) => (·, .ok ()) <$> push { p with stack } .alternative
    | some (false, stack) => skip { p with stack } block

/-- Closes the innermost block.  A repetition goes back to its header. -/
def close (p : Program ι) : Action ω (Program ι × Except Fault Unit) :=
  match p.stack with
  | [] => return (p, .error .unmatchedBlockEnd)
  | frame :: stack => do
    Action.log .debug .program
      ("Leaving `" ++ frame.block.text ++ "` block at line " ++ toString p.counter)
    Action.emit (.popped frame)
    let counter := match frame with
      | .repetition header => header
      | _ => p.counter + 1
    return ({ p with stack, counter }, .ok ())

/-! ### Statements

What is done to a program is done also when a fault follows: every step gives the program back
together with its result. -/

/-- Goes on with the expression of the current statement, and once it has a value, with the
statement. -/
def evaluate (commands : Commands ι ω) (p : Program ι) (e : Expr)
    (andThen : Program ι → Value → Action ω (Program ι × Except Fault Unit)) :
    Activity ω (Program ι × Except Fault Unit) := do
  -- The program has no evaluation while it goes on, and gets one back only if it has to wait.
  let taken := { p with evaluation := none }
  match ← resume ⟨commands, p.vars⟩ (p.evaluation.getD .fresh) e with
  | .complete v => andThen taken v
  | .suspended rest => return ({ taken with evaluation := some rest }, .ok ())
  | .failed fault _ => return (taken, .error fault)

/-- Announces a statement that is about to start. -/
def announce (p : Program ι) (s : Statement) : Action ω Unit := do
  if p.evaluation.isNone then
    Action.log .trace .program
      (p.name ++ ":" ++ toString (s.span.start.line + 1) ++ " " ++ s.display)
    Action.emit (.line p.counter s)

/-- Executes the current statement as far as it gets. -/
def execute (commands : Commands ι ω) (p : Program ι) (s : Statement) :
    Activity ω (Program ι × Except Fault Unit) :=
  match s.kind with
  | .blockEnd => .ofAction p.close
  | .assignment name e =>
    p.evaluate commands e fun p v =>
      pure ({ p with vars := p.vars.set name v, counter := p.counter + 1 }, .ok ())
  | .expression e =>
    p.evaluate commands e fun p _ => pure ({ p with counter := p.counter + 1 }, .ok ())
  | .header block e => p.evaluate commands e fun p v => p.enter block v

/-- The program after a fault.  The error is about the statement that the program is at then. -/
def fail (p : Program ι) (fault : Fault) :
    Action ω (Program ι × Except ProgramError Unit) := do
  let error : ProgramError := ⟨p.name, (p.current?.map (·.span)).getD default, fault⟩
  Action.log .error .program ("Program " ++ p.name ++ " failed: " ++ error.message)
  Action.emit (.failed error)
  return ({ p with evaluation := none, status := .failed error }, .error error)

/-- The program after a step, which is done if no statement is left. -/
def advance (p : Program ι) : Action ω (Program ι × Except ProgramError Unit) := do
  if p.script.size ≤ p.counter then
    Action.log .debug .program ("Program " ++ p.name ++ " is done")
    return ({ p with status := .done }, .ok ())
  else return (p, .ok ())

/-- One step of work: starts or resumes the current statement.  Nothing happens once the program is
done, and once it has failed the same error comes again. -/
def cycle (commands : Commands ι ω) (p : Program ι) :
    Activity ω (Program ι × Except ProgramError Unit) :=
  match p.status with
  | .done => pure (p, .ok ())
  | .failed error => pure (p, .error error)
  | .running =>
    match p.current? with
    | none => .ofAction p.advance
    | some s => do
      .ofAction (p.announce s)
      match ← p.execute commands s with
      | (p, .error fault) => .ofAction (p.fail fault)
      | (p, .ok ()) => .ofAction p.advance

end Program

/-- A program after some cycles. -/
structure Run (ι ω : Type) where
  /-- The program. -/
  program : Program ι
  /-- The store. -/
  store : Store ω
  /-- How many cycles there were. -/
  cycles : Nat
  /-- What the last cycle gave, and nothing wrong if there was none. -/
  result : Except ProgramError Unit
  /-- All signals, the lists of the latest cycles first. -/
  signals : List (List Signal)

/-- Cycles until the program is done, at most the given number of times.  In the pause between two
cycles the host may change.  Nothing is given if one of the cycles never ends. -/
def Run.continue {ι ω : Type} (commands : Commands ι ω) (pause : ω → ω) :
    Nat → Run ι ω → Option (Run ι ω)
  | 0, r => some r
  | n + 1, r =>
    if r.program.isDone then some r
    else do
      let effect ← r.program.cycle commands r.store
      Run.continue commands pause n
        { program := effect.value.1
          store := { effect.store with host := pause effect.store.host }
          cycles := r.cycles + 1
          result := effect.value.2
          signals := effect.signals :: r.signals }

/-- Cycles a program until it is done, at most the given number of times. -/
def Program.runFor {ι ω : Type} (commands : Commands ι ω) (limit : Nat) (p : Program ι)
    (store : Store ω) : Option (Run ι ω) :=
  Run.continue commands id limit ⟨p, store, 0, .ok (), []⟩

/-- Cycles a program in the same way, with a pause after every cycle. -/
def Program.runPaced {ι ω : Type} (commands : Commands ι ω) (pause : ω → ω)
    (limit : Nat) (p : Program ι) (store : Store ω) : Option (Run ι ω) :=
  Run.continue commands pause limit ⟨p, store, 0, .ok (), []⟩

/-- All signals of a run, in order. -/
def Run.allSignals {ι ω : Type} (r : Run ι ω) : List Signal :=
  r.signals.reverse.flatten

end StepScript
