import StepScript.Command.Standard
import StepScript.Config
import StepScript.Diagnostic
import StepScript.Program
import StepScript.Tool.Files
import StepScript.Tool.Invocation

/-!
# The command line tool

The tool runs a script, checks it, prints its tokens, or lists what is built in.  Everything that it
does is a list of outputs and an exit code; a running script is a `Job`, which is advanced cycle by
cycle, so that whoever runs it decides how time passes.

## Main definitions

* `Output` — a text for one of the two output streams.
* `Job` — a script that the tool runs.
* `Stage` — whether the tool is finished.
* `Job.advance` — one cycle of a job.
* `Invocation.start` — everything up to the first cycle.
-/

namespace StepScript

/-- A text that the tool writes. -/
inductive Output
  /-- To the standard output. -/
  | out (text : String)
  /-- To the standard error output. -/
  | err (text : String)
  deriving DecidableEq, Repr

/-- The texts for the standard output. -/
def standardOutput (outputs : List Output) : String :=
  String.join (outputs.filterMap fun
    | .out text => some text
    | .err _ => none)

/-- The texts for the standard error output. -/
def errorOutput (outputs : List Output) : String :=
  String.join (outputs.filterMap fun
    | .out _ => none
    | .err text => some text)

namespace Tool

/-- The exit code when all went well. -/
def success : Nat := 0

/-- The exit code when a file cannot be read or parsed. -/
def unreadable : Nat := 1

/-- The exit code when a program has failed. -/
def failure : Nat := 2

/-- The exit code when the tool is brought down. -/
def breakdown : Nat := 101

/-- The commands of the scripts that the tool runs. -/
def commands : Commands (Instance Simulation) (World Simulation) :=
  standardCommands Simulation.devices (builtins Simulation.devices)

/-- The name and version of the tool. -/
def versionLine : String := "snek-interpreter 0.0.3\n"

/-- An error message that is about no place in a script. -/
def complain (paint : Painter) (message : String) : Output :=
  .err (errorLabel paint ++ ": " ++ message ++ "\n")

/-- The message for a file that cannot be read. -/
def unreadableMessage (path : String) (failure : ReadFailure) : String :=
  "could not read " ++ path ++ ": " ++ failure.message

end Tool

/-! ### The log -/

/-- The file that a log message is said to come from. -/
def LogOrigin.file : LogOrigin → String
  | cache => "snek/src/context.rs"
  | evaluation => "interpreter/src/evaluation.rs"
  | program => "interpreter/src/program.rs"
  | log => "interpreter/src/logger.rs"

/-- Whether a message is shown even when not everything is. -/
def LogLevel.isSerious : LogLevel → Bool
  | trace => false
  | debug => false
  | warn => true
  | error => true

/-- The line for a log message. -/
def LogRecord.line (r : LogRecord) : String :=
  "[" ++ r.level.text ++ "] " ++ r.origin.file ++ ": " ++ r.message ++ "\n"

/-- What the tool writes for a signal. -/
def Signal.output? (verbose : Bool) : Signal → Option Output
  | .note (.printed text) => some (.out text)
  | .log r => if verbose || r.level.isSerious then some (.err r.line) else none
  | _ => none

/-- What the tool writes for signals. -/
def Output.ofSignals (verbose : Bool) (signals : List Signal) : List Output :=
  signals.filterMap (Signal.output? verbose)

/-- What the tool writes when the log is ready. -/
def Output.greeting (verbose : Bool) : List Output :=
  ofSignals verbose [.log ⟨.debug, .log, "Logger is initialized"⟩]

/-! ### Running a script -/

/-- A script that the tool runs. -/
structure Job where
  /-- The path of the script. -/
  path : String
  /-- Its text. -/
  source : String
  /-- How styles are shown. -/
  paint : Painter
  /-- Whether everything is logged. -/
  verbose : Bool
  /-- The pause between two cycles, in milliseconds. -/
  delay : Nat
  /-- The program. -/
  program : Program (Instance Simulation)
  /-- What the program works with. -/
  store : Store (World Simulation)

/-- Where the tool stands. -/
inductive Stage
  /-- It is finished, with an exit code. -/
  | finished (code : Nat)
  /-- It runs a script. -/
  | running (job : Job)

namespace Job

/-- The time passes. -/
def wait (job : Job) (nanoseconds : Nat) : Job :=
  let host := job.store.host
  { job with store.host := { host with machine := host.machine.later nanoseconds } }

/-- The job goes on, unless its program is done. -/
def stage (job : Job) : Stage :=
  if job.program.isDone then .finished Tool.success else .running job

/-- One cycle, which gives nothing if it never ends or breaks off. -/
def advance (job : Job) : Option (List Output × Stage) := do
  let effect ← job.program.cycle Tool.commands job.store
  let outputs := Output.ofSignals job.verbose effect.signals
  match effect.value with
  | (_, .error e) =>
    let shown := (Diagnostic.ofProgramError job.path job.source e).render job.paint
    some (outputs ++ [.err shown], .finished Tool.failure)
  | (program, .ok ()) => some (outputs, stage { job with program, store := effect.store })

end Job

namespace Tool

variable {m : Type → Type} [Monad m]

/-- The configuration in a file. -/
def loadConfig (read : ReadFile m) (path : String) : m (Except String Config) := do
  match ← read path with
  | .error failure => return .error (unreadableMessage path failure)
  | .ok text =>
    match Config.parse? text with
    | some config => return .ok config
    | none => return .error "invalid configuration"

/-- The configuration next to a script, if there is one. -/
def discoverConfig (read : ReadFile m) (script : String) : m (Except String Config) := do
  match sibling? script Config.fileName with
  | none => return .ok .standard
  | some path =>
    match ← read path with
    | .error failure =>
      if failure.isAbsence then return .ok .standard
      else return .error (unreadableMessage path failure)
    | .ok _ => loadConfig read path

/-- Prepares a job for a script whose text is known. -/
def prepare (world : World Simulation) (paint : Painter) (verbose : Bool) (path source : String)
    (config : Config) (delay : Nat) : List Output × Stage :=
  match config.startVariables with
  | .error name => ([complain paint (Config.unsupportedMessage name)], .finished unreadable)
  | .ok vars =>
    let effect := Program.load source vars ⟨.empty, world⟩
    let outputs := Output.ofSignals verbose effect.signals
    match effect.value with
    | .error e =>
      let shown := (Diagnostic.ofParseError path source e).render paint
      (outputs ++ [.err shown], .finished unreadable)
    | .ok program =>
      let program := program.named (config.name.getD path)
      (outputs, Job.stage ⟨path, source, paint, verbose, delay, program, effect.store⟩)

/-- Starts to run a script. -/
def run (read : ReadFile m) (world : World Simulation) (paint : Painter) (verbose : Bool)
    (path : String) (delay : Option Nat) (configPath : Option String) : m (List Output × Stage) := do
  let loaded ← match configPath with
    | some configPath => loadConfig read configPath
    | none => discoverConfig read path
  match loaded with
  | .error message => return ([complain paint message], .finished unreadable)
  | .ok config =>
    let verbose := verbose || config.debug
    match ← read path with
    | .error failure =>
      return (Output.greeting verbose ++ [complain paint (unreadableMessage path failure)],
        .finished unreadable)
    | .ok source =>
      let delay := delay.getD config.stepDelay
      let (outputs, stage) := prepare world paint verbose path source config delay
      return (Output.greeting verbose ++ outputs, stage)

/-- Parses a script and counts its statements. -/
def check (paint : Painter) (verbose : Bool) (path source : String) : List Output × Stage :=
  let effect := Action.script source (⟨.empty, ()⟩ : Store Unit)
  let outputs := Output.ofSignals verbose effect.signals
  match effect.value with
  | .error e =>
    (outputs ++ [.err ((Diagnostic.ofParseError path source e).render paint)],
      .finished unreadable)
  | .ok script =>
    let shown := paint (.vivid .green) path
    (outputs ++ [.out (shown ++ ": " ++ toString script.value.size ++ " statements\n")],
      .finished success)

/-- The line for a token. -/
def tokenLine (paint : Painter) (t : Token) : String :=
  paint (.tinted .blue) (padLeft 8 t.span.start.display) ++ "  " ++
    padRight 24 t.kind.name ++ " " ++ t.kind.display ++ "\n"

/-- Prints the tokens of a script, and what is wrong with it. -/
def tokens (paint : Painter) (path source : String) : List Output × Stage :=
  let lexed := lex source
  let shown := lexed.tokens.map fun t => Output.out (tokenLine paint t)
  let errors := lexed.errors.map fun e =>
    Output.err ((Diagnostic.ofLexError path source e).render paint)
  (shown ++ errors, .finished (if errors.isEmpty then success else unreadable))

/-- The line for something built in. -/
def builtinLine (paint : Painter) (name documentation : String) : String :=
  "  " ++ paint (.tinted .green) (padRight 12 name) ++ " " ++ documentation ++ "\n"

/-- The list of what is built in. -/
def builtinText (paint : Painter) : String :=
  paint .strong "Keywords" ++ "\n" ++
    String.join (Keyword.all.map fun k => builtinLine paint k.text k.documentation) ++ "\n" ++
    paint .strong "Commands" ++ "\n" ++
    String.join ((builtins Simulation.devices).names.map fun name =>
      builtinLine paint name ((builtinDocumentation? Simulation.devices name).getD ""))

/-- Does something with the text of a script. -/
def withSource (read : ReadFile m) (paint : Painter) (verbose : Bool) (path : String)
    (use : String → List Output × Stage) : m (List Output × Stage) := do
  let greeting := Output.greeting verbose
  match ← read path with
  | .error failure =>
    return (greeting ++ [complain paint (unreadableMessage path failure)], .finished unreadable)
  | .ok source =>
    let (outputs, stage) := use source
    return (greeting ++ outputs, stage)

end Tool

/-- Does what is asked for, up to the first cycle of a script. -/
def Invocation.start {m : Type → Type} [Monad m] (read : ReadFile m) (world : World Simulation)
    (paint : Painter) (i : Invocation) : m (List Output × Stage) :=
  match i.request with
  | .run path delay config => Tool.run read world paint i.verbose path delay config
  | .check path => Tool.withSource read paint i.verbose path (Tool.check paint i.verbose path)
  | .tokens path => Tool.withSource read paint i.verbose path (Tool.tokens paint path)
  | .builtins => pure ([.out (Tool.builtinText paint)], .finished Tool.success)
  | .version => pure ([.out Tool.versionLine], .finished Tool.success)

end StepScript
