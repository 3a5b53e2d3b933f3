import StepScript.Fault

/-!
# What a running program lets the outside see

While it runs, a program keeps a stack of open blocks and sends signals: to a debugger, to the log,
and to the standard output.  All of them are collected in one list, in the order in which they are
sent.

## Main definitions

* `Frame` — an open block.
* `Note` — what a command itself lets see.
* `Signal` — everything that is sent.
-/

namespace StepScript

/-- An open block. -/
inductive Frame
  /-- An `if` block. -/
  | condition
  /-- A `switch` block, with the value to match and whether a case has matched. -/
  | selection (scrutinee : Value) (matched : Bool)
  /-- A `case` block. -/
  | alternative
  /-- A `while` block, with the index of its header. -/
  | repetition (header : Nat)
  deriving DecidableEq, Repr

/-- The kind of the block. -/
def Frame.block : Frame → BlockKind
  | condition => .condition
  | selection _ _ => .selection
  | alternative => .alternative
  | repetition _ => .repetition

/-- What a command lets see on its own account. -/
inductive Note
  /-- It was created with these arguments. -/
  | created (name : String) (arguments : List Value)
  /-- It was given the value of an expression that it had asked for. -/
  | supplied (name expression : String) (value : Value)
  /-- It wrote a text to the standard output. -/
  | printed (text : String)
  deriving DecidableEq, Repr

/-- How important a log message is. -/
inductive LogLevel
  /-- Every statement and command. -/
  | trace
  /-- Blocks, and the end of a program. -/
  | debug
  /-- Warnings of commands. -/
  | warn
  /-- Errors of programs. -/
  | error
  deriving DecidableEq, Repr

/-- The name of a level. -/
def LogLevel.text : LogLevel → String
  | trace => "TRACE"
  | debug => "DEBUG"
  | warn => "WARN"
  | error => "ERROR"

/-- The part that writes a log message. -/
inductive LogOrigin
  /-- The cache of parsed texts. -/
  | cache
  /-- The evaluation of expressions. -/
  | evaluation
  /-- The execution of statements. -/
  | program
  /-- The log itself. -/
  | log
  deriving DecidableEq, Repr

/-- A message for the log. -/
structure LogRecord where
  /-- How important it is. -/
  level : LogLevel
  /-- Who writes it. -/
  origin : LogOrigin
  /-- What it says. -/
  message : String
  deriving DecidableEq, Repr

/-- What a running program sends. -/
inductive Signal
  /-- It starts on a statement. -/
  | line (index : Nat) (statement : Statement)
  /-- It calls a command. -/
  | entered (name : String) (arguments : List Value)
  /-- A command has finished. -/
  | left (name : String) (result : Value)
  /-- A command warns. -/
  | warned (command message : String)
  /-- A block is opened. -/
  | pushed (frame : Frame)
  /-- A block is closed. -/
  | popped (frame : Frame)
  /-- It fails. -/
  | failed (error : ProgramError)
  /-- A command lets something see. -/
  | note (n : Note)
  /-- It writes to the log. -/
  | log (record : LogRecord)
  deriving Repr

/-- The text that the signals put on the standard output. -/
def printedText (signals : List Signal) : String :=
  signals.foldl (fun text signal => match signal with
    | .note (.printed t) => text ++ t
    | _ => text) ""

end StepScript
