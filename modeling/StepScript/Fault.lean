import StepScript.Expr.Parser
import StepScript.Script

/-!
# Faults

What stops a running program.  A `Fault` is the cause alone; a `ProgramError` adds the program and
the statement.

## Main definitions

* `Fault`, `Fault.message` — causes and their messages.
* `ProgramError` — a cause with its place.
-/

namespace StepScript

/-- Why a program cannot go on. -/
inductive Fault
  /-- A `case` outside every `switch`. -/
  | caseWithoutSwitch
  /-- A closing brace without an open block. -/
  | unmatchedBlockEnd
  /-- A block to be skipped that has no closing brace. -/
  | unterminatedBlock (block : BlockKind)
  /-- A call of a command that is not registered. -/
  | unknownCommand (name : String)
  /-- A binary operator between values of the wrong types. -/
  | typeMismatch (operator left right : String)
  /-- A unary operator on a value of the wrong type. -/
  | unaryTypeMismatch (operator operand : String)
  /-- A division or remainder by zero. -/
  | divisionByZero
  /-- A result that is no 64-bit integer. -/
  | integerOverflow (operation : String)
  /-- A command or operator that refuses its arguments. -/
  | invalidArgument (command message : String)
  /-- A command that asks for the value of a text that is no expression. -/
  | unreadableRequest (request : String) (error : ParseError)
  deriving DecidableEq, Repr

/-- The message for a fault. -/
def Fault.message : Fault → String
  | caseWithoutSwitch => "`case` without an enclosing `switch` block"
  | unmatchedBlockEnd => "`\x7d` without an open block"
  | unterminatedBlock block => "`" ++ block.text ++ "` block is never closed"
  | unknownCommand name => "unknown command `" ++ name ++ "`"
  | typeMismatch operator left right =>
    "cannot apply `" ++ operator ++ "` to " ++ left ++ " and " ++ right
  | unaryTypeMismatch operator operand => "cannot apply `" ++ operator ++ "` to " ++ operand
  | divisionByZero => "division by zero"
  | integerOverflow operation => "integer overflow in `" ++ operation ++ "`"
  | invalidArgument command message => "invalid argument for `" ++ command ++ "`: " ++ message
  | unreadableRequest request error =>
    "could not parse requested expression `" ++ request ++ "`: " ++ error.message

/-- A fault of a program, with the statement that met it. -/
structure ProgramError where
  /-- The name of the program. -/
  program : String
  /-- Where the statement stands. -/
  span : Span
  /-- The cause. -/
  fault : Fault
  deriving DecidableEq, Repr

namespace ProgramError

/-- The line of the statement, counted from one. -/
def line (e : ProgramError) : Nat :=
  e.span.start.line + 1

/-- The message for an error. -/
def message (e : ProgramError) : String :=
  e.fault.message ++ " (in " ++ e.program ++ ":" ++ toString e.line ++ ")"

end ProgramError

end StepScript
