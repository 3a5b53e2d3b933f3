import StepScript.Expr
import StepScript.Source.Location
import StepScript.Token

/-!
# Scripts

A script is a flat list of statements.  Blocks are not nested in it: a header opens one, and a
later closing brace ends it.

## Main definitions

* `BlockKind` — the four kinds of blocks.
* `Statement`, `Script` — statements and lists of them.
* `Script.closing?` — the closing brace of a block.
-/

namespace StepScript

/-- A kind of block. -/
inductive BlockKind
  /-- `if`: runs when its value is true. -/
  | condition
  /-- `switch`: runs always, and selects among the cases inside it. -/
  | selection
  /-- `case`: runs when its value equals that of the enclosing selection. -/
  | alternative
  /-- `while`: runs as long as its value is true. -/
  | repetition
  deriving DecidableEq, Repr

namespace BlockKind

/-- The word that opens such a block. -/
def keyword : BlockKind → Keyword
  | condition => .condition
  | selection => .selection
  | alternative => .alternative
  | repetition => .repetition

/-- The kind of block that a keyword opens. -/
def ofKeyword? : Keyword → Option BlockKind
  | .condition => some condition
  | .selection => some selection
  | .alternative => some alternative
  | .repetition => some repetition
  | _ => none

/-- The word that opens such a block. -/
def text (k : BlockKind) : String :=
  k.keyword.text

end BlockKind

/-- What a statement does. -/
inductive StatementKind
  /-- Gives a variable the value of an expression. -/
  | assignment (name : String) (value : Expr)
  /-- Evaluates an expression for its effects. -/
  | expression (value : Expr)
  /-- Opens a block. -/
  | header (block : BlockKind) (value : Expr)
  /-- Closes a block. -/
  | blockEnd
  deriving Repr

/-- The text of a statement. -/
def StatementKind.display : StatementKind → String
  | assignment name value => name ++ " = " ++ value.display ++ ";"
  | expression value => value.display ++ ";"
  | header block value => block.text ++ " " ++ value.display ++ " \x7b"
  | blockEnd => "\x7d"

/-- A statement of a script. -/
structure Statement where
  /-- What it does. -/
  kind : StatementKind
  /-- Where it stands. -/
  span : Span
  deriving Repr

/-- The text of a statement. -/
def Statement.display (s : Statement) : String :=
  s.kind.display

/-- A script: its statements in order. -/
structure Script where
  /-- The statements. -/
  statements : List Statement
  deriving Repr

namespace Script

/-- The number of statements. -/
def size (s : Script) : Nat :=
  s.statements.length

/-- The index of the brace that closes the outermost of `depth` open blocks, in statements of which
the first has the index `i`.  There is none if a brace closes a block that is not open. -/
def closingFrom? : Nat → Nat → List Statement → Option Nat
  | _, _, [] => none
  | depth, i, s :: rest =>
    match s.kind with
    | .header _ _ => closingFrom? (depth + 1) (i + 1) rest
    | .blockEnd =>
      match depth with
      | 0 => none
      | 1 => some i
      | d + 2 => closingFrom? (d + 1) (i + 1) rest
    | _ => closingFrom? depth (i + 1) rest

/-- The index of the brace that closes the block opened at the given statement. -/
def closing? (s : Script) (header : Nat) : Option Nat :=
  closingFrom? 0 header (s.statements.drop header)

end Script

end StepScript
