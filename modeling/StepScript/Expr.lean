import StepScript.Text.Quoted
import StepScript.Value

/-!
# Expressions

Expression trees and their text.  The text puts every binary operation in parentheses, so that it
shows how an expression was read.

## Main definitions

* `UnaryOp`, `BinaryOp` — the operators.
* `Expr` — expression trees.
* `Expr.display` — the text of an expression.
-/

namespace StepScript

/-- An operator with one operand. -/
inductive UnaryOp
  /-- `+` -/
  | plus
  /-- `-` -/
  | negate
  /-- `~` -/
  | complement
  /-- `not` -/
  | not
  deriving DecidableEq, Repr

/-- The sign or word of the operator. -/
def UnaryOp.text : UnaryOp → String
  | plus => "+"
  | negate => "-"
  | complement => "~"
  | not => "not"

/-- An operator with two operands. -/
inductive BinaryOp
  /-- `**` -/
  | power
  /-- `*` -/
  | multiply
  /-- `/` -/
  | divide
  /-- `//` -/
  | floorDivide
  /-- `%` -/
  | modulo
  /-- `+` -/
  | add
  /-- `-` -/
  | subtract
  /-- `<<` -/
  | shiftLeft
  /-- `>>` -/
  | shiftRight
  /-- `&` -/
  | bitAnd
  /-- `^` -/
  | bitXor
  /-- `|` -/
  | bitOr
  /-- One of the six comparisons. -/
  | compare (comparison : Comparison)
  /-- `in` -/
  | isIn
  /-- `not in` -/
  | notIn
  /-- `and` -/
  | and
  /-- `or` -/
  | or
  deriving DecidableEq, Repr

/-- The sign or words of the operator. -/
def BinaryOp.text : BinaryOp → String
  | power => "**"
  | multiply => "*"
  | divide => "/"
  | floorDivide => "//"
  | modulo => "%"
  | add => "+"
  | subtract => "-"
  | shiftLeft => "<<"
  | shiftRight => ">>"
  | bitAnd => "&"
  | bitXor => "^"
  | bitOr => "|"
  | compare c => c.text
  | isIn => "in"
  | notIn => "not in"
  | and => "and"
  | or => "or"

/-- An expression. -/
inductive Expr
  /-- A value written out. -/
  | literal (value : Value)
  /-- The name of a variable; it stands for itself if there is no such variable. -/
  | reference (name : String)
  /-- A call of a command. -/
  | call (name : String) (arguments : List Expr)
  /-- An operator and its operand. -/
  | unary (op : UnaryOp) (operand : Expr)
  /-- An operator between its operands. -/
  | binary (op : BinaryOp) (left right : Expr)
  deriving Repr

instance : Inhabited Expr := ⟨.literal .null⟩

namespace Expr

/-- The text of a literal. -/
def displayLiteral : Value → String
  | .str s => quote s
  | v => v.display

mutual

/-- The text of an expression. -/
def display : Expr → String
  | literal v => displayLiteral v
  | reference name => name
  | call name arguments => name ++ "(" ++ ", ".intercalate (displayAll arguments) ++ ")"
  | unary .not operand => "not " ++ operand.display
  | unary op operand => op.text ++ operand.display
  | binary op left right => "(" ++ left.display ++ " " ++ op.text ++ " " ++ right.display ++ ")"

/-- The texts of several expressions. -/
def displayAll : List Expr → List String
  | [] => []
  | e :: es => e.display :: displayAll es

end

end Expr

end StepScript
