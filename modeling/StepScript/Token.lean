import StepScript.Number.Text
import StepScript.Source.Location
import StepScript.Text.Quoted

/-!
# Tokens

The words of the language: keywords, names, string and number literals, and punctuators.

## Main definitions

* `Keyword`, `Punctuator` — the fixed words and signs.
* `TokenKind` — what a token is, with its value.
* `Token` — a token and where it stands.
-/

namespace StepScript

/-- A reserved word. -/
inductive Keyword
  /-- `and` -/
  | conjunction
  /-- `case` -/
  | alternative
  /-- `false` -/
  | falsity
  /-- `if` -/
  | condition
  /-- `in` -/
  | membership
  /-- `not` -/
  | negation
  /-- `null` -/
  | nothing
  /-- `or` -/
  | disjunction
  /-- `switch` -/
  | selection
  /-- `true` -/
  | truth
  /-- `while` -/
  | repetition
  deriving DecidableEq, Repr

namespace Keyword

/-- Every keyword, in alphabetical order of the words. -/
def all : List Keyword :=
  [conjunction, alternative, falsity, condition, membership, negation, nothing, disjunction,
    selection, truth, repetition]

/-- The word itself. -/
def text : Keyword → String
  | conjunction => "and"
  | alternative => "case"
  | falsity => "false"
  | condition => "if"
  | membership => "in"
  | negation => "not"
  | nothing => "null"
  | disjunction => "or"
  | selection => "switch"
  | truth => "true"
  | repetition => "while"

/-- The keyword that a word spells. -/
def ofText? (word : String) : Option Keyword :=
  all.find? (·.text == word)

theorem mem_all (k : Keyword) : k ∈ all := by
  cases k <;> decide

/-- One line on what the keyword does. -/
def documentation : Keyword → String
  | conjunction => "Logical conjunction. Both operands are always evaluated."
  | alternative => "Run the block when its value equals the scrutinee of the enclosing `switch`."
  | falsity => "The boolean `false`."
  | condition => "Run the block when the condition holds."
  | membership => "Substring test, e.g. `\"ell\" in \"hello\"`."
  | negation => "Logical negation, also usable as `not in`."
  | nothing => "The absence of a value."
  | disjunction => "Logical disjunction. Both operands are always evaluated."
  | selection => "Select one of the `case` blocks inside by value."
  | truth => "The boolean `true`."
  | repetition => "Repeat the block as long as the condition holds."

end Keyword

/-- A sign of one or two characters. -/
inductive Punctuator
  | comma
  | leftParen
  | rightParen
  | leftBrace
  | rightBrace
  | semicolon
  | assign
  | plus
  | minus
  | star
  | doubleStar
  | slash
  | doubleSlash
  | percent
  | tilde
  | shiftLeft
  | shiftRight
  | ampersand
  | bar
  | caret
  | equal
  | notEqual
  | less
  | lessEqual
  | greater
  | greaterEqual
  | bang
  deriving DecidableEq, Repr

namespace Punctuator

/-- The sign itself. -/
def text : Punctuator → String
  | comma => ","
  | leftParen => "("
  | rightParen => ")"
  | leftBrace => "\x7b"
  | rightBrace => "\x7d"
  | semicolon => ";"
  | assign => "="
  | plus => "+"
  | minus => "-"
  | star => "*"
  | doubleStar => "**"
  | slash => "/"
  | doubleSlash => "//"
  | percent => "%"
  | tilde => "~"
  | shiftLeft => "<<"
  | shiftRight => ">>"
  | ampersand => "&"
  | bar => "|"
  | caret => "^"
  | equal => "=="
  | notEqual => "!="
  | less => "<"
  | lessEqual => "<="
  | greater => ">"
  | greaterEqual => ">="
  | bang => "!"

/-- What the sign is called. -/
def name : Punctuator → String
  | comma => "comma"
  | leftParen => "left parenthesis"
  | rightParen => "right parenthesis"
  | leftBrace => "left curly bracket"
  | rightBrace => "right curly bracket"
  | semicolon => "semicolon"
  | assign => "assignment"
  | plus => "plus"
  | minus => "minus"
  | star => "asterisk"
  | doubleStar => "double asterisk"
  | slash => "solidus"
  | doubleSlash => "double solidus"
  | percent => "percentage sign"
  | tilde => "tilde"
  | shiftLeft => "left shift"
  | shiftRight => "right shift"
  | ampersand => "bitwise and"
  | bar => "bitwise or"
  | caret => "bitwise xor"
  | equal => "equals"
  | notEqual => "not equals"
  | less => "less than"
  | lessEqual => "less than or equal"
  | greater => "greater than"
  | greaterEqual => "greater than or equal"
  | bang => "exclamation mark"

end Punctuator

/-- What a token is. -/
inductive TokenKind
  /-- A reserved word. -/
  | keyword (word : Keyword)
  /-- The name of a variable or a command. -/
  | identifier (name : String)
  /-- A string literal, with its escapes undone. -/
  | string (text : String)
  /-- A whole number. -/
  | integer (value : Int64)
  /-- A number with a point or a power of ten. -/
  | float (value : Float)
  /-- A sign. -/
  | punctuator (sign : Punctuator)
  deriving DecidableEq, Repr

namespace TokenKind

/-- What tokens of this kind are called. -/
def name : TokenKind → String
  | keyword _ => "keyword"
  | identifier _ => "identifier"
  | string _ => "string"
  | integer _ => "integer"
  | float _ => "float"
  | punctuator p => p.name

/-- How a token is shown in a message. -/
def display : TokenKind → String
  | keyword k => k.text
  | identifier name => name
  | string text => quote text
  | integer i => toString i.toInt
  | float x => FloatFormat.plain.write x
  | punctuator p => p.text

end TokenKind

/-- A token of a source text. -/
structure Token where
  /-- What it is. -/
  kind : TokenKind
  /-- Where it stands. -/
  span : Span
  deriving DecidableEq, Repr

namespace Token

/-- The name that the token spells, if it is an identifier. -/
def identifier? (t : Token) : Option String :=
  match t.kind with
  | .identifier name => some name
  | _ => none

end Token

end StepScript
