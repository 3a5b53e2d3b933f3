import StepScript.Expr.Parser
import StepScript.Script

/-!
# Reading scripts

A statement is an assignment, an expression, a block's header or a closing brace.  A name followed
by `=` begins an assignment.

## Main definitions

* `parseStatement` — reads one statement.
* `parseScript` — reads a whole text.
* `Parser` — tokens and a position among them, to read piece by piece.
-/

namespace StepScript

/-- The name of the variable that the tokens begin to assign, and the tokens behind the sign. -/
def assignee? : List Token → Option (String × List Token)
  | t :: u :: rest =>
    match t.kind with
    | .identifier name => if u.kind = .punctuator .assign then some (name, rest) else none
    | _ => none
  | _ => none

theorem length_rest_lt_of_assignee? {ts rest : List Token} {name : String}
    (h : assignee? ts = some (name, rest)) : rest.length < ts.length := by
  unfold assignee? at h
  grind

/-- The kind of block that a token opens. -/
def Token.opens? (t : Token) : Option BlockKind :=
  match t.kind with
  | .keyword k => BlockKind.ofKeyword? k
  | _ => none

/-- Reads an expression and the sign behind it, and gives back where the sign ends. -/
def parseClosed (eof : Location) (sign : Punctuator) (expectation : Expectation)
    (ts : List Token) : ParseResult (Expr × Location) ts.length :=
  match parseExpression eof ts with
  | .error failure => .error failure
  | .ok ⟨e, rest, shorter⟩ =>
    match parseSign eof sign expectation rest with
    | .error failure => .error failure
    | .ok ⟨t, rest, shorter'⟩ => .ok ⟨(e, t.span.stop), rest, Nat.lt_trans shorter' shorter⟩

/-- Reads one statement. -/
def parseStatement (eof : Location) (ts : List Token) : ParseResult Statement ts.length :=
  match ts with
  | [] => .error ⟨.endOfFile .statement eof, []⟩
  | t :: rest =>
    if t.kind = .punctuator .rightBrace then .ok ⟨⟨.blockEnd, t.span⟩, rest, Nat.lt_add_one _⟩
    else
      match t.opens? with
      | some block =>
        match parseClosed eof .leftBrace .braceAfterHeader rest with
        | .error failure => .error failure
        | .ok ⟨(e, stop), rest, shorter⟩ =>
          .ok ⟨⟨.header block e, ⟨t.span.start, stop⟩⟩, rest, Nat.lt_add_right 1 shorter⟩
      | none =>
        -- two tokens tell an assignment from an expression
        match h : assignee? (t :: rest) with
        | some (name, rest) =>
          match parseClosed eof .semicolon .semicolonAfterAssignment rest with
          | .error failure => .error failure
          | .ok ⟨(e, stop), rest, shorter⟩ =>
            .ok ⟨⟨.assignment name e, ⟨t.span.start, stop⟩⟩, rest,
              Nat.lt_trans shorter (length_rest_lt_of_assignee? h)⟩
        | none =>
          match parseClosed eof .semicolon .semicolonAfterExpression (t :: rest) with
          | .error failure => .error failure
          | .ok ⟨(e, stop), rest, shorter⟩ =>
            .ok ⟨⟨.expression e, ⟨t.span.start, stop⟩⟩, rest, shorter⟩

/-- Reads statements up to the end.  Those so far come with the latest first. -/
def parseStatements (eof : Location) (done : List Statement) (ts : List Token) :
    Except Failure (List Statement) :=
  if ts.isEmpty then .ok done.reverse
  else
    match parseStatement eof ts with
    | .error failure => .error failure
    | .ok ⟨s, rest, _⟩ => parseStatements eof (s :: done) rest
termination_by ts.length

/-- Reads a script.  The first error is reported, and flaws in the tokens come first. -/
def parseScript (source : String) : Except ParseError Script :=
  match tokens source with
  | .error e => .error e
  | .ok ts =>
    match parseStatements (endOfTokens ts) [] ts with
    | .error failure => .error failure.error
    | .ok statements => .ok ⟨statements⟩

/-- Tokens and a position among them, which may lie behind the last one. -/
structure Parser where
  /-- The tokens. -/
  tokens : List Token
  /-- How many of them have been used. -/
  cursor : Nat
  deriving Repr

namespace Parser

/-- The tokens that have not been used. -/
def ahead (p : Parser) : List Token :=
  p.tokens.drop p.cursor

/-- Whether all tokens have been used. -/
def atEnd (p : Parser) : Bool :=
  p.tokens.length ≤ p.cursor

/-- The parser with the given tokens ahead. -/
def advance (p : Parser) (rest : List Token) : Parser :=
  { p with cursor := p.cursor + (p.ahead.length - rest.length) }

/-- Reads on, and moves behind what was read or behind the token that was wrong. -/
def read {α : Type} (parse : Location → (ts : List Token) → ParseResult α ts.length) (p : Parser) :
    Except ParseError α × Parser :=
  match parse (endOfTokens p.tokens) p.ahead with
  | .ok parsed => (.ok parsed.value, p.advance parsed.rest)
  | .error failure => (.error failure.error, p.advance failure.rest)

/-- Reads a statement. -/
def statement (p : Parser) : Except ParseError Statement × Parser :=
  p.read parseStatement

/-- Reads an expression. -/
def expression (p : Parser) : Except ParseError Expr × Parser :=
  p.read parseExpression

end Parser

end StepScript
