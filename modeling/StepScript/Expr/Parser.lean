import StepScript.Expr
import StepScript.Token.Lexer

/-!
# Reading expressions

Expressions are read off a list of tokens by recursive descent.  From loosest to tightest the
levels are `or`, `and`, `not`, comparisons, the bitwise operators, shifts, sums, products, signs,
powers, and primary expressions.  Seven of them are chains that group to the left; powers group to
the right, and their exponent may carry a sign.

Every function gives back the tokens that it leaves, with a proof that they are fewer than those it
was given.  On failure it gives back those behind the token that was wrong.

## Main definitions

* `ParseError` — why a text cannot be read.
* `Tier`, `Level` — the levels of the grammar.
* `parseLevel` — reads an expression of a level.
* `parseExpr` — reads a text that holds one expression.
-/

namespace StepScript

/-- What the parser looks for. -/
inductive Expectation
  /-- The start of a statement. -/
  | statement
  /-- The start of an expression. -/
  | expression
  /-- The end of an assignment. -/
  | semicolonAfterAssignment
  /-- The end of an expression that is a statement. -/
  | semicolonAfterExpression
  /-- The brace behind a block's header. -/
  | braceAfterHeader
  /-- The end of an expression in parentheses. -/
  | closingParen
  /-- The end of an argument. -/
  | commaOrParen
  deriving DecidableEq, Repr

/-- How an expectation is called in messages. -/
def Expectation.text : Expectation → String
  | statement => "statement"
  | expression => "expression"
  | semicolonAfterAssignment => "`;` after assignment"
  | semicolonAfterExpression => "`;` after expression"
  | braceAfterHeader => "`\x7b` after block header"
  | closingParen => "`)` after parenthesized expression"
  | commaOrParen => "`,` or `)` in argument list"

/-- Why a text cannot be read. -/
inductive ParseError
  /-- The text has a flaw in its tokens. -/
  | lexer (error : LexError)
  /-- The text ends too early. -/
  | endOfFile (expectation : Expectation) (location : Location)
  /-- Another token stands where a certain one is needed. -/
  | expected (expectation : Expectation) (token : Token)
  /-- No expression begins with this token. -/
  | unknownStart (token : Token)
  /-- A token stands behind a complete expression. -/
  | residual (token : Token)
  deriving DecidableEq, Repr

namespace ParseError

/-- Where the error is. -/
def location : ParseError → Location
  | lexer e => e.location
  | endOfFile _ l => l
  | expected _ t => t.span.start
  | unknownStart t => t.span.start
  | residual t => t.span.start

/-- The message for an error. -/
def message : ParseError → String
  | lexer e => e.flaw.message ++ " at " ++ e.location.display
  | endOfFile x l => "unexpected end of file at " ++ l.display ++ ", expected " ++ x.text
  | expected x t =>
    "expected " ++ x.text ++ " at " ++ t.span.start.display ++ ", but got: " ++ t.kind.display
  | unknownStart t =>
    "unknown start of expression at " ++ t.span.start.display ++ ": " ++ t.kind.display
  | residual t =>
    "residual token after expression at " ++ t.span.start.display ++ ": " ++ t.kind.display

end ParseError

/-- An error with the tokens behind the place where it was noticed. -/
structure Failure where
  /-- What is wrong. -/
  error : ParseError
  /-- The tokens that were not looked at. -/
  rest : List Token
  deriving DecidableEq, Repr

/-- Something read off a list of `bound` tokens. -/
structure Parsed (α : Type) (bound : Nat) where
  /-- What was read. -/
  value : α
  /-- The tokens behind it. -/
  rest : List Token
  /-- At least one token was used. -/
  shorter : rest.length < bound

/-- What reading yields. -/
abbrev ParseResult (α : Type) (bound : Nat) :=
  Except Failure (Parsed α bound)

/-! ### The levels of the grammar -/

/-- A level of operators that group to the left. -/
inductive Tier
  /-- `or` -/
  | disjunction
  /-- `and` -/
  | conjunction
  /-- `==`, `!=`, `<`, `<=`, `>`, `>=`, `in` and `not in` -/
  | comparison
  /-- `&`, `^` and `|` -/
  | bitwise
  /-- `<<` and `>>` -/
  | shift
  /-- `+` and `-` -/
  | sum
  /-- `*`, `/`, `//` and `%` -/
  | product
  deriving DecidableEq, Repr

/-- A level of the grammar. -/
inductive Level
  /-- A chain of operators that group to the left. -/
  | tier (t : Tier)
  /-- An expression that may begin with `not` or `!`. -/
  | negation
  /-- An expression that may begin with a sign. -/
  | sign
  /-- A power. -/
  | power
  /-- A literal, a name, a call, or an expression in parentheses. -/
  | primary
  deriving DecidableEq, Repr

/-- The level of the operands of a tier. -/
def Tier.operand : Tier → Level
  | disjunction => .tier .conjunction
  | conjunction => .negation
  | comparison => .tier .bitwise
  | bitwise => .tier .shift
  | shift => .tier .sum
  | sum => .tier .product
  | product => .sign

/-- How loosely a level binds. -/
def Level.rank : Level → Nat
  | tier .disjunction => 10
  | tier .conjunction => 9
  | negation => 8
  | tier .comparison => 7
  | tier .bitwise => 6
  | tier .shift => 5
  | tier .sum => 4
  | tier .product => 3
  | sign => 2
  | power => 1
  | primary => 0

theorem Tier.rank_operand_lt (t : Tier) : t.operand.rank < (Level.tier t).rank := by
  cases t <;> decide

theorem Level.rank_lt (l : Level) : l.rank < 11 := by
  rcases l with t | _ | _ | _ | _
  · cases t <;> decide
  all_goals decide

/-- The operator of a tier that a sign stands for. -/
def Tier.signOperator? : Tier → Punctuator → Option BinaryOp
  | comparison, .equal => some (.compare .equal)
  | comparison, .notEqual => some (.compare .notEqual)
  | comparison, .greater => some (.compare .greater)
  | comparison, .greaterEqual => some (.compare .greaterEqual)
  | comparison, .less => some (.compare .less)
  | comparison, .lessEqual => some (.compare .lessEqual)
  | bitwise, .ampersand => some .bitAnd
  | bitwise, .caret => some .bitXor
  | bitwise, .bar => some .bitOr
  | shift, .shiftLeft => some .shiftLeft
  | shift, .shiftRight => some .shiftRight
  | sum, .plus => some .add
  | sum, .minus => some .subtract
  | product, .star => some .multiply
  | product, .slash => some .divide
  | product, .doubleSlash => some .floorDivide
  | product, .percent => some .modulo
  | _, _ => none

/-- The operator of a tier that a keyword stands for by itself. -/
def Tier.wordOperator? : Tier → Keyword → Option BinaryOp
  | disjunction, .disjunction => some .or
  | conjunction, .conjunction => some .and
  | comparison, .membership => some .isIn
  | _, _ => none

/-- The operator of a tier that the tokens begin with, and the tokens behind it.  Only `not in` is
made of two tokens. -/
def Tier.operator? (t : Tier) : List Token → Option (BinaryOp × List Token)
  | [] => none
  | first :: rest =>
    match first.kind with
    | .punctuator p => (t.signOperator? p).map (·, rest)
    | .keyword .negation =>
      match t, rest with
      | .comparison, second :: rest =>
        if second.kind = .keyword .membership then some (.notIn, rest) else none
      | _, _ => none
    | .keyword k => (t.wordOperator? k).map (·, rest)
    | _ => none

theorem Tier.length_rest_lt_of_operator? {t : Tier} {ts rest : List Token} {op : BinaryOp}
    (h : t.operator? ts = some (op, rest)) : rest.length < ts.length := by
  unfold operator? at h
  repeat' split at h
  all_goals grind [Option.map_eq_some_iff]

/-- Whether the token is `not` or `!`. -/
def Token.negates (t : Token) : Bool :=
  t.kind = .keyword .negation || t.kind = .punctuator .bang

/-- The sign operator that a token stands for. -/
def Token.signOp? (t : Token) : Option UnaryOp :=
  match t.kind with
  | .punctuator .plus => some .plus
  | .punctuator .minus => some .negate
  | .punctuator .tilde => some .complement
  | _ => none

/-- The value that a token spells out. -/
def Token.literal? (t : Token) : Option Value :=
  match t.kind with
  | .integer i => some (.int i)
  | .float x => some (.float x)
  | .string s => some (.str s)
  | .keyword .nothing => some .null
  | .keyword .truth => some (.bool true)
  | .keyword .falsity => some (.bool false)
  | _ => none

/-- Reads one certain sign, and gives it back as the value. -/
def parseSign (eof : Location) (sign : Punctuator) (expectation : Expectation) :
    (ts : List Token) → ParseResult Token ts.length
  | [] => .error ⟨.endOfFile expectation eof, []⟩
  | t :: rest =>
    if t.kind = .punctuator sign then .ok ⟨t, rest, Nat.lt_succ_self _⟩
    else .error ⟨.expected expectation t, rest⟩

/-! ### The parser -/

mutual

/-- Reads an expression of a level.  `eof` is where the text ends. -/
def parseLevel (eof : Location) (l : Level) (ts : List Token) : ParseResult Expr ts.length :=
  match l with
  | .tier t =>
    match parseLevel eof t.operand ts with
    | .error failure => .error failure
    | .ok ⟨left, rest, shorter⟩ =>
      match parseChain eof t left rest with
      | .error failure => .error failure
      | .ok (e, ⟨rest, h⟩) => .ok ⟨e, rest, Nat.lt_of_le_of_lt h shorter⟩
  | .negation =>
    match ts with
    | [] => parseLevel eof (.tier .comparison) []
    | t :: rest =>
      if t.negates then
        match parseLevel eof .negation rest with
        | .error failure => .error failure
        | .ok ⟨operand, rest, shorter⟩ =>
          .ok ⟨.unary .not operand, rest, Nat.lt_succ_of_lt shorter⟩
      else parseLevel eof (.tier .comparison) (t :: rest)
  | .sign =>
    match ts with
    | [] => parseLevel eof .power []
    | t :: rest =>
      match t.signOp? with
      | some op =>
        match parseLevel eof .sign rest with
        | .error failure => .error failure
        | .ok ⟨operand, rest, shorter⟩ => .ok ⟨.unary op operand, rest, Nat.lt_succ_of_lt shorter⟩
      | none => parseLevel eof .power (t :: rest)
  | .power =>
    -- the exponent may have a sign, and be a power again: `**` groups to the right
    match parseLevel eof .primary ts with
    | .error failure => .error failure
    | .ok ⟨base, [], shorter⟩ => .ok ⟨base, [], shorter⟩
    | .ok ⟨base, t :: rest, shorter⟩ =>
      if t.kind = .punctuator .doubleStar then
        match parseLevel eof .sign rest with
        | .error failure => .error failure
        | .ok ⟨exponent, rest, shorter'⟩ =>
          .ok ⟨.binary .power base exponent, rest,
            Nat.lt_trans (Nat.lt_succ_of_lt shorter') shorter⟩
      else .ok ⟨base, t :: rest, shorter⟩
  | .primary =>
    match ts with
    | [] => .error ⟨.endOfFile .expression eof, []⟩
    | t :: rest =>
      match t.literal?, t.kind with
      | some v, _ => .ok ⟨.literal v, rest, Nat.lt_succ_self _⟩
      | none, .identifier name =>
        -- a name is called only if the parenthesis follows directly
        match rest with
        | [] => .ok ⟨.reference name, [], Nat.lt_succ_self _⟩
        | u :: rest =>
          if u.kind = .punctuator .leftParen then
            match parseArguments eof rest with
            | .error failure => .error failure
            | .ok ⟨arguments, rest, shorter⟩ =>
              .ok ⟨.call name arguments, rest, Nat.lt_succ_of_lt (Nat.lt_succ_of_lt shorter)⟩
          else .ok ⟨.reference name, u :: rest, Nat.lt_succ_self _⟩
      | none, .punctuator .leftParen =>
        match parseLevel eof (.tier .disjunction) rest with
        | .error failure => .error failure
        | .ok ⟨inner, rest, shorter⟩ =>
          match parseSign eof .rightParen .closingParen rest with
          | .error failure => .error failure
          | .ok ⟨_, rest, shorter'⟩ =>
            .ok ⟨inner, rest, Nat.lt_succ_of_lt (Nat.lt_trans shorter' shorter)⟩
      | none, _ => .error ⟨.unknownStart t, rest⟩
termination_by (ts.length, l.rank)
decreasing_by all_goals first
  | (apply Prod.Lex.right; first | exact t.rank_operand_lt | decide)
  | (apply Prod.Lex.left; simp_all; try omega)

/-- Reads the operators and operands that follow the first operand of a chain. -/
def parseChain (eof : Location) (t : Tier) (left : Expr) (ts : List Token) :
    Except Failure (Expr × { rest : List Token // rest.length ≤ ts.length }) :=
  match h : t.operator? ts with
  | none => .ok (left, ⟨ts, Nat.le_refl _⟩)
  | some (op, rest) =>
    have hop := Tier.length_rest_lt_of_operator? h
    match parseLevel eof t.operand rest with
    | .error failure => .error failure
    | .ok ⟨right, rest, shorter⟩ =>
      match parseChain eof t (.binary op left right) rest with
      | .error failure => .error failure
      | .ok (e, ⟨rest, h⟩) => .ok (e, ⟨rest, by omega⟩)
termination_by (ts.length, 0)
decreasing_by all_goals (apply Prod.Lex.left; omega)

/-- Reads the arguments of a call behind the opening parenthesis, and the closing one. -/
def parseArguments (eof : Location) (ts : List Token) : ParseResult (List Expr) ts.length :=
  match ts with
  | [] => parseArgumentList eof []
  | t :: rest =>
    if t.kind = .punctuator .rightParen then .ok ⟨[], rest, Nat.lt_succ_self _⟩
    else parseArgumentList eof (t :: rest)
termination_by (ts.length, 12)
decreasing_by all_goals (apply Prod.Lex.right; decide)

/-- Reads one argument or more, up to the closing parenthesis. -/
def parseArgumentList (eof : Location) (ts : List Token) : ParseResult (List Expr) ts.length :=
  match parseLevel eof (.tier .disjunction) ts with
  | .error failure => .error failure
  | .ok ⟨_, [], _⟩ => .error ⟨.endOfFile .commaOrParen eof, []⟩
  | .ok ⟨argument, t :: rest, shorter⟩ =>
    if t.kind = .punctuator .comma then
      match parseArgumentList eof rest with
      | .error failure => .error failure
      | .ok ⟨arguments, rest, shorter'⟩ =>
        .ok ⟨argument :: arguments, rest, Nat.lt_trans (Nat.lt_succ_of_lt shorter') shorter⟩
    else if t.kind = .punctuator .rightParen then
      .ok ⟨[argument], rest, Nat.lt_of_succ_lt shorter⟩
    else .error ⟨.expected .commaOrParen t, rest⟩
termination_by (ts.length, 11)
decreasing_by all_goals first
  | (apply Prod.Lex.right; decide)
  | (apply Prod.Lex.left; simp_all; try omega)

end

/-- Reads an expression. -/
def parseExpression (eof : Location) (ts : List Token) : ParseResult Expr ts.length :=
  parseLevel eof (.tier .disjunction) ts

/-- Where a list of tokens ends. -/
def endOfTokens (ts : List Token) : Location :=
  match ts.getLast? with
  | some t => t.span.stop
  | none => .origin

/-- The tokens of a text; its first flaw is an error. -/
def tokens (source : String) : Except ParseError (List Token) :=
  let lexed := lex source
  match lexed.errors with
  | [] => .ok lexed.tokens
  | e :: _ => .error (.lexer e)

/-- The tokens without a semicolon in front. -/
def dropSemicolon : List Token → List Token
  | [] => []
  | t :: rest => if t.kind = .punctuator .semicolon then rest else t :: rest

/-- Reads a text that holds one expression, with or without a semicolon behind it. -/
def parseExpr (source : String) : Except ParseError Expr :=
  match tokens source with
  | .error e => .error e
  | .ok ts =>
    match parseExpression (endOfTokens ts) ts with
    | .error failure => .error failure.error
    | .ok parsed =>
      match dropSemicolon parsed.rest with
      | [] => .ok parsed.value
      | t :: _ => .error (.residual t)

end StepScript
