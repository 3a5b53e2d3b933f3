import StepScript.Script.Parser

/-!
# The grammar

The grammar of expressions and scripts, as relations between tokens and trees that do not mention
the parser.  The levels of an expression are

```
or      ::= and ('or' and)*
and     ::= not ('and' not)*
not     ::= ('not' | '!') not | cmp
cmp     ::= bit (('==' | '!=' | '>' | '>=' | '<' | '<=' | 'in' | 'not' 'in') bit)*
bit     ::= shift (('&' | '^' | '|') shift)*
shift   ::= add (('<<' | '>>') add)*
add     ::= mul (('+' | '-') mul)*
mul     ::= unary (('*' | '/' | '//' | '%') unary)*
unary   ::= ('+' | '-' | '~') unary | power
power   ::= primary ['**' unary]
primary ::= literal | name | name '(' [or (',' or)*] ')' | '(' or ')'
```

with chains that group to the left.

## Main definitions

* `Spells`, `Chains` — the operators of each tier and the level of its operands.
* `Derives` — the tokens that make up an expression or the arguments of a call.
* `DerivesStatement`, `DerivesScript` — the tokens that make up statements.

## Main results

* `exists_first_of_derives` — which tokens an expression of a level can begin with.
* `kind_ne_assign_of_derives` — no expression holds the sign of an assignment.
-/

namespace StepScript

/-! ### Words of the grammar -/

/-- `Spells t kinds op`: tokens of these kinds spell the operator `op` of the tier `t`. -/
inductive Spells : Tier → List TokenKind → BinaryOp → Prop
  | or : Spells .disjunction [.keyword .disjunction] .or
  | and : Spells .conjunction [.keyword .conjunction] .and
  | equal : Spells .comparison [.punctuator .equal] (.compare .equal)
  | notEqual : Spells .comparison [.punctuator .notEqual] (.compare .notEqual)
  | greater : Spells .comparison [.punctuator .greater] (.compare .greater)
  | greaterEqual : Spells .comparison [.punctuator .greaterEqual] (.compare .greaterEqual)
  | less : Spells .comparison [.punctuator .less] (.compare .less)
  | lessEqual : Spells .comparison [.punctuator .lessEqual] (.compare .lessEqual)
  | isIn : Spells .comparison [.keyword .membership] .isIn
  | notIn : Spells .comparison [.keyword .negation, .keyword .membership] .notIn
  | bitAnd : Spells .bitwise [.punctuator .ampersand] .bitAnd
  | bitXor : Spells .bitwise [.punctuator .caret] .bitXor
  | bitOr : Spells .bitwise [.punctuator .bar] .bitOr
  | shiftLeft : Spells .shift [.punctuator .shiftLeft] .shiftLeft
  | shiftRight : Spells .shift [.punctuator .shiftRight] .shiftRight
  | add : Spells .sum [.punctuator .plus] .add
  | subtract : Spells .sum [.punctuator .minus] .subtract
  | multiply : Spells .product [.punctuator .star] .multiply
  | divide : Spells .product [.punctuator .slash] .divide
  | floorDivide : Spells .product [.punctuator .doubleSlash] .floorDivide
  | modulo : Spells .product [.punctuator .percent] .modulo

/-- `Chains t l`: the tier `t` is made of chains of expressions of the level `l`. -/
inductive Chains : Tier → Level → Prop
  | disjunction : Chains .disjunction (.tier .conjunction)
  | conjunction : Chains .conjunction .negation
  | comparison : Chains .comparison (.tier .bitwise)
  | bitwise : Chains .bitwise (.tier .shift)
  | shift : Chains .shift (.tier .sum)
  | sum : Chains .sum (.tier .product)
  | product : Chains .product .sign

/-- The words for `not`. -/
inductive SpellsNot : TokenKind → Prop
  | word : SpellsNot (.keyword .negation)
  | bang : SpellsNot (.punctuator .bang)

/-- The signs in front of an operand. -/
inductive SpellsSign : TokenKind → UnaryOp → Prop
  | plus : SpellsSign (.punctuator .plus) .plus
  | minus : SpellsSign (.punctuator .minus) .negate
  | tilde : SpellsSign (.punctuator .tilde) .complement

/-- The literals and their values. -/
inductive SpellsLiteral : TokenKind → Value → Prop
  | integer (i : Int64) : SpellsLiteral (.integer i) (.int i)
  | float (x : Float) : SpellsLiteral (.float x) (.float x)
  | string (s : String) : SpellsLiteral (.string s) (.str s)
  | nothing : SpellsLiteral (.keyword .nothing) .null
  | truth : SpellsLiteral (.keyword .truth) (.bool true)
  | falsity : SpellsLiteral (.keyword .falsity) (.bool false)

/-- The words in front of a block. -/
inductive SpellsBlock : TokenKind → BlockKind → Prop
  | condition : SpellsBlock (.keyword .condition) .condition
  | selection : SpellsBlock (.keyword .selection) .selection
  | alternative : SpellsBlock (.keyword .alternative) .alternative
  | repetition : SpellsBlock (.keyword .repetition) .repetition

/-! ### Expressions -/

/-- What a part of an expression's tokens stands for. -/
inductive Phrase
  /-- An expression of a level. -/
  | level (l : Level) (e : Expr)
  /-- The arguments of a call, if any. -/
  | arguments (es : List Expr)
  /-- One argument or more, with commas between them. -/
  | list (es : List Expr)

/-- `Derives phrase ts`: the grammar reads the tokens `ts`, all of them, as the phrase. -/
inductive Derives : Phrase → List Token → Prop
  | operand {t : Tier} {l : Level} {e : Expr} {ts : List Token} (chains : Chains t l)
      (only : Derives (.level l e) ts) : Derives (.level (.tier t) e) ts
  | chain {t : Tier} {l : Level} {a b : Expr} {op : BinaryOp} {ls ops rs : List Token}
      (chains : Chains t l) (left : Derives (.level (.tier t) a) ls)
      (spells : Spells t (ops.map Token.kind) op) (right : Derives (.level l b) rs) :
      Derives (.level (.tier t) (.binary op a b)) (ls ++ (ops ++ rs))
  | negated {n : Token} {e : Expr} {ts : List Token} (spells : SpellsNot n.kind)
      (inner : Derives (.level .negation e) ts) :
      Derives (.level .negation (.unary .not e)) (n :: ts)
  | plain {e : Expr} {ts : List Token} (inner : Derives (.level (.tier .comparison) e) ts) :
      Derives (.level .negation e) ts
  | signed {s : Token} {op : UnaryOp} {e : Expr} {ts : List Token} (spells : SpellsSign s.kind op)
      (inner : Derives (.level .sign e) ts) : Derives (.level .sign (.unary op e)) (s :: ts)
  | unsigned {e : Expr} {ts : List Token} (inner : Derives (.level .power e) ts) :
      Derives (.level .sign e) ts
  | base {e : Expr} {ts : List Token} (inner : Derives (.level .primary e) ts) :
      Derives (.level .power e) ts
  | raised {p : Token} {a b : Expr} {ls rs : List Token} (left : Derives (.level .primary a) ls)
      (star : p.kind = .punctuator .doubleStar) (right : Derives (.level .sign b) rs) :
      Derives (.level .power (.binary .power a b)) (ls ++ p :: rs)
  | literal {t : Token} {v : Value} (spells : SpellsLiteral t.kind v) :
      Derives (.level .primary (.literal v)) [t]
  | reference {t : Token} {name : String} (named : t.kind = .identifier name) :
      Derives (.level .primary (.reference name)) [t]
  | call {t opening closing : Token} {name : String} {es : List Expr} {ts : List Token}
      (named : t.kind = .identifier name) (opens : opening.kind = .punctuator .leftParen)
      (inner : Derives (.arguments es) ts) (closes : closing.kind = .punctuator .rightParen) :
      Derives (.level .primary (.call name es)) (t :: opening :: (ts ++ [closing]))
  | parens {opening closing : Token} {e : Expr} {ts : List Token}
      (opens : opening.kind = .punctuator .leftParen)
      (inner : Derives (.level (.tier .disjunction) e) ts)
      (closes : closing.kind = .punctuator .rightParen) :
      Derives (.level .primary e) (opening :: (ts ++ [closing]))
  | noArguments : Derives (.arguments []) []
  | someArguments {es : List Expr} {ts : List Token} (inner : Derives (.list es) ts) :
      Derives (.arguments es) ts
  | last {e : Expr} {ts : List Token} (inner : Derives (.level (.tier .disjunction) e) ts) :
      Derives (.list [e]) ts
  | more {comma : Token} {e : Expr} {es : List Expr} {ts us : List Token}
      (first : Derives (.level (.tier .disjunction) e) ts)
      (separates : comma.kind = .punctuator .comma) (others : Derives (.list es) us) :
      Derives (.list (e :: es)) (ts ++ comma :: us)

/-! ### Statements -/

/-- The tokens of a statement, by its kind. -/
inductive DerivesKind : List Token → StatementKind → Prop
  | blockEnd {t : Token} (closes : t.kind = .punctuator .rightBrace) : DerivesKind [t] .blockEnd
  | header {word brace : Token} {block : BlockKind} {e : Expr} {ts : List Token}
      (spells : SpellsBlock word.kind block) (value : Derives (.level (.tier .disjunction) e) ts)
      (opens : brace.kind = .punctuator .leftBrace) :
      DerivesKind (word :: ts ++ [brace]) (.header block e)
  | assignment {target sign semicolon : Token} {name : String} {e : Expr} {ts : List Token}
      (named : target.kind = .identifier name) (assigns : sign.kind = .punctuator .assign)
      (value : Derives (.level (.tier .disjunction) e) ts)
      (ends : semicolon.kind = .punctuator .semicolon) :
      DerivesKind (target :: sign :: ts ++ [semicolon]) (.assignment name e)
  | expression {semicolon : Token} {e : Expr} {ts : List Token}
      (value : Derives (.level (.tier .disjunction) e) ts)
      (ends : semicolon.kind = .punctuator .semicolon) :
      DerivesKind (ts ++ [semicolon]) (.expression e)

/-- The tokens make up the statement, which reaches from the first of them to the last. -/
structure DerivesStatement (ts : List Token) (s : Statement) : Prop where
  kind : DerivesKind ts s.kind
  span : ∃ first ∈ ts.head?, ∃ last ∈ ts.getLast?, s.span = ⟨first.span.start, last.span.stop⟩

/-- The tokens are those of the statements, one after the other. -/
inductive DerivesScript : List Token → List Statement → Prop
  | nil : DerivesScript [] []
  | cons {ts us : List Token} {s : Statement} {ss : List Statement} (first : DerivesStatement ts s)
      (others : DerivesScript us ss) : DerivesScript (ts ++ us) (s :: ss)

/-! ### First tokens -/

theorem Chains.rank_lt {t : Tier} {l : Level} (h : Chains t l) : l.rank < (Level.tier t).rank := by
  cases h <;> decide

/-- The kinds of tokens that an expression of a level can begin with. -/
inductive Begins (l : Level) : TokenKind → Prop
  | not {k : TokenKind} (loose : Level.negation.rank ≤ l.rank) (spells : SpellsNot k) : Begins l k
  | sign {k : TokenKind} {op : UnaryOp} (loose : Level.sign.rank ≤ l.rank)
      (spells : SpellsSign k op) : Begins l k
  | literal {k : TokenKind} {v : Value} (spells : SpellsLiteral k v) : Begins l k
  | name (name : String) : Begins l (.identifier name)
  | paren : Begins l (.punctuator .leftParen)

theorem Begins.mono {l l' : Level} {k : TokenKind} (h : Begins l k) (loose : l.rank ≤ l'.rank) :
    Begins l' k := by
  cases h with
  | not h spells => exact .not (Nat.le_trans h loose) spells
  | sign h spells => exact .sign (Nat.le_trans h loose) spells
  | literal spells => exact .literal spells
  | name name => exact .name name
  | paren => exact .paren

/-- The signs that an expression can begin with. -/
theorem Begins.mem_of_punctuator {l : Level} {p : Punctuator} (h : Begins l (.punctuator p)) :
    p ∈ [.bang, .plus, .minus, .tilde, .leftParen] := by
  cases h with
  | not _ spells => cases spells; decide
  | sign _ spells => cases spells <;> decide
  | literal spells => cases spells
  | paren => decide

theorem Begins.not_spellsBlock {l : Level} {k : TokenKind} {block : BlockKind} (h : Begins l k) :
    ¬SpellsBlock k block := by
  rintro ⟨⟩
  all_goals
    cases h with
    | not _ spells | sign _ spells | literal spells => cases spells

/-- The level that a phrase begins with, if it cannot be empty. -/
def Phrase.opening? : Phrase → Option Level
  | level l _ => some l
  | arguments _ => none
  | list _ => some (.tier .disjunction)

theorem exists_first_of_derives {phrase : Phrase} {ts : List Token} (h : Derives phrase ts) :
    ∀ l ∈ phrase.opening?, ∃ first us, ts = first :: us ∧ Begins l first.kind := by
  -- a looser level begins as a tighter one does, and a chain begins as its left end does
  induction h with
  | operand chains _ ih =>
    rintro _ ⟨⟩
    obtain ⟨first, us, rfl, begins⟩ := ih _ rfl
    exact ⟨first, us, rfl, begins.mono (Nat.le_of_lt chains.rank_lt)⟩
  | chain _ _ _ _ ih | more _ _ _ ih =>
    rintro _ ⟨⟩
    obtain ⟨first, us, rfl, begins⟩ := ih _ rfl
    exact ⟨first, _, rfl, begins⟩
  | raised _ _ _ ih =>
    rintro _ ⟨⟩
    obtain ⟨first, us, rfl, begins⟩ := ih _ rfl
    exact ⟨first, _, rfl, begins.mono (by decide)⟩
  | negated spells => rintro _ ⟨⟩; exact ⟨_, _, rfl, .not (Nat.le_refl _) spells⟩
  | signed spells => rintro _ ⟨⟩; exact ⟨_, _, rfl, .sign (Nat.le_refl _) spells⟩
  | plain _ ih | unsigned _ ih | base _ ih | last _ ih =>
    rintro _ ⟨⟩
    obtain ⟨first, us, rfl, begins⟩ := ih _ rfl
    exact ⟨first, us, rfl, begins.mono (by decide)⟩
  | literal spells => rintro _ ⟨⟩; exact ⟨_, _, rfl, .literal spells⟩
  | reference named | call named => rintro _ ⟨⟩; exact ⟨_, _, rfl, named ▸ .name _⟩
  | parens opens => rintro _ ⟨⟩; exact ⟨_, _, rfl, opens ▸ .paren⟩
  | noArguments | someArguments => rintro _ ⟨⟩

/-! ### The sign of an assignment -/

theorem Spells.ne_assign {t : Tier} {kinds : List TokenKind} {op : BinaryOp}
    (h : Spells t kinds op) : .punctuator .assign ∉ kinds := by
  cases h <;> decide

theorem Begins.ne_assign {l : Level} {k : TokenKind} (h : Begins l k) :
    k ≠ .punctuator .assign := by
  rintro rfl
  exact absurd h.mem_of_punctuator (by decide)

theorem kind_ne_assign_of_derives {phrase : Phrase} {ts : List Token} (h : Derives phrase ts) :
    ∀ t ∈ ts, t.kind ≠ .punctuator .assign := by
  induction h with
  | chain _ _ spells _ ihl ihr =>
    intro t ht
    rcases List.mem_append.mp ht with ht | ht
    · exact ihl t ht
    rcases List.mem_append.mp ht with ht | ht
    · intro assigns
      exact spells.ne_assign (assigns ▸ List.mem_map_of_mem ht)
    · exact ihr t ht
  | negated spells _ ih =>
    have begins : Begins .negation _ := .not (Nat.le_refl _) spells
    exact List.forall_mem_cons.mpr ⟨begins.ne_assign, ih⟩
  | signed spells _ ih =>
    have begins : Begins .sign _ := .sign (Nat.le_refl _) spells
    exact List.forall_mem_cons.mpr ⟨begins.ne_assign, ih⟩
  | literal spells =>
    have begins : Begins .primary _ := .literal spells
    exact List.forall_mem_singleton.mpr begins.ne_assign
  | operand _ _ ih | plain _ ih | unsigned _ ih | base _ ih | someArguments _ ih | last _ ih =>
    exact ih
  | raised _ star _ ihl ihr => grind
  | reference named => grind
  | call named opens _ closes ih => grind
  | parens opens _ closes ih => grind
  | noArguments => grind
  | more _ separates _ ihl ihr => grind

end StepScript
