import Mathlib.Data.List.Forall2
import StepScript.Proofs.ScriptParsing

/-!
# The parser looks at kinds

Where a token stands matters to the parser only for what it reports.  Two lists of tokens of the
same kinds are read step by step in the same way: the trees are equal, the tokens left over
correspond, and an error is of the same sort and names corresponding tokens.

Which tokens correspond is up to a relation `R` on tokens of the same kind.  Everything below holds
for any such relation, so that it can be made to say *the token with the same index*.

## Main definitions

* `ErrorsAgree` — two errors are of one sort, about corresponding tokens.
* `ReadingsAgree` — two readings give corresponding results.
* `StatementsAgree` — two statements do the same, and stand where corresponding tokens stand.

## Main results

* `readingsAgree_parseLevel` — expressions are read in the same way.
* `parseStatements_agree` — so are all statements of a script.
-/

namespace StepScript

variable {R : Token → Token → Prop} {eof eof' : Location}

/-! ### Agreement -/

/-- The errors are of one sort, about corresponding tokens or the ends of the two texts. -/
inductive ErrorsAgree (R : Token → Token → Prop) (eof eof' : Location) :
    ParseError → ParseError → Prop
  /-- Both texts end too early. -/
  | endOfFile (x : Expectation) : ErrorsAgree R eof eof' (.endOfFile x eof) (.endOfFile x eof')
  /-- The same was expected in both. -/
  | expected (x : Expectation) {t u : Token} (h : R t u) :
    ErrorsAgree R eof eof' (.expected x t) (.expected x u)
  /-- No expression begins in either. -/
  | unknownStart {t u : Token} (h : R t u) :
    ErrorsAgree R eof eof' (.unknownStart t) (.unknownStart u)

/-- The readings give related values and leave corresponding tokens, or fail with errors that
agree. -/
inductive ReadingsAgree (R : Token → Token → Prop) (eof eof' : Location) {α : Type}
    (V : α → α → Prop) {n m : Nat} : ParseResult α n → ParseResult α m → Prop
  /-- Both succeed. -/
  | ok {a b : α} {ts us : List Token} {hn : ts.length < n} {hm : us.length < m} (value : V a b)
    (rest : List.Forall₂ R ts us) : ReadingsAgree R eof eof' V (.ok ⟨a, ts, hn⟩) (.ok ⟨b, us, hm⟩)
  /-- Both fail. -/
  | error {e e' : ParseError} {ts us : List Token} (h : ErrorsAgree R eof eof' e e') :
    ReadingsAgree R eof eof' V (.error ⟨e, ts⟩) (.error ⟨e', us⟩)

/-- The same for what carries on a chain. -/
inductive ChainsAgree (R : Token → Token → Prop) (eof eof' : Location) {n m : Nat} :
    Except Failure (Expr × { rest : List Token // rest.length ≤ n }) →
    Except Failure (Expr × { rest : List Token // rest.length ≤ m }) → Prop
  /-- Both succeed. -/
  | ok {e : Expr} {ts us : List Token} {hn : ts.length ≤ n} {hm : us.length ≤ m}
    (rest : List.Forall₂ R ts us) : ChainsAgree R eof eof' (.ok (e, ⟨ts, hn⟩)) (.ok (e, ⟨us, hm⟩))
  /-- Both fail. -/
  | error {e e' : ParseError} {ts us : List Token} (h : ErrorsAgree R eof eof' e e') :
    ChainsAgree R eof eof' (.error ⟨e, ts⟩) (.error ⟨e', us⟩)

/-! ### Chains by their operator -/

section

variable {t : Tier} {ts rest : List Token} {op : BinaryOp} (left : Expr)

theorem parseChain_of_none (hop : t.operator? ts = none) :
    parseChain eof t left ts = .ok (left, ⟨ts, Nat.le_refl _⟩) := by
  rw [parseChain.eq_def]
  split
  · rfl
  · rename_i hop'
    cases hop.symm.trans hop'

theorem parseChain_of_some (hop : t.operator? ts = some (op, rest)) :
    parseChain eof t left ts =
      match parseLevel eof t.operand rest with
      | .error failure => .error failure
      | .ok ⟨right, rest, shorter⟩ =>
        match parseChain eof t (.binary op left right) rest with
        | .error failure => .error failure
        | .ok (e, ⟨rest, h⟩) =>
          .ok (e, ⟨rest, Nat.le_trans h (Nat.le_of_lt
            (Nat.lt_trans shorter (Tier.length_rest_lt_of_operator? hop)))⟩) := by
  rw [parseChain.eq_def]
  split
  · rename_i hop'
    cases hop.symm.trans hop'
  · rename_i hop'
    cases hop.symm.trans hop'
    rfl

end

/-! ### Statements by their first tokens -/

/-- A statement that begins at the given place and is made of an expression and the end of the sign
behind it. -/
def closedStatement (start : Location) (make : Expr → StatementKind) {n m : Nat}
    (wider : ∀ k, k < n → k < m) : ParseResult (Expr × Location) n → ParseResult Statement m
  | .error failure => .error failure
  | .ok ⟨(e, stop), rest, shorter⟩ => .ok ⟨⟨make e, ⟨start, stop⟩⟩, rest, wider _ shorter⟩

section

variable {t : Token} {ts rest : List Token}

theorem parseStatement_of_block {block : BlockKind} (brace : t.kind ≠ .punctuator .rightBrace)
    (opens : t.opens? = some block) :
    parseStatement eof (t :: ts) =
      closedStatement t.span.start (.header block) (fun _ h => Nat.lt_add_right 1 h)
        (parseClosed eof .leftBrace .braceAfterHeader ts) := by
  rw [parseStatement, if_neg brace]
  simp only [opens]
  rcases parseClosed eof .leftBrace .braceAfterHeader ts with _ | ⟨⟨e, stop⟩, rest, shorter⟩ <;> rfl

theorem parseStatement_of_assignee {name : String} (brace : t.kind ≠ .punctuator .rightBrace)
    (block : t.opens? = none) (assigns : assignee? (t :: ts) = some (name, rest)) :
    parseStatement eof (t :: ts) =
      closedStatement t.span.start (.assignment name)
        (fun _ h => Nat.lt_trans h (length_rest_lt_of_assignee? assigns))
        (parseClosed eof .semicolon .semicolonAfterAssignment rest) := by
  rw [parseStatement, if_neg brace]
  simp only [block]
  split
  · rename_i assigns'
    cases assigns.symm.trans assigns'
    rcases parseClosed eof .semicolon .semicolonAfterAssignment rest with
      _ | ⟨⟨e, stop⟩, rest, shorter⟩ <;> rfl
  · rename_i assigns'
    cases assigns.symm.trans assigns'

theorem parseStatement_of_expression (brace : t.kind ≠ .punctuator .rightBrace)
    (block : t.opens? = none) (assigns : assignee? (t :: ts) = none) :
    parseStatement eof (t :: ts) =
      closedStatement t.span.start .expression (fun _ h => h)
        (parseClosed eof .semicolon .semicolonAfterExpression (t :: ts)) := by
  rw [parseStatement, if_neg brace]
  simp only [block]
  split
  · rename_i assigns'
    cases assigns.symm.trans assigns'
  · rcases parseClosed eof .semicolon .semicolonAfterExpression (t :: ts) with
      _ | ⟨⟨e, stop⟩, rest, shorter⟩ <;> rfl

end

section

variable (eof eof') (sameKind : ∀ t u, R t u → t.kind = u.kind)

include sameKind

/-! ### Single tokens -/

theorem map_kind_eq_of_forall₂ {ts us : List Token} (h : List.Forall₂ R ts us) :
    ts.map Token.kind = us.map Token.kind := by
  induction h with
  | nil => rfl
  | cons first _ ih => rw [List.map_cons, List.map_cons, sameKind _ _ first, ih]

theorem readingsAgree_parseSign (sign : Punctuator) (x : Expectation) {ts us : List Token}
    (h : List.Forall₂ R ts us) :
    ReadingsAgree R eof eof' R (parseSign eof sign x ts) (parseSign eof' sign x us) := by
  cases h with
  | nil => exact .error (.endOfFile x)
  | @cons t u ts us first rest =>
    rw [parseSign, parseSign, sameKind t u first]
    split
    · exact .ok first rest
    · exact .error (.expected x first)

/-- The operator that corresponding tokens begin with is the same. -/
theorem operator?_of_forall₂ {t : Tier} {ts us rest : List Token} {op : BinaryOp}
    (h : List.Forall₂ R ts us) (hop : t.operator? ts = some (op, rest)) :
    ∃ rest', t.operator? us = some (op, rest') ∧ List.Forall₂ R rest rest' := by
  obtain ⟨ops, rfl, spells⟩ := spells_of_operator? hop
  have front := List.forall₂_take ops.length h
  have back := List.forall₂_drop ops.length h
  rw [List.take_left] at front
  rw [List.drop_left] at back
  rw [map_kind_eq_of_forall₂ sameKind front] at spells
  have same := operator?_of_spells spells (us.drop ops.length)
  rw [List.take_append_drop] at same
  exact ⟨us.drop ops.length, same, back⟩

theorem operator?_eq_none_of_forall₂ {t : Tier} {ts us : List Token} (h : List.Forall₂ R ts us)
    (hop : t.operator? ts = none) : t.operator? us = none := by
  rw [Option.eq_none_iff_forall_not_mem]
  rintro ⟨op, rest⟩ hus
  obtain ⟨rest', hts, -⟩ :=
    operator?_of_forall₂ (R := flip R) (fun t u hr => (sameKind u t hr).symm) h.flip hus
  rw [hop] at hts
  cases hts

/-! ### Expressions -/

mutual

/-- **Expressions are read in the same way.** -/
theorem readingsAgree_parseLevel (l : Level) {ts us : List Token} (h : List.Forall₂ R ts us) :
    ReadingsAgree R eof eof' Eq (parseLevel eof l ts) (parseLevel eof' l us) := by
  -- By recursion, as the parser: on fewer tokens, or at a level that binds tighter.
  match l, ts, us, h with
  | .tier t, ts, us, h =>
    -- the first operand, and then the chain that it begins
    have tighter := t.rank_operand_lt
    have operand := readingsAgree_parseLevel t.operand h
    rw [parseLevel.eq_def eof, parseLevel.eq_def eof']
    dsimp only
    -- only that the two results agree is used of them
    generalize parseLevel eof t.operand ts = left at operand
    generalize parseLevel eof' t.operand us = left' at operand
    cases operand with
    | error agree => exact .error agree
    | @ok e _ mid mid' shorter _ same rest =>
      subst same
      have chain := chainsAgree_parseChain t e rest
      dsimp only
      generalize parseChain eof t e mid = whole at chain
      generalize parseChain eof' t e mid' = whole' at chain
      cases chain with
      | error agree => exact .error agree
      | ok rest => exact .ok rfl rest
  | .negation, [], [], .nil =>
    -- without a token, nothing negates
    rw [parseLevel.eq_def eof .negation, parseLevel.eq_def eof' .negation]
    exact readingsAgree_parseLevel (.tier .comparison) .nil
  | .negation, t :: ts, u :: us, .cons first rest =>
    -- whether a token negates is a matter of its kind
    have same : t.negates = u.negates := by rw [Token.negates, sameKind t u first, Token.negates]
    have operand := readingsAgree_parseLevel .negation rest
    have plain := readingsAgree_parseLevel (.tier .comparison) (.cons first rest)
    rw [parseLevel.eq_def eof .negation, parseLevel.eq_def eof' .negation]
    dsimp only
    rw [same]
    split
    · generalize parseLevel eof .negation ts = inner at operand
      generalize parseLevel eof' .negation us = inner' at operand
      cases operand with
      | error agree => exact .error agree
      | ok same rest => exact .ok (congrArg _ same) rest
    · exact plain
  | .sign, [], [], .nil =>
    rw [parseLevel.eq_def eof .sign, parseLevel.eq_def eof' .sign]
    exact readingsAgree_parseLevel .power .nil
  | .sign, t :: ts, u :: us, .cons first rest =>
    -- and so is which sign it is
    have same : t.signOp? = u.signOp? := by rw [Token.signOp?, sameKind t u first, Token.signOp?]
    have operand := readingsAgree_parseLevel .sign rest
    have plain := readingsAgree_parseLevel .power (.cons first rest)
    rw [parseLevel.eq_def eof .sign, parseLevel.eq_def eof' .sign]
    dsimp only
    rw [same]
    cases u.signOp? with
    | none => exact plain
    | some op =>
      dsimp only
      generalize parseLevel eof .sign ts = inner at operand
      generalize parseLevel eof' .sign us = inner' at operand
      cases operand with
      | error agree => exact .error agree
      | ok same rest => exact .ok (congrArg _ same) rest
  | .power, ts, us, h =>
    -- the base, and then the exponent if two stars follow
    have base := readingsAgree_parseLevel .primary h
    rw [parseLevel.eq_def eof .power, parseLevel.eq_def eof' .power]
    dsimp only
    generalize parseLevel eof .primary ts = left at base
    generalize parseLevel eof' .primary us = left' at base
    cases base with
    | error agree => exact .error agree
    | @ok e _ mid mid' shorter _ same rest =>
      subst same
      cases rest with
      | nil => exact .ok rfl .nil
      | @cons t u mid mid' first rest =>
        have exponent := readingsAgree_parseLevel .sign rest
        dsimp only
        rw [sameKind t u first]
        split
        · generalize parseLevel eof .sign mid = right at exponent
          generalize parseLevel eof' .sign mid' = right' at exponent
          cases exponent with
          | error agree => exact .error agree
          | ok same rest => exact .ok (congrArg _ same) rest
        · exact .ok rfl (.cons first rest)
  | .primary, [], [], .nil =>
    rw [parseLevel.eq_def eof, parseLevel.eq_def eof']
    exact .error (.endOfFile .expression)
  | .primary, t :: ts, u :: us, .cons first rest =>
    -- a literal, a name, a parenthesis, or none of them: again by the kind
    have same : t.literal? = u.literal? := by rw [Token.literal?, sameKind t u first, Token.literal?]
    have inner := readingsAgree_parseLevel (.tier .disjunction) rest
    rw [parseLevel.eq_def eof .primary, parseLevel.eq_def eof' .primary]
    dsimp only
    rw [same, sameKind t u first]
    split
    · exact .ok rfl rest
    · -- a name is called if a parenthesis opens behind it
      cases rest with
      | nil => exact .ok rfl .nil
      | @cons v w ts us second rest =>
        have arguments := readingsAgree_parseArguments rest
        dsimp only
        rw [sameKind v w second]
        split
        · generalize parseArguments eof ts = list at arguments
          generalize parseArguments eof' us = list' at arguments
          cases arguments with
          | error agree => exact .error agree
          | ok same rest => exact .ok (congrArg _ same) rest
        · exact .ok rfl (.cons second rest)
    · -- between parentheses, the closing one is expected on both sides
      generalize parseLevel eof (.tier .disjunction) ts = e at inner
      generalize parseLevel eof' (.tier .disjunction) us = e' at inner
      cases inner with
      | error agree => exact .error agree
      | @ok _ _ mid mid' _ _ same rest =>
        have closing := readingsAgree_parseSign eof eof' sameKind .rightParen .closingParen rest
        dsimp only
        generalize parseSign eof .rightParen .closingParen mid = last at closing
        generalize parseSign eof' .rightParen .closingParen mid' = last' at closing
        cases closing with
        | error agree => exact .error agree
        | ok _ rest => exact .ok same rest
    · exact .error (.unknownStart first)
termination_by (ts.length, l.rank)
decreasing_by all_goals first
  | (apply Prod.Lex.right; first | exact tighter | decide)
  | (apply Prod.Lex.left; assumption)
  | (apply Prod.Lex.left; simp only [List.length_cons] at *; omega)

theorem chainsAgree_parseChain (t : Tier) (left : Expr) {ts us : List Token}
    (h : List.Forall₂ R ts us) :
    ChainsAgree R eof eof' (parseChain eof t left ts) (parseChain eof' t left us) := by
  -- the operators agree, as they are a matter of kinds; the left operand is the same
  match hop : t.operator? ts with
  | none =>
    rw [parseChain_of_none left hop,
      parseChain_of_none left (operator?_eq_none_of_forall₂ sameKind h hop)]
    exact .ok h
  | some (op, rest) =>
    obtain ⟨rest', hop', behind⟩ := operator?_of_forall₂ sameKind h hop
    have shorter := Tier.length_rest_lt_of_operator? hop
    have operand := readingsAgree_parseLevel t.operand behind
    rw [parseChain_of_some left hop, parseChain_of_some left hop']
    generalize parseLevel eof t.operand rest = right at operand
    generalize parseLevel eof' t.operand rest' = right' at operand
    cases operand with
    | error agree => exact .error agree
    | @ok e _ mid mid' shorter' _ same rest =>
      subst same
      have chain := chainsAgree_parseChain t (.binary op left e) rest
      dsimp only
      generalize parseChain eof t (.binary op left e) mid = whole at chain
      generalize parseChain eof' t (.binary op left e) mid' = whole' at chain
      cases chain with
      | error agree => exact .error agree
      | ok rest => exact .ok rest
termination_by (ts.length, 0)
decreasing_by all_goals (apply Prod.Lex.left; omega)

theorem readingsAgree_parseArguments {ts us : List Token} (h : List.Forall₂ R ts us) :
    ReadingsAgree R eof eof' Eq (parseArguments eof ts) (parseArguments eof' us) := by
  match ts, us, h with
  | [], [], .nil =>
    rw [parseArguments.eq_def eof, parseArguments.eq_def eof']
    exact readingsAgree_parseArgumentList .nil
  | t :: ts, u :: us, .cons first rest =>
    have list := readingsAgree_parseArgumentList (.cons first rest)
    rw [parseArguments.eq_def eof, parseArguments.eq_def eof']
    dsimp only
    rw [sameKind t u first]
    split
    · exact .ok rfl rest
    · exact list
termination_by (ts.length, 12)
decreasing_by all_goals (apply Prod.Lex.right; decide)

theorem readingsAgree_parseArgumentList {ts us : List Token} (h : List.Forall₂ R ts us) :
    ReadingsAgree R eof eof' Eq (parseArgumentList eof ts) (parseArgumentList eof' us) := by
  have argument := readingsAgree_parseLevel (.tier .disjunction) h
  rw [parseArgumentList.eq_def eof, parseArgumentList.eq_def eof']
  generalize parseLevel eof (.tier .disjunction) ts = e at argument
  generalize parseLevel eof' (.tier .disjunction) us = e' at argument
  cases argument with
  | error agree => exact .error agree
  | @ok _ _ mid mid' shorter _ same rest =>
    -- behind an argument there is a comma, a parenthesis, or a mistake
    cases rest with
    | nil => exact .error (.endOfFile .commaOrParen)
    | @cons t u mid mid' first rest =>
      have more := readingsAgree_parseArgumentList rest
      dsimp only
      rw [sameKind t u first]
      split
      · generalize parseArgumentList eof mid = list at more
        generalize parseArgumentList eof' mid' = list' at more
        cases more with
        | error agree => exact .error agree
        | ok same' rest => exact .ok (by rw [same, same']) rest
      split
      · exact .ok (by rw [same]) rest
      · exact .error (.expected .commaOrParen first)
termination_by (ts.length, 11)
decreasing_by all_goals first
  | (apply Prod.Lex.right; decide)
  | (apply Prod.Lex.left; simp only [List.length_cons] at *; omega)

end

/-! ### Statements -/

theorem assignee?_of_forall₂ {ts us rest : List Token} {name : String} (h : List.Forall₂ R ts us)
    (assigns : assignee? ts = some (name, rest)) :
    ∃ rest', assignee? us = some (name, rest') ∧ List.Forall₂ R rest rest' := by
  obtain ⟨target, sign, rfl, named, assigns⟩ := assignee?_eq_some_iff.mp assigns
  obtain _ | ⟨first, _ | ⟨second, rest⟩⟩ := h
  rw [sameKind _ _ first] at named
  rw [sameKind _ _ second] at assigns
  exact ⟨_, assignee?_eq_some_iff.mpr ⟨_, _, rfl, named, assigns⟩, rest⟩

theorem assignee?_eq_none_of_forall₂ {ts us : List Token} (h : List.Forall₂ R ts us)
    (assigns : assignee? ts = none) : assignee? us = none := by
  rw [Option.eq_none_iff_forall_not_mem]
  rintro ⟨name, rest⟩ hus
  obtain ⟨rest', hts, -⟩ :=
    assignee?_of_forall₂ (R := flip R) (fun t u hr => (sameKind u t hr).symm) h.flip hus
  rw [assigns] at hts
  cases hts

/-- Two expressions are the same, and the signs behind them end where corresponding tokens end. -/
def ClosingsAgree (R : Token → Token → Prop) (a b : Expr × Location) : Prop :=
  a.1 = b.1 ∧ ∃ t u, R t u ∧ a.2 = t.span.stop ∧ b.2 = u.span.stop

theorem readingsAgree_parseClosed (sign : Punctuator) (x : Expectation) {ts us : List Token}
    (h : List.Forall₂ R ts us) :
    ReadingsAgree R eof eof' (ClosingsAgree R) (parseClosed eof sign x ts)
      (parseClosed eof' sign x us) := by
  have inner := readingsAgree_parseLevel eof eof' sameKind (.tier .disjunction) h
  unfold parseClosed parseExpression
  generalize parseLevel eof (.tier .disjunction) ts = e at inner
  generalize parseLevel eof' (.tier .disjunction) us = e' at inner
  cases inner with
  | error agree => exact .error agree
  | @ok _ _ mid mid' _ _ same rest =>
    have closing := readingsAgree_parseSign eof eof' sameKind sign x rest
    dsimp only
    generalize parseSign eof sign x mid = last at closing
    generalize parseSign eof' sign x mid' = last' at closing
    cases closing with
    | error agree => exact .error agree
    | @ok t u _ _ _ _ last rest => exact .ok ⟨same, t, u, last, rfl, rfl⟩ rest

/-- The statements do the same, and begin and end where corresponding tokens do. -/
structure StatementsAgree (R : Token → Token → Prop) (a b : Statement) : Prop where
  kind : a.kind = b.kind
  start : ∃ t u, R t u ∧ a.span.start = t.span.start ∧ b.span.start = u.span.start
  stop : ∃ t u, R t u ∧ a.span.stop = t.span.stop ∧ b.span.stop = u.span.stop

omit sameKind in
theorem readingsAgree_closedStatement {t u : Token} (first : R t u) (make : Expr → StatementKind)
    {n m n' m' : Nat} {r : ParseResult (Expr × Location) n} {r' : ParseResult (Expr × Location) m}
    (h : ReadingsAgree R eof eof' (ClosingsAgree R) r r') (wider : ∀ k, k < n → k < n')
    (wider' : ∀ k, k < m → k < m') :
    ReadingsAgree R eof eof' (StatementsAgree R) (closedStatement t.span.start make wider r)
      (closedStatement u.span.start make wider' r') := by
  cases h with
  | error agree => exact .error agree
  | ok value rest => exact .ok ⟨congrArg make value.1, ⟨t, u, first, rfl, rfl⟩, value.2⟩ rest

theorem readingsAgree_parseStatement {ts us : List Token} (h : List.Forall₂ R ts us) :
    ReadingsAgree R eof eof' (StatementsAgree R) (parseStatement eof ts)
      (parseStatement eof' us) := by
  cases h with
  | nil => exact .error (.endOfFile .statement)
  | @cons t u ts us first rest =>
    have all : List.Forall₂ R (t :: ts) (u :: us) := .cons first rest
    have opens : t.opens? = u.opens? := by rw [Token.opens?, sameKind t u first, Token.opens?]
    by_cases brace : t.kind = .punctuator .rightBrace
    · rw [parseStatement, parseStatement, if_pos brace, if_pos (sameKind t u first ▸ brace)]
      exact .ok ⟨rfl, ⟨t, u, first, rfl, rfl⟩, ⟨t, u, first, rfl, rfl⟩⟩ rest
    have brace' : u.kind ≠ .punctuator .rightBrace := sameKind t u first ▸ brace
    cases block : t.opens? with
    | some kind =>
      rw [parseStatement_of_block brace block, parseStatement_of_block brace' (opens ▸ block)]
      exact readingsAgree_closedStatement eof eof' first _
        (readingsAgree_parseClosed eof eof' sameKind _ _ rest) _ _
    | none =>
      cases assigns : assignee? (t :: ts) with
      | some target =>
        obtain ⟨behind', assigns', rest⟩ := assignee?_of_forall₂ sameKind all assigns
        rw [parseStatement_of_assignee brace block assigns,
          parseStatement_of_assignee brace' (opens ▸ block) assigns']
        exact readingsAgree_closedStatement eof eof' first _
          (readingsAgree_parseClosed eof eof' sameKind _ _ rest) _ _
      | none =>
        have assigns' := assignee?_eq_none_of_forall₂ sameKind all assigns
        rw [parseStatement_of_expression brace block assigns,
          parseStatement_of_expression brace' (opens ▸ block) assigns']
        exact readingsAgree_closedStatement eof eof' first _
          (readingsAgree_parseClosed eof eof' sameKind _ _ all) _ _

/-- **All statements of a script are read in the same way.** -/
theorem parseStatements_agree {ts us : List Token} (h : List.Forall₂ R ts us)
    {done done' : List Statement} (before : List.Forall₂ (StatementsAgree R) done done') :
    (∃ ss ss', parseStatements eof done ts = .ok ss ∧ parseStatements eof' done' us = .ok ss' ∧
      List.Forall₂ (StatementsAgree R) ss ss') ∨
    ∃ e e', parseStatements eof done ts = .error e ∧ parseStatements eof' done' us = .error e' ∧
      ErrorsAgree R eof eof' e.error e'.error := by
  have empty : ts.isEmpty = us.isEmpty := by cases h <;> rfl
  have statement := readingsAgree_parseStatement eof eof' sameKind h
  rw [parseStatements.eq_def eof, parseStatements.eq_def eof', empty]
  split
  · exact .inl ⟨_, _, rfl, rfl, List.rel_reverse before⟩
  generalize parseStatement eof ts = first at statement
  generalize parseStatement eof' us = first' at statement
  cases statement with
  | error agree => exact .inr ⟨_, _, rfl, rfl, agree⟩
  | @ok s s' rest rest' shorter _ same behind =>
    exact parseStatements_agree behind (.cons same before)
termination_by ts.length

end

end StepScript
