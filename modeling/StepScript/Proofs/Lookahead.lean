import StepScript.Proofs.Blame
import StepScript.Proofs.Printed

/-!
# The parser looks one token ahead

What the parser does before it takes a token depends on this token, but not on those behind it, save
for `not`, which may be the first half of `not in`.  So if it refuses a token that is not `not`, it
refuses it whatever comes behind: no accepted list of tokens begins like this.  As the tokens before
can be completed, the token is the first that is out of place.

## Main definitions

* `Past` — a reading has gone past the token in front of some rest.
* `Outlook` — two readings are the same, up to a token and to what comes behind it.
* `Accepted` — the parser reads the tokens as a script.
* `PointsAt` — an error is about the first token that is out of place, or the end.

## Main results

* `outlook_readLevel`, `outlook_readStatement` — the parser looks one token ahead.
* `refused_of_parseStatements` — what is refused at a token is refused whatever comes behind.
* `parse_errors_point_at_the_first_offending_token` — where errors are.
-/

namespace StepScript

/-! ### Going past a token -/

/-- The reading has used all but the last `n` tokens, or more, or it has failed behind that. -/
inductive Past (n : Nat) {α : Type} : Attempt α → Prop
  /-- What is left is not more. -/
  | ok {a : α} {rest : List Token} (h : rest.length ≤ n) : Past n (.ok (a, rest))
  /-- The tokens have ended. -/
  | ending (x : Expectation) (eof : Location) (rest : List Token) :
    Past n (.error ⟨.endOfFile x eof, rest⟩)
  /-- A token is wrong that comes later. -/
  | token {failure : Failure} (h : failure.rest.length < n) : Past n (.error failure)

section Past

variable {α β : Type} {n : Nat}

theorem Past.bind {x : Attempt α} {f : α × List Token → Attempt β} (h : Past n x)
    (next : ∀ a rest, rest.length ≤ n → Past n (f (a, rest))) : Past n (x.bind f) := by
  cases h with
  | ok h => exact next _ _ h
  | ending x eof rest => exact .ending x eof rest
  | token h => exact .token h

theorem Past.map {x : Attempt α} (h : Past n x) (make : α → β) :
    Past n (x.bind fun (a, rest) => .ok (make a, rest)) :=
  h.bind fun _ _ le => .ok le

theorem past_of_blames {eof : Location} {viable : List Token → Prop} {ts : List Token}
    {failure : Failure} (h : Blames eof viable ts failure) (le : ts.length ≤ n) :
    Past n (.error failure : Attempt α) := by
  cases h with
  | ending x h => exact .ending x eof []
  | token names split h =>
    refine .token ?_
    rw [split, List.length_append, List.length_cons] at le
    dsimp only
    omega

/-- A reading goes past all tokens before those that it is given. -/
theorem past_attempt {eof : Location} {viable : List Token → Prop} {ts : List Token}
    {result : ParseResult α ts.length} (le : ts.length ≤ n)
    (blames : ∀ failure, attempt result = .error failure → Blames eof viable ts failure) :
    Past n (attempt result) := by
  rcases result with failure | ⟨a, rest, shorter⟩
  · exact past_of_blames (blames failure rfl) le
  · exact .ok (Nat.le_of_lt (Nat.lt_of_lt_of_le shorter le))

theorem past_readLevel (eof : Location) (l : Level) {ts : List Token} (le : ts.length ≤ n) :
    Past n (readLevel eof l ts) :=
  past_attempt le fun _ => blames_of_readLevel eof l ts

theorem past_readArguments (eof : Location) {ts : List Token} (le : ts.length ≤ n) :
    Past n (readArguments eof ts) :=
  past_attempt le fun _ => blames_of_readArguments eof ts

theorem past_readList (eof : Location) {ts : List Token} (le : ts.length ≤ n) :
    Past n (readList eof ts) :=
  past_attempt le fun _ => blames_of_readList eof ts

theorem past_readSign (eof : Location) (sign : Punctuator) (x : Expectation) {ts : List Token}
    (le : ts.length ≤ n) : Past n (readSign eof sign x ts) :=
  past_attempt le fun _ => blames_of_readSign

theorem past_readClosed (eof : Location) (sign : Punctuator) (x : Expectation) {ts : List Token}
    (le : ts.length ≤ n) : Past n (readClosed eof sign x ts) :=
  past_attempt le fun _ => blames_of_readClosed

theorem length_le_of_punctuator? {sign : Punctuator} {t : Token} {ts rest : List Token}
    (h : punctuator? sign ts = some (t, rest)) (le : ts.length ≤ n) : rest.length ≤ n := by
  rw [(punctuator?_eq_some_iff.mp h).1, List.length_cons] at le
  exact Nat.le_of_succ_le le

theorem past_readExponent (eof : Location) (base : Expr) {ts : List Token} (le : ts.length ≤ n) :
    Past n (readExponent eof base ts) := by
  rw [readExponent]
  split
  · exact .ok le
  · next h => exact (past_readLevel eof .sign (length_le_of_punctuator? h le)).map _

theorem past_readCall (eof : Location) (name : String) {ts : List Token} (le : ts.length ≤ n) :
    Past n (readCall eof name ts) := by
  rw [readCall]
  split
  · exact .ok le
  · next h => exact (past_readArguments eof (length_le_of_punctuator? h le)).map _

theorem past_readOthers (eof : Location) (e : Expr) {ts : List Token} (le : ts.length ≤ n) :
    Past n (readOthers eof e ts) := by
  rw [readOthers]
  split
  · exact (past_readSign eof _ _ le).map fun _ => [e]
  · next h => exact (past_readList eof (length_le_of_punctuator? h le)).map _

theorem Past.finished {inner : Attempt (Expr × Location)} (h : Past n inner) (start : Location)
    (make : Expr → StatementKind) : Past n (finished start make inner) :=
  h.bind fun _ _ le => .ok le

theorem past_readChain (eof : Location) (t : Tier) (left : Expr) {ts : List Token}
    (le : ts.length ≤ n) : Past n (readChain eof t left ts) := by
  cases hop : t.operator? ts with
  | none =>
    rw [readChain_of_none eof left hop]
    exact .ok le
  | some found =>
    obtain ⟨op, us⟩ := found
    have shorter := Tier.length_rest_lt_of_operator? hop
    rw [readChain_of_some eof left hop]
    cases hr : readLevel eof t.operand us with
    | error failure =>
      have past := past_readLevel eof t.operand (show us.length ≤ n by omega)
      rw [hr] at past
      exact past
    | ok read =>
      obtain ⟨right, rest⟩ := read
      have shorter' : rest.length < us.length := length_lt_of_reading? (level?_eq_some_iff.mpr hr)
      exact past_readChain eof t (.binary op left right) (by omega)
termination_by ts.length

end Past

/-! ### Looking at a token -/

/-- Two readings of tokens that differ only behind the token `t`: they give the same and stop before
it, or they both fail, or the first goes past it. -/
inductive Outlook (t : Token) (rest rest' : List Token) {α : Type} :
    Attempt α → Attempt α → Prop
  /-- Both give the same. -/
  | ok (a : α) (us : List Token) :
    Outlook t rest rest' (.ok (a, us ++ t :: rest)) (.ok (a, us ++ t :: rest'))
  /-- Both fail. -/
  | error (failure failure' : Failure) : Outlook t rest rest' (.error failure) (.error failure')
  /-- The token has been used. -/
  | past {x y : Attempt α} (h : Past rest.length x) : Outlook t rest rest' x y

/-- The same for what is seen of the next few tokens. -/
def Peeks (t : Token) (rest rest' : List Token) {α : Type} (o o' : Option (α × List Token)) :
    Prop :=
  (o = none ∧ o' = none) ∨ (∃ a, o = some (a, rest)) ∨
    ∃ a us, o = some (a, us ++ t :: rest) ∧ o' = some (a, us ++ t :: rest')

section

variable {t : Token} {rest rest' : List Token}

theorem Outlook.bind {α β : Type} {x y : Attempt α} {f g : α × List Token → Attempt β}
    (h : Outlook t rest rest' x y)
    (next : ∀ a us, x = .ok (a, us ++ t :: rest) →
      Outlook t rest rest' (f (a, us ++ t :: rest)) (g (a, us ++ t :: rest')))
    (later : ∀ a us, us.length ≤ rest.length → Past rest.length (f (a, us))) :
    Outlook t rest rest' (x.bind f) (y.bind g) := by
  cases h with
  | ok a us => exact next a us rfl
  | error failure failure' => exact .error failure failure'
  | past h => exact .past (h.bind later)

/-- What is read is put into something larger. -/
theorem Outlook.map {α β : Type} {x y : Attempt α} (h : Outlook t rest rest' x y) (make : α → β) :
    Outlook t rest rest' (x.bind fun (a, us) => .ok (make a, us))
      (y.bind fun (a, us) => .ok (make a, us)) :=
  h.bind (fun a us _ => .ok (make a) us) fun _ _ le => .ok le

theorem Outlook.finished {x y : Attempt (Expr × Location)} (h : Outlook t rest rest' x y)
    (start : Location) (make : Expr → StatementKind) :
    Outlook t rest rest' (finished start make x) (finished start make y) :=
  h.bind (fun _ us _ => .ok _ us) fun _ _ le => .ok le

theorem peeks_punctuator? (sign : Punctuator) (t : Token) (us rest rest' : List Token) :
    Peeks t rest rest' (punctuator? sign (us ++ t :: rest))
      (punctuator? sign (us ++ t :: rest')) := by
  cases us with
  | nil =>
    by_cases h : t.kind = .punctuator sign
    · exact .inr (.inl ⟨t, punctuator?_cons h rest⟩)
    · exact .inl ⟨if_neg h, if_neg h⟩
  | cons u us =>
    by_cases h : u.kind = .punctuator sign
    · exact .inr (.inr ⟨u, us, punctuator?_cons h _, punctuator?_cons h _⟩)
    · exact .inl ⟨if_neg h, if_neg h⟩

theorem length_lt_of_append {us vs : List Token}
    (h : (vs ++ t :: rest).length < (us ++ t :: rest).length) : vs.length < us.length := by
  simpa using h

theorem length_lt_of_readLevel {eof : Location} {l : Level} {us vs : List Token} {e : Expr}
    (h : readLevel eof l (us ++ t :: rest) = .ok (e, vs ++ t :: rest)) : vs.length < us.length :=
  length_lt_of_append (length_lt_of_reading? (level?_eq_some_iff.mpr h))

theorem length_lt_of_punctuator? {sign : Punctuator} {u : Token} {us vs : List Token}
    (h : punctuator? sign (us ++ t :: rest) = some (u, vs ++ t :: rest)) :
    vs.length < us.length := by
  have split := congrArg List.length (punctuator?_eq_some_iff.mp h).1
  simp only [List.length_append, List.length_cons] at split
  omega

/-- Only the operator that begins with `not` is made of two tokens. -/
theorem Spells.two_tokens {tier : Tier} {first second : TokenKind} {kinds : List TokenKind}
    {op : BinaryOp} (h : Spells tier (first :: second :: kinds) op) :
    first = .keyword .negation ∧ kinds = [] := by
  cases h
  exact ⟨rfl, rfl⟩

/-- An operator ends before the token or with it, unless the token is `not`. -/
theorem operator?_before {tier : Tier} {op : BinaryOp} {us after : List Token}
    (plain : t.kind ≠ .keyword .negation) (rest' : List Token)
    (h : tier.operator? (us ++ t :: rest) = some (op, after)) :
    (after = rest ∧ tier.operator? (us ++ t :: rest') = some (op, rest')) ∨
      ∃ vs, after = vs ++ t :: rest ∧
        tier.operator? (us ++ t :: rest') = some (op, vs ++ t :: rest') := by
  obtain ⟨ops, hops, spells⟩ := spells_of_operator? h
  obtain ⟨more, rfl, hmore⟩ | ⟨vs, rfl, rfl⟩ := List.append_eq_append_iff.mp hops
  · rcases more with _ | ⟨first, _ | ⟨second, more⟩⟩
    · refine .inr ⟨[], hmore.symm, ?_⟩
      rw [List.append_nil] at spells
      exact operator?_of_spells spells _
    · obtain ⟨rfl, rfl⟩ := List.cons.inj hmore
      refine .inl ⟨rfl, ?_⟩
      simpa using operator?_of_spells spells rest'
    · obtain ⟨rfl, -⟩ := List.cons.inj hmore
      -- the operator goes on behind the token, so that the token is its first half
      rcases us with _ | ⟨u, _ | ⟨v, us⟩⟩
      · exact absurd spells.two_tokens.1 plain
      · exact absurd spells.two_tokens.2 (by simp)
      · exact absurd spells.two_tokens.2 (by simp)
  · refine .inr ⟨vs, rfl, ?_⟩
    rw [List.append_assoc]
    exact operator?_of_spells spells _

theorem peeks_operator? (plain : t.kind ≠ .keyword .negation) (tier : Tier)
    (us rest rest' : List Token) :
    Peeks t rest rest' (tier.operator? (us ++ t :: rest)) (tier.operator? (us ++ t :: rest')) := by
  cases h : tier.operator? (us ++ t :: rest) with
  | some found =>
    obtain ⟨op, after⟩ := found
    obtain ⟨rfl, -⟩ | ⟨vs, rfl, h'⟩ := operator?_before plain rest' h
    · exact .inr (.inl ⟨op, rfl⟩)
    · exact .inr (.inr ⟨op, vs, rfl, h'⟩)
  | none =>
    refine .inl ⟨rfl, ?_⟩
    rw [Option.eq_none_iff_forall_not_mem]
    rintro ⟨op, after⟩ h'
    obtain ⟨-, h''⟩ | ⟨vs, -, h''⟩ := operator?_before plain rest h'
    · cases h.symm.trans h''
    · cases h.symm.trans h''

theorem outlook_readSign (eof eof' : Location) (sign : Punctuator) (x : Expectation)
    (us : List Token) : Outlook t rest rest' (readSign eof sign x (us ++ t :: rest))
      (readSign eof' sign x (us ++ t :: rest')) := by
  cases us with
  | nil =>
    rw [List.nil_append, List.nil_append, readSign, readSign, parseSign, parseSign]
    split
    · exact .past (.ok (Nat.le_refl _))
    · exact .error _ _
  | cons u us =>
    rw [List.cons_append, List.cons_append, readSign, readSign, parseSign, parseSign]
    split
    · exact .ok u us
    · exact .error _ _

end

/-! ### Expressions -/

section

variable (eof eof' : Location) {t : Token} {rest rest' : List Token}

mutual

/-- **The parser looks one token ahead**, in expressions. -/
theorem outlook_readLevel (plain : t.kind ≠ .keyword .negation) (l : Level) (us : List Token) :
    Outlook t rest rest' (readLevel eof l (us ++ t :: rest))
      (readLevel eof' l (us ++ t :: rest')) := by
  -- by recursion on the tokens before `t`: with none left, the parser takes `t` or refuses it
  match l, us with
  | .tier tier, us =>
    have tighter := tier.rank_operand_lt
    rw [readLevel_tier, readLevel_tier]
    refine (outlook_readLevel plain tier.operand us).bind (fun left vs hl => ?_)
      fun left vs le => ?_
    · have shorter : vs.length < us.length := length_lt_of_readLevel hl
      exact outlook_readChain plain tier left vs
    · exact past_readChain eof tier left le
  | .negation, [] =>
    rw [List.nil_append, List.nil_append]
    by_cases spells : t.negates = true
    · rw [readLevel_negation_of_negates eof spells]
      exact .past ((past_readLevel eof .negation (Nat.le_refl _)).map _)
    · rw [readLevel_negation eof (by simpa using spells),
        readLevel_negation eof' (by simpa using spells)]
      exact outlook_readLevel plain (.tier .comparison) []
  | .negation, u :: us =>
    rw [List.cons_append, List.cons_append]
    by_cases spells : u.negates = true
    · rw [readLevel_negation_of_negates eof spells, readLevel_negation_of_negates eof' spells]
      exact (outlook_readLevel plain .negation us).map _
    · rw [readLevel_negation eof (by simpa using spells),
        readLevel_negation eof' (by simpa using spells)]
      exact outlook_readLevel plain (.tier .comparison) (u :: us)
  | .sign, [] =>
    rw [List.nil_append, List.nil_append]
    cases spells : t.signOp? with
    | some op =>
      rw [readLevel_sign_of_some eof spells]
      exact .past ((past_readLevel eof .sign (Nat.le_refl _)).map _)
    | none =>
      rw [readLevel_sign eof (by simpa using spells), readLevel_sign eof' (by simpa using spells)]
      exact outlook_readLevel plain .power []
  | .sign, u :: us =>
    rw [List.cons_append, List.cons_append]
    cases spells : u.signOp? with
    | some op =>
      rw [readLevel_sign_of_some eof spells, readLevel_sign_of_some eof' spells]
      exact (outlook_readLevel plain .sign us).map _
    | none =>
      rw [readLevel_sign eof (by simpa using spells), readLevel_sign eof' (by simpa using spells)]
      exact outlook_readLevel plain .power (u :: us)
  | .power, us =>
    rw [readLevel_power, readLevel_power]
    refine (outlook_readLevel plain .primary us).bind (fun base vs hb => ?_) fun base vs le => ?_
    · have shorter : vs.length < us.length := length_lt_of_readLevel hb
      dsimp only [readExponent]
      obtain ⟨h, h'⟩ | ⟨star, h⟩ | ⟨star, ws, h, h'⟩ :=
        peeks_punctuator? .doubleStar t vs rest rest'
      · rw [h, h']
        exact .ok base vs
      · rw [h]
        exact .past ((past_readLevel eof .sign (Nat.le_refl _)).map _)
      · have shorter' : ws.length < vs.length := length_lt_of_punctuator? h
        rw [h, h']
        exact (outlook_readLevel plain .sign ws).map _
    · exact past_readExponent eof base le
  | .primary, [] =>
    rw [List.nil_append, List.nil_append]
    cases literal : t.literal? with
    | some v =>
      rw [readLevel_primary_of_literal eof literal]
      exact .past (.ok (Nat.le_refl _))
    | none =>
      by_cases name : ∃ name, t.kind = .identifier name
      · obtain ⟨name, named⟩ := name
        rw [readLevel_primary_of_name eof named]
        exact .past (past_readCall eof name (Nat.le_refl _))
      by_cases opens : t.kind = .punctuator .leftParen
      · rw [readLevel_primary_of_paren eof opens]
        refine .past ((past_readLevel eof _ (Nat.le_refl _)).bind fun e us le => ?_)
        exact (past_readSign eof _ _ le).map fun _ => e
      · have name : ∀ name, t.kind ≠ .identifier name := fun n named => name ⟨n, named⟩
        rw [readLevel_primary_of_other eof literal name opens,
          readLevel_primary_of_other eof' literal name opens]
        exact .error _ _
  | .primary, u :: us =>
    rw [List.cons_append, List.cons_append]
    cases literal : u.literal? with
    | some v =>
      rw [readLevel_primary_of_literal eof literal, readLevel_primary_of_literal eof' literal]
      exact .ok _ us
    | none =>
      by_cases name : ∃ name, u.kind = .identifier name
      · obtain ⟨name, named⟩ := name
        rw [readLevel_primary_of_name eof named, readLevel_primary_of_name eof' named]
        dsimp only [readCall]
        obtain ⟨h, h'⟩ | ⟨opening, h⟩ | ⟨opening, vs, h, h'⟩ :=
          peeks_punctuator? .leftParen t us rest rest'
        · rw [h, h']
          exact .ok _ us
        · rw [h]
          exact .past ((past_readArguments eof (Nat.le_refl _)).map _)
        · have shorter : vs.length < us.length := length_lt_of_punctuator? h
          rw [h, h']
          exact (outlook_readArguments plain vs).map _
      by_cases opens : u.kind = .punctuator .leftParen
      · rw [readLevel_primary_of_paren eof opens, readLevel_primary_of_paren eof' opens]
        refine (outlook_readLevel plain (.tier .disjunction) us).bind (fun e vs _ => ?_)
          fun e vs le => ?_
        · exact (outlook_readSign eof eof' _ _ vs).map fun _ => e
        · exact (past_readSign eof _ _ le).map fun _ => e
      · have name : ∀ name, u.kind ≠ .identifier name := fun n named => name ⟨n, named⟩
        rw [readLevel_primary_of_other eof literal name opens,
          readLevel_primary_of_other eof' literal name opens]
        exact .error _ _
termination_by (us.length, l.rank)
decreasing_by all_goals first
  | (apply Prod.Lex.right; first | exact tighter | decide)
  | (apply Prod.Lex.left; simp only [List.length_cons]; omega)
  | (apply Prod.Lex.left; omega)

theorem outlook_readChain (plain : t.kind ≠ .keyword .negation) (tier : Tier) (left : Expr)
    (us : List Token) :
    Outlook t rest rest' (readChain eof tier left (us ++ t :: rest))
      (readChain eof' tier left (us ++ t :: rest')) := by
  obtain ⟨h, h'⟩ | ⟨op, h⟩ | ⟨op, vs, h, h'⟩ :=
    peeks_operator? plain tier us rest rest'
  · rw [readChain_of_none eof left h, readChain_of_none eof' left h']
    exact .ok left us
  · rw [readChain_of_some eof left h]
    refine .past ((past_readLevel eof _ (Nat.le_refl _)).bind fun right ws le => ?_)
    exact past_readChain eof tier _ le
  · have shorter : vs.length < us.length :=
      length_lt_of_append (Tier.length_rest_lt_of_operator? h)
    rw [readChain_of_some eof left h, readChain_of_some eof' left h']
    refine (outlook_readLevel plain tier.operand vs).bind (fun right ws hr => ?_)
      fun right ws le => ?_
    · have shorter' : ws.length < vs.length := length_lt_of_readLevel hr
      exact outlook_readChain plain tier _ ws
    · exact past_readChain eof tier _ le
termination_by (us.length, 0)
decreasing_by all_goals (apply Prod.Lex.left; omega)

theorem outlook_readArguments (plain : t.kind ≠ .keyword .negation) (us : List Token) :
    Outlook t rest rest' (readArguments eof (us ++ t :: rest))
      (readArguments eof' (us ++ t :: rest')) := by
  rw [readArguments_eq, readArguments_eq]
  obtain ⟨h, h'⟩ | ⟨closing, h⟩ | ⟨closing, vs, h, h'⟩ :=
    peeks_punctuator? .rightParen t us rest rest'
  · rw [h, h']
    exact outlook_readList plain us
  · rw [h]
    exact .past (.ok (Nat.le_refl _))
  · rw [h, h']
    exact .ok [] vs
termination_by (us.length, 12)
decreasing_by all_goals (apply Prod.Lex.right; decide)

theorem outlook_readList (plain : t.kind ≠ .keyword .negation) (us : List Token) :
    Outlook t rest rest' (readList eof (us ++ t :: rest)) (readList eof' (us ++ t :: rest')) := by
  rw [readList_eq, readList_eq]
  refine (outlook_readLevel plain (.tier .disjunction) us).bind (fun e vs he => ?_)
    fun e vs le => ?_
  · have shorter : vs.length < us.length := length_lt_of_readLevel he
    dsimp only [readOthers]
    obtain ⟨h, h'⟩ | ⟨comma, h⟩ | ⟨comma, ws, h, h'⟩ :=
      peeks_punctuator? .comma t vs rest rest'
    · rw [h, h']
      exact (outlook_readSign eof eof' _ _ vs).map fun _ => [e]
    · rw [h]
      exact .past ((past_readList eof (Nat.le_refl _)).map _)
    · have shorter' : ws.length < vs.length := length_lt_of_punctuator? h
      rw [h, h']
      exact (outlook_readList plain ws).map _
  · exact past_readOthers eof e le
termination_by (us.length, 11)
decreasing_by all_goals first
  | (apply Prod.Lex.right; decide)
  | (apply Prod.Lex.left; omega)

end

/-! ### Statements -/

theorem outlook_readClosed (plain : t.kind ≠ .keyword .negation) (sign : Punctuator)
    (x : Expectation) (us : List Token) :
    Outlook t rest rest' (readClosed eof sign x (us ++ t :: rest))
      (readClosed eof' sign x (us ++ t :: rest')) := by
  rw [readClosed_eq, readClosed_eq]
  refine (outlook_readLevel eof eof' plain _ us).bind (fun e vs _ => ?_) fun e vs le => ?_
  · exact (outlook_readSign eof eof' sign x vs).map fun last => (e, last.span.stop)
  · exact (past_readSign eof sign x le).map fun last => (e, last.span.stop)

/-- A name is an expression, so that it is never refused as the first token of one. -/
theorem past_readClosed_of_name {name : String} (named : t.kind = .identifier name)
    (x : Expectation) : Past rest.length (readClosed eof .semicolon x (t :: rest)) := by
  let semicolon : Token := .anywhere (.punctuator .semicolon)
  have plain : t.kind ≠ .keyword .negation := by
    rw [named]
    rintro ⟨⟩
  -- with a semicolon in place of the rest, the name is read to its end
  have outlook : Outlook t rest [semicolon] (readClosed eof .semicolon x (t :: rest))
      (readClosed eof .semicolon x [t, semicolon]) :=
    outlook_readClosed eof eof plain .semicolon x []
  have accepts : ∃ read, readClosed eof .semicolon x [t, semicolon] = .ok read := by
    have closed : closed? eof .semicolon [t, semicolon] =
        some ((.reference name, semicolon.span.stop), []) :=
      closed?_of_derives eof (Derives.reference named).to_disjunction rfl (by decide) []
    rw [← reading?_parseClosed eof .semicolon x] at closed
    exact ⟨_, reading?_eq_some_iff.mp closed⟩
  generalize hfirst : readClosed eof .semicolon x (t :: rest) = first at outlook
  generalize readClosed eof .semicolon x [t, semicolon] = second at outlook accepts
  cases outlook with
  | ok a us =>
    have shorter := length_lt_of_reading? (reading?_eq_some_iff.mpr hfirst)
    simp only [List.length_append, List.length_cons] at shorter
    omega
  | error =>
    obtain ⟨read, h⟩ := accepts
    cases h
  | past h => exact h

theorem assignee?_cases (u v : Token) :
    (∃ name, ∀ ts, assignee? (u :: v :: ts) = some (name, ts)) ∨
      ∀ ts, assignee? (u :: v :: ts) = none := by
  by_cases h : ∃ name, u.kind = .identifier name ∧ v.kind = .punctuator .assign
  · obtain ⟨name, named, assigns⟩ := h
    exact .inl ⟨name, fun ts => assignee?_eq_some_iff.mpr ⟨u, v, rfl, named, assigns⟩⟩
  · refine .inr fun ts => Option.eq_none_iff_forall_not_mem.mpr ?_
    rintro ⟨name, us⟩ found
    obtain ⟨_, _, ⟨⟩, named, assigns⟩ := assignee?_eq_some_iff.mp found
    exact h ⟨name, named, assigns⟩

theorem peeks_assignee? (t u : Token) (us rest rest' : List Token) :
    Peeks t rest rest' (assignee? (u :: (us ++ t :: rest)))
      (assignee? (u :: (us ++ t :: rest'))) := by
  cases us with
  | nil =>
    obtain ⟨name, h⟩ | h := assignee?_cases u t
    · exact .inr (.inl ⟨name, h rest⟩)
    · exact .inl ⟨h rest, h rest'⟩
  | cons v us =>
    obtain ⟨name, h⟩ | h := assignee?_cases u v
    · exact .inr (.inr ⟨name, us, h _, h _⟩)
    · exact .inl ⟨h _, h _⟩

/-- A statement at whose first token the parser looks. -/
theorem outlook_readStatement_nil (plain : t.kind ≠ .keyword .negation) :
    Outlook t rest rest' (readStatement eof (t :: rest)) (readStatement eof' (t :: rest')) := by
  by_cases brace : t.kind = .punctuator .rightBrace
  · rw [readStatement_of_brace eof brace]
    exact .past (.ok (Nat.le_refl _))
  cases block : t.opens? with
  | some block' =>
    rw [readStatement_of_block eof brace block]
    exact .past ((past_readClosed eof _ _ (Nat.le_refl _)).finished _ _)
  | none =>
    by_cases name : ∃ name, t.kind = .identifier name
    · obtain ⟨name, named⟩ := name
      cases assigns : assignee? (t :: rest) with
      | some found =>
        have le := Nat.le_of_lt_succ (length_rest_lt_of_assignee? assigns)
        rw [readStatement_of_assignee eof brace block assigns]
        exact .past ((past_readClosed eof _ _ le).finished _ _)
      | none =>
        rw [readStatement_of_expression eof brace block assigns]
        exact .past ((past_readClosed_of_name eof named _).finished _ _)
    · have assigns (ts : List Token) : assignee? (t :: ts) = none := by
        rw [Option.eq_none_iff_forall_not_mem]
        rintro ⟨target, us⟩ found
        obtain ⟨_, _, ⟨⟩, named, -⟩ := assignee?_eq_some_iff.mp found
        exact name ⟨target, named⟩
      rw [readStatement_of_expression eof brace block (assigns rest),
        readStatement_of_expression eof' brace block (assigns rest')]
      exact (outlook_readClosed eof eof' plain _ _ []).finished _ _

/-- **The parser looks one token ahead**, in statements. -/
theorem outlook_readStatement (plain : t.kind ≠ .keyword .negation) (us : List Token) :
    Outlook t rest rest' (readStatement eof (us ++ t :: rest))
      (readStatement eof' (us ++ t :: rest')) := by
  cases us with
  | nil => exact outlook_readStatement_nil eof eof' plain
  | cons u us =>
    rw [List.cons_append, List.cons_append]
    by_cases brace : u.kind = .punctuator .rightBrace
    · rw [readStatement_of_brace eof brace, readStatement_of_brace eof' brace]
      exact .ok _ us
    cases block : u.opens? with
    | some block' =>
      rw [readStatement_of_block eof brace block, readStatement_of_block eof' brace block]
      exact (outlook_readClosed eof eof' plain _ _ us).finished _ _
    | none =>
      obtain ⟨h, h'⟩ | ⟨name, h⟩ | ⟨name, vs, h, h'⟩ := peeks_assignee? t u us rest rest'
      · rw [readStatement_of_expression eof brace block h,
          readStatement_of_expression eof' brace block h']
        exact (outlook_readClosed eof eof' plain _ _ (u :: us)).finished _ _
      · rw [readStatement_of_assignee eof brace block h]
        exact .past ((past_readClosed eof _ _ (Nat.le_refl _)).finished _ _)
      · rw [readStatement_of_assignee eof brace block h,
          readStatement_of_assignee eof' brace block h']
        exact (outlook_readClosed eof eof' plain _ _ vs).finished _ _

end

/-! ### Scripts -/

theorem parseStatements_of_readStatement {eof : Location} {ts : List Token} (nonempty : ts ≠ [])
    (done : List Statement) {failure : Failure} (h : readStatement eof ts = .error failure) :
    parseStatements eof done ts = .error failure := by
  rw [parseStatements, List.isEmpty_eq_false_iff.mpr nonempty]
  unfold readStatement at h
  rcases hp : parseStatement eof ts with failure' | parsed
  · rw [hp] at h
    cases h
    rfl
  · rw [hp] at h
    cases h

theorem Names.ne_ending {error : ParseError} {t : Token} (h : Names error t) (x : Expectation)
    (l : Location) : error ≠ .endOfFile x l := by
  cases h <;> rintro ⟨⟩

/-- No script is refused at a token that comes before all of its own. -/
theorem not_refused_before {eof : Location} {done : List Statement} {ts rest : List Token}
    {error : ParseError} {t : Token} (names : Names error t) (le : ts.length ≤ rest.length) :
    parseStatements eof done ts ≠ .error ⟨error, rest⟩ := by
  intro h
  cases blames_of_parseStatements h with
  | ending x => exact names.ne_ending x eof rfl
  | token _ split =>
    rw [split, List.length_append, List.length_cons] at le
    omega

/-- **What is refused at a token is refused whatever comes behind it**, unless the token is
`not`. -/
theorem refused_of_parseStatements {eof : Location} (eof' : Location) {t : Token}
    {us rest : List Token} (rest' : List Token) {error : ParseError} {done : List Statement}
    (done' : List Statement) (plain : t.kind ≠ .keyword .negation) (names : Names error t)
    (h : parseStatements eof done (us ++ t :: rest) = .error ⟨error, rest⟩) :
    ∃ failure, parseStatements eof' done' (us ++ t :: rest') = .error failure := by
  have nonempty (ts : List Token) : us ++ t :: ts ≠ [] := by simp
  have outlook : Outlook t rest rest' (readStatement eof (us ++ t :: rest))
      (readStatement eof' (us ++ t :: rest')) := outlook_readStatement eof eof' plain us
  generalize hfirst : readStatement eof (us ++ t :: rest) = first at outlook
  generalize hsecond : readStatement eof' (us ++ t :: rest') = second at outlook
  cases outlook with
  | ok s vs =>
    have hfirst := reading?_eq_some_iff.mpr hfirst
    have shorter : vs.length < us.length := length_lt_of_append (length_lt_of_reading? hfirst)
    rw [parseStatements_of_statement? done hfirst] at h
    rw [parseStatements_of_statement? done' (reading?_eq_some_iff.mpr hsecond)]
    exact refused_of_parseStatements eof' rest' (s :: done') plain names h
  | error failure failure' =>
    exact ⟨failure', parseStatements_of_readStatement (nonempty rest') done' hsecond⟩
  | past past =>
    -- the statement would have been read to behind the token, or refused there
    exfalso
    cases past with
    | ok le =>
      rw [parseStatements_of_statement? done (reading?_eq_some_iff.mpr hfirst)] at h
      exact not_refused_before names le h
    | ending x l =>
      cases h.symm.trans (parseStatements_of_readStatement (nonempty rest) done hfirst)
      exact names.ne_ending x l rfl
    | token lt =>
      cases h.symm.trans (parseStatements_of_readStatement (nonempty rest) done hfirst)
      exact Nat.lt_irrefl _ lt
termination_by us.length

/-! ### Errors -/

/-- The parser reads the tokens as a script. -/
def Accepted (ts : List Token) : Prop :=
  ∃ statements, parseStatements (endOfTokens ts) [] ts = .ok statements

/-- The error is about the first of the tokens that is out of place, or about the end of tokens that
only lack something. -/
def PointsAt (ts : List Token) : ParseError → Prop
  | .expected _ t | .unknownStart t =>
    ∃ k, ts[k]? = some t ∧ (∃ more, Accepted (ts.take k ++ more)) ∧
      (t.kind ≠ .keyword .negation → ∀ more, ¬Accepted (ts.take (k + 1) ++ more))
  | .endOfFile _ location =>
    (∃ more, more ≠ [] ∧ Accepted (ts ++ more)) ∧
      ∃ last, ts.getLast? = some last ∧ location = last.span.stop
  | .lexer _ | .residual _ => False

theorem accepted_of_derives {ts : List Token} {statements : List Statement}
    (h : DerivesScript ts statements) : Accepted ts :=
  ⟨statements, parseStatements_eq_ok_iff.mpr h⟩

theorem pointsAt_of_refused {ts before rest : List Token} {error : ParseError} {t : Token}
    (names : Names error t) (split : ts = before ++ t :: rest) (viable : UnfinishedScript before)
    (h : parseStatements (endOfTokens ts) [] ts = .error ⟨error, rest⟩) : PointsAt ts error := by
  have found : ts[before.length]? = some t := by simp [split]
  have front : ts.take before.length = before := by simp [split]
  have upTo (more : List Token) : ts.take (before.length + 1) ++ more = before ++ t :: more := by
    rw [split, List.take_length_add_append]
    simp
  have completes : ∃ more, Accepted (ts.take before.length ++ more) := by
    obtain ⟨more, statements, -, d⟩ := viable
    exact ⟨more, front.symm ▸ accepted_of_derives d⟩
  have dead (plain : t.kind ≠ .keyword .negation) (more : List Token) :
      ¬Accepted (ts.take (before.length + 1) ++ more) := by
    rw [upTo]
    rintro ⟨statements, accepted⟩
    rw [split] at h
    obtain ⟨failure, refused⟩ := refused_of_parseStatements _ more [] plain names h
    cases accepted.symm.trans refused
  cases names with
  | expected | unknownStart => exact ⟨before.length, found, completes, dead⟩

/-- **Errors point at the first token that is out of place.**  If a text has no flaw in its tokens
and is still no script, then the error is about one of its tokens or about its end.  The tokens
before that token can be completed to a script, and those up to it cannot, unless it is `not`; if
the text ends too early, all of its tokens can be completed, and the error is where the last one
ends. -/
theorem parse_errors_point_at_the_first_offending_token {source : String} {error : ParseError}
    (flawless : (lex source).errors = []) (h : parseScript source = .error error) :
    PointsAt (lex source).tokens error := by
  have read : tokens source = .ok (lex source).tokens := tokens_eq_ok_iff.mpr ⟨flawless, rfl⟩
  rw [parseScript, read] at h
  generalize (lex source).tokens = ts at h ⊢
  dsimp only at h
  cases refused : parseStatements (endOfTokens ts) [] ts with
  | ok statements =>
    rw [refused] at h
    cases h
  | error failure =>
    rw [refused] at h
    cases h
    cases blames_of_parseStatements refused with
    | token names split viable => exact pointsAt_of_refused names split viable refused
    | ending x viable =>
      obtain ⟨more, statements, missing, d⟩ := viable
      refine ⟨⟨more, missing, accepted_of_derives d⟩, ?_⟩
      cases last : ts.getLast? with
      | some last' => exact ⟨last', rfl, by rw [endOfTokens, last]⟩
      | none =>
        rw [List.getLast?_eq_none_iff.mp last, parseStatements] at refused
        cases refused

/-- An expression is refused at the token behind it if that is not the sign that is needed. -/
theorem readClosed_of_derives (eof : Location) {sign : Punctuator} (x : Expectation) {e : Expr}
    {used rest : List Token} {t : Token} (d : Derives (.level (.tier .disjunction) e) used)
    (stops : Stops (.tier .disjunction) (t :: rest)) (wrong : t.kind ≠ .punctuator sign) :
    readClosed eof sign x (used ++ t :: rest) = .error ⟨.expected x t, rest⟩ := by
  have read := level?_eq_some_iff.mp (level?_of_derives eof d stops)
  have refused : readSign eof sign x (t :: rest) = .error ⟨.expected x t, rest⟩ := by
    rw [readSign, parseSign, if_neg wrong, attempt]
  rw [readClosed_eq, bind_eq_error_iff]
  exact .inr ⟨e, t :: rest, read, bind_eq_error_iff.mpr (.inl refused)⟩

theorem parseScript_strayParen :
    ∃ t, parseScript "y = 2 ** -x);" = .error (.expected .semicolonAfterAssignment t) ∧
      t.kind = .punctuator .rightParen := by
  have flawless : (lex "y = 2 ** -x);").errors = [] := by decide +kernel
  have kinds : (lex "y = 2 ** -x);").tokens.map Token.kind = [.identifier "y", .punctuator .assign,
      .integer 2, .punctuator .doubleStar, .punctuator .minus, .identifier "x",
      .punctuator .rightParen, .punctuator .semicolon] := by
    decide +kernel
  simp only [List.map_eq_cons_iff, List.map_eq_nil_iff] at kinds
  obtain ⟨y, _, whole, target, sign, _, rfl, assigns, two, _, rfl, literal, star, _, rfl, raises,
    minus, _, rfl, negates, x, _, rfl, named, closing, _, rfl, closes, semicolon, _, rfl, -,
    rfl⟩ := kinds
  have base : Derives (.level .primary (.literal (.int 2))) [two] :=
    .literal (literal ▸ .integer 2)
  have exponent : Derives (.level .sign (.unary .negate (.reference "x"))) [minus, x] :=
    .signed (negates ▸ .minus) (.unsigned (.base (.reference named)))
  have value := (Derives.raised base raises exponent).to_disjunction
  have wrong : closing.kind ≠ .punctuator .semicolon := by
    rw [closes]
    decide
  have refused := readClosed_of_derives (endOfTokens (lex "y = 2 ** -x);").tokens)
    .semicolonAfterAssignment value (.of_closing closes (by decide) _ [semicolon]) wrong
  have begins : Begins .primary y.kind := target ▸ .name "y"
  obtain ⟨brace, block⟩ := begins.starts_statement
  have assignment (ts : List Token) : assignee? (y :: sign :: ts) = some ("y", ts) :=
    assignee?_eq_some_iff.mpr ⟨y, sign, rfl, target, assigns⟩
  have statement := (readStatement_of_assignee _ brace block (assignment _)).trans
    (finished_eq_error_iff.mpr refused)
  have script := parseStatements_of_readStatement (List.cons_ne_nil _ _) [] statement
  refine ⟨closing, ?_, closes⟩
  rw [whole] at script
  rw [parseScript, tokens_eq_ok_iff.mpr ⟨flawless, whole⟩]
  dsimp only
  exact script ▸ rfl

/-- A parenthesis that closes nothing: the tokens before it can be completed, and it cannot
follow. -/
theorem parse_errors_point_at_the_first_offending_token_strayParen :
    (lex "y = 2 ** -x);").errors = [] ∧
      ∃ t, parseScript "y = 2 ** -x);" = .error (.expected .semicolonAfterAssignment t) ∧
        t.kind = .punctuator .rightParen ∧
        PointsAt (lex "y = 2 ** -x);").tokens (.expected .semicolonAfterAssignment t) := by
  have flawless : (lex "y = 2 ** -x);").errors = [] := by decide +kernel
  obtain ⟨t, refused, closes⟩ := parseScript_strayParen
  exact ⟨flawless, t, refused, closes,
    parse_errors_point_at_the_first_offending_token flawless refused⟩

end StepScript
