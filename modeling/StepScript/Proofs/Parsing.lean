import StepScript.Proofs.Grammar

/-!
# The parser reads the grammar

The parser accepts exactly what the grammar derives, and gives the tree of the derivation.  In one
direction, what the parser has used up derives what it gives back.  In the other, it reads a
derivation to its end, provided that the tokens behind do not carry it on.

## Main definitions

* `level?`, `chain?`, `list?` — what the parser reads, without its measures and errors.
* `Stops` — the tokens cannot carry on an expression of a level.

## Main results

* `derives_of_level?` — soundness for expressions.
* `level?_of_derives` — completeness for expressions.
-/

namespace StepScript

/-! ### Results without measures -/

/-- What was read and the tokens behind it, if there was no error. -/
def reading? {α : Type} {n : Nat} (result : ParseResult α n) : Option (α × List Token) :=
  match result with
  | .ok parsed => some (parsed.value, parsed.rest)
  | .error _ => none

/-- The same for what carries on a chain, which may use no token. -/
def carried? {n : Nat} (result : Except Failure (Expr × { rest : List Token // rest.length ≤ n })) :
    Option (Expr × List Token) :=
  match result with
  | .ok (e, ⟨rest, _⟩) => some (e, rest)
  | .error _ => none

/-- The expression of a level that the tokens begin with. -/
def level? (eof : Location) (l : Level) (ts : List Token) : Option (Expr × List Token) :=
  reading? (parseLevel eof l ts)

/-- The chain with the given left end that the tokens carry on. -/
def chain? (eof : Location) (t : Tier) (left : Expr) (ts : List Token) :
    Option (Expr × List Token) :=
  carried? (parseChain eof t left ts)

/-- The arguments, up to the closing parenthesis, that the tokens begin with. -/
def arguments? (eof : Location) (ts : List Token) : Option (List Expr × List Token) :=
  reading? (parseArguments eof ts)

/-- One argument or more, up to the closing parenthesis. -/
def list? (eof : Location) (ts : List Token) : Option (List Expr × List Token) :=
  reading? (parseArgumentList eof ts)

/-- The token behind which the tokens go on, if it is a certain sign. -/
def punctuator? (sign : Punctuator) : List Token → Option (Token × List Token)
  | [] => none
  | t :: rest => if t.kind = .punctuator sign then some (t, rest) else none

theorem length_lt_of_reading? {α : Type} {n : Nat} {result : ParseResult α n} {value : α}
    {rest : List Token} (h : reading? result = some (value, rest)) : rest.length < n := by
  rcases result with failure | ⟨value', rest', shorter⟩
  · cases h
  · cases h
    exact shorter

@[simp] theorem reading?_parseSign (eof : Location) (sign : Punctuator) (x : Expectation)
    (ts : List Token) : reading? (parseSign eof sign x ts) = punctuator? sign ts := by
  cases ts with
  | nil => rfl
  | cons t rest =>
    rw [parseSign, punctuator?]
    split <;> rfl

theorem punctuator?_eq_some_iff {sign : Punctuator} {ts rest : List Token} {t : Token} :
    punctuator? sign ts = some (t, rest) ↔ ts = t :: rest ∧ t.kind = .punctuator sign := by
  cases ts with
  | nil => simp [punctuator?]
  | cons u us =>
    rw [punctuator?]
    split <;> grind

theorem punctuator?_cons {sign : Punctuator} {t : Token} (h : t.kind = .punctuator sign)
    (rest : List Token) : punctuator? sign (t :: rest) = some (t, rest) :=
  punctuator?_eq_some_iff.mpr ⟨rfl, h⟩

section Equations

variable (eof : Location)

theorem level?_tier (t : Tier) (ts : List Token) :
    level? eof (.tier t) ts =
      (level? eof t.operand ts).bind fun (left, rest) => chain? eof t left rest := by
  simp only [level?, chain?]
  rw [parseLevel]
  rcases parseLevel eof t.operand ts with _ | ⟨left, rest, shorter⟩
  · rfl
  simp only [reading?, Option.bind_some]
  rcases parseChain eof t left rest with _ | ⟨e, rest, h⟩ <;> rfl

theorem chain?_of_none {t : Tier} {ts : List Token} (left : Expr) (h : t.operator? ts = none) :
    chain? eof t left ts = some (left, ts) := by
  rw [chain?, parseChain]
  split
  · rfl
  · rename_i op rest h'
    cases h.symm.trans h'

theorem chain?_of_some {t : Tier} {ts rest : List Token} {op : BinaryOp} (left : Expr)
    (h : t.operator? ts = some (op, rest)) :
    chain? eof t left ts =
      (level? eof t.operand rest).bind fun (right, rest) =>
        chain? eof t (.binary op left right) rest := by
  simp only [chain?, level?]
  rw [parseChain]
  split
  · rename_i h'
    cases h.symm.trans h'
  rename_i op' rest' h'
  cases h.symm.trans h'
  rcases parseLevel eof t.operand rest with _ | ⟨right, rest, shorter⟩
  · rfl
  simp only [reading?, Option.bind_some]
  rcases parseChain eof t (.binary op left right) rest with _ | ⟨e, rest, h⟩ <;> rfl

theorem level?_negation_of_spellsNot {t : Token} (spells : t.negates) (ts : List Token) :
    level? eof .negation (t :: ts) =
      (level? eof .negation ts).map fun (e, rest) => (.unary .not e, rest) := by
  simp only [level?]
  rw [parseLevel.eq_def]
  simp only [spells, if_true]
  rcases parseLevel eof .negation ts with _ | ⟨e, rest, shorter⟩ <;> rfl

theorem level?_negation (ts : List Token) (spells : ∀ t ∈ ts.head?, t.negates = false) :
    level? eof .negation ts = level? eof (.tier .comparison) ts := by
  simp only [level?]
  rw [parseLevel.eq_def]
  cases ts with
  | nil => rfl
  | cons t ts => simp [spells t rfl]

theorem level?_sign_of_some {t : Token} {op : UnaryOp} (spells : t.signOp? = some op)
    (ts : List Token) :
    level? eof .sign (t :: ts) =
      (level? eof .sign ts).map fun (e, rest) => (.unary op e, rest) := by
  simp only [level?]
  rw [parseLevel.eq_def]
  simp only [spells]
  rcases parseLevel eof .sign ts with _ | ⟨e, rest, shorter⟩ <;> rfl

theorem level?_sign_of_none (ts : List Token) (spells : ∀ t ∈ ts.head?, t.signOp? = none) :
    level? eof .sign ts = level? eof .power ts := by
  simp only [level?]
  rw [parseLevel.eq_def]
  cases ts with
  | nil => rfl
  | cons t ts => simp only [spells t rfl]

theorem level?_power (ts : List Token) :
    level? eof .power ts =
      (level? eof .primary ts).bind fun (base, rest) =>
        match punctuator? .doubleStar rest with
        | none => some (base, rest)
        | some (_, rest) => (level? eof .sign rest).map fun (e, rest) =>
          (.binary .power base e, rest) := by
  simp only [level?]
  rw [parseLevel.eq_def]
  rcases parseLevel eof .primary ts with _ | ⟨base, _ | ⟨t, rest⟩, shorter⟩
  · rfl
  · rfl
  by_cases star : t.kind = .punctuator .doubleStar
  · simp only [reading?, punctuator?, Option.bind_some, star, if_true]
    rcases parseLevel eof .sign rest with _ | ⟨e, rest, shorter⟩ <;> rfl
  · simp only [reading?, punctuator?, Option.bind_some, star, if_false]

theorem level?_primary_nil : level? eof .primary [] = none := by
  rw [level?, parseLevel.eq_def]
  rfl

theorem level?_primary_of_literal {t : Token} {v : Value} (spells : t.literal? = some v)
    (ts : List Token) : level? eof .primary (t :: ts) = some (.literal v, ts) := by
  rw [level?, parseLevel.eq_def]
  simp only [spells]
  rfl

theorem level?_primary_of_name {t : Token} {name : String} (named : t.kind = .identifier name)
    (ts : List Token) :
    level? eof .primary (t :: ts) =
      match punctuator? .leftParen ts with
      | none => some (.reference name, ts)
      | some (_, rest) => (arguments? eof rest).map fun (es, rest) => (.call name es, rest) := by
  have literal : t.literal? = none := by rw [Token.literal?, named]
  rw [level?, parseLevel.eq_def]
  simp only [literal, named]
  cases ts with
  | nil => rfl
  | cons u ts =>
    by_cases opens : u.kind = .punctuator .leftParen
    · simp only [punctuator?, opens, if_true, arguments?]
      rcases parseArguments eof ts with _ | ⟨es, rest, shorter⟩ <;> rfl
    · simp only [punctuator?, opens, if_false]
      rfl

theorem level?_primary_of_paren {t : Token} (opens : t.kind = .punctuator .leftParen)
    (ts : List Token) :
    level? eof .primary (t :: ts) =
      (level? eof (.tier .disjunction) ts).bind fun (e, rest) =>
        (punctuator? .rightParen rest).map fun (_, rest) => (e, rest) := by
  have literal : t.literal? = none := by rw [Token.literal?, opens]
  simp only [level?, ← reading?_parseSign eof .rightParen .closingParen]
  rw [parseLevel.eq_def]
  simp only [literal, opens]
  rcases parseLevel eof (.tier .disjunction) ts with _ | ⟨e, rest, shorter⟩
  · rfl
  simp only [reading?, Option.bind_some]
  rcases parseSign eof .rightParen .closingParen rest with _ | ⟨t, rest, shorter'⟩ <;> rfl

theorem level?_primary_eq_none {t : Token} (literal : t.literal? = none)
    (name : ∀ name, t.kind ≠ .identifier name) (paren : t.kind ≠ .punctuator .leftParen)
    (ts : List Token) : level? eof .primary (t :: ts) = none := by
  rw [level?, parseLevel.eq_def]
  simp only [literal]
  rfl

theorem arguments?_eq (ts : List Token) :
    arguments? eof ts =
      match punctuator? .rightParen ts with
      | none => list? eof ts
      | some (_, rest) => some ([], rest) := by
  rw [arguments?, parseArguments.eq_def]
  cases ts with
  | nil => rfl
  | cons t ts =>
    by_cases closes : t.kind = .punctuator .rightParen
    · simp only [punctuator?, closes, if_true]
      rfl
    · simp only [punctuator?, closes, if_false]
      rfl

theorem list?_eq (ts : List Token) :
    list? eof ts =
      (level? eof (.tier .disjunction) ts).bind fun (e, rest) =>
        match punctuator? .comma rest with
        | none => (punctuator? .rightParen rest).map fun (_, rest) => ([e], rest)
        | some (_, rest) => (list? eof rest).map fun (es, rest) => (e :: es, rest) := by
  simp only [list?, level?]
  rw [parseArgumentList]
  rcases parseLevel eof (.tier .disjunction) ts with _ | ⟨e, _ | ⟨t, rest⟩, shorter⟩
  · rfl
  · rfl
  by_cases separates : t.kind = .punctuator .comma
  · simp only [reading?, punctuator?, Option.bind_some, separates, if_true]
    rcases parseArgumentList eof rest with _ | ⟨es, rest, shorter⟩ <;> rfl
  by_cases closes : t.kind = .punctuator .rightParen
  · simp only [reading?, punctuator?, Option.bind_some, closes, if_true]
    rfl
  · simp only [reading?, punctuator?, Option.bind_some, separates, closes, if_false]
    rfl

end Equations

/-! ### The words of the parser -/

theorem chains_iff {t : Tier} {l : Level} : Chains t l ↔ l = t.operand := by
  constructor
  · rintro ⟨⟩ <;> rfl
  · rintro rfl
    cases t <;> constructor

theorem negates_iff {t : Token} : t.negates ↔ SpellsNot t.kind := by
  constructor
  · intro h
    rcases Bool.or_eq_true_iff.mp h with h | h
    · exact of_decide_eq_true h ▸ .word
    · exact of_decide_eq_true h ▸ .bang
  · generalize hk : t.kind = k
    rintro ⟨⟩ <;> simp [Token.negates, hk]

theorem signOp?_eq_some_iff {t : Token} {op : UnaryOp} :
    t.signOp? = some op ↔ SpellsSign t.kind op := by
  rw [Token.signOp?]
  generalize t.kind = k
  constructor
  · intro h
    split at h <;> cases h <;> constructor
  · rintro ⟨⟩ <;> rfl

theorem literal?_eq_some_iff {t : Token} {v : Value} :
    t.literal? = some v ↔ SpellsLiteral t.kind v := by
  rw [Token.literal?]
  generalize t.kind = k
  constructor
  · cases k with
    | integer i => rintro ⟨⟩; exact .integer i
    | float x => rintro ⟨⟩; exact .float x
    | string s => rintro ⟨⟩; exact .string s
    | keyword word => cases word <;> rintro ⟨⟩ <;> constructor
    | identifier | punctuator => rintro ⟨⟩
  · rintro ⟨⟩ <;> rfl

theorem opens?_eq_some_iff {t : Token} {block : BlockKind} :
    t.opens? = some block ↔ SpellsBlock t.kind block := by
  rw [Token.opens?]
  generalize t.kind = k
  constructor
  · intro h
    split at h
    · rename_i word
      cases word <;> cases h <;> constructor
    · cases h
  · rintro ⟨⟩ <;> rfl

theorem operator?_of_spells {t : Tier} {op : BinaryOp} {ops : List Token}
    (h : Spells t (ops.map Token.kind) op) (rest : List Token) :
    t.operator? (ops ++ rest) = some (op, rest) := by
  generalize hk : ops.map Token.kind = kinds at h
  -- all operators but the last are made of one token
  cases h with
  | notIn =>
    obtain ⟨first, us, rfl, hf, hu⟩ := List.map_eq_cons_iff.mp hk
    obtain ⟨second, rfl, hs⟩ := List.map_eq_singleton_iff.mp hu
    simp [Tier.operator?, hf, hs]
  | _ =>
    obtain ⟨only, rfl, hf⟩ := List.map_eq_singleton_iff.mp hk
    simp [Tier.operator?, hf, Tier.signOperator?, Tier.wordOperator?]

theorem spells_of_operator? {t : Tier} {op : BinaryOp} {ts rest : List Token}
    (h : t.operator? ts = some (op, rest)) :
    ∃ ops, ts = ops ++ rest ∧ Spells t (ops.map Token.kind) op := by
  unfold Tier.operator? at h
  split at h
  · cases h
  rename_i first us
  split at h
  · -- a sign
    rename_i p hk
    obtain ⟨op', hop, ⟨⟩⟩ := Option.map_eq_some_iff.mp h
    refine ⟨[first], rfl, ?_⟩
    rw [List.map_singleton, hk]
    revert hop
    cases t <;> cases p <;> rintro ⟨⟩ <;> constructor
  · -- the word `not` is an operator only before `in`
    rename_i hk
    split at h
    · rename_i second us
      split at h
      · rename_i hs
        cases h
        exact ⟨[first, second], rfl, by simpa [hk, hs] using Spells.notIn⟩
      · cases h
    · cases h
  · -- any other word
    rename_i word _ hk
    obtain ⟨op', hop, ⟨⟩⟩ := Option.map_eq_some_iff.mp h
    refine ⟨[first], rfl, ?_⟩
    rw [List.map_singleton, hk]
    revert hop
    cases t <;> cases word <;> rintro ⟨⟩ <;> constructor
  · cases h

/-! ### Soundness -/

mutual

/-- What the parser has used up derives the expression that it gives back. -/
theorem derives_of_level? (eof : Location) (l : Level) (ts : List Token) {e : Expr}
    {rest : List Token} (h : level? eof l ts = some (e, rest)) :
    ∃ used, ts = used ++ rest ∧ Derives (.level l e) used := by
  -- By recursion, as the parser: each way to read is a rule of the grammar.
  match l, ts, h with
  | .tier t, ts, h =>
    -- one operand is a chain, which is then carried on
    rw [level?_tier] at h
    obtain ⟨⟨left, mid⟩, hl, hc⟩ := Option.bind_eq_some_iff.mp h
    have shorter : mid.length < ts.length := length_lt_of_reading? hl
    have tighter := t.rank_operand_lt
    obtain ⟨ls, hls, dl⟩ := derives_of_level? eof t.operand ts hl
    obtain ⟨us, hus, d⟩ := derives_of_chain? eof t mid (.operand (chains_iff.mpr rfl) dl) hc
    exact ⟨ls ++ us, by rw [hls, hus, List.append_assoc], d⟩
  | .negation, [], h =>
    -- nothing negates: the level is passed down
    rw [level?_negation eof [] (by simp)] at h
    obtain ⟨used, hused, d⟩ := derives_of_level? eof (.tier .comparison) [] h
    exact ⟨used, hused, .plain d⟩
  | .negation, t :: us, h =>
    -- one negation, and what it negates may be negated again
    by_cases spells : t.negates
    · rw [level?_negation_of_spellsNot eof spells] at h
      obtain ⟨⟨inner, rest⟩, hi, ⟨⟩⟩ := Option.map_eq_some_iff.mp h
      obtain ⟨used, rfl, d⟩ := derives_of_level? eof .negation us hi
      exact ⟨t :: used, rfl, .negated (negates_iff.mp spells) d⟩
    · rw [level?_negation eof (t :: us) (by simpa using spells)] at h
      obtain ⟨used, hused, d⟩ := derives_of_level? eof (.tier .comparison) (t :: us) h
      exact ⟨used, hused, .plain d⟩
  | .sign, [], h =>
    rw [level?_sign_of_none eof [] (by simp)] at h
    obtain ⟨used, hused, d⟩ := derives_of_level? eof .power [] h
    exact ⟨used, hused, .unsigned d⟩
  | .sign, t :: us, h =>
    -- one sign, and what it stands before may have another
    match spells : t.signOp? with
    | some op =>
      rw [level?_sign_of_some eof spells] at h
      obtain ⟨⟨inner, rest⟩, hi, ⟨⟩⟩ := Option.map_eq_some_iff.mp h
      obtain ⟨used, rfl, d⟩ := derives_of_level? eof .sign us hi
      exact ⟨t :: used, rfl, .signed (signOp?_eq_some_iff.mp spells) d⟩
    | none =>
      rw [level?_sign_of_none eof (t :: us) (by simpa using spells)] at h
      obtain ⟨used, hused, d⟩ := derives_of_level? eof .power (t :: us) h
      exact ⟨used, hused, .unsigned d⟩
  | .power, ts, h =>
    -- the exponent is read at the level of signs, so that powers group to the right
    rw [level?_power] at h
    obtain ⟨⟨base, mid⟩, hb, h⟩ := Option.bind_eq_some_iff.mp h
    have shorter : mid.length < ts.length := length_lt_of_reading? hb
    obtain ⟨ls, hls, dl⟩ := derives_of_level? eof .primary ts hb
    dsimp only at h
    split at h
    · cases h
      exact ⟨ls, hls, .base dl⟩
    · rename_i star us hstar
      obtain ⟨rfl, raises⟩ := punctuator?_eq_some_iff.mp hstar
      obtain ⟨⟨exponent, rest⟩, hr, ⟨⟩⟩ := Option.map_eq_some_iff.mp h
      have shorter' : us.length < ts.length := by simp at shorter; omega
      obtain ⟨rs, rfl, dr⟩ := derives_of_level? eof .sign us hr
      exact ⟨ls ++ star :: rs, by simp [hls], .raised dl raises dr⟩
  | .primary, [], h => cases (level?_primary_nil eof).symm.trans h
  | .primary, t :: us, h =>
    -- by the kind of the first token, which no two rules share
    match literal : t.literal? with
    | some v =>
      cases (level?_primary_of_literal eof literal us).symm.trans h
      exact ⟨[t], rfl, .literal (literal?_eq_some_iff.mp literal)⟩
    | none =>
      by_cases name : ∃ name, t.kind = .identifier name
      · obtain ⟨name, named⟩ := name
        rw [level?_primary_of_name eof named] at h
        split at h
        · cases h
          exact ⟨[t], rfl, .reference named⟩
        · -- a parenthesis behind the name makes it a call
          rename_i opening vs hopen
          obtain ⟨hus, opens⟩ := punctuator?_eq_some_iff.mp hopen
          obtain ⟨⟨es, rest⟩, ha, ⟨⟩⟩ := Option.map_eq_some_iff.mp h
          have shorter : vs.length < us.length := by simp [hus]
          obtain ⟨used, closing, rfl, closes, d⟩ := derives_of_arguments? eof vs ha
          exact ⟨t :: opening :: (used ++ [closing]), by simp [hus], .call named opens d closes⟩
      by_cases opens : t.kind = .punctuator .leftParen
      · rw [level?_primary_of_paren eof opens] at h
        obtain ⟨⟨inner, mid⟩, hi, h⟩ := Option.bind_eq_some_iff.mp h
        obtain ⟨⟨closing, rest⟩, hc, ⟨⟩⟩ := Option.map_eq_some_iff.mp h
        obtain ⟨rfl, closes⟩ := punctuator?_eq_some_iff.mp hc
        obtain ⟨used, rfl, d⟩ := derives_of_level? eof (.tier .disjunction) us hi
        exact ⟨t :: (used ++ [closing]), by simp, .parens opens d closes⟩
      · have name : ∀ name, t.kind ≠ .identifier name := fun n named => name ⟨n, named⟩
        cases (level?_primary_eq_none eof literal name opens us).symm.trans h
termination_by (ts.length, l.rank)
decreasing_by all_goals first
  | (apply Prod.Lex.right; first | exact tighter | decide)
  | (apply Prod.Lex.left; simp only [List.length_cons]; omega)
  | (apply Prod.Lex.left; omega)

/-- What carries on a chain derives the longer chain. -/
theorem derives_of_chain? (eof : Location) (t : Tier) (ts : List Token) {left e : Expr}
    {ls rest : List Token} (dl : Derives (.level (.tier t) left) ls)
    (h : chain? eof t left ts = some (e, rest)) :
    ∃ used, ts = used ++ rest ∧ Derives (.level (.tier t) e) (ls ++ used) := by
  match hop : t.operator? ts with
  | none =>
    cases (chain?_of_none eof left hop).symm.trans h
    exact ⟨[], rfl, by simpa using dl⟩
  | some (op, us) =>
    rw [chain?_of_some eof left hop] at h
    obtain ⟨⟨right, mid⟩, hr, hc⟩ := Option.bind_eq_some_iff.mp h
    have shorter := Tier.length_rest_lt_of_operator? hop
    have shorter' : mid.length < us.length := length_lt_of_reading? hr
    obtain ⟨ops, hops, spells⟩ := spells_of_operator? hop
    obtain ⟨rs, hrs, dr⟩ := derives_of_level? eof t.operand us hr
    have longer := Derives.chain (chains_iff.mpr rfl) dl spells dr
    obtain ⟨vs, hvs, d⟩ := derives_of_chain? eof t mid longer hc
    exact ⟨ops ++ (rs ++ vs), by rw [hops, hrs, hvs]; simp, by simpa using d⟩
termination_by (ts.length, 0)
decreasing_by all_goals (apply Prod.Lex.left; omega)

theorem derives_of_arguments? (eof : Location) (ts : List Token) {es : List Expr}
    {rest : List Token} (h : arguments? eof ts = some (es, rest)) :
    ∃ used closing, ts = used ++ closing :: rest ∧ closing.kind = .punctuator .rightParen ∧
      Derives (.arguments es) used := by
  rw [arguments?_eq] at h
  split at h
  · obtain ⟨used, closing, hused, closes, d⟩ := derives_of_list? eof ts h
    exact ⟨used, closing, hused, closes, .someArguments d⟩
  · rename_i closing us hclose
    cases h
    obtain ⟨rfl, closes⟩ := punctuator?_eq_some_iff.mp hclose
    exact ⟨[], closing, rfl, closes, .noArguments⟩
termination_by (ts.length, 12)
decreasing_by all_goals (apply Prod.Lex.right; decide)

theorem derives_of_list? (eof : Location) (ts : List Token) {es : List Expr} {rest : List Token}
    (h : list? eof ts = some (es, rest)) :
    ∃ used closing, ts = used ++ closing :: rest ∧ closing.kind = .punctuator .rightParen ∧
      Derives (.list es) used := by
  rw [list?_eq] at h
  obtain ⟨⟨e, mid⟩, he, h⟩ := Option.bind_eq_some_iff.mp h
  have shorter : mid.length < ts.length := length_lt_of_reading? he
  obtain ⟨used, hused, d⟩ := derives_of_level? eof (.tier .disjunction) ts he
  dsimp only at h
  split at h
  · obtain ⟨⟨closing, rest⟩, hc, ⟨⟩⟩ := Option.map_eq_some_iff.mp h
    obtain ⟨rfl, closes⟩ := punctuator?_eq_some_iff.mp hc
    exact ⟨used, closing, hused, closes, .last d⟩
  · rename_i comma us hcomma
    obtain ⟨rfl, separates⟩ := punctuator?_eq_some_iff.mp hcomma
    obtain ⟨⟨others, rest⟩, ho, ⟨⟩⟩ := Option.map_eq_some_iff.mp h
    have shorter' : us.length < ts.length := by simp at shorter; omega
    obtain ⟨vs, closing, rfl, closes, d'⟩ := derives_of_list? eof us ho
    exact ⟨used ++ comma :: vs, closing, by simp [hused], closes, .more d separates d'⟩
termination_by (ts.length, 11)
decreasing_by all_goals first
  | (apply Prod.Lex.right; decide)
  | (apply Prod.Lex.left; omega)

end

/-! ### Where expressions stop -/

theorem Spells.ne_nil {t : Tier} {kinds : List TokenKind} {op : BinaryOp}
    (h : Spells t kinds op) : kinds ≠ [] := by
  cases h <;> exact List.cons_ne_nil _ _

/-- The first token of an operator tells its tier. -/
theorem Spells.tier_unique {t t' : Tier} {k : TokenKind} {ks ks' : List TokenKind}
    {op op' : BinaryOp} (h : Spells t (k :: ks) op) (h' : Spells t' (k :: ks') op') : t = t' := by
  cases h <;> cases h' <;> rfl

theorem Spells.first_ne {t : Tier} {k : TokenKind} {ks : List TokenKind} {op : BinaryOp}
    (h : Spells t (k :: ks) op) :
    k ≠ .punctuator .doubleStar ∧ k ≠ .punctuator .leftParen := by
  cases h <;> decide

/-- The tokens cannot carry on an expression of the level. -/
structure Stops (l : Level) (ts : List Token) : Prop where
  operator : ∀ t : Tier, (Level.tier t).rank ≤ l.rank → t.operator? ts = none
  power : Level.power.rank ≤ l.rank → punctuator? .doubleStar ts = none
  paren : punctuator? .leftParen ts = none

namespace Stops

variable {l l' : Level} {ts : List Token}

theorem mono (h : Stops l ts) (tight : l'.rank ≤ l.rank) : Stops l' ts where
  operator t ht := h.operator t (Nat.le_trans ht tight)
  power hp := h.power (Nat.le_trans hp tight)
  paren := h.paren

theorem nil (l : Level) : Stops l [] := ⟨fun _ _ => rfl, fun _ => rfl, rfl⟩

/-- Nothing is carried on by a sign that ends expressions. -/
theorem of_closing {u : Token} {p : Punctuator} (closes : u.kind = .punctuator p)
    (hp : p ∈ [.rightParen, .comma, .semicolon, .leftBrace]) (l : Level) (us : List Token) :
    Stops l (u :: us) where
  operator t _ := by
    simp only [Tier.operator?, closes, Option.map_eq_none_iff]
    cases t <;> cases p <;> first | rfl | exact absurd hp (by decide)
  power _ := by
    rw [punctuator?, closes, if_neg]
    rintro ⟨⟩
    exact absurd hp (by decide)
  paren := by
    rw [punctuator?, closes, if_neg]
    rintro ⟨⟩
    exact absurd hp (by decide)

/-- A tighter expression is not carried on by an operator. -/
theorem of_spells {t : Tier} {op : BinaryOp} {ops : List Token}
    (spells : Spells t (ops.map Token.kind) op) (tight : l.rank < (Level.tier t).rank)
    (us : List Token) : Stops l (ops ++ us) := by
  obtain ⟨first, ops, rfl⟩ := List.exists_cons_of_ne_nil fun h : ops = [] =>
    spells.ne_nil (h ▸ rfl)
  obtain ⟨power, paren⟩ := spells.first_ne
  refine ⟨fun t' loose => ?_, fun _ => if_neg power, if_neg paren⟩
  rw [Option.eq_none_iff_forall_not_mem]
  rintro ⟨op', rest⟩ hop
  -- an operator of another tier would begin with the same token
  obtain ⟨ops', hops, spells'⟩ := spells_of_operator? hop
  obtain ⟨first', ops', rfl⟩ := List.exists_cons_of_ne_nil fun h : ops' = [] =>
    spells'.ne_nil (h ▸ rfl)
  cases (List.cons.inj hops).1
  have same := spells.tier_unique spells'
  rw [same] at tight
  omega

theorem of_doubleStar {u : Token} (star : u.kind = .punctuator .doubleStar) (us : List Token) :
    Stops .primary (u :: us) where
  operator t ht := by cases t <;> exact absurd ht (by decide)
  power h := absurd h (by decide)
  paren := by
    rw [punctuator?, star, if_neg]
    rintro ⟨⟩

end Stops

/-! ### Completeness -/

/-- Only loose expressions begin with `not`. -/
theorem Begins.negates_eq_false {l : Level} {t : Token} (h : Begins l t.kind)
    (tight : l.rank < Level.negation.rank) : t.negates = false := by
  rw [Bool.eq_false_iff]
  intro negates
  have spells := negates_iff.mp negates
  generalize t.kind = k at h spells
  cases h with
  | not loose => omega
  | sign _ sign => cases sign <;> cases spells
  | literal literal => cases literal <;> cases spells
  | name | paren => cases spells

/-- Only expressions looser than powers begin with a sign. -/
theorem Begins.signOp?_eq_none {l : Level} {t : Token} (h : Begins l t.kind)
    (tight : l.rank < Level.sign.rank) : t.signOp? = none := by
  rw [Option.eq_none_iff_forall_not_mem]
  intro op sign
  have spells := signOp?_eq_some_iff.mp sign
  generalize t.kind = k at h spells
  cases h with
  | not loose => exact absurd (Nat.lt_of_le_of_lt loose tight) (by decide)
  | sign loose => omega
  | literal literal => cases literal <;> cases spells
  | name | paren => cases spells

/-- The parser reads the phrase off the tokens, whatever comes behind that does not carry it on.
A chain need not be at its end: the parser is then where it reads on with the chain so far. -/
def Phrase.IsRead (eof : Location) : Phrase → List Token → Prop
  | level (.tier t) e, ts => ∀ rest, Stops t.operand rest →
      level? eof (.tier t) (ts ++ rest) = chain? eof t e rest
  | level l e, ts => ∀ rest, Stops l rest → level? eof l (ts ++ rest) = some (e, rest)
  | arguments es, ts => ∀ closing rest, closing.kind = .punctuator .rightParen →
      arguments? eof (ts ++ closing :: rest) = some (es, rest)
  | list es, ts => ∀ closing rest, closing.kind = .punctuator .rightParen →
      list? eof (ts ++ closing :: rest) = some (es, rest)

theorem Phrase.IsRead.level?_eq {eof : Location} {l : Level} {e : Expr} {ts rest : List Token}
    (h : (Phrase.level l e).IsRead eof ts) (stops : Stops l rest) :
    level? eof l (ts ++ rest) = some (e, rest) := by
  cases l with
  | tier t =>
    have ended := stops.operator t (Nat.le_refl _)
    rw [h rest (stops.mono (Nat.le_of_lt t.rank_operand_lt)), chain?_of_none eof e ended]
  | _ => exact h rest stops

theorem isRead_of_derives (eof : Location) {phrase : Phrase} {ts : List Token}
    (h : Derives phrase ts) : phrase.IsRead eof ts := by
  induction h with
  | operand chains _ ih =>
    obtain rfl := chains_iff.mp chains
    intro rest stops
    rw [level?_tier, ih.level?_eq stops]
    rfl
  | @chain t _ a b op ls ops rs chains _ spells _ ihl ihr =>
    obtain rfl := chains_iff.mp chains
    intro rest stops
    have seam := Stops.of_spells spells t.rank_operand_lt (rs ++ rest)
    rw [List.append_assoc, List.append_assoc, ihl _ seam,
      chain?_of_some eof a (operator?_of_spells spells _), ihr.level?_eq stops]
    rfl
  | negated spells _ ih =>
    intro rest stops
    rw [List.cons_append, level?_negation_of_spellsNot eof (negates_iff.mpr spells), ih rest stops]
    rfl
  | plain inner ih =>
    intro rest stops
    obtain ⟨first, us, rfl, begins⟩ := exists_first_of_derives inner _ rfl
    have plain := begins.negates_eq_false (by decide)
    rw [level?_negation eof (first :: us ++ rest) (by simpa using plain),
      ih.level?_eq (stops.mono (by decide))]
  | signed spells _ ih =>
    intro rest stops
    rw [List.cons_append, level?_sign_of_some eof (signOp?_eq_some_iff.mpr spells), ih rest stops]
    rfl
  | unsigned inner ih =>
    intro rest stops
    obtain ⟨first, us, rfl, begins⟩ := exists_first_of_derives inner _ rfl
    have unsigned := begins.signOp?_eq_none (by decide)
    rw [level?_sign_of_none eof (first :: us ++ rest) (by simpa using unsigned),
      ih rest (stops.mono (by decide))]
  | base _ ih =>
    intro rest stops
    rw [level?_power, ih rest (stops.mono (by decide)), Option.bind_some]
    simp only [stops.power (Nat.le_refl _)]
  | @raised p a b ls rs _ star _ ihl ihr =>
    intro rest stops
    -- no tier lies between powers and signs, so an exponent stops where its power does
    have stops' : Stops .sign rest :=
      ⟨fun t ht => by cases t <;> exact absurd ht (by decide), fun _ => stops.power (by decide),
        stops.paren⟩
    rw [level?_power, List.append_assoc, List.cons_append, ihl _ (.of_doubleStar star _),
      Option.bind_some]
    simp only [punctuator?_cons star, ihr rest stops', Option.map_some]
  | literal spells =>
    intro rest _
    exact level?_primary_of_literal eof (literal?_eq_some_iff.mpr spells) rest
  | reference named =>
    intro rest stops
    rw [List.singleton_append, level?_primary_of_name eof named, stops.paren]
  | @call t opening closing name es ts named opens _ closes ih =>
    intro rest _
    rw [List.cons_append, List.cons_append, List.append_assoc, List.singleton_append,
      level?_primary_of_name eof named, punctuator?_cons opens]
    simp only [ih closing rest closes, Option.map_some]
  | @parens opening closing e ts opens _ closes ih =>
    intro rest _
    rw [List.cons_append, List.append_assoc, List.singleton_append,
      level?_primary_of_paren eof opens, ih.level?_eq (.of_closing closes (by decide) _ _),
      Option.bind_some]
    simp only [punctuator?_cons closes, Option.map_some]
  | noArguments =>
    intro closing rest closes
    rw [List.nil_append, arguments?_eq, punctuator?_cons closes]
  | someArguments inner ih =>
    intro closing rest closes
    obtain ⟨first, us, rfl, begins⟩ := exists_first_of_derives inner _ rfl
    have opened : punctuator? .rightParen (first :: (us ++ closing :: rest)) = none := by
      refine if_neg fun hk => ?_
      exact absurd (hk ▸ begins).mem_of_punctuator (by decide)
    rw [arguments?_eq, List.cons_append, opened]
    exact ih closing rest closes
  | last _ ih =>
    intro closing rest closes
    have ended : punctuator? .comma (closing :: rest) = none := by
      rw [punctuator?, closes, if_neg]
      rintro ⟨⟩
    rw [list?_eq, ih.level?_eq (.of_closing closes (by decide) _ _), Option.bind_some]
    simp only [ended, punctuator?_cons closes, Option.map_some]
  | @more comma e es ts us _ separates _ ihl ihr =>
    intro closing rest closes
    rw [list?_eq, List.append_assoc, List.cons_append,
      ihl.level?_eq (.of_closing separates (by decide) _ _), Option.bind_some]
    simp only [punctuator?_cons separates, ihr closing rest closes, Option.map_some]

/-- The parser reads a derivation to its end. -/
theorem level?_of_derives (eof : Location) {l : Level} {e : Expr} {ts rest : List Token}
    (h : Derives (.level l e) ts) (stops : Stops l rest) :
    level? eof l (ts ++ rest) = some (e, rest) :=
  (isRead_of_derives eof h).level?_eq stops

end StepScript
