import StepScript.Proofs.KindsOnly

/-!
# What a failed reading blames

A reading fails at a token or at the end of the text.  The tokens before that place are always the
beginning of something that could have been read: whatever the parser is in the middle of, it has
seen the beginning of a derivation, which a few tokens bring to an end.

## Main definitions

* `Attempt`, `readLevel`, `readStatement` — what the parser gives back, without its measures.
* `Completable` — the tokens begin a derivation.
* `Blames` — the error is about a certain token, or the end, and the tokens before it can be
  completed.

## Main results

* `readLevel_tier` and its companions — the equations of the parser, one for each branch.
* `blames_of_readLevel` — expressions blame a place up to which they can be completed.
* `blames_of_parseStatements` — so do scripts.
-/

namespace StepScript

/-! ### Readings without measures -/

/-- Something read, with the tokens behind it, or an error. -/
abbrev Attempt (α : Type) :=
  Except Failure (α × List Token)

/-- A reading without its measure. -/
def attempt {α : Type} {n : Nat} : ParseResult α n → Attempt α
  | .ok parsed => .ok (parsed.value, parsed.rest)
  | .error failure => .error failure

/-- Reads an expression of a level. -/
def readLevel (eof : Location) (l : Level) (ts : List Token) : Attempt Expr :=
  attempt (parseLevel eof l ts)

/-- Reads on with a chain. -/
def readChain (eof : Location) (t : Tier) (left : Expr) (ts : List Token) : Attempt Expr :=
  match parseChain eof t left ts with
  | .ok (e, ⟨rest, _⟩) => .ok (e, rest)
  | .error failure => .error failure

/-- Reads the arguments of a call and the closing parenthesis. -/
def readArguments (eof : Location) (ts : List Token) : Attempt (List Expr) :=
  attempt (parseArguments eof ts)

/-- Reads one argument or more and the closing parenthesis. -/
def readList (eof : Location) (ts : List Token) : Attempt (List Expr) :=
  attempt (parseArgumentList eof ts)

/-- Reads a certain sign. -/
def readSign (eof : Location) (sign : Punctuator) (x : Expectation) (ts : List Token) :
    Attempt Token :=
  attempt (parseSign eof sign x ts)

/-- Reads an expression and the sign behind it. -/
def readClosed (eof : Location) (sign : Punctuator) (x : Expectation) (ts : List Token) :
    Attempt (Expr × Location) :=
  attempt (parseClosed eof sign x ts)

/-- Reads a statement. -/
def readStatement (eof : Location) (ts : List Token) : Attempt Statement :=
  attempt (parseStatement eof ts)

theorem reading?_eq_some_iff {α : Type} {n : Nat} {result : ParseResult α n} {a : α}
    {rest : List Token} : reading? result = some (a, rest) ↔ attempt result = .ok (a, rest) := by
  cases result with
  | ok parsed => simp [reading?, attempt]
  | error failure => simp [reading?, attempt]

theorem level?_eq_some_iff {eof : Location} {l : Level} {ts rest : List Token} {e : Expr} :
    level? eof l ts = some (e, rest) ↔ readLevel eof l ts = .ok (e, rest) :=
  reading?_eq_some_iff

theorem bind_eq_error_iff {α β : Type} {x : Attempt α} {f : α × List Token → Attempt β}
    {failure : Failure} : x.bind f = .error failure ↔
      x = .error failure ∨ ∃ a rest, x = .ok (a, rest) ∧ f (a, rest) = .error failure := by
  rcases x with failure' | ⟨a, rest⟩
  · constructor
    · rintro ⟨⟩
      exact .inl rfl
    · rintro (⟨⟨⟩⟩ | ⟨_, _, h, -⟩)
      · rfl
      · cases h
  · refine ⟨fun h => .inr ⟨a, rest, rfl, h⟩, ?_⟩
    rintro (h | ⟨_, _, ⟨⟩, h⟩)
    · cases h
    · exact h

section Equations

variable (eof : Location)

theorem readLevel_tier (t : Tier) (ts : List Token) :
    readLevel eof (.tier t) ts =
      (readLevel eof t.operand ts).bind fun (left, rest) => readChain eof t left rest := by
  simp only [readLevel, readChain]
  rw [parseLevel]
  rcases parseLevel eof t.operand ts with _ | ⟨left, rest, shorter⟩
  · rfl
  dsimp only [attempt, Except.bind]
  rcases parseChain eof t left rest with _ | ⟨e, rest, h⟩ <;> rfl

theorem readChain_of_none {t : Tier} {ts : List Token} (left : Expr) (h : t.operator? ts = none) :
    readChain eof t left ts = .ok (left, ts) := by
  rw [readChain, parseChain_of_none left h]

theorem readChain_of_some {t : Tier} {ts rest : List Token} {op : BinaryOp} (left : Expr)
    (h : t.operator? ts = some (op, rest)) :
    readChain eof t left ts =
      (readLevel eof t.operand rest).bind fun (right, rest) =>
        readChain eof t (.binary op left right) rest := by
  simp only [readChain, readLevel]
  rw [parseChain_of_some left h]
  rcases parseLevel eof t.operand rest with _ | ⟨right, rest, shorter⟩
  · rfl
  dsimp only [attempt, Except.bind]
  rcases parseChain eof t (.binary op left right) rest with _ | ⟨e, rest, h⟩ <;> rfl

theorem readLevel_negation_of_negates {t : Token} (spells : t.negates = true) (ts : List Token) :
    readLevel eof .negation (t :: ts) =
      (readLevel eof .negation ts).bind fun (e, rest) => .ok (.unary .not e, rest) := by
  simp only [readLevel]
  rw [parseLevel.eq_def]
  simp only [spells, if_true]
  rcases parseLevel eof .negation ts with _ | ⟨e, rest, shorter⟩ <;> rfl

theorem readLevel_negation {ts : List Token} (spells : ∀ t ∈ ts.head?, t.negates = false) :
    readLevel eof .negation ts = readLevel eof (.tier .comparison) ts := by
  simp only [readLevel]
  rw [parseLevel.eq_def]
  cases ts with
  | nil => rfl
  | cons t ts => simp [spells t rfl]

theorem readLevel_sign_of_some {t : Token} {op : UnaryOp} (spells : t.signOp? = some op)
    (ts : List Token) :
    readLevel eof .sign (t :: ts) =
      (readLevel eof .sign ts).bind fun (e, rest) => .ok (.unary op e, rest) := by
  simp only [readLevel]
  rw [parseLevel.eq_def]
  simp only [spells]
  rcases parseLevel eof .sign ts with _ | ⟨e, rest, shorter⟩ <;> rfl

theorem readLevel_sign {ts : List Token} (spells : ∀ t ∈ ts.head?, t.signOp? = none) :
    readLevel eof .sign ts = readLevel eof .power ts := by
  simp only [readLevel]
  rw [parseLevel.eq_def]
  cases ts with
  | nil => rfl
  | cons t ts => simp only [spells t rfl]

/-- Reads the exponent behind a base, if there is one. -/
def readExponent (base : Expr) (ts : List Token) : Attempt Expr :=
  match punctuator? .doubleStar ts with
  | none => .ok (base, ts)
  | some (_, rest) =>
    (readLevel eof .sign rest).bind fun (e, rest) => .ok (.binary .power base e, rest)

theorem readLevel_power (ts : List Token) :
    readLevel eof .power ts =
      (readLevel eof .primary ts).bind fun (base, rest) => readExponent eof base rest := by
  simp only [readLevel, readExponent]
  rw [parseLevel.eq_def]
  rcases parseLevel eof .primary ts with _ | ⟨base, _ | ⟨t, rest⟩, shorter⟩
  · rfl
  · rfl
  by_cases star : t.kind = .punctuator .doubleStar
  · simp only [attempt, punctuator?, Except.bind, star, if_true]
    rcases parseLevel eof .sign rest with _ | ⟨e, rest, shorter⟩ <;> rfl
  · simp only [attempt, punctuator?, Except.bind, star, if_false]

theorem readLevel_primary_nil :
    readLevel eof .primary [] = .error ⟨.endOfFile .expression eof, []⟩ := by
  rw [readLevel, parseLevel.eq_def]
  rfl

theorem readLevel_primary_of_literal {t : Token} {v : Value} (spells : t.literal? = some v)
    (ts : List Token) : readLevel eof .primary (t :: ts) = .ok (.literal v, ts) := by
  rw [readLevel, parseLevel.eq_def]
  simp only [spells]
  rfl

/-- Reads the arguments behind a name, if there are any. -/
def readCall (name : String) (ts : List Token) : Attempt Expr :=
  match punctuator? .leftParen ts with
  | none => .ok (.reference name, ts)
  | some (_, rest) => (readArguments eof rest).bind fun (es, rest) => .ok (.call name es, rest)

theorem readLevel_primary_of_name {t : Token} {name : String} (named : t.kind = .identifier name)
    (ts : List Token) : readLevel eof .primary (t :: ts) = readCall eof name ts := by
  have literal : t.literal? = none := by rw [Token.literal?, named]
  rw [readLevel, parseLevel.eq_def]
  simp only [literal, named, readCall]
  cases ts with
  | nil => rfl
  | cons u ts =>
    by_cases opens : u.kind = .punctuator .leftParen
    · simp only [punctuator?, opens, if_true, readArguments]
      rcases parseArguments eof ts with _ | ⟨es, rest, shorter⟩ <;> rfl
    · simp only [punctuator?, opens, if_false]
      rfl

theorem readLevel_primary_of_paren {t : Token} (opens : t.kind = .punctuator .leftParen)
    (ts : List Token) :
    readLevel eof .primary (t :: ts) =
      (readLevel eof (.tier .disjunction) ts).bind fun (e, rest) =>
        (readSign eof .rightParen .closingParen rest).bind fun (_, rest) => .ok (e, rest) := by
  have literal : t.literal? = none := by rw [Token.literal?, opens]
  simp only [readLevel, readSign]
  rw [parseLevel.eq_def]
  simp only [literal, opens]
  rcases parseLevel eof (.tier .disjunction) ts with _ | ⟨e, rest, shorter⟩
  · rfl
  dsimp only [attempt, Except.bind]
  rcases parseSign eof .rightParen .closingParen rest with _ | ⟨t, rest, shorter'⟩ <;> rfl

theorem readLevel_primary_of_other {t : Token} (literal : t.literal? = none)
    (name : ∀ name, t.kind ≠ .identifier name) (paren : t.kind ≠ .punctuator .leftParen)
    (ts : List Token) : readLevel eof .primary (t :: ts) = .error ⟨.unknownStart t, ts⟩ := by
  rw [readLevel, parseLevel.eq_def]
  simp only [literal]
  rfl

theorem readArguments_eq (ts : List Token) :
    readArguments eof ts =
      match punctuator? .rightParen ts with
      | none => readList eof ts
      | some (_, rest) => .ok ([], rest) := by
  rw [readArguments, parseArguments.eq_def]
  cases ts with
  | nil => rfl
  | cons t ts =>
    by_cases closes : t.kind = .punctuator .rightParen
    · simp only [punctuator?, closes, if_true]
      rfl
    · simp only [punctuator?, closes, if_false]
      rfl

/-- Reads what is behind an argument. -/
def readOthers (e : Expr) (ts : List Token) : Attempt (List Expr) :=
  match punctuator? .comma ts with
  | none => (readSign eof .rightParen .commaOrParen ts).bind fun (_, rest) => .ok ([e], rest)
  | some (_, rest) => (readList eof rest).bind fun (es, rest) => .ok (e :: es, rest)

theorem readList_eq (ts : List Token) :
    readList eof ts =
      (readLevel eof (.tier .disjunction) ts).bind fun (e, rest) => readOthers eof e rest := by
  simp only [readList, readLevel, readOthers, readSign]
  rw [parseArgumentList]
  rcases parseLevel eof (.tier .disjunction) ts with _ | ⟨e, _ | ⟨t, rest⟩, shorter⟩
  · rfl
  · rfl
  by_cases separates : t.kind = .punctuator .comma
  · simp only [attempt, punctuator?, Except.bind, separates, if_true]
    rcases parseArgumentList eof rest with _ | ⟨es, rest, shorter⟩ <;> rfl
  by_cases closes : t.kind = .punctuator .rightParen
  · simp [attempt, punctuator?, parseSign, Except.bind, closes]
  · simp [attempt, punctuator?, parseSign, Except.bind, separates, closes]

theorem readClosed_eq (sign : Punctuator) (x : Expectation) (ts : List Token) :
    readClosed eof sign x ts =
      (readLevel eof (.tier .disjunction) ts).bind fun (e, rest) =>
        (readSign eof sign x rest).bind fun (t, rest) => .ok ((e, t.span.stop), rest) := by
  simp only [readClosed, readLevel, readSign]
  rw [parseClosed, parseExpression]
  rcases parseLevel eof (.tier .disjunction) ts with _ | ⟨e, rest, shorter⟩
  · rfl
  dsimp only [attempt, Except.bind]
  rcases parseSign eof sign x rest with _ | ⟨t, rest, shorter'⟩ <;> rfl

/-- A statement made of an expression and the end of the sign behind it. -/
def finished (start : Location) (make : Expr → StatementKind)
    (inner : Attempt (Expr × Location)) : Attempt Statement :=
  inner.bind fun ((e, stop), rest) => .ok (⟨make e, ⟨start, stop⟩⟩, rest)

theorem attempt_closedStatement {n m : Nat} (start : Location) (make : Expr → StatementKind)
    (wider : ∀ k, k < n → k < m) (result : ParseResult (Expr × Location) n) :
    attempt (closedStatement start make wider result) = finished start make (attempt result) := by
  rcases result with _ | ⟨⟨e, stop⟩, rest, shorter⟩ <;> rfl

section

variable {t : Token} {ts : List Token}

theorem readStatement_of_brace (closes : t.kind = .punctuator .rightBrace) :
    readStatement eof (t :: ts) = .ok (⟨.blockEnd, t.span⟩, ts) := by
  rw [readStatement, parseStatement, if_pos closes]
  rfl

theorem readStatement_of_block {block : BlockKind} (brace : t.kind ≠ .punctuator .rightBrace)
    (opens : t.opens? = some block) :
    readStatement eof (t :: ts) = finished t.span.start (.header block)
      (readClosed eof .leftBrace .braceAfterHeader ts) := by
  rw [readStatement, parseStatement_of_block brace opens, attempt_closedStatement, readClosed]

theorem readStatement_of_assignee {name : String} {rest : List Token}
    (brace : t.kind ≠ .punctuator .rightBrace) (block : t.opens? = none)
    (assigns : assignee? (t :: ts) = some (name, rest)) :
    readStatement eof (t :: ts) = finished t.span.start (.assignment name)
      (readClosed eof .semicolon .semicolonAfterAssignment rest) := by
  rw [readStatement, parseStatement_of_assignee brace block assigns, attempt_closedStatement,
    readClosed]

theorem readStatement_of_expression (brace : t.kind ≠ .punctuator .rightBrace)
    (block : t.opens? = none) (assigns : assignee? (t :: ts) = none) :
    readStatement eof (t :: ts) = finished t.span.start .expression
      (readClosed eof .semicolon .semicolonAfterExpression (t :: ts)) := by
  rw [readStatement, parseStatement_of_expression brace block assigns, attempt_closedStatement,
    readClosed]

end

end Equations

/-! ### Completions -/

/-- The tokens begin a phrase of the given form. -/
def Completable {α : Type} (phrase : α → Phrase) (ts : List Token) : Prop :=
  ∃ more a, Derives (phrase a) (ts ++ more)

/-- A token that stands nowhere in particular. -/
def Token.anywhere (kind : TokenKind) : Token :=
  ⟨kind, default⟩

theorem Completable.map {α β : Type} {phrase : α → Phrase} {phrase' : β → Phrase}
    {before ts : List Token} (h : Completable phrase ts) (make : α → β) (after : List Token)
    (wrap : ∀ us a, Derives (phrase a) us → Derives (phrase' (make a)) (before ++ (us ++ after))) :
    Completable phrase' (before ++ ts) := by
  obtain ⟨more, a, d⟩ := h
  exact ⟨more ++ after, make a, by simpa using wrap _ a d⟩

/-- Every expression can begin with a primary one, so that nothing is its beginning. -/
theorem completable_primary_nil : Completable (.level .primary) [] :=
  ⟨[.anywhere (.keyword .nothing)], _, .literal .nothing⟩

/-- The error is about a certain token. -/
inductive Names : ParseError → Token → Prop
  | expected (x : Expectation) (t : Token) : Names (.expected x t) t
  | unknownStart (t : Token) : Names (.unknownStart t) t

/-- The failure is about one of the tokens or about their end, and the tokens before that place are
viable. -/
inductive Blames (eof : Location) (viable : List Token → Prop) (ts : List Token) : Failure → Prop
  /-- The tokens end too early. -/
  | ending (x : Expectation) (h : viable ts) : Blames eof viable ts ⟨.endOfFile x eof, []⟩
  /-- A token is wrong. -/
  | token {error : ParseError} {before rest : List Token} {t : Token} (names : Names error t)
    (split : ts = before ++ t :: rest) (h : viable before) : Blames eof viable ts ⟨error, rest⟩

/-- A failure inside of something larger. -/
theorem Blames.within {eof : Location} {viable viable' : List Token → Prop} {ts : List Token}
    {failure : Failure} (h : Blames eof viable ts failure) (used : List Token)
    (wider : ∀ us, viable us → viable' (used ++ us)) : Blames eof viable' (used ++ ts) failure := by
  cases h with
  | ending x h => exact .ending x (wider _ h)
  | token names split h => exact .token names (by rw [split, List.append_assoc]) (wider _ h)

/-- A failure inside of a larger phrase. -/
theorem Blames.inside {α β : Type} {phrase : α → Phrase} {phrase' : β → Phrase} {eof : Location}
    {ts : List Token} {failure : Failure} (h : Blames eof (Completable phrase) ts failure)
    (before after : List Token) (make : α → β)
    (wrap : ∀ us a, Derives (phrase a) us → Derives (phrase' (make a)) (before ++ (us ++ after))) :
    Blames eof (Completable phrase') (before ++ ts) failure :=
  h.within before fun _ inner => inner.map make after wrap

/-- A failure of what makes up a phrase by itself. -/
theorem Blames.alone {α β : Type} {phrase : α → Phrase} {phrase' : β → Phrase} {eof : Location}
    {ts : List Token} {failure : Failure} (h : Blames eof (Completable phrase) ts failure)
    (make : α → β) (wrap : ∀ us a, Derives (phrase a) us → Derives (phrase' (make a)) us) :
    Blames eof (Completable phrase') ts failure :=
  h.inside [] [] make fun us a d => by simpa using wrap us a d

theorem blames_of_readSign {eof : Location} {sign : Punctuator} {x : Expectation} {ts : List Token}
    {failure : Failure} (h : readSign eof sign x ts = .error failure) :
    Blames eof (· = []) ts failure := by
  cases ts with
  | nil =>
    cases h
    exact .ending x rfl
  | cons t rest =>
    rw [readSign, parseSign] at h
    split at h
    · cases h
    · cases h
      exact .token (.expected x t) (List.nil_append _).symm rfl

/-- A sign is missing behind some tokens. -/
theorem blames_missing {eof : Location} {sign : Punctuator} {x : Expectation} {ts used : List Token}
    {failure : Failure} {viable : List Token → Prop} (h : readSign eof sign x ts = .error failure)
    (complete : viable used) : Blames eof viable (used ++ ts) failure := by
  refine (blames_of_readSign h).within used ?_
  rintro us rfl
  rwa [List.append_nil]

/-! ### Expressions -/

mutual

/-- **A failed expression blames a place up to which it can be completed.** -/
theorem blames_of_readLevel (eof : Location) (l : Level) (ts : List Token) {failure : Failure}
    (h : readLevel eof l ts = .error failure) :
    Blames eof (Completable (.level l)) ts failure := by
  -- what was read before the failure is the beginning of one rule of the grammar, and the rule says
  -- how to go on
  match l, ts, h with
  | .tier t, ts, h =>
    have tighter := t.rank_operand_lt
    rw [readLevel_tier, bind_eq_error_iff] at h
    obtain h | ⟨left, rest, hl, h⟩ := h
    · have blames := blames_of_readLevel eof t.operand ts h
      exact blames.alone id fun _ _ => .operand (chains_iff.mpr rfl)
    · have shorter : rest.length < ts.length := length_lt_of_reading? (level?_eq_some_iff.mpr hl)
      obtain ⟨ls, hls, d⟩ := derives_of_level? eof t.operand ts (level?_eq_some_iff.mpr hl)
      rw [hls]
      exact blames_of_readChain eof t rest (.operand (chains_iff.mpr rfl) d) h
  | .negation, [], h =>
    rw [readLevel_negation eof (by simp)] at h
    exact (blames_of_readLevel eof (.tier .comparison) [] h).alone id fun _ _ => .plain
  | .negation, t :: us, h =>
    by_cases spells : t.negates = true
    · rw [readLevel_negation_of_negates eof spells, bind_eq_error_iff] at h
      obtain h | ⟨e, rest, -, h⟩ := h
      · exact (blames_of_readLevel eof .negation us h).inside [t] [] (.unary .not) fun us e d => by
          simpa using .negated (negates_iff.mp spells) d
      · cases h
    · rw [readLevel_negation eof (by simpa using spells)] at h
      exact (blames_of_readLevel eof (.tier .comparison) (t :: us) h).alone id fun _ _ => .plain
  | .sign, [], h =>
    rw [readLevel_sign eof (by simp)] at h
    exact (blames_of_readLevel eof .power [] h).alone id fun _ _ => .unsigned
  | .sign, t :: us, h =>
    match spells : t.signOp? with
    | some op =>
      rw [readLevel_sign_of_some eof spells, bind_eq_error_iff] at h
      obtain h | ⟨e, rest, -, h⟩ := h
      · exact (blames_of_readLevel eof .sign us h).inside [t] [] (.unary op) fun us e d => by
          simpa using .signed (signOp?_eq_some_iff.mp spells) d
      · cases h
    | none =>
      rw [readLevel_sign eof (by simpa using spells)] at h
      exact (blames_of_readLevel eof .power (t :: us) h).alone id fun _ _ => .unsigned
  | .power, ts, h =>
    rw [readLevel_power, bind_eq_error_iff] at h
    obtain h | ⟨base, rest, hb, h⟩ := h
    · exact (blames_of_readLevel eof .primary ts h).alone id fun _ _ => .base
    · have shorter : rest.length < ts.length := length_lt_of_reading? (level?_eq_some_iff.mpr hb)
      obtain ⟨ls, hls, d⟩ := derives_of_level? eof .primary ts (level?_eq_some_iff.mpr hb)
      dsimp only [readExponent] at h
      split at h
      · cases h
      · rename_i star us hstar
        obtain ⟨rfl, raises⟩ := punctuator?_eq_some_iff.mp hstar
        obtain h | ⟨e, rest, -, h⟩ := bind_eq_error_iff.mp h
        · have shorter' : us.length < ts.length := by simp at shorter; omega
          rw [hls, List.append_cons]
          have blames := blames_of_readLevel eof .sign us h
          exact blames.inside (ls ++ [star]) [] (.binary .power base) fun us e d' => by
            simpa using .raised d raises d'
        · cases h
  | .primary, [], h =>
    rw [readLevel_primary_nil] at h
    cases h
    exact .ending .expression completable_primary_nil
  | .primary, t :: us, h =>
    match literal : t.literal? with
    | some v =>
      rw [readLevel_primary_of_literal eof literal] at h
      cases h
    | none =>
      by_cases name : ∃ name, t.kind = .identifier name
      · obtain ⟨name, named⟩ := name
        rw [readLevel_primary_of_name eof named, readCall] at h
        split at h
        · cases h
        · rename_i opening vs hopen
          obtain ⟨hus, opens⟩ := punctuator?_eq_some_iff.mp hopen
          have shorter : vs.length < us.length := by simp [hus]
          obtain h | ⟨es, rest, -, h⟩ := bind_eq_error_iff.mp h
          · let closing : Token := .anywhere (.punctuator .rightParen)
            rw [hus]
            have blames := blames_of_readArguments eof vs h
            exact blames.inside [t, opening] [closing] (.call name) fun us es d =>
              .call named opens d rfl
          · cases h
      by_cases opens : t.kind = .punctuator .leftParen
      · let closing : Token := .anywhere (.punctuator .rightParen)
        rw [readLevel_primary_of_paren eof opens, bind_eq_error_iff] at h
        obtain h | ⟨e, rest, he, h⟩ := h
        · have blames := blames_of_readLevel eof (.tier .disjunction) us h
          exact blames.inside [t] [closing] id fun us e d => .parens opens d rfl
        · obtain ⟨used, hused, d⟩ := derives_of_level? eof _ us (level?_eq_some_iff.mpr he)
          obtain h | ⟨closing', rest', -, h⟩ := bind_eq_error_iff.mp h
          · rw [hused, ← List.cons_append]
            exact blames_missing h ⟨[closing], e, .parens opens d rfl⟩
          · cases h
      · have name : ∀ name, t.kind ≠ .identifier name := fun n named => name ⟨n, named⟩
        rw [readLevel_primary_of_other eof literal name opens] at h
        cases h
        exact .token (.unknownStart t) (List.nil_append _).symm completable_primary_nil
termination_by (ts.length, l.rank)
decreasing_by all_goals first
  | (apply Prod.Lex.right; first | exact tighter | decide)
  | (apply Prod.Lex.left; simp only [List.length_cons]; omega)
  | (apply Prod.Lex.left; omega)

theorem blames_of_readChain (eof : Location) (t : Tier) (ts : List Token) {left : Expr}
    {ls : List Token} (dl : Derives (.level (.tier t) left) ls) {failure : Failure}
    (h : readChain eof t left ts = .error failure) :
    Blames eof (Completable (.level (.tier t))) (ls ++ ts) failure := by
  match hop : t.operator? ts with
  | none =>
    rw [readChain_of_none eof left hop] at h
    cases h
  | some (op, us) =>
    have shorter := Tier.length_rest_lt_of_operator? hop
    obtain ⟨ops, hops, spells⟩ := spells_of_operator? hop
    rw [readChain_of_some eof left hop, bind_eq_error_iff] at h
    obtain h | ⟨right, rest, hr, h⟩ := h
    · rw [hops, ← List.append_assoc]
      have blames := blames_of_readLevel eof t.operand us h
      exact blames.inside (ls ++ ops) [] (.binary op left) fun us e d => by
        simpa using .chain (chains_iff.mpr rfl) dl spells d
    · have hr := level?_eq_some_iff.mpr hr
      have shorter' : rest.length < us.length := length_lt_of_reading? hr
      obtain ⟨rs, hrs, dr⟩ := derives_of_level? eof t.operand us hr
      -- the chain so far is the left end of what follows
      have longer := Derives.chain (chains_iff.mpr rfl) dl spells dr
      have blames := blames_of_readChain eof t rest longer h
      simpa [hops, hrs] using blames
termination_by (ts.length, 0)
decreasing_by all_goals (apply Prod.Lex.left; omega)

theorem blames_of_readArguments (eof : Location) (ts : List Token) {failure : Failure}
    (h : readArguments eof ts = .error failure) :
    Blames eof (Completable .arguments) ts failure := by
  rw [readArguments_eq] at h
  split at h
  · exact (blames_of_readList eof ts h).alone id fun _ _ => .someArguments
  · cases h
termination_by (ts.length, 12)
decreasing_by all_goals (apply Prod.Lex.right; decide)

theorem blames_of_readList (eof : Location) (ts : List Token) {failure : Failure}
    (h : readList eof ts = .error failure) : Blames eof (Completable .list) ts failure := by
  rw [readList_eq, bind_eq_error_iff] at h
  obtain h | ⟨e, rest, he, h⟩ := h
  · exact (blames_of_readLevel eof (.tier .disjunction) ts h).alone (fun e => [e]) fun _ _ => .last
  · have he := level?_eq_some_iff.mpr he
    have shorter : rest.length < ts.length := length_lt_of_reading? he
    obtain ⟨used, hused, d⟩ := derives_of_level? eof (.tier .disjunction) ts he
    dsimp only [readOthers] at h
    split at h
    · rw [bind_eq_error_iff] at h
      obtain h | ⟨closing, rest', -, h⟩ := h
      · rw [hused]
        exact blames_missing h ⟨[], [e], by simpa using .last d⟩
      · cases h
    · rename_i comma us hcomma
      obtain ⟨rfl, separates⟩ := punctuator?_eq_some_iff.mp hcomma
      have shorter' : us.length < ts.length := by simp at shorter; omega
      obtain h | ⟨es, rest', -, h⟩ := bind_eq_error_iff.mp h
      · rw [hused, List.append_cons]
        exact (blames_of_readList eof us h).inside (used ++ [comma]) [] (e :: ·) fun us es d' => by
          simpa using .more d separates d'
      · cases h
termination_by (ts.length, 11)
decreasing_by all_goals first
  | (apply Prod.Lex.right; decide)
  | (apply Prod.Lex.left; omega)

end

/-! ### Statements -/

/-- Tokens that lack something to be a statement. -/
def UnfinishedStatement (ts : List Token) : Prop :=
  ∃ more kind, more ≠ [] ∧ DerivesKind (ts ++ more) kind

/-- Tokens that lack something to be a script. -/
def UnfinishedScript (ts : List Token) : Prop :=
  ∃ more statements, more ≠ [] ∧ DerivesScript (ts ++ more) statements

theorem blames_of_readClosed {eof : Location} {sign : Punctuator} {x : Expectation}
    {ts : List Token} {failure : Failure} (h : readClosed eof sign x ts = .error failure) :
    Blames eof (Completable (.level (.tier .disjunction))) ts failure := by
  rw [readClosed_eq, bind_eq_error_iff] at h
  obtain h | ⟨e, rest, he, h⟩ := h
  · exact blames_of_readLevel eof _ ts h
  · obtain ⟨used, rfl, d⟩ := derives_of_level? eof _ ts (level?_eq_some_iff.mpr he)
    obtain h | ⟨last, rest', -, h⟩ := bind_eq_error_iff.mp h
    · exact blames_missing h ⟨[], e, by simpa using d⟩
    · cases h

theorem finished_eq_error_iff {start : Location} {make : Expr → StatementKind}
    {inner : Attempt (Expr × Location)} {failure : Failure} :
    finished start make inner = .error failure ↔ inner = .error failure := by
  rw [finished, bind_eq_error_iff]
  refine ⟨fun h => h.elim id ?_, .inl⟩
  rintro ⟨_, _, -, h⟩
  cases h

/-- A statement that begins with some tokens and goes on with an expression can be finished. -/
theorem unfinished_of_completable {before ts last : List Token} {make : Expr → StatementKind}
    (missing : last ≠ []) (h : Completable (.level (.tier .disjunction)) ts)
    (wrap : ∀ us e, Derives (.level (.tier .disjunction) e) us →
      DerivesKind (before ++ (us ++ last)) (make e)) : UnfinishedStatement (before ++ ts) := by
  obtain ⟨more, e, d⟩ := h
  refine ⟨more ++ last, make e, by simp [missing], ?_⟩
  simpa using wrap _ e d

/-- **A failed statement blames a place up to which it can be finished.** -/
theorem blames_of_readStatement {eof : Location} {t : Token} {us : List Token} {failure : Failure}
    (h : readStatement eof (t :: us) = .error failure) :
    Blames eof UnfinishedStatement (t :: us) failure := by
  by_cases brace : t.kind = .punctuator .rightBrace
  · rw [readStatement_of_brace eof brace] at h
    cases h
  let opening : Token := .anywhere (.punctuator .leftBrace)
  let semicolon : Token := .anywhere (.punctuator .semicolon)
  match block : t.opens?, assigns : assignee? (t :: us) with
  | some block', _ =>
    rw [readStatement_of_block eof brace block, finished_eq_error_iff] at h
    refine (blames_of_readClosed h).within [t] fun us inner => ?_
    exact unfinished_of_completable (List.cons_ne_nil opening []) inner fun us e d =>
      .header (opens?_eq_some_iff.mp block) d rfl
  | none, some (name, vs) =>
    rw [readStatement_of_assignee eof brace block assigns, finished_eq_error_iff] at h
    obtain ⟨target, sign, hts, named, assigns⟩ := assignee?_eq_some_iff.mp assigns
    rw [hts]
    refine (blames_of_readClosed h).within [target, sign] fun us inner => ?_
    exact unfinished_of_completable (List.cons_ne_nil semicolon []) inner fun us e d =>
      .assignment named assigns d rfl
  | none, none =>
    rw [readStatement_of_expression eof brace block assigns, finished_eq_error_iff] at h
    refine (blames_of_readClosed h).within [] fun us inner => ?_
    exact unfinished_of_completable (List.cons_ne_nil semicolon []) inner fun us e d =>
      .expression d rfl

theorem derivesStatement_of_derivesKind {ts : List Token} {kind : StatementKind}
    (h : DerivesKind ts kind) : ∃ s, DerivesStatement ts s := by
  have nonempty : ts ≠ [] := by cases h <;> simp
  exact ⟨⟨kind, ⟨(ts.head nonempty).span.start, (ts.getLast nonempty).span.stop⟩⟩, h,
    _, List.head?_eq_some_head nonempty, _, List.getLast?_eq_some_getLast nonempty, rfl⟩

/-- **A script that is not read blames a place up to which it can be finished.** -/
theorem blames_of_parseStatements {eof : Location} {done : List Statement} {ts : List Token}
    {failure : Failure} (h : parseStatements eof done ts = .error failure) :
    Blames eof UnfinishedScript ts failure := by
  fun_induction parseStatements eof done ts with
  | case1 => cases h
  | case2 done ts nonempty failure' hp =>
    cases h
    obtain ⟨t, us, rfl⟩ : ∃ t us, ts = t :: us := by
      cases ts with
      | nil => exact absurd rfl nonempty
      | cons t us => exact ⟨t, us, rfl⟩
    have hs : readStatement eof (t :: us) = .error failure := by rw [readStatement, hp]; rfl
    refine (blames_of_readStatement hs).within [] fun us inner => ?_
    obtain ⟨more, kind, missing, d⟩ := inner
    obtain ⟨s, d⟩ := derivesStatement_of_derivesKind d
    exact ⟨more, [s], missing, by simpa using DerivesScript.cons d .nil⟩
  | case3 done ts _ s rest shorter hp ih =>
    have hs : statement? eof ts = some (s, rest) := by rw [statement?, hp]; rfl
    obtain ⟨used, rfl, d⟩ := statement?_eq_some_iff.mp hs
    refine (ih h).within used fun us inner => ?_
    obtain ⟨more, statements, missing, ds⟩ := inner
    exact ⟨more, s :: statements, missing, by simpa using DerivesScript.cons d ds⟩

end StepScript
