import StepScript.Proofs.Parsing

/-!
# Reading whole texts

Statements are told apart by their first tokens, and each of them ends with a sign that no
expression holds.  So the statements that the parser reads are those of the grammar, and with
them scripts; a text that holds one expression may end with a semicolon.

## Main definitions

* `closed?`, `statement?` — what the parser reads, without its measures and errors.

## Main results

* `statement?_eq_some_iff`, `parseStatements_eq_ok_iff` — the parser reads statements exactly.
* `parser_accepts_exactly_grammar` — the parser on texts.
-/

namespace StepScript

/-! ### Expressions with a sign behind them -/

/-- An expression and the end of the sign behind it. -/
def closed? (eof : Location) (sign : Punctuator) (ts : List Token) :
    Option ((Expr × Location) × List Token) :=
  (level? eof (.tier .disjunction) ts).bind fun (e, rest) =>
    (punctuator? sign rest).map fun (t, rest) => ((e, t.span.stop), rest)

theorem reading?_parseClosed (eof : Location) (sign : Punctuator) (x : Expectation)
    (ts : List Token) : reading? (parseClosed eof sign x ts) = closed? eof sign ts := by
  simp only [closed?, level?, ← reading?_parseSign eof sign x]
  rw [parseClosed, parseExpression]
  rcases parseLevel eof (.tier .disjunction) ts with _ | ⟨e, rest, shorter⟩
  · rfl
  simp only [reading?, Option.bind_some]
  rcases parseSign eof sign x rest with _ | ⟨t, rest, shorter'⟩ <;> rfl

theorem derives_of_closed? {eof : Location} {sign : Punctuator} {ts rest : List Token} {e : Expr}
    {stop : Location} (h : closed? eof sign ts = some ((e, stop), rest)) :
    ∃ used last, ts = used ++ last :: rest ∧ Derives (.level (.tier .disjunction) e) used ∧
      last.kind = .punctuator sign ∧ last.span.stop = stop := by
  obtain ⟨⟨e', mid⟩, he, h⟩ := Option.bind_eq_some_iff.mp h
  obtain ⟨⟨last, rest'⟩, hl, ⟨⟩⟩ := Option.map_eq_some_iff.mp h
  obtain ⟨used, rfl, d⟩ := derives_of_level? eof _ ts he
  obtain ⟨rfl, closes⟩ := punctuator?_eq_some_iff.mp hl
  exact ⟨used, last, rfl, d, closes, rfl⟩

theorem closed?_of_derives (eof : Location) {sign : Punctuator} {ts : List Token} {last : Token}
    {e : Expr} (d : Derives (.level (.tier .disjunction) e) ts)
    (closes : last.kind = .punctuator sign) (hs : sign ∈ [.semicolon, .leftBrace])
    (rest : List Token) :
    closed? eof sign (ts ++ last :: rest) = some ((e, last.span.stop), rest) := by
  have ends : sign ∈ [.rightParen, .comma, .semicolon, .leftBrace] := by
    revert hs
    cases sign <;> decide
  rw [closed?, level?_of_derives eof d (.of_closing closes ends _ rest), Option.bind_some]
  simp only [punctuator?_cons closes, Option.map_some]

/-! ### Statements -/

/-- The statement that the tokens begin with. -/
def statement? (eof : Location) (ts : List Token) : Option (Statement × List Token) :=
  reading? (parseStatement eof ts)

theorem assignee?_eq_some_iff {ts rest : List Token} {name : String} :
    assignee? ts = some (name, rest) ↔ ∃ target sign, ts = target :: sign :: rest ∧
      target.kind = .identifier name ∧ sign.kind = .punctuator .assign := by
  constructor
  · intro h
    match ts with
    | [] | [_] => cases h
    | target :: sign :: us =>
      rw [assignee?] at h
      split at h
      · rename_i named
        split at h
        · rename_i assigns
          cases h
          exact ⟨target, sign, rfl, named, assigns⟩
        · cases h
      · cases h
  · rintro ⟨target, sign, rfl, named, assigns⟩
    simp only [assignee?, named, assigns, if_true]

section Equations

variable (eof : Location) {t : Token} {us : List Token}

theorem statement?_of_brace (closes : t.kind = .punctuator .rightBrace) :
    statement? eof (t :: us) = some (⟨.blockEnd, t.span⟩, us) := by
  rw [statement?, parseStatement, if_pos closes]
  rfl

theorem statement?_of_block {block : BlockKind} (opens : t.opens? = some block) :
    statement? eof (t :: us) = (closed? eof .leftBrace us).map fun ((e, stop), rest) =>
      (⟨.header block e, ⟨t.span.start, stop⟩⟩, rest) := by
  have brace : t.kind ≠ .punctuator .rightBrace := by
    intro closes
    rw [Token.opens?, closes] at opens
    cases opens
  rw [statement?, parseStatement, if_neg brace, ← reading?_parseClosed eof _ .braceAfterHeader]
  simp only [opens]
  rcases parseClosed eof .leftBrace .braceAfterHeader us with _ | ⟨⟨e, stop⟩, rest, shorter⟩ <;> rfl

theorem statement?_of_assignee (brace : t.kind ≠ .punctuator .rightBrace)
    (block : t.opens? = none) {name : String} {vs : List Token}
    (assigns : assignee? (t :: us) = some (name, vs)) :
    statement? eof (t :: us) = (closed? eof .semicolon vs).map fun ((e, stop), rest) =>
      (⟨.assignment name e, ⟨t.span.start, stop⟩⟩, rest) := by
  rw [statement?, parseStatement, if_neg brace,
    ← reading?_parseClosed eof _ .semicolonAfterAssignment]
  simp only [block]
  split
  · rename_i h
    cases assigns.symm.trans h
    rcases parseClosed eof .semicolon .semicolonAfterAssignment vs with
      _ | ⟨⟨e, stop⟩, rest, shorter⟩ <;> rfl
  · rename_i h
    cases assigns.symm.trans h

theorem statement?_of_expression (brace : t.kind ≠ .punctuator .rightBrace)
    (block : t.opens? = none) (assigns : assignee? (t :: us) = none) :
    statement? eof (t :: us) = (closed? eof .semicolon (t :: us)).map fun ((e, stop), rest) =>
      (⟨.expression e, ⟨t.span.start, stop⟩⟩, rest) := by
  rw [statement?, parseStatement, if_neg brace,
    ← reading?_parseClosed eof _ .semicolonAfterExpression]
  simp only [block]
  split
  · rename_i h
    cases assigns.symm.trans h
  · rcases parseClosed eof .semicolon .semicolonAfterExpression (t :: us) with
      _ | ⟨⟨e, stop⟩, rest, shorter⟩ <;> rfl

end Equations

theorem derives_of_statement? {eof : Location} {ts rest : List Token} {s : Statement}
    (h : statement? eof ts = some (s, rest)) :
    ∃ used, ts = used ++ rest ∧ DerivesStatement used s := by
  rcases ts with _ | ⟨t, us⟩
  · cases h
  by_cases brace : t.kind = .punctuator .rightBrace
  · cases (statement?_of_brace eof brace).symm.trans h
    exact ⟨[t], rfl, .blockEnd brace, t, rfl, t, rfl, rfl⟩
  match block : t.opens?, assigns : assignee? (t :: us) with
  | some block', _ =>
    rw [statement?_of_block eof block] at h
    obtain ⟨⟨⟨e, stop⟩, rest⟩, hc, ⟨⟩⟩ := Option.map_eq_some_iff.mp h
    obtain ⟨used, last, rfl, d, opens, rfl⟩ := derives_of_closed? hc
    refine ⟨t :: used ++ [last], by simp, ?_, t, rfl, last, List.getLast?_concat, rfl⟩
    exact .header (opens?_eq_some_iff.mp block) d opens
  | none, some (name, vs) =>
    rw [statement?_of_assignee eof brace block assigns] at h
    obtain ⟨⟨⟨e, stop⟩, rest⟩, hc, ⟨⟩⟩ := Option.map_eq_some_iff.mp h
    obtain ⟨used, last, rfl, d, ends, rfl⟩ := derives_of_closed? hc
    obtain ⟨target, sign, ⟨⟩, named, assigns⟩ := assignee?_eq_some_iff.mp assigns
    refine ⟨t :: sign :: used ++ [last], by simp, ?_, t, rfl, last, List.getLast?_concat, rfl⟩
    exact .assignment named assigns d ends
  | none, none =>
    rw [statement?_of_expression eof brace block assigns] at h
    obtain ⟨⟨⟨e, stop⟩, rest⟩, hc, ⟨⟩⟩ := Option.map_eq_some_iff.mp h
    obtain ⟨used, last, hused, d, ends, rfl⟩ := derives_of_closed? hc
    -- the expression is not empty, so the statement begins with its first token
    obtain ⟨first, vs, rfl, _⟩ := exists_first_of_derives d _ rfl
    cases (List.cons.inj hused).1
    refine ⟨t :: vs ++ [last], by simpa using hused, .expression d ends, ?_⟩
    exact ⟨t, rfl, last, List.getLast?_concat, rfl⟩

/-- The first token of an expression neither ends nor opens a block. -/
theorem Begins.starts_statement {l : Level} {t : Token} (h : Begins l t.kind) :
    t.kind ≠ .punctuator .rightBrace ∧ t.opens? = none := by
  constructor
  · intro closes
    exact absurd (closes ▸ h).mem_of_punctuator (by decide)
  · rw [Option.eq_none_iff_forall_not_mem]
    intro block opens
    exact h.not_spellsBlock (opens?_eq_some_iff.mp opens)

theorem statement?_of_derives (eof : Location) {ts : List Token} {s : Statement}
    (h : DerivesStatement ts s) (rest : List Token) :
    statement? eof (ts ++ rest) = some (s, rest) := by
  obtain ⟨kind, span⟩ := s
  obtain ⟨d, first, hfirst, last, hlast, rfl⟩ := h
  cases d with
  | blockEnd closes =>
    cases hfirst
    cases hlast
    exact statement?_of_brace eof closes
  | @header word brace _ _ us spells value opens =>
    cases hfirst
    obtain rfl := Option.some.inj (List.getLast?_concat.symm.trans hlast)
    have block := opens?_eq_some_iff.mpr spells
    rw [List.append_assoc, List.singleton_append, List.cons_append, statement?_of_block eof block,
      closed?_of_derives eof value opens (by decide)]
    rfl
  | @assignment target sign semicolon name _ us named assigns value ends =>
    cases hfirst
    obtain rfl := Option.some.inj (List.getLast?_concat.symm.trans hlast)
    have begins : Begins .primary first.kind := named ▸ .name name
    obtain ⟨brace, block⟩ := begins.starts_statement
    have assignee : assignee? (first :: sign :: (us ++ semicolon :: rest)) =
        some (name, us ++ semicolon :: rest) :=
      assignee?_eq_some_iff.mpr ⟨first, sign, rfl, named, assigns⟩
    rw [List.append_assoc, List.singleton_append, List.cons_append, List.cons_append,
      statement?_of_assignee eof brace block assignee,
      closed?_of_derives eof value ends (by decide)]
    rfl
  | @expression semicolon _ us value ends =>
    obtain ⟨first', vs, rfl, begins⟩ := exists_first_of_derives value _ rfl
    cases hfirst
    obtain rfl := Option.some.inj (List.getLast?_concat.symm.trans hlast)
    obtain ⟨brace, block⟩ := begins.starts_statement
    have assignee : assignee? (first :: (vs ++ semicolon :: rest)) = none := by
      rw [Option.eq_none_iff_forall_not_mem]
      rintro ⟨name, ws⟩ h
      obtain ⟨target, sign, hts, -, assigns⟩ := assignee?_eq_some_iff.mp h
      -- the second token belongs to the expression or is the semicolon
      rcases vs with _ | ⟨second, vs⟩
      · cases (List.cons.inj (List.cons.inj hts).2).1
        cases ends.symm.trans assigns
      · cases (List.cons.inj (List.cons.inj hts).2).1
        exact kind_ne_assign_of_derives value _ (by simp) assigns
    have closed := closed?_of_derives eof value ends (by decide) rest
    rw [List.cons_append] at closed
    rw [List.append_assoc, List.singleton_append, List.cons_append,
      statement?_of_expression eof brace block assignee, closed]
    rfl

theorem statement?_eq_some_iff {eof : Location} {ts rest : List Token} {s : Statement} :
    statement? eof ts = some (s, rest) ↔ ∃ used, ts = used ++ rest ∧ DerivesStatement used s := by
  constructor
  · exact derives_of_statement?
  · rintro ⟨used, rfl, d⟩
    exact statement?_of_derives eof d rest

/-! ### Scripts -/

theorem parseStatements_of_statement? {eof : Location} {ts rest : List Token} {s : Statement}
    (done : List Statement) (h : statement? eof ts = some (s, rest)) :
    parseStatements eof done ts = parseStatements eof (s :: done) rest := by
  have nonempty : ts.isEmpty = false := by
    cases ts with
    | nil => cases h
    | cons => rfl
  rw [parseStatements, nonempty]
  unfold statement? at h
  rcases hp : parseStatement eof ts with _ | ⟨s', rest', shorter⟩
  · rw [hp] at h
    cases h
  · rw [hp] at h
    cases h
    rfl

theorem derivesScript_of_parseStatements {eof : Location} {done ss : List Statement}
    {ts : List Token} (h : parseStatements eof done ts = .ok ss) :
    ∃ others, ss = done.reverse ++ others ∧ DerivesScript ts others := by
  fun_induction parseStatements eof done ts with
  | case1 done ts empty =>
    cases h
    cases List.isEmpty_iff.mp empty
    exact ⟨[], by simp, .nil⟩
  | case2 => cases h
  | case3 done ts _ s rest shorter hp ih =>
    obtain ⟨others, rfl, d⟩ := ih h
    have hs : statement? eof ts = some (s, rest) := by rw [statement?, hp]; rfl
    obtain ⟨used, rfl, ds⟩ := statement?_eq_some_iff.mp hs
    exact ⟨s :: others, by simp, .cons ds d⟩

theorem parseStatements_of_derivesScript (eof : Location) {ts : List Token}
    {others : List Statement} (h : DerivesScript ts others) (done : List Statement) :
    parseStatements eof done ts = .ok (done.reverse ++ others) := by
  induction h generalizing done with
  | nil =>
    rw [parseStatements, List.append_nil]
    rfl
  | @cons ts us s ss first _ ih =>
    have hs : statement? eof (ts ++ us) = some (s, us) :=
      statement?_eq_some_iff.mpr ⟨ts, rfl, first⟩
    rw [parseStatements_of_statement? done hs, ih]
    simp

theorem parseStatements_eq_ok_iff {eof : Location} {ts : List Token} {ss : List Statement} :
    parseStatements eof [] ts = .ok ss ↔ DerivesScript ts ss := by
  constructor
  · intro h
    obtain ⟨others, rfl, d⟩ := derivesScript_of_parseStatements h
    exact d
  · intro d
    exact parseStatements_of_derivesScript eof d []

/-! ### Texts -/

theorem tokens_eq_ok_iff {source : String} {ts : List Token} :
    tokens source = .ok ts ↔ (lex source).errors = [] ∧ (lex source).tokens = ts := by
  rw [tokens]
  cases (lex source).errors with
  | nil => simp
  | cons => simp

theorem dropSemicolon_eq_nil_iff {ts : List Token} :
    dropSemicolon ts = [] ↔ ts = [] ∨ ∃ t, t.kind = .punctuator .semicolon ∧ ts = [t] := by
  cases ts with
  | nil => simp [dropSemicolon]
  | cons t ts =>
    rw [dropSemicolon]
    split <;> grind

theorem parseExpr_eq_ok_iff {source : String} {e : Expr} :
    parseExpr source = .ok e ↔ ∃ ts, tokens source = .ok ts ∧
      ∃ rest, level? (endOfTokens ts) (.tier .disjunction) ts = some (e, rest) ∧
        dropSemicolon rest = [] := by
  rw [parseExpr]
  rcases tokens source with _ | ts
  · simp
  simp only [level?, parseExpression, Except.ok.injEq, exists_eq_left']
  rcases parseLevel (endOfTokens ts) (.tier .disjunction) ts with _ | ⟨e', rest, shorter⟩
  · simp [reading?]
  simp only [reading?, Option.some.injEq, Prod.mk.injEq]
  constructor
  · intro h
    split at h
    · cases h
      exact ⟨rest, ⟨rfl, rfl⟩, by assumption⟩
    · cases h
  · rintro ⟨rest', ⟨rfl, rfl⟩, ends⟩
    rw [ends]

/-- A text is read as an expression if its tokens derive it, with one semicolon behind them or
none. -/
theorem parseExpr_eq_ok_iff_derives {source : String} {e : Expr} :
    parseExpr source = .ok e ↔ (lex source).errors = [] ∧
      ∃ ts, Derives (.level (.tier .disjunction) e) ts ∧ ∃ rest, (lex source).tokens = ts ++ rest ∧
        dropSemicolon rest = [] := by
  rw [parseExpr_eq_ok_iff]
  constructor
  · rintro ⟨ts, ht, rest, hr, ends⟩
    obtain ⟨flawless, rfl⟩ := tokens_eq_ok_iff.mp ht
    obtain ⟨used, hused, d⟩ := derives_of_level? _ _ _ hr
    exact ⟨flawless, used, d, rest, hused, ends⟩
  · rintro ⟨flawless, ts, d, rest, whole, ends⟩
    have stops : Stops (.tier .disjunction) rest := by
      rcases dropSemicolon_eq_nil_iff.mp ends with rfl | ⟨t, semicolon, rfl⟩
      · exact .nil _
      · exact .of_closing semicolon (by decide) _ []
    refine ⟨ts ++ rest, tokens_eq_ok_iff.mpr ⟨flawless, whole⟩, rest, ?_, ends⟩
    exact level?_of_derives _ d stops

theorem parseScript_eq_ok_iff {source : String} {script : Script} :
    parseScript source = .ok script ↔ ∃ ts, tokens source = .ok ts ∧
      parseStatements (endOfTokens ts) [] ts = .ok script.statements := by
  rw [parseScript]
  rcases tokens source with _ | ts
  · simp
  simp only [Except.ok.injEq, exists_eq_left']
  rcases parseStatements (endOfTokens ts) [] ts with _ | ss
  · simp
  · obtain ⟨statements⟩ := script
    simp

/-- A text is read as an expression, or as a script, if and only if it has no flaw and its tokens
derive that expression, which one semicolon may follow, or that script.  The tree that is read is
that of the derivation. -/
theorem parser_accepts_exactly_grammar (source : String) :
    (∀ e, parseExpr source = .ok e ↔ (lex source).errors = [] ∧
      ∃ ts, Derives (.level (.tier .disjunction) e) ts ∧
        ((lex source).tokens = ts ∨
          ∃ t, t.kind = .punctuator .semicolon ∧ (lex source).tokens = ts ++ [t])) ∧
    (∀ script, parseScript source = .ok script ↔ (lex source).errors = [] ∧
      DerivesScript (lex source).tokens script.statements) := by
  constructor
  · intro e
    rw [parseExpr_eq_ok_iff_derives]
    refine and_congr_right fun _ => exists_congr fun ts => and_congr_right fun _ => ?_
    -- What stands behind the tokens of the expression is nothing, or one semicolon.
    constructor
    · rintro ⟨rest, whole, ends⟩
      rcases dropSemicolon_eq_nil_iff.mp ends with rfl | ⟨t, semicolon, rfl⟩
      · exact .inl (whole.trans (List.append_nil ts))
      · exact .inr ⟨t, semicolon, whole⟩
    · rintro (whole | ⟨t, semicolon, whole⟩)
      · exact ⟨[], whole.trans (List.append_nil ts).symm, rfl⟩
      · exact ⟨[t], whole, dropSemicolon_eq_nil_iff.mpr (.inr ⟨t, semicolon, rfl⟩)⟩
  · intro script
    rw [parseScript_eq_ok_iff]
    constructor
    · rintro ⟨ts, ht, h⟩
      obtain ⟨flawless, rfl⟩ := tokens_eq_ok_iff.mp ht
      exact ⟨flawless, parseStatements_eq_ok_iff.mp h⟩
    · rintro ⟨flawless, d⟩
      exact ⟨_, tokens_eq_ok_iff.mpr ⟨flawless, rfl⟩, parseStatements_eq_ok_iff.mpr d⟩

end StepScript
