import Mathlib.Data.String.Basic
import StepScript.Proofs.KindsOnly
import StepScript.Proofs.Munch

/-!
# Layout does not matter

Blanks and comments separate tokens and do nothing else.  If the tokens of a text without flaws are
written down again, each with a gap of any shape behind it, then the lexer finds the same tokens, and
the parser the same statements, or the same error at the same token.

## Main definitions

* `IsGap` — a run of blanks and comments.
* `IsLayout` — some words with gaps between and around them.
* `Token.textIn` — the characters of a token.
* `SameIndex` — the tokens that correspond to each other in two lists.
* `ScriptsAgree` — two results of reading a script are the same up to places.

## Main results

* `standsIn_of_lex` — every token of a text without flaws is read off its own text.
* `IsLayout.lexes` — the lexer reads words with gaps between them one by one.
* `layout_does_not_matter` — the tokens and the statements stay the same.
-/

namespace StepScript

/-! ### Gaps -/

/-- A run of blanks and of comments, each with the line break that ends it. -/
inductive IsGap : List Char → Prop
  /-- The empty run. -/
  | nil : IsGap []
  /-- A blank in front. -/
  | blank {c : Char} {cs : List Char} (h : isBlank c = true) (rest : IsGap cs) : IsGap (c :: cs)
  /-- A comment in front. -/
  | comment {body cs : List Char} (h : '\n' ∉ body) (rest : IsGap cs) :
    IsGap ('#' :: (body ++ '\n' :: cs))

theorem IsGap.atGap {gap : List Char} (h : IsGap gap) (nonempty : gap ≠ []) (rest : List Char) :
    AtGap (gap ++ rest) := by
  cases h with
  | nil => exact absurd rfl nonempty
  | blank h =>
    rintro _ ⟨⟩
    exact .inl h
  | comment =>
    rintro _ ⟨⟩
    exact .inr rfl

/-- The lexer finds nothing in a gap. -/
theorem IsGap.lexes {gap : List Char} (h : IsGap gap) (rest : List Char) :
    Lexes (gap ++ rest) [] True rest := by
  have blank {c : Char} {cs : List Char} (h : isBlank c = true) : Lexes (c :: cs) [] True cs :=
    .of_blank fun start => by rw [scan, if_pos h]
  induction h with
  | nil => exact .refl rest
  | blank h _ ih => exact (blank h).after ih
  | @comment body cs h _ ih =>
    have all : ∀ c ∈ body, (c != '\n') = true := by
      rintro c hc
      rw [bne_iff_ne]
      rintro rfl
      exact h hc
    have ends : ∀ c ∈ ('\n' :: (cs ++ rest)).head?, (c != '\n') = false := by
      rintro _ ⟨⟩
      rfl
    obtain ⟨taken, left⟩ := takeWhile_append_of_head? all ends
    have line : Lexes ('#' :: (body ++ '\n' :: (cs ++ rest))) [] True ('\n' :: (cs ++ rest)) :=
      .of_blank fun start => by rw [scan, if_neg (by decide), if_pos rfl, taken, left]
    rw [List.cons_append, List.append_assoc, List.cons_append]
    exact line.after ((blank isBlank_newline).after ih)

/-! ### Words with gaps -/

/-- The text is made of the words in order, each with a gap behind it, and a gap in front.  Only the
first and the last of the gaps may be empty. -/
def IsLayout (words : List (List Char)) (text : List Char) : Prop :=
  ∃ front gaps, IsGap front ∧ (∀ gap ∈ gaps, IsGap gap) ∧ (∀ gap ∈ gaps.dropLast, gap ≠ []) ∧
    gaps.length = words.length ∧ text = front ++ (List.zipWith (· ++ ·) words gaps).flatten

theorem ReadsAs.lexes {word rest : List Char} {kind : TokenKind} (h : ReadsAs word kind)
    (gap : AtGap rest) : Lexes (word ++ rest) [kind] True rest := by
  obtain ⟨c, cs, rfl, reads⟩ := h
  exact .of_scan fun start => reads start rest gap

/-- The lexer reads words with gaps behind them one by one. -/
theorem lexes_words {words gaps : List (List Char)} {kinds : List TokenKind}
    (reads : List.Forall₂ ReadsAs words kinds) (isGap : ∀ gap ∈ gaps, IsGap gap)
    (apart : ∀ gap ∈ gaps.dropLast, gap ≠ []) (length : gaps.length = words.length) :
    Lexes (List.zipWith (· ++ ·) words gaps).flatten kinds True [] := by
  induction reads generalizing gaps with
  | nil =>
    rw [List.zipWith_nil_left]
    exact .refl []
  | @cons word kind words kinds first _ ih =>
    obtain ⟨gap, gaps, rfl⟩ := List.exists_cons_of_length_eq_add_one length
    obtain ⟨here, later⟩ := List.forall_mem_cons.mp isGap
    have apart' : ∀ gap ∈ gaps.dropLast, gap ≠ [] := by
      intro g hg
      refine apart g ?_
      cases gaps with
      | nil => cases hg
      | cons => exact List.mem_cons_of_mem _ hg
    have ends : AtGap (gap ++ (List.zipWith (· ++ ·) words gaps).flatten) := by
      cases gaps with
      | nil =>
        -- behind the last word there may be nothing
        rw [List.zipWith_nil_right, List.flatten_nil, List.append_nil]
        by_cases empty : gap = []
        · exact empty ▸ .nil
        · exact List.append_nil gap ▸ here.atGap empty []
      | cons => exact here.atGap (apart gap List.mem_cons_self) _
    have rest := ih later apart' (Nat.succ.inj length)
    rw [List.zipWith_cons_cons, List.flatten_cons, List.append_assoc]
    exact (first.lexes ends).after ((here.lexes _).after rest)

theorem IsLayout.lexes {words : List (List Char)} {kinds : List TokenKind} {text : List Char}
    (h : IsLayout words text) (reads : List.Forall₂ ReadsAs words kinds) :
    Lexes text kinds True [] := by
  obtain ⟨front, gaps, isFront, isGap, apart, length, rfl⟩ := h
  exact (isFront.lexes _).after (lexes_words reads isGap apart length)

/-! ### The words of a text -/

/-- The characters of the token in the text that it was found in. -/
def Token.textIn (source : String) (t : Token) : List Char :=
  (String.Pos.Raw.extract source ⟨t.span.start.offset⟩ ⟨t.span.stop.offset⟩).toList

theorem Token.textIn_of_span {source : String} {t : Token} {before word behind : List Char}
    (text : source.toList = before ++ word ++ behind)
    (span : t.span = ⟨.behind before, .behind (before ++ word)⟩) : t.textIn source = word := by
  have same : source = String.ofList (before ++ word ++ behind) := by
    rw [← text, String.ofList_toList]
  rw [textIn, span, same]
  simp only [Location.behind, String.utf8ByteSize_ofList, String.utf8Len_append,
    String.extract_of_valid, String.toList_ofList]

/-- The token covers a word of the text that reads as it. -/
def StandsIn (text : List Char) (t : Token) : Prop :=
  ∃ before word behind, text = before ++ word ++ behind ∧
    t.span = ⟨.behind before, .behind (before ++ word)⟩ ∧ ReadsAs word t.kind

theorem StandsIn.readsAs_textIn {source : String} {t : Token} (h : StandsIn source.toList t) :
    ReadsAs (t.textIn source) t.kind := by
  obtain ⟨before, word, behind, text, span, reads⟩ := h
  rwa [Token.textIn_of_span text span]

theorem Location.after_of_behind {here : Location} {before : List Char}
    (place : here = .behind before) (text : List Char) :
    here.after text = .behind (before ++ text) := by
  rw [place, Location.after_behind]

/-- What reading on at the end of `before` adds to the tokens stands in the text, unless it adds
flaws too. -/
theorem standsIn_of_lexFrom (tokens : List Token) (errors : List LexError) (cs : List Char)
    {here : Location} {before : List Char} (place : here = .behind before) :
    ∃ new flaws, lexFrom here tokens errors cs = ⟨tokens.reverse ++ new, errors.reverse ++ flaws⟩ ∧
      (flaws = [] → ∀ t ∈ new, StandsIn (before ++ cs) t) := by
  fun_induction lexFrom here tokens errors cs generalizing before with
  | case1 here tokens errors => exact ⟨[], [], by simp, by simp⟩
  | case2 here tokens errors c cs reading stop hpiece =>
    rename_i ih
    obtain ⟨new, flaws, hlex, stands⟩ := ih (Location.after_of_behind place _)
    refine ⟨new, flaws, hlex, fun clean => ?_⟩
    rw [← text_append_rest_scan here c cs, ← List.append_assoc]
    exact stands clean
  | case3 here tokens errors c cs reading stop d hpiece =>
    rename_i ih
    obtain ⟨new, flaws, hlex, -⟩ := ih (Location.after_of_behind place _)
    refine ⟨new, ⟨here, .illegalCharacter d⟩ :: flaws, by rw [hlex]; simp, by simp⟩
  | case4 here tokens errors c cs reading stop kind inner hpiece =>
    rename_i ih
    have place' : stop = .behind (before ++ reading.text) := Location.after_of_behind place _
    obtain ⟨new, flaws, hlex, stands⟩ := ih place'
    have whole : before ++ reading.text ++ reading.rest = before ++ c :: cs := by
      rw [List.append_assoc, text_append_rest_scan]
    refine ⟨⟨kind, ⟨here, stop⟩⟩ :: new, inner ++ flaws, by rw [hlex]; simp, ?_⟩
    intro clean
    obtain ⟨rfl, rfl⟩ := List.append_eq_nil_iff.mp clean
    rw [← whole, List.forall_mem_cons]
    have read : scan here c cs = ⟨.token kind [], reading.text, reading.rest⟩ := by
      rw [← hpiece]
    refine ⟨⟨before, reading.text, reading.rest, rfl, ?_, readsAs_of_scan read⟩, stands rfl⟩
    rw [place, place']

theorem standsIn_of_lex {source : String} (flawless : (lex source).errors = []) :
    ∀ t ∈ (lex source).tokens, StandsIn source.toList t := by
  obtain ⟨new, flaws, hlex, stands⟩ : ∃ new flaws,
      lexFrom .origin [] [] source.toList = ⟨new, flaws⟩ ∧
        (flaws = [] → ∀ t ∈ new, StandsIn ([] ++ source.toList) t) :=
    standsIn_of_lexFrom [] [] source.toList rfl
  rw [lex_eq_lexFrom, hlex] at flawless ⊢
  exact stands flawless

/-! ### Scripts -/

/-- The tokens have the same index in the two lists, and are of the same kind. -/
def SameIndex (ts us : List Token) (t u : Token) : Prop :=
  t.kind = u.kind ∧ ∃ i : Nat, ts[i]? = some t ∧ us[i]? = some u

theorem forall₂_sameIndex {ts us : List Token} (h : ts.map Token.kind = us.map Token.kind) :
    List.Forall₂ (SameIndex ts us) ts us := by
  rw [List.forall₂_iff_get]
  refine ⟨by simpa using congrArg List.length h, fun i hi hi' => ⟨?_, i, by simp, by simp⟩⟩
  have same : (ts.map Token.kind)[i]? = (us.map Token.kind)[i]? := by rw [h]
  simpa [hi, hi'] using same

/-- Two texts are read as scripts with the same statements, or with the same error about the same
token, up to the places in them. -/
inductive ScriptsAgree (ts us : List Token) :
    Except ParseError Script → Except ParseError Script → Prop
  /-- Both are scripts. -/
  | ok {s s' : Script}
    (h : List.Forall₂ (StatementsAgree (SameIndex ts us)) s.statements s'.statements) :
    ScriptsAgree ts us (.ok s) (.ok s')
  /-- Neither is. -/
  | error {e e' : ParseError}
    (h : ErrorsAgree (SameIndex ts us) (endOfTokens ts) (endOfTokens us) e e') :
    ScriptsAgree ts us (.error e) (.error e')

theorem scriptsAgree_of_kinds {source source' : String} (flawless : (lex source).errors = [])
    (flawless' : (lex source').errors = [])
    (kinds : (lex source).tokens.map Token.kind = (lex source').tokens.map Token.kind) :
    ScriptsAgree (lex source).tokens (lex source').tokens (parseScript source)
      (parseScript source') := by
  have readable {source : String} (flawless : (lex source).errors = []) :
      tokens source = .ok (lex source).tokens := by
    rw [tokens_eq_ok_iff]
    exact ⟨flawless, rfl⟩
  rw [parseScript, parseScript, readable flawless, readable flawless']
  rcases parseStatements_agree (endOfTokens _) (endOfTokens _) (fun _ _ h => h.1)
    (forall₂_sameIndex kinds) .nil with ⟨ss, ss', hs, hs', agree⟩ | ⟨e, e', hs, hs', agree⟩
  · dsimp only
    rw [hs, hs']
    exact .ok agree
  · dsimp only
    rw [hs, hs']
    exact .error agree

/-- **Layout does not matter.**  Take a text without flaws and write its tokens down again, with a
run of blanks and comments behind each and in front of all; only the first and the last of these may
be empty.  The lexer finds tokens of the same kinds and no flaw, and both texts are read as the same
statements, or with the same error about the same token or the end. -/
theorem layout_does_not_matter {source : String} (flawless : (lex source).errors = [])
    {text : List Char} (layout : IsLayout ((lex source).tokens.map (Token.textIn source)) text) :
    (lex (String.ofList text)).errors = [] ∧
      (lex (String.ofList text)).tokens.map Token.kind = (lex source).tokens.map Token.kind ∧
      ScriptsAgree (lex source).tokens (lex (String.ofList text)).tokens (parseScript source)
        (parseScript (String.ofList text)) := by
  have reads : List.Forall₂ ReadsAs ((lex source).tokens.map (Token.textIn source))
      ((lex source).tokens.map Token.kind) := by
    rw [List.forall₂_map_left_iff, List.forall₂_map_right_iff, List.forall₂_same]
    intro t ht
    exact (standsIn_of_lex flawless t ht).readsAs_textIn
  obtain ⟨here, new, flaws, hlex, clean, kinds⟩ := layout.lexes reads .origin [] []
  have hlex : lex (String.ofList text) = ⟨new, []⟩ := by
    rw [lex_eq_lexFrom, String.toList_ofList, hlex, clean.mpr trivial, lexFrom]
    simp
  have flawless' : (lex (String.ofList text)).errors = [] := by rw [hlex]
  have kinds' : (lex (String.ofList text)).tokens.map Token.kind =
      (lex source).tokens.map Token.kind := by
    rw [hlex, kinds trivial]
  exact ⟨flawless', kinds', scriptsAgree_of_kinds flawless flawless' kinds'.symm⟩

theorem textIn_power : (lex "x=12**0x1F;").tokens.map (Token.textIn "x=12**0x1F;") =
    [['x'], ['='], ['1', '2'], ['*', '*'], ['0', 'x', '1', 'F'], [';']] := by
  decide +kernel

theorem isLayout_power : IsLayout ((lex "x=12**0x1F;").tokens.map (Token.textIn "x=12**0x1F;"))
    "#\nx\t= 12#~\n** 0x1F\n\n;".toList := by
  rw [textIn_power]
  have comment {body : List Char} (h : '\n' ∉ body) : IsGap ('#' :: (body ++ ['\n'])) :=
    .comment h .nil
  refine ⟨['#', '\n'], [['\t'], [' '], ['#', '~', '\n'], [' '], ['\n', '\n'], []],
    comment List.not_mem_nil, ?_, by simp, rfl, by decide⟩
  simp only [List.forall_mem_cons]
  exact ⟨.blank rfl .nil, .blank rfl .nil, comment (by simp : '\n' ∉ ['~']), .blank rfl .nil,
    .blank rfl (.blank rfl .nil), .nil, by simp⟩

theorem layout_does_not_matter_power :
    (lex "x=12**0x1F;").errors = [] ∧
      IsLayout ((lex "x=12**0x1F;").tokens.map (Token.textIn "x=12**0x1F;"))
        "#\nx\t= 12#~\n** 0x1F\n\n;".toList ∧
      (lex (String.ofList "#\nx\t= 12#~\n** 0x1F\n\n;".toList)).errors = [] ∧
      (lex (String.ofList "#\nx\t= 12#~\n** 0x1F\n\n;".toList)).tokens.map Token.kind =
        (lex "x=12**0x1F;").tokens.map Token.kind ∧
      ScriptsAgree (lex "x=12**0x1F;").tokens
        (lex (String.ofList "#\nx\t= 12#~\n** 0x1F\n\n;".toList)).tokens
        (parseScript "x=12**0x1F;")
        (parseScript (String.ofList "#\nx\t= 12#~\n** 0x1F\n\n;".toList)) := by
  have flawless : (lex "x=12**0x1F;").errors = [] := by decide +kernel
  exact ⟨flawless, isLayout_power, layout_does_not_matter flawless isLayout_power⟩

end StepScript
