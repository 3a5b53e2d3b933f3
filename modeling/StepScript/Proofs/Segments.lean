import StepScript.Proofs.Cursor

/-!
# The segments of a text

The lexer looks at every character of a text exactly once.  It cuts the text into segments: blanks,
comments, characters that begin nothing, and tokens.  The tokens stand where their segments stand,
and each character that begins nothing is reported once, at its own place.

## Main definitions

* `IsPlace` — a place between characters of a text, as counted there.
* `IsIllegal` — nothing begins with a character.
* `Segment`, `Segment.Fits` — the parts of a text and what they look like.
* `tokensOf`, `illegalsOf` — the tokens and the illegal characters of some segments.

## Main results

* `segmented_scan` — **inversion**: what one step of the lexer can read.
* `lexer_accounts_for_every_character` — every character and every place is accounted for.
-/

namespace StepScript

/-! ### Places -/

/-- The place lies between two characters of the text, or at one of its ends, and is what can be
counted there. -/
def IsPlace (text : List Char) (l : Location) : Prop :=
  ∃ before, before <+: text ∧ l = .behind before

/-! ### Segments -/

/-- The characters that signs are made of. -/
def signCharacters : List Char :=
  [',', '(', ')', '{', '}', ';', '=', '+', '-', '*', '/', '%', '~', '&', '|', '^', '<', '>', '!']

/-- Neither a blank nor a comment nor a token begins with the character, if the given text follows
it. -/
structure IsIllegal (c : Char) (following : List Char) : Prop where
  blank : isBlank c = false
  comment : c ≠ '#'
  string : c ≠ '"' ∧ c ≠ '\''
  name : c.isAlpha = false ∧ c ≠ '_'
  number : c.isDigit = false
  fraction : c = '.' → ∀ d ∈ following.head?, d.isDigit = false
  sign : c ∉ signCharacters

/-- A part of a text. -/
inductive Segment
  /-- A blank character. -/
  | blank (c : Char)
  /-- A comment, with the line break that ends it. -/
  | comment (text : List Char)
  /-- A character that begins nothing. -/
  | illegal (c : Char)
  /-- A token. -/
  | token (kind : TokenKind) (text : List Char)

namespace Segment

/-- The characters of a segment. -/
def text : Segment → List Char
  | blank c | illegal c => [c]
  | comment text | token _ text => text

/-- A segment is what it is said to be, if the given text follows it. -/
def Fits (following : List Char) : Segment → Prop
  | blank c => isBlank c = true
  | comment text => ∃ body, '\n' ∉ body ∧
      (text = '#' :: body ++ ['\n'] ∨ text = '#' :: body ∧ following = [])
  | illegal c => IsIllegal c following
  | token _ text => text ≠ []

end Segment

/-- The text that some segments make up. -/
def textOf (segments : List Segment) : List Char :=
  segments.flatMap Segment.text

@[simp] theorem textOf_nil : textOf [] = [] := rfl

@[simp] theorem textOf_cons (s : Segment) (segments : List Segment) :
    textOf (s :: segments) = s.text ++ textOf segments := rfl

/-- Every segment is what it is said to be. -/
def AllFit : List Segment → Prop
  | [] => True
  | s :: segments => s.Fits (textOf segments) ∧ AllFit segments

/-- The tokens of segments that stand behind the text `before`. -/
def tokensOf (before : List Char) : List Segment → List Token
  | [] => []
  | .token kind text :: segments =>
    ⟨kind, ⟨.behind before, .behind (before ++ text)⟩⟩ :: tokensOf (before ++ text) segments
  | s :: segments => tokensOf (before ++ s.text) segments

/-- One error for each illegal character of segments that stand behind the text `before`. -/
def illegalsOf (before : List Char) : List Segment → List LexError
  | [] => []
  | .illegal c :: segments =>
    ⟨.behind before, .illegalCharacter c⟩ :: illegalsOf (before ++ [c]) segments
  | s :: segments => illegalsOf (before ++ s.text) segments

/-- Whether a flaw is a character that begins nothing. -/
def LexFlaw.isIllegal : LexFlaw → Bool
  | illegalCharacter _ => true
  | _ => false

/-! ### One step of the lexer -/

/-- The flaws lie inside a text that begins at `start`, and are none of those that make a segment
of their own. -/
def Inside (start : Location) (text : List Char) (errors : List LexError) : Prop :=
  ∀ e ∈ errors, e.flaw.isIllegal = false ∧ ∃ before, before <+: text ∧ e.location = start.after before

theorem inside_nil (start : Location) (text : List Char) : Inside start text [] := by
  intro e he
  cases he

theorem Inside.mono {start : Location} {text text' : List Char} {errors : List LexError}
    (h : Inside start text errors) (longer : text <+: text') : Inside start text' errors := by
  intro e he
  obtain ⟨hflaw, before, hbefore, hplace⟩ := h e he
  exact ⟨hflaw, before, hbefore.trans longer, hplace⟩

/-- A reading of a token, with its flaws inside. -/
def IsToken (start : Location) (r : Reading) : Prop :=
  ∃ kind errors, r.piece = .token kind errors ∧ Inside start r.text errors

theorem isToken_finish {start : Location} {body : StringBody} {closing : List LexError}
    (rest : List Char) (h : Inside start body.text.reverse body.errors)
    (hclosing : Inside start body.text.reverse closing) :
    IsToken start (body.finish closing rest) := by
  refine ⟨_, _, rfl, ?_⟩
  intro e he
  rcases List.mem_append.mp he with he | he
  · exact h e (List.mem_reverse.mp he)
  · exact hclosing e he

theorem isToken_scanString (quote : Char) (start here : Location) (body : StringBody)
    (cs : List Char) (hhere : here = start.after body.text.reverse)
    (h : Inside start body.text.reverse body.errors) :
    IsToken start (scanString quote start here body cs) := by
  -- an unclosed string is reported where it starts
  have unclosed : ∀ text, Inside start text [⟨start, .unterminatedString⟩] := by
    intro text e he
    cases List.mem_singleton.mp he
    exact ⟨rfl, [], List.nil_prefix, rfl⟩
  have longer : ∀ (text more : List Char), text.reverse <+: (more ++ text).reverse := by
    intro text more
    rw [List.reverse_append]
    exact List.prefix_append _ _
  fun_induction scanString quote start here body cs with
  | case1 here body => exact isToken_finish [] h (unclosed _)
  | case2 here body cs =>
    exact isToken_finish cs (h.mono (longer body.text [quote])) (inside_nil _ _)
  | case3 here body hquote =>
    exact isToken_finish [] (h.mono (longer body.text ['\\'])) (unclosed _)
  | case4 here body e es v hv hquote text ih =>
    refine ih ?_ (h.mono (longer body.text [e, '\\']))
    simp only [text, List.reverse_cons, Location.after_append, hhere]
    rfl
  | case5 here body e es hv hquote text ih =>
    refine ih ?_ ?_
    · simp only [text, List.reverse_cons, Location.after_append, hhere]
      rfl
    · intro x hx
      rcases List.mem_cons.mp hx with rfl | hx
      · -- the escape is reported behind its backslash
        refine ⟨rfl, ('\\' :: body.text).reverse, longer ('\\' :: body.text) [e], ?_⟩
        simp only [List.reverse_cons, Location.after_append, hhere]
        rfl
      · exact h.mono (longer body.text [e, '\\']) x hx
  | case6 here body c cs hquote hslash ih =>
    refine ih ?_ (h.mono (longer body.text [c]))
    simp only [List.reverse_cons, Location.after_append, hhere]
    rfl

theorem isToken_numberPiece {start : Location} (kind : Option TokenKind) (text rest : List Char) :
    IsToken start ⟨numberPiece start kind, text, rest⟩ := by
  cases kind with
  | some k => exact ⟨k, [], rfl, inside_nil _ _⟩
  | none =>
    refine ⟨.integer 0, [⟨start, .invalidNumber⟩], rfl, ?_⟩
    intro e he
    cases List.mem_singleton.mp he
    exact ⟨rfl, [], List.nil_prefix, rfl⟩

theorem isToken_scanNumber (start : Location) (cs : List Char) :
    IsToken start (scanNumber start cs) := by
  unfold scanNumber
  split
  · exact isToken_numberPiece _ _ _
  · exact isToken_numberPiece _ _ _

theorem not_mem_signCharacters {c : Char} {cs : List Char} (h : sign? (c :: cs) = none) :
    c ∉ signCharacters := by
  have single : singleSign? c = none := by
    cases cs with
    | nil => simpa [sign?] using h
    | cons d cs =>
      rw [sign?] at h
      split at h
      · cases h
      · simpa using h
  intro hc
  simp only [signCharacters, List.mem_cons, List.not_mem_nil, or_false] at hc
  rcases hc with rfl | rfl | rfl | rfl | rfl | rfl | rfl | rfl | rfl | rfl | rfl | rfl | rfl | rfl |
    rfl | rfl | rfl | rfl | rfl <;> cases single

theorem beginsNumber_of_isDigit {c : Char} (cs : List Char) (h : c.isDigit = true) :
    beginsNumber (c :: cs) = true := by
  unfold beginsNumber
  split
  · next heq =>
    cases heq
    cases h
  · exact h

/-- What one step of the lexer can read. -/
inductive Segmented (here : Location) (c : Char) (cs : List Char) : Reading → Prop
  /-- A blank. -/
  | blank (h : isBlank c = true) : Segmented here c cs ⟨.blank, [c], cs⟩
  /-- A comment, up to the end of its line. -/
  | comment (h : c = '#') :
    Segmented here c cs ⟨.blank, c :: cs.takeWhile (· != '\n'), cs.dropWhile (· != '\n')⟩
  /-- A character that begins nothing. -/
  | illegal (h : IsIllegal c cs) : Segmented here c cs ⟨.illegal c, [c], cs⟩
  /-- A token. -/
  | token {kind : TokenKind} {errors : List LexError} {text rest : List Char} (nonempty : text ≠ [])
    (whole : text ++ rest = c :: cs) (inside : Inside here text errors) :
    Segmented here c cs ⟨.token kind errors, text, rest⟩

theorem Segmented.of_isToken {here : Location} {c : Char} {cs : List Char}
    (h : IsToken here (scan here c cs)) : Segmented here c cs (scan here c cs) := by
  have nonempty := text_ne_nil_scan here c cs
  have whole := text_append_rest_scan here c cs
  obtain ⟨kind, errors, hpiece, inside⟩ := h
  generalize scan here c cs = r at nonempty whole hpiece inside ⊢
  obtain ⟨piece, text, rest⟩ := r
  cases hpiece
  exact .token nonempty whole inside

/-- **Inversion of a step.** -/
theorem segmented_scan (here : Location) (c : Char) (cs : List Char) :
    Segmented here c cs (scan here c cs) := by
  -- In the order in which a step decides.
  by_cases hblank : isBlank c = true
  · rw [scan, if_pos hblank]
    exact .blank hblank
  by_cases hcomment : c = '#'
  · rw [scan, if_neg hblank, if_pos hcomment]
    exact .comment hcomment
  by_cases hstring : c = '"' ∨ c = '\''
  · refine .of_isToken ?_
    rw [scan, if_neg hblank, if_neg hcomment, if_pos hstring]
    exact isToken_scanString _ _ _ _ _ rfl (inside_nil _ _)
  by_cases hname : isNameStart c = true
  · refine .of_isToken ?_
    rw [scan, if_neg hblank, if_neg hcomment, if_neg hstring, if_pos hname]
    exact ⟨_, [], rfl, inside_nil _ _⟩
  by_cases hnumber : beginsNumber (c :: cs) = true
  · refine .of_isToken ?_
    rw [scan, if_neg hblank, if_neg hcomment, if_neg hstring, if_neg hname, if_pos hnumber]
    exact isToken_scanNumber _ _
  cases hsign : sign? (c :: cs) with
  | some sign =>
    refine .of_isToken ?_
    rw [scan, if_neg hblank, if_neg hcomment, if_neg hstring, if_neg hname, if_neg hnumber, hsign]
    exact ⟨_, [], rfl, inside_nil _ _⟩
  | none =>
    rw [scan, if_neg hblank, if_neg hcomment, if_neg hstring, if_neg hname, if_neg hnumber, hsign]
    -- none of all this: each test that has failed says what the character is not
    refine .illegal ⟨by simpa using hblank, hcomment, by simpa using hstring, ?_, ?_, ?_,
      not_mem_signCharacters hsign⟩
    · simpa [isNameStart] using hname
    · cases hdigit : c.isDigit with
      | false => rfl
      | true => exact absurd (beginsNumber_of_isDigit cs hdigit) hnumber
    · rintro rfl d hd
      cases cs with
      | nil => cases hd
      | cons e cs =>
        cases hd
        simpa [beginsNumber, beginsWithDigit] using hnumber

/-! ### All steps -/

/-- The segments of a text that stands behind `before` account for these tokens and flaws. -/
structure Accounts (before cs : List Char) (segments : List Segment) (tokens : List Token)
    (errors : List LexError) : Prop where
  text : textOf segments = cs
  fit : AllFit segments
  tokens : tokens = tokensOf before segments
  illegals : errors.filter (·.flaw.isIllegal) = illegalsOf before segments
  places : ∀ e ∈ errors, IsPlace (before ++ cs) e.location

namespace Accounts

variable {before cs : List Char} {segments : List Segment} {tokens : List Token}
  {errors : List LexError}

theorem nil (before : List Char) : Accounts before [] [] [] [] :=
  ⟨rfl, trivial, rfl, rfl, by simp⟩

/-- A segment in front that is neither a token nor illegal. -/
theorem skip {s : Segment} (h : Accounts (before ++ s.text) cs segments tokens errors)
    (fits : s.Fits cs) (htokens : tokensOf before (s :: segments) = tokensOf (before ++ s.text) segments)
    (hillegals : illegalsOf before (s :: segments) = illegalsOf (before ++ s.text) segments) :
    Accounts before (s.text ++ cs) (s :: segments) tokens errors where
  text := by rw [textOf_cons, h.text]
  fit := ⟨h.text ▸ fits, h.fit⟩
  tokens := by rw [htokens, h.tokens]
  illegals := by rw [hillegals, h.illegals]
  places := by
    rw [← List.append_assoc]
    exact h.places

theorem illegal {c : Char} (h : Accounts (before ++ [c]) cs segments tokens errors)
    (hc : IsIllegal c cs) :
    Accounts before (c :: cs) (.illegal c :: segments) tokens
      (⟨.behind before, .illegalCharacter c⟩ :: errors) where
  text := by rw [textOf_cons, h.text]; rfl
  fit := ⟨h.text ▸ hc, h.fit⟩
  tokens := h.tokens
  illegals := by
    rw [illegalsOf, ← h.illegals]
    rfl
  places := by
    intro e he
    rcases List.mem_cons.mp he with rfl | he
    · exact ⟨before, List.prefix_append _ _, rfl⟩
    · have place := h.places e he
      rwa [List.append_assoc, List.singleton_append] at place

theorem token {kind : TokenKind} {text : List Char} {inner : List LexError}
    (h : Accounts (before ++ text) cs segments tokens errors) (nonempty : text ≠ [])
    (inside : Inside (.behind before) text inner) :
    Accounts before (text ++ cs) (.token kind text :: segments)
      (⟨kind, ⟨.behind before, .behind (before ++ text)⟩⟩ :: tokens) (inner ++ errors) where
  text := by rw [textOf_cons, h.text]; rfl
  fit := ⟨nonempty, h.fit⟩
  tokens := by rw [tokensOf, h.tokens]
  illegals := by
    have legal : inner.filter (·.flaw.isIllegal) = [] := by
      rw [List.filter_eq_nil_iff]
      intro e he
      simp [(inside e he).1]
    rw [List.filter_append, legal, List.nil_append, h.illegals]
    rfl
  places := by
    intro e he
    rcases List.mem_append.mp he with he | he
    · obtain ⟨-, pre, hpre, hplace⟩ := inside e he
      refine ⟨before ++ pre, ?_, by rw [hplace, Location.after_behind]⟩
      exact List.prefix_append_right_inj before |>.mpr (hpre.trans (List.prefix_append text cs))
    · rw [← List.append_assoc]
      exact h.places e he

end Accounts

/-- What reading on at the end of `before` adds to the tokens and flaws so far is accounted for. -/
theorem accounts_lexFrom (before cs : List Char) (tokens : List Token) (errors : List LexError) :
    ∃ segments new flaws, lexFrom (.behind before) tokens errors cs =
        ⟨tokens.reverse ++ new, errors.reverse ++ flaws⟩ ∧
      Accounts before cs segments new flaws := by
  match cs with
  | [] =>
    refine ⟨[], [], [], ?_, .nil before⟩
    rw [lexFrom, List.append_nil, List.append_nil]
  | c :: cs =>
    have shorter := length_rest_scan_le (.behind before) c cs
    have step := segmented_scan (.behind before) c cs
    generalize hr : scan (.behind before) c cs = r at shorter step
    cases step with
    | blank h =>
      obtain ⟨segments, new, flaws, hlex, accounts⟩ :=
        accounts_lexFrom (before ++ [c]) cs tokens errors
      refine ⟨.blank c :: segments, new, flaws, ?_, accounts.skip (s := .blank c) h rfl rfl⟩
      rw [lexFrom_of_blank _ _ hr, Location.after_behind, hlex]
    | comment h =>
      subst h
      have whole : cs.takeWhile (· != '\n') ++ cs.dropWhile (· != '\n') = cs :=
        List.takeWhile_append_dropWhile
      have inside := not_mem_takeWhile_newline cs
      rw [lexFrom_of_blank _ _ hr, Location.after_behind]
      generalize cs.takeWhile (· != '\n') = body at whole inside
      rcases dropWhile_newline_cases cs with hrest | ⟨rest, hrest⟩
      · rw [hrest, List.append_nil] at whole
        rw [hrest, ← whole]
        refine ⟨[.comment ('#' :: body)], [], [], ?_, ?_⟩
        · rw [lexFrom, List.append_nil, List.append_nil]
        · have fits : (Segment.comment ('#' :: body)).Fits [] := ⟨body, inside, .inr ⟨rfl, rfl⟩⟩
          simpa [Segment.text] using (Accounts.nil _).skip fits rfl rfl
      · -- the line break is read by a step of its own, and belongs to the comment
        rw [hrest] at whole ⊢
        have fewer : rest.length < cs.length := by
          rw [← whole, List.length_append, List.length_cons]
          omega
        obtain ⟨segments, new, flaws, hlex, accounts⟩ :=
          accounts_lexFrom (before ++ ('#' :: body ++ ['\n'])) rest tokens errors
        have hscan : scan (.behind (before ++ '#' :: body)) '\n' rest = ⟨.blank, ['\n'], rest⟩ := by
          rw [scan, if_pos isBlank_newline]
        have fits : (Segment.comment ('#' :: body ++ ['\n'])).Fits rest := ⟨body, inside, .inl rfl⟩
        refine ⟨.comment ('#' :: body ++ ['\n']) :: segments, new, flaws, ?_, ?_⟩
        · rw [lexFrom_of_blank _ _ hscan, Location.after_behind, List.append_assoc, hlex]
        · have together := accounts.skip fits rfl rfl
          simpa [Segment.text, ← whole] using together
    | illegal h =>
      obtain ⟨segments, new, flaws, hlex, accounts⟩ :=
        accounts_lexFrom (before ++ [c]) cs tokens (⟨.behind before, .illegalCharacter c⟩ :: errors)
      refine ⟨.illegal c :: segments, new, _, ?_, accounts.illegal h⟩
      rw [lexFrom_of_illegal _ _ hr, Location.after_behind, hlex]
      simp
    | @token kind inner text rest nonempty whole inside =>
      obtain ⟨segments, new, flaws, hlex, accounts⟩ := accounts_lexFrom (before ++ text) rest
        (⟨kind, ⟨.behind before, .behind (before ++ text)⟩⟩ :: tokens) (inner.reverse ++ errors)
      refine ⟨.token kind text :: segments, _, inner ++ flaws, ?_,
        whole ▸ accounts.token nonempty inside⟩
      rw [lexFrom_of_token _ _ hr, Location.after_behind, hlex]
      simp
termination_by cs.length
decreasing_by
  · exact Nat.lt_succ_self _
  · exact Nat.lt_succ_of_lt fewer
  · exact Nat.lt_succ_self _
  · exact Nat.lt_succ_of_le shorter

/-! ### Tokens of segments -/

/-- Tokens that stand behind a text start no earlier than it ends, and each is behind the one
before. -/
theorem pairwise_tokensOf (before : List Char) {segments : List Segment} (fit : AllFit segments) :
    (∀ t ∈ tokensOf before segments, (Location.behind before).offset ≤ t.span.start.offset) ∧
      (tokensOf before segments).Pairwise fun s t => s.span.stop.offset ≤ t.span.start.offset := by
  induction segments generalizing before with
  | nil => exact ⟨by simp [tokensOf], .nil⟩
  | cons s segments ih =>
    obtain ⟨later, ordered⟩ := ih (before ++ s.text) fit.2
    have further := Location.offset_behind_le before s.text
    cases s with
    | token kind text =>
      refine ⟨?_, .cons later ordered⟩
      intro t ht
      rcases List.mem_cons.mp ht with rfl | ht
      · exact Nat.le_refl _
      · exact Nat.le_trans further (later t ht)
    | blank | comment | illegal =>
      exact ⟨fun t ht => Nat.le_trans further (later t ht), ordered⟩

theorem span_of_mem_tokensOf {before : List Char} {segments : List Segment} (fit : AllFit segments)
    {t : Token} (ht : t ∈ tokensOf before segments) :
    IsPlace (before ++ textOf segments) t.span.start ∧
      IsPlace (before ++ textOf segments) t.span.stop ∧
      t.span.start.offset < t.span.stop.offset := by
  induction segments generalizing before with
  | nil => cases ht
  | cons s segments ih =>
    have inner (ht : t ∈ tokensOf (before ++ s.text) segments) := ih fit.2 ht
    rw [List.append_assoc] at inner
    cases s with
    | token kind text =>
      rcases List.mem_cons.mp ht with rfl | ht
      · refine ⟨⟨before, List.prefix_append _ _, rfl⟩, ⟨before ++ text, ?_, rfl⟩, ?_⟩
        · exact (List.prefix_append_right_inj before).mpr (List.prefix_append text _)
        · exact Location.offset_behind_lt before fit.1
      · exact inner ht
    | blank | comment | illegal => exact inner ht

/-- **The lexer accounts for every character.**  A text is made up of segments: blanks, comments,
illegal characters and tokens.  The tokens that the lexer gives are those of the segments, where
they stand, and the illegal characters that it reports are those of the segments, one by one.  Every
place that it gives is one between characters of the text, with the bytes, line breaks and
characters before it, and its tokens are not empty and do not overlap. -/
theorem lexer_accounts_for_every_character (source : String) :
    (∃ segments, textOf segments = source.toList ∧ AllFit segments ∧
      (lex source).tokens = tokensOf [] segments ∧
      (lex source).errors.filter (·.flaw.isIllegal) = illegalsOf [] segments) ∧
    (∀ t ∈ (lex source).tokens, IsPlace source.toList t.span.start ∧
      IsPlace source.toList t.span.stop ∧ t.span.start.offset < t.span.stop.offset) ∧
    (lex source).tokens.Pairwise (fun s t => s.span.stop.offset ≤ t.span.start.offset) ∧
    ∀ e ∈ (lex source).errors, IsPlace source.toList e.location := by
  obtain ⟨segments, new, flaws, hlex, accounts⟩ := accounts_lexFrom [] source.toList [] []
  rw [lex_eq_lexFrom]
  change lexFrom .origin [] [] source.toList = ⟨new, flaws⟩ at hlex
  rw [hlex]
  dsimp only
  refine ⟨⟨segments, accounts.text, accounts.fit, accounts.tokens, accounts.illegals⟩, ?_, ?_,
    accounts.places⟩
  · intro t ht
    rw [accounts.tokens] at ht
    have spans := span_of_mem_tokensOf accounts.fit ht
    rwa [accounts.text] at spans
  · rw [accounts.tokens]
    exact (pairwise_tokensOf [] accounts.fit).2

end StepScript
