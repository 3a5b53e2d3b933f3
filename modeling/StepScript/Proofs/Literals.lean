import StepScript.Proofs.Layout

/-!
# String literals

A string is written between two equal quotes.  Each of its characters stands for itself, unless it
is a backslash or the quote, or is given by an escape; so one string has many literals.  The lexer
decodes all of them to the string, and whatever it decodes without a flaw is a literal.

The lexer gives all flaws of a text in one list.  Those of a token are the ones that lie in it.

## Main definitions

* `escapeMark?` — what stands behind the backslash in the escape of a character.
* `Encodes`, `IsLiteral` — the ways to write a string.
* `Lexed.flawsIn` — the flaws of a token.

## Main results

* `scanString_of_encodes`, `encodes_of_scanString` — the lexer reads a spelling up to its quote, and
  only this without a flaw.
* `isRead_of_mem_lex` — the flaws that lie in a token are those that were found when it was read.
* `literals_decode_to_what_they_spell` — **literals are decoded to what they spell, and nothing else
  is decoded without a flaw**.
-/

namespace StepScript

/-! ### Spellings -/

/-- The character behind the backslash in the escape of a character, if it has one. -/
def escapeMark? : Char → Option Char
  | '"' => some '"'
  | '\'' => some '\''
  | '\\' => some '\\'
  | '\n' => some 'n'
  | '\r' => some 'r'
  | '\t' => some 't'
  | '\x00' => some '0'
  | _ => none

/-- The second text spells the first one between two quotes of the given kind. -/
inductive Encodes (quote : Char) : List Char → List Char → Prop
  /-- Nothing is spelled by nothing. -/
  | nil : Encodes quote [] []
  /-- A character stands for itself. -/
  | raw {c : Char} {s w : List Char} (hquote : c ≠ quote) (hslash : c ≠ '\\')
    (rest : Encodes quote s w) : Encodes quote (c :: s) (c :: w)
  /-- A character is given by its escape. -/
  | escaped {c e : Char} {s w : List Char} (h : escapeMark? c = some e)
    (rest : Encodes quote s w) : Encodes quote (c :: s) ('\\' :: e :: w)

/-- The text is a literal of the string: a quote, a spelling, and the same quote. -/
def IsLiteral (s : String) (text : List Char) : Prop :=
  ∃ quote w, (quote = '"' ∨ quote = '\'') ∧ text = quote :: w ++ [quote] ∧ Encodes quote s.toList w

theorem escapeMark?_of_unescape? {c e : Char} (h : unescape? e = some c) :
    escapeMark? c = some e := by
  unfold unescape? at h
  split at h <;> cases h <;> rfl

theorem unescape?_of_escapeMark? {c e : Char} (h : escapeMark? c = some e) :
    unescape? e = some c := by
  unfold escapeMark? at h
  split at h <;> cases h <;> rfl

theorem ne_backslash_of_quote {quote : Char} (h : quote = '"' ∨ quote = '\'') : quote ≠ '\\' := by
  rcases h with rfl | rfl <;> decide

/-- The lexer reads a spelling up to the quote behind it. -/
theorem scanString_of_encodes {quote : Char} (hquote : quote ≠ '\\') {s w : List Char}
    (h : Encodes quote s w) (start here : Location) (body : StringBody) (rest : List Char) :
    scanString quote start here body (w ++ quote :: rest) =
      StringBody.finish ⟨s.reverse ++ body.value, quote :: (w.reverse ++ body.text), body.errors⟩ []
        rest := by
  induction h generalizing here body with
  | nil =>
    rw [List.nil_append, scanString.eq_def]
    simp
  | raw hc hslash _ ih =>
    rw [List.cons_append, scanString.eq_def]
    simp [hc, hslash, ih]
  | escaped hmark _ ih =>
    rw [List.cons_append, List.cons_append, scanString.eq_def]
    simp [hquote.symm, unescape?_of_escapeMark? hmark, ih]

/-- What the lexer reads without a flaw is a spelling with its quote behind it. -/
theorem encodes_of_scanString {quote : Char} {start here : Location} {body : StringBody}
    {cs text rest : List Char} {kind : TokenKind}
    (h : scanString quote start here body cs = ⟨.token kind [], text, rest⟩) :
    ∃ s w, Encodes quote s w ∧ text = body.text.reverse ++ (w ++ [quote]) ∧
      kind = .string (String.ofList (body.value.reverse ++ s)) ∧ body.errors = [] := by
  fun_induction scanString quote start here body cs with
  | case1 here body => simp [StringBody.finish] at h
  | case2 here body cs =>
    obtain ⟨⟨rfl, flawless⟩, rfl, -⟩ : (_ ∧ body.errors = []) ∧ _ = text ∧ cs = rest := by
      simpa [StringBody.finish] using h
    exact ⟨[], [], .nil, by simp, by simp, flawless⟩
  | case3 here body hquote => simp [StringBody.finish] at h
  | case4 here body e es v hv hquote read ih =>
    obtain ⟨s, w, encodes, rfl, rfl, flawless⟩ := ih h
    exact ⟨v :: s, '\\' :: e :: w, .escaped (escapeMark?_of_unescape? hv) encodes, by simp [read],
      by simp, flawless⟩
  | case5 here body e es hv hquote read ih =>
    -- an unknown escape is a flaw
    obtain ⟨-, -, -, -, -, flawless⟩ := ih h
    cases flawless
  | case6 here body c cs hquote hslash ih =>
    obtain ⟨s, w, encodes, rfl, rfl, flawless⟩ := ih h
    exact ⟨c :: s, c :: w, .raw hquote hslash encodes, by simp, by simp, flawless⟩

theorem scan_of_quote {quote : Char} (h : quote = '"' ∨ quote = '\'') (here : Location)
    (cs : List Char) :
    scan here quote cs = scanString quote here (here.next quote) ⟨[], [quote], []⟩ cs := by
  rcases h with rfl | rfl
  · rw [scan, if_neg (by decide), if_neg (by decide), if_pos (.inl rfl)]
  · rw [scan, if_neg (by decide), if_neg (by decide), if_pos (.inr rfl)]

/-- **The lexer reads a literal in one step**, whatever follows it. -/
theorem IsLiteral.scan_eq {s : String} {c : Char} {cs text rest : List Char} (h : IsLiteral s text)
    (whole : text ++ rest = c :: cs) (here : Location) :
    scan here c cs = ⟨.token (.string s) [], text, rest⟩ := by
  obtain ⟨quote, w, hquote, rfl, encodes⟩ := h
  obtain ⟨rfl, rfl⟩ : quote = c ∧ w ++ quote :: rest = cs := by simpa using whole
  rw [scan_of_quote hquote, scanString_of_encodes (ne_backslash_of_quote hquote) encodes]
  simp [StringBody.finish]

theorem plain_of_numberPiece {start : Location} {found : Option TokenKind} {kind : TokenKind}
    {inner : List LexError} (plain : ∀ s, found ≠ some (.string s))
    (h : numberPiece start found = .token kind inner) :
    (∀ s, kind ≠ .string s) ∧ ∀ e ∈ inner, e.location = start := by
  cases found with
  | none =>
    cases h
    exact ⟨by rintro s ⟨⟩, by simp⟩
  | some k =>
    cases h
    exact ⟨fun s hs => plain s (congrArg some hs), by simp⟩

theorem plain_of_scanNumber {start : Location} {cs text rest : List Char} {kind : TokenKind}
    {inner : List LexError} (h : scanNumber start cs = ⟨.token kind inner, text, rest⟩) :
    (∀ s, kind ≠ .string s) ∧ ∀ e ∈ inner, e.location = start := by
  unfold scanNumber at h
  split at h
  · refine plain_of_numberPiece (fun s hs => ?_) (Reading.mk.inj h).1
    obtain ⟨i, -, hi⟩ := Option.map_eq_some_iff.mp hs
    cases hi
  · generalize decimalLength cs = length at h
    obtain ⟨length, isFloat⟩ := length
    refine plain_of_numberPiece (fun s hs => ?_) (Reading.mk.inj h).1
    cases isFloat with
    | true =>
      obtain ⟨x, -, hx⟩ := Option.map_eq_some_iff.mp hs
      cases hx
    | false =>
      obtain ⟨i, -, hi⟩ := Option.map_eq_some_iff.mp hs
      cases hi

/-- **Where tokens come from**: a string begins with its quote, and all other tokens are no strings
and have no flaws but at their start. -/
theorem string_or_plain_of_scan {here : Location} {c : Char} {cs text rest : List Char}
    {kind : TokenKind} {inner : List LexError}
    (h : scan here c cs = ⟨.token kind inner, text, rest⟩) :
    (c = '"' ∨ c = '\'') ∧ scanString c here (here.next c) ⟨[], [c], []⟩ cs =
        ⟨.token kind inner, text, rest⟩ ∨
      (∀ s, kind ≠ .string s) ∧ ∀ e ∈ inner, e.location = here := by
  by_cases string : c = '"' ∨ c = '\''
  · rw [scan_of_quote string] at h
    exact .inl ⟨string, h⟩
  -- nothing else than a quote begins a string
  refine .inr ?_
  by_cases blank : isBlank c = true
  · rw [scan, if_pos blank] at h
    cases h
  by_cases comment : c = '#'
  · rw [scan, if_neg blank, if_pos comment] at h
    cases h
  by_cases name : isNameStart c = true
  · rw [scan, if_neg blank, if_neg comment, if_neg string, if_pos name] at h
    cases h
    refine ⟨fun s => ?_, by simp⟩
    unfold wordKind
    split <;> simp
  by_cases number : beginsNumber (c :: cs) = true
  · rw [scan, if_neg blank, if_neg comment, if_neg string, if_neg name, if_pos number] at h
    exact plain_of_scanNumber h
  rw [scan, if_neg blank, if_neg comment, if_neg string, if_neg name, if_neg number] at h
  cases hsign : sign? (c :: cs) with
  | none =>
    rw [hsign] at h
    cases h
  | some sign =>
    rw [hsign] at h
    cases h
    exact ⟨by rintro s ⟨⟩, by simp⟩

/-- **A string token has no flaws just if it was read off one of its literals.** -/
theorem flawless_iff_isLiteral {here : Location} {c : Char} {cs text rest : List Char} {s : String}
    {inner : List LexError} (h : scan here c cs = ⟨.token (.string s) inner, text, rest⟩) :
    inner = [] ↔ IsLiteral s text := by
  constructor
  · rintro rfl
    obtain ⟨hquote, hscan⟩ | ⟨plain, -⟩ := string_or_plain_of_scan h
    · obtain ⟨decoded, w, encodes, rfl, hkind, -⟩ := encodes_of_scanString hscan
      obtain rfl : s = String.ofList decoded := by simpa using hkind
      exact ⟨c, w, hquote, rfl, by rwa [String.toList_ofList]⟩
    · exact absurd rfl (plain s)
  · intro literal
    have whole := text_append_rest_scan here c cs
    rw [h] at whole
    have read := literal.scan_eq whole here
    rw [h] at read
    cases read
    rfl

/-! ### The flaws of a token -/

/-- Whether the flaw lies in the token. -/
def LexError.liesIn (t : Token) (e : LexError) : Bool :=
  t.span.start.offset ≤ e.location.offset && e.location.offset < t.span.stop.offset

/-- The flaws of a text that lie in a token. -/
def Lexed.flawsIn (l : Lexed) (t : Token) : List LexError :=
  l.errors.filter (·.liesIn t)

theorem LexError.liesIn_iff {t : Token} {e : LexError} : e.liesIn t = true ↔
    t.span.start.offset ≤ e.location.offset ∧ e.location.offset < t.span.stop.offset := by
  simp [liesIn]

theorem Location.offset_lt_next (l : Location) (c : Char) : l.offset < (l.next c).offset := by
  have hc := Char.utf8Size_pos c
  unfold next
  split <;> simp <;> omega

theorem Location.offset_le_after (l : Location) (cs : List Char) :
    l.offset ≤ (l.after cs).offset := by
  induction cs generalizing l with
  | nil => exact Nat.le_refl _
  | cons c cs ih =>
    have hnext := l.offset_lt_next c
    have hafter := ih (l.next c)
    rw [after_cons]
    omega

theorem Location.offset_lt_after (l : Location) {cs : List Char} (h : cs ≠ []) :
    l.offset < (l.after cs).offset := by
  obtain ⟨c, cs, rfl⟩ := List.exists_cons_of_ne_nil h
  exact Nat.lt_of_lt_of_le (l.offset_lt_next c) ((l.next c).offset_le_after cs)

theorem Location.after_concat (l : Location) (c : Char) (cs : List Char) :
    l.after (c :: cs).reverse = (l.after cs.reverse).next c := by
  rw [List.reverse_cons, after_append]
  rfl

/-- The flaws of a string lie before its end. -/
theorem offset_lt_of_scanString {quote : Char} {start here : Location} {body : StringBody}
    {cs : List Char} (hhere : here = start.after body.text.reverse)
    (hstart : start.offset < here.offset)
    (hbody : ∀ e ∈ body.errors, e.location.offset < here.offset) {kind : TokenKind}
    {inner : List LexError} {text rest : List Char}
    (h : scanString quote start here body cs = ⟨.token kind inner, text, rest⟩) :
    ∀ e ∈ inner, e.location.offset < (start.after text).offset := by
  fun_induction scanString quote start here body cs with
  | case1 here body =>
    cases h
    rw [← hhere]
    intro e he
    simp only [List.mem_append, List.mem_reverse, List.mem_singleton] at he
    rcases he with he | rfl
    · exact hbody e he
    · exact hstart
  | case2 here body cs =>
    cases h
    rw [Location.after_concat, ← hhere]
    intro e he
    have hnext := here.offset_lt_next quote
    have hlt := hbody e (by simpa using he)
    omega
  | case3 here body hquote =>
    cases h
    rw [Location.after_concat, ← hhere]
    have hnext := here.offset_lt_next '\\'
    intro e he
    simp only [List.mem_append, List.mem_reverse, List.mem_singleton] at he
    rcases he with he | rfl
    · exact Nat.lt_trans (hbody e he) hnext
    · exact Nat.lt_trans hstart hnext
  | case4 here body e es v hv hquote read ih =>
    have hslash := here.offset_lt_next '\\'
    have hmark := (here.next '\\').offset_lt_next e
    refine ih ?_ (by omega) (fun x hx => ?_) h
    · rw [Location.after_concat, Location.after_concat, ← hhere]
    · have hlt := hbody x hx
      omega
  | case5 here body e es hv hquote read ih =>
    have hslash := here.offset_lt_next '\\'
    have hmark := (here.next '\\').offset_lt_next e
    refine ih ?_ (by omega) (fun x hx => ?_) h
    · rw [Location.after_concat, Location.after_concat, ← hhere]
    · -- the flaw lies between the backslash and the character behind it
      rcases List.mem_cons.mp hx with rfl | hx
      · exact hmark
      · have hlt := hbody x hx
        omega
  | case6 here body c cs hquote hslash ih =>
    have hnext := here.offset_lt_next c
    refine ih ?_ (by omega) (fun x hx => ?_) h
    · rw [Location.after_concat, ← hhere]
    · have hlt := hbody x hx
      omega

/-- The flaws that a step finds in a token lie in it. -/
theorem offset_of_scan {here : Location} {c : Char} {cs text rest : List Char} {kind : TokenKind}
    {inner : List LexError} (h : scan here c cs = ⟨.token kind inner, text, rest⟩) :
    ∀ e ∈ inner, here.offset ≤ e.location.offset ∧
      e.location.offset < (here.after text).offset := by
  intro e he
  constructor
  · have segmented := segmented_scan here c cs
    rw [h] at segmented
    cases segmented with
    | token _ _ inside =>
      obtain ⟨-, before, -, hplace⟩ := inside e he
      rw [hplace]
      exact here.offset_le_after before
  · obtain ⟨-, hscan⟩ | ⟨-, hplace⟩ := string_or_plain_of_scan h
    · have flawless : ∀ x ∈ (StringBody.mk [] [c] []).errors,
          x.location.offset < (here.next c).offset := by
        rintro x ⟨⟩
      exact offset_lt_of_scanString rfl (here.offset_lt_next c) flawless hscan e he
    · have nonempty := text_ne_nil_scan here c cs
      rw [h] at nonempty
      rw [hplace e he]
      exact here.offset_lt_after nonempty

/-- The token was read by a step of the lexer at its place in the text, and what the step found
wrong is what lies in it among the given flaws. -/
def IsRead (text : List Char) (flaws : List LexError) (t : Token) : Prop :=
  ∃ before c cs inner word rest, text = before ++ c :: cs ∧
    scan (.behind before) c cs = ⟨.token t.kind inner, word, rest⟩ ∧
    t.span = ⟨.behind before, .behind (before ++ word)⟩ ∧ flaws.filter (·.liesIn t) = inner

/-- Flaws that lie outside of a token do not matter to it. -/
theorem IsRead.append {text : List Char} {flaws other : List LexError} {t : Token}
    (h : IsRead text flaws t) (outside : ∀ e ∈ other, e.location.offset < t.span.start.offset) :
    IsRead text (other ++ flaws) t := by
  obtain ⟨before, c, cs, inner, word, rest, whole, read, span, hinner⟩ := h
  refine ⟨before, c, cs, inner, word, rest, whole, read, span, ?_⟩
  have apart : other.filter (·.liesIn t) = [] := by
    rw [List.filter_eq_nil_iff]
    intro e he hin
    have := outside e he
    have := LexError.liesIn_iff.mp hin
    omega
  rw [List.filter_append, apart, List.nil_append, hinner]

/-- What reading on at the end of `before` adds to the tokens was read step by step. -/
theorem isRead_of_lexFrom (tokens : List Token) (errors : List LexError) (cs : List Char)
    {here : Location} {before : List Char} (place : here = .behind before) :
    ∃ new flaws, lexFrom here tokens errors cs = ⟨tokens.reverse ++ new, errors.reverse ++ flaws⟩ ∧
      (∀ e ∈ flaws, here.offset ≤ e.location.offset) ∧
      ∀ t ∈ new, here.offset ≤ t.span.start.offset ∧ IsRead (before ++ cs) flaws t := by
  fun_induction lexFrom here tokens errors cs generalizing before with
  | case1 here tokens errors => exact ⟨[], [], by simp, by simp, by simp⟩
  | case2 here tokens errors c cs reading stop hpiece =>
    rename_i ih
    obtain ⟨new, flaws, hlex, later, reads⟩ := ih (Location.after_of_behind place _)
    have further : here.offset ≤ stop.offset := here.offset_le_after _
    refine ⟨new, flaws, hlex, fun e he => further.trans (later e he), fun t ht => ?_⟩
    obtain ⟨hstart, read⟩ := reads t ht
    rw [List.append_assoc, text_append_rest_scan] at read
    exact ⟨further.trans hstart, read⟩
  | case3 here tokens errors c cs reading stop d hpiece =>
    rename_i ih
    obtain ⟨new, flaws, hlex, later, reads⟩ := ih (Location.after_of_behind place _)
    have further : here.offset < stop.offset := here.offset_lt_after (text_ne_nil_scan here c cs)
    refine ⟨new, [⟨here, .illegalCharacter d⟩] ++ flaws, by rw [hlex]; simp, ?_, fun t ht => ?_⟩
    · intro e he
      rcases List.mem_cons.mp he with rfl | he
      · exact Nat.le_refl _
      · exact further.le.trans (later e he)
    · obtain ⟨hstart, read⟩ := reads t ht
      rw [List.append_assoc, text_append_rest_scan] at read
      refine ⟨further.le.trans hstart, read.append fun e he => ?_⟩
      rw [List.mem_singleton.mp he]
      exact Nat.lt_of_lt_of_le further hstart
  | case4 here tokens errors c cs reading stop kind inner hpiece =>
    rename_i ih
    have place' : stop = .behind (before ++ reading.text) := Location.after_of_behind place _
    obtain ⟨new, flaws, hlex, later, reads⟩ := ih place'
    have read : scan here c cs = ⟨.token kind inner, reading.text, reading.rest⟩ := by
      rw [← hpiece]
    have inside := offset_of_scan read
    have further : here.offset ≤ stop.offset := here.offset_le_after _
    refine ⟨⟨kind, ⟨here, stop⟩⟩ :: new, inner ++ flaws, by rw [hlex]; simp, ?_, fun t ht => ?_⟩
    · intro e he
      rcases List.mem_append.mp he with he | he
      · exact (inside e he).1
      · exact further.trans (later e he)
    rcases List.mem_cons.mp ht with rfl | ht
    · refine ⟨Nat.le_refl _, before, c, cs, inner, reading.text, reading.rest, rfl, place ▸ read,
        ?_, ?_⟩
      · rw [← place, ← place']
      · -- its own flaws lie in the token, and all others behind it
        have own : inner.filter (·.liesIn ⟨kind, ⟨here, stop⟩⟩) = inner :=
          List.filter_eq_self.mpr fun e he => LexError.liesIn_iff.mpr (inside e he)
        have others : flaws.filter (·.liesIn ⟨kind, ⟨here, stop⟩⟩) = [] := by
          rw [List.filter_eq_nil_iff]
          intro e he hin
          exact Nat.not_lt_of_le (later e he) (LexError.liesIn_iff.mp hin).2
        rw [List.filter_append, own, others, List.append_nil]
    · obtain ⟨hstart, read⟩ := reads t ht
      rw [List.append_assoc, text_append_rest_scan] at read
      exact ⟨further.trans hstart, read.append fun e he =>
        Nat.lt_of_lt_of_le (inside e he).2 hstart⟩

/-- **Every token was read by a step at its place**, and the flaws that lie in it are those that the
step found. -/
theorem isRead_of_mem_lex {source : String} {t : Token} (h : t ∈ (lex source).tokens) :
    IsRead source.toList (lex source).errors t := by
  have place : Location.origin = .behind [] := rfl
  obtain ⟨new, flaws, hlex, -, reads⟩ :
      ∃ new flaws, lexFrom .origin [] [] source.toList = ⟨new, flaws⟩ ∧ _ :=
    isRead_of_lexFrom [] [] source.toList place
  rw [lex_eq_lexFrom, hlex] at h ⊢
  exact (reads t h).2

/-! ### Literals in a text -/

/-- A literal alone is one token. -/
theorem IsLiteral.lex_eq {source s : String} (h : IsLiteral s source.toList) :
    lex source = ⟨[⟨.string s, ⟨.origin, .behind source.toList⟩⟩], []⟩ := by
  obtain ⟨c, cs, whole⟩ : ∃ c cs, source.toList = c :: cs := by
    obtain ⟨quote, w, -, text, -⟩ := h
    exact ⟨quote, w ++ [quote], text⟩
  have read := h.scan_eq ((List.append_nil _).trans whole) .origin
  have place : Location.origin = .behind [] := rfl
  have stop : Location.origin.after source.toList = .behind source.toList :=
    Location.after_of_behind place _
  rw [lex_eq_lexFrom, whole, lexFrom_of_token [] [] read, lexFrom, stop, whole]
  rfl

/-- **Literals are decoded to what they spell.**  Whoever writes a string between two equal quotes,
each character raw or by its escape as the rules allow, gets one token with this string and no flaw.
In any text, a token with a string has no flaw just if it covers a literal of this string. -/
theorem literals_decode_to_what_they_spell (source s : String) :
    (IsLiteral s source.toList →
      lex source = ⟨[⟨.string s, ⟨.origin, .behind source.toList⟩⟩], []⟩) ∧
    ∀ t ∈ (lex source).tokens, t.kind = .string s →
      ((lex source).flawsIn t = [] ↔ IsLiteral s (t.textIn source)) := by
  refine ⟨IsLiteral.lex_eq, fun t ht hkind => ?_⟩
  obtain ⟨before, c, cs, inner, word, rest, whole, read, span, hinner⟩ := isRead_of_mem_lex ht
  have text : source.toList = before ++ word ++ rest := by
    have split := text_append_rest_scan (.behind before) c cs
    rw [read] at split
    rw [whole, List.append_assoc, ← split]
  rw [Token.textIn_of_span text span, Lexed.flawsIn, hinner]
  rw [hkind] at read
  exact flawless_iff_isLiteral read

/-- A literal in single quotes, with both quotes and a backslash in its string. -/
theorem literals_decode_to_what_they_spell_quotes :
    IsLiteral "a'\"\\" "'a\\'\"\\\\'".toList ∧
    lex "'a\\'\"\\\\'" = ⟨[⟨.string "a'\"\\", ⟨⟨0, 0, 0⟩, ⟨8, 0, 8⟩⟩⟩], []⟩ ∧
    ∃ t ∈ (lex "'a\\'\"\\\\'").tokens, t.kind = .string "a'\"\\" ∧
      (lex "'a\\'\"\\\\'").flawsIn t = [] ∧ IsLiteral "a'\"\\" (t.textIn "'a\\'\"\\\\'") := by
  have literal : IsLiteral "a'\"\\" "'a\\'\"\\\\'".toList := by
    refine ⟨'\'', ['a', '\\', '\'', '"', '\\', '\\'], .inr rfl, by decide +kernel, ?_⟩
    have decoded : "a'\"\\".toList = ['a', '\'', '"', '\\'] := by decide +kernel
    rw [decoded]
    exact .raw (by decide) (by decide)
      (.escaped rfl (.raw (by decide) (by decide) (.escaped rfl .nil)))
  obtain ⟨decodes, reads⟩ := literals_decode_to_what_they_spell "'a\\'\"\\\\'" "a'\"\\"
  have place : Location.behind "'a\\'\"\\\\'".toList = ⟨8, 0, 8⟩ := by decide +kernel
  have hlex := decodes literal
  rw [place] at hlex
  have mem : ⟨.string "a'\"\\", ⟨.origin, ⟨8, 0, 8⟩⟩⟩ ∈ (lex "'a\\'\"\\\\'").tokens := by
    rw [hlex]
    exact List.mem_singleton_self _
  have flawless : (lex "'a\\'\"\\\\'").flawsIn ⟨.string "a'\"\\", ⟨.origin, ⟨8, 0, 8⟩⟩⟩ = [] := by
    rw [hlex]
    rfl
  exact ⟨literal, hlex, _, mem, rfl, flawless, (reads _ mem rfl).mp flawless⟩

end StepScript
