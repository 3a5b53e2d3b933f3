import StepScript.Diagnostic
import StepScript.Proofs.Atomicity
import StepScript.Proofs.Blame
import StepScript.Proofs.Literals

/-!
# Where diagnostics point

The lexer counts a place by the line breaks before it, while a diagnostic looks the line up among
the lines of the text, which know nothing of an empty line at the end and of carriage returns before
a line break.  The two agree on every place that is ever reported.  Tokens and flaws begin at a
character that is no line break, a wrong escape stands behind its backslash, and a token without
flaws, behind which a text may end too early, does not end in a blank.

## Main definitions

* `IsLine` — a stretch of a text is one of its lines.
* `IsVisible` — a place stands at a character of a line or right behind one.
* `Diagnostic.Reported` — the diagnostics that there are for a text.

## Main results

* `IsVisible.exists_line` — **a visible place is found in the line that is looked up**.
* `isVisible_of_mem_errors`, `isVisible_of_parseScript`, `isVisible_of_mem_statements` — what the
  lexer, the parser and programs report is visible.
* `Diagnostic.exists_window`, `Diagnostic.join_window` — what is shown around a place.
* `diagnostics_point_at_their_place` — the line, its number, and the caret.
-/

namespace StepScript

/-! ### The lines of a text -/

section Lines

/-- A line without the carriage return at its end; the line is reversed. -/
def dropReturn : List Char → List Char
  | '\r' :: line => line
  | line => line

theorem linesFrom_newline (finished : List (List Char)) (line cs : List Char) :
    linesFrom finished line ('\n' :: cs) =
      linesFrom ((dropReturn line).reverse :: finished) [] cs :=
  if_pos rfl

theorem linesFrom_of_ne {c : Char} (h : c ≠ '\n') (finished : List (List Char))
    (line cs : List Char) :
    linesFrom finished line (c :: cs) = linesFrom finished (c :: line) cs :=
  if_neg h

theorem linesFrom_append {seg : List Char} (h : '\n' ∉ seg) (finished : List (List Char))
    (line cs : List Char) :
    linesFrom finished line (seg ++ cs) = linesFrom finished (seg.reverse ++ line) cs := by
  induction seg generalizing line with
  | nil => rfl
  | cons c seg ih =>
    obtain ⟨hc, hseg⟩ := not_or.mp (fun h' => h (List.mem_cons.mpr h'))
    rw [List.cons_append, linesFrom_of_ne (Ne.symm hc), ih hseg, List.reverse_cons,
      List.append_assoc, List.singleton_append]

theorem linesFrom_eq_append (finished : List (List Char)) (line cs : List Char) :
    linesFrom finished line cs = finished.reverse ++ linesFrom [] line cs := by
  induction cs generalizing finished line with
  | nil =>
    rw [linesFrom, linesFrom]
    split <;> simp
  | cons c cs ih =>
    by_cases hc : c = '\n'
    · subst hc
      rw [linesFrom_newline, linesFrom_newline, ih, ih [_]]
      simp
    · rw [linesFrom_of_ne hc, linesFrom_of_ne hc, ih]

/-- The text ends where a line begins. -/
def AtLineStart (text : List Char) : Prop :=
  text = [] ∨ text.getLast? = some '\n'

/-- What comes before the start of a line makes up as many lines as it has line breaks. -/
theorem exists_linesFrom_append {before : List Char} (h : before.getLast? = some '\n')
    (line : List Char) : ∃ front : List (List Char), front.length = before.count '\n' ∧
      ∀ cs, linesFrom [] line (before ++ cs) = front ++ linesFrom [] [] cs := by
  -- The induction carries the line that is being read, which a line break completes.
  induction before generalizing line with
  | nil => cases h
  | cons c before ih =>
    by_cases hc : c = '\n'
    · subst hc
      cases before with
      | nil =>
        refine ⟨[(dropReturn line).reverse], rfl, fun cs => ?_⟩
        -- the last line break
        rw [List.singleton_append, linesFrom_newline, linesFrom_eq_append]
        rfl
      | cons d before =>
        -- one more line, and the next begins empty
        rw [List.getLast?_cons_cons] at h
        obtain ⟨front, hlen, hlines⟩ := ih h []
        refine ⟨(dropReturn line).reverse :: front, ?_, fun cs => ?_⟩
        · rw [List.count_cons_self, List.length_cons, hlen]
        · rw [List.cons_append, linesFrom_newline, linesFrom_eq_append, hlines]
          rfl
    · cases before with
      | nil =>
        cases h
        exact absurd rfl hc
      | cons d before =>
        rw [List.getLast?_cons_cons] at h
        -- the line goes on
        obtain ⟨front, hlen, hlines⟩ := ih h (c :: line)
        refine ⟨front, ?_, fun cs => ?_⟩
        · rw [List.count_cons_of_ne hc, hlen]
        · rw [List.cons_append, linesFrom_of_ne hc, hlines]

/-- `text` is the line of `source` that begins behind `before`: it reaches up to a line break, which
may come with a carriage return, or to the end. -/
def IsLine (source before text : List Char) : Prop :=
  AtLineStart before ∧ '\n' ∉ text ∧ ∃ ending rest, source = before ++ (text ++ (ending ++ rest)) ∧
    (ending = ['\n'] ∨ ending = ['\r', '\n'] ∨ ending = [] ∧ rest = [])

theorem AtLineStart.exists_lines {before : List Char} (h : AtLineStart before) :
    ∃ front : List (List Char), front.length = before.count '\n' ∧
      ∀ cs, linesFrom [] [] (before ++ cs) = front ++ linesFrom [] [] cs := by
  rcases h with rfl | h
  · exact ⟨[], rfl, fun cs => rfl⟩
  · exact exists_linesFrom_append h []

theorem dropReturn_cases (line : List Char) :
    (∃ text, line = text ++ ['\r'] ∧ (dropReturn line.reverse).reverse = text) ∨
      (line.getLast? ≠ some '\r' ∧ (dropReturn line.reverse).reverse = line) := by
  rcases List.eq_nil_or_concat line with rfl | ⟨text, c, rfl⟩
  · exact .inr ⟨by simp, rfl⟩
  · by_cases hc : c = '\r'
    · subst hc
      exact .inl ⟨text, by simp, by simp [dropReturn]⟩
    · refine .inr ⟨by simpa using hc, ?_⟩
      have kept : dropReturn (c :: text.reverse) = c :: text.reverse := by
        rw [dropReturn]
        rintro _ ⟨⟩
        exact hc rfl
      simp [kept]

/-- What follows a place, up to the next line break and behind it. -/
theorem exists_lineEnd (after : List Char) :
    ∃ body tail, after = body ++ tail ∧ '\n' ∉ body ∧ (tail = [] ∨ ∃ rest, tail = '\n' :: rest) ∧
      (body = [] → ∀ c ∈ after.head?, c = '\n') := by
  refine ⟨after.takeWhile (· != '\n'), after.dropWhile (· != '\n'),
    List.takeWhile_append_dropWhile.symm, not_mem_takeWhile_newline after,
    dropWhile_newline_cases after, ?_⟩
  intro bare c hc
  cases after with
  | nil => cases hc
  | cons d more =>
    cases hc
    simpa [List.takeWhile_cons] using bare

/-- The carriage return that ends a line stands behind a place in the line, unless it stands right
before the place. -/
theorem prefix_of_append_return {seg body text : List Char} (h : seg ++ body = text ++ ['\r'])
    (last : body = [] → ∃ c ∈ seg.getLast?, c ≠ '\r') : seg <+: text := by
  rcases List.eq_nil_or_concat body with rfl | ⟨body', c, rfl⟩
  · obtain ⟨c, hc, other⟩ := last rfl
    rw [List.append_nil] at h
    rw [h, List.getLast?_concat] at hc
    cases hc
    exact absurd rfl other
  · rw [List.concat_eq_append, ← List.append_assoc] at h
    rw [← (List.append_inj' h rfl).1]
    exact List.prefix_append _ _

/-- **The line of a place.**  A place that stands at a character other than a line break, or behind
one that does not end a line, has a line, and what stands before the place in its line belongs to
it. -/
theorem exists_line {source before seg after : List Char}
    (whole : source = before ++ (seg ++ after)) (start : AtLineStart before) (inside : '\n' ∉ seg)
    (visible : (∃ c ∈ after.head?, c ≠ '\n') ∨ ∃ c ∈ seg.getLast?, c ≠ '\r') :
    ∃ text, (linesFrom [] [] source)[before.count '\n']? = some text ∧
      IsLine source before text ∧ seg <+: text := by
  obtain ⟨front, hfront, hlines⟩ := start.exists_lines
  obtain ⟨body, tail, rfl, plain, ends, bare⟩ := exists_lineEnd after
  -- if the place ends its line, it does not stand behind a carriage return
  have last (empty : body = []) : ∃ c ∈ seg.getLast?, c ≠ '\r' := by
    refine visible.resolve_left ?_
    rintro ⟨c, hc, other⟩
    exact other (bare empty c hc)
  have lineFree : '\n' ∉ seg ++ body := fun h => (List.mem_append.mp h).elim inside plain
  -- the lines before are done with, and this one is read up to its end
  have line : linesFrom [] [] source = front ++ linesFrom [] (seg ++ body).reverse tail := by
    rw [whole, hlines, ← List.append_assoc, linesFrom_append lineFree, List.append_nil]
  rw [line, ← hfront, List.getElem?_append_right (Nat.le_refl _), Nat.sub_self]
  rcases ends with rfl | ⟨rest, rfl⟩
  · -- the text ends here: an empty line would not count
    have filled : (seg ++ body).reverse.isEmpty = false := by
      by_cases empty : body = []
      · obtain ⟨c, hc, -⟩ := last empty
        cases seg with
        | nil => cases hc
        | cons => simp
      · simp [empty]
    rw [linesFrom, filled]
    refine ⟨seg ++ body, by simp, ⟨start, lineFree, [], [], ?_, .inr (.inr ⟨rfl, rfl⟩)⟩,
      List.prefix_append _ _⟩
    simp [whole]
  · rw [linesFrom_newline, linesFrom_eq_append]
    refine ⟨(dropReturn (seg ++ body).reverse).reverse, by simp, ?_⟩
    -- a carriage return before the line break belongs to the break
    rcases dropReturn_cases (seg ++ body) with ⟨text, hline, htext⟩ | ⟨-, htext⟩
    · rw [htext]
      have lineFree' : '\n' ∉ text := fun h => lineFree (hline ▸ List.mem_append_left _ h)
      refine ⟨⟨start, lineFree', ['\r', '\n'], rest, ?_, .inr (.inl rfl)⟩,
        prefix_of_append_return hline last⟩
      rw [whole, ← List.append_assoc seg, hline]
      simp
    · rw [htext]
      refine ⟨⟨start, lineFree, ['\n'], rest, ?_, .inl rfl⟩, List.prefix_append _ _⟩
      simp [whole]

end Lines

/-! ### Visible places -/

/-- The place stands at a character other than a line break, or behind one that does not end a
line. -/
def IsVisible (text : List Char) (l : Location) : Prop :=
  ∃ before after, text = before ++ after ∧ l = .behind before ∧
    ((∃ c ∈ after.head?, c ≠ '\n') ∨ ∃ c ∈ before.getLast?, c ≠ '\n' ∧ c ≠ '\r')

/-- A place is found in its line, as many characters from the start as its column says. -/
theorem exists_lineStart (before : List Char) :
    ∃ start seg, before = start ++ seg ∧ AtLineStart start ∧ '\n' ∉ seg ∧
      (Location.behind before).line = start.count '\n' ∧
      (Location.behind before).column = seg.length := by
  have cut : (before.reverse.dropWhile (· != '\n')).reverse ++
      (before.reverse.takeWhile (· != '\n')).reverse = before := by
    rw [← List.reverse_append, List.takeWhile_append_dropWhile, List.reverse_reverse]
  have plain : '\n' ∉ (before.reverse.takeWhile (· != '\n')).reverse := by
    rw [List.mem_reverse]
    exact not_mem_takeWhile_newline _
  refine ⟨_, _, cut.symm, ?_, plain, ?_, ?_⟩
  · rcases dropWhile_newline_cases before.reverse with ends | ⟨rest, ends⟩
    · exact .inl (by rw [ends, List.reverse_nil])
    · exact .inr (by simp [ends])
  · show before.count '\n' = _
    conv_lhs => rw [← cut]
    rw [List.count_append, List.count_eq_zero_of_not_mem plain, Nat.add_zero]
  · rw [List.length_reverse]
    rfl

/-- A visible place has a line, and what stands before it in its line belongs to that line. -/
theorem IsVisible.exists_line {source : List Char} {l : Location} (h : IsVisible source l) :
    ∃ text start seg, (linesFrom [] [] source)[l.line]? = some text ∧ IsLine source start text ∧
      seg <+: text ∧ l = .behind (start ++ seg) ∧ seg.length = l.column := by
  obtain ⟨before, after, whole, rfl, visible⟩ := h
  obtain ⟨start, seg, rfl, hstart, plain, hline, hcolumn⟩ := exists_lineStart before
  have visible' : (∃ c ∈ after.head?, c ≠ '\n') ∨ ∃ c ∈ seg.getLast?, c ≠ '\r' := by
    refine visible.imp_right ?_
    rintro ⟨c, hc, newline, return_⟩
    cases seg with
    | nil =>
      -- the start of a line stands behind a line break
      rw [List.append_nil] at hc
      rcases hstart with rfl | hstart
      · cases hc
      · cases hstart.symm.trans hc
        exact absurd rfl newline
    | cons d seg =>
      rw [List.getLast?_append_of_ne_nil _ (List.cons_ne_nil d seg)] at hc
      exact ⟨c, hc, return_⟩
  rw [List.append_assoc] at whole
  obtain ⟨text, found, line, before⟩ := StepScript.exists_line whole hstart plain visible'
  exact ⟨text, start, seg, by rw [hline]; exact found, line, before, rfl, hcolumn.symm⟩

theorem ne_of_isBlank {c : Char} (h : isBlank c = false) : c ≠ '\n' ∧ c ≠ '\r' := by
  constructor <;>
  · rintro rfl
    revert h
    decide

/-! ### The flaws of a text -/

/-- The flaw is reported at the start of a token with the given text, or behind a backslash in
it. -/
def IsMarked (start : Location) (text : List Char) (e : LexError) : Prop :=
  e.location = start ∨ ∃ pre, (pre ++ ['\\']) <+: text ∧ e.location = start.after (pre ++ ['\\'])

theorem IsMarked.mono {start : Location} {text text' : List Char} {e : LexError}
    (h : IsMarked start text e) (longer : text <+: text') : IsMarked start text' e :=
  h.imp_right fun ⟨pre, hpre, place⟩ => ⟨pre, hpre.trans longer, place⟩

theorem isMarked_of_scanString {quote : Char} {start here : Location} {body : StringBody}
    {cs text rest : List Char} {kind : TokenKind} {inner : List LexError}
    (h : scanString quote start here body cs = ⟨.token kind inner, text, rest⟩)
    (place : here = start.after body.text.reverse)
    (marked : ∀ e ∈ body.errors, IsMarked start body.text.reverse e) :
    ∀ e ∈ inner, IsMarked start text e := by
  have longer (old new : List Char) : old.reverse <+: (new ++ old).reverse := by
    rw [List.reverse_append]
    exact List.prefix_append _ _
  -- The place is carried along: it is the start, moved over what has been read.
  fun_induction scanString quote start here body cs with
  | case1 here body =>
    -- the quote is missing, which is reported at the start
    cases h
    intro e he
    rcases List.mem_append.mp he with he | he
    · exact marked e (List.mem_reverse.mp he)
    · rw [List.mem_singleton.mp he]
      exact .inl rfl
  | case2 here body cs =>
    cases h
    intro e he
    rw [List.append_nil, List.mem_reverse] at he
    exact (marked e he).mono (longer body.text [quote])
  | case3 here body hquote =>
    -- likewise, if the text ends behind a backslash
    cases h
    intro e he
    rcases List.mem_append.mp he with he | he
    · exact (marked e (List.mem_reverse.mp he)).mono (longer body.text ['\\'])
    · rw [List.mem_singleton.mp he]
      exact .inl rfl
  | case4 here body e es v hv hquote read ih =>
    refine ih h ?_ fun x hx => (marked x hx).mono (longer body.text [e, '\\'])
    simp only [read, List.reverse_cons, Location.after_append, place]
    rfl
  | case5 here body e es hv hquote read ih =>
    -- an unknown escape is reported behind its backslash
    refine ih h ?_ ?_
    · simp only [read, List.reverse_cons, Location.after_append, place]
      rfl
    · intro x hx
      rcases List.mem_cons.mp hx with rfl | hx
      · refine .inr ⟨body.text.reverse, ?_, ?_⟩
        · simp only [read, List.reverse_cons]
          exact List.prefix_append _ _
        · rw [Location.after_append, ← place]
          rfl
      · exact (marked x hx).mono (longer body.text [e, '\\'])
  | case6 here body c cs hquote hslash ih =>
    refine ih h ?_ fun x hx => (marked x hx).mono (longer body.text [c])
    simp only [List.reverse_cons, Location.after_append, place]
    rfl

theorem isBlank_of_scan {here : Location} {c : Char} {cs text rest : List Char} {piece : Piece}
    (h : scan here c cs = ⟨piece, text, rest⟩) (visible : piece ≠ .blank) : isBlank c = false := by
  rw [← Bool.not_eq_true]
  intro blank
  rw [scan, if_pos blank] at h
  cases h
  exact visible rfl

theorem isMarked_of_scan {here : Location} {c : Char} {cs text rest : List Char} {kind : TokenKind}
    {inner : List LexError} (h : scan here c cs = ⟨.token kind inner, text, rest⟩) :
    ∀ e ∈ inner, IsMarked here text e := by
  rcases string_or_plain_of_scan h with ⟨-, hscan⟩ | ⟨-, places⟩
  · exact isMarked_of_scanString hscan rfl (by simp)
  · intro e he
    exact .inl (places e he)

theorem isVisible_of_isBlank {before after : List Char} {c : Char} (h : isBlank c = false) :
    IsVisible (before ++ c :: after) (.behind before) :=
  ⟨before, c :: after, rfl, rfl, .inl ⟨c, rfl, (ne_of_isBlank h).1⟩⟩

theorem IsMarked.isVisible {before text rest : List Char} {c : Char} {cs : List Char} {e : LexError}
    (h : IsMarked (.behind before) text e) (whole : text ++ rest = c :: cs)
    (hc : isBlank c = false) : IsVisible (before ++ c :: cs) e.location := by
  rcases h with place | ⟨pre, ⟨more, rfl⟩, place⟩
  · rw [place]
    exact isVisible_of_isBlank hc
  · refine ⟨before ++ (pre ++ ['\\']), more ++ rest, ?_, ?_, .inr ⟨'\\', ?_, by decide⟩⟩
    · rw [← whole]
      simp
    · rw [place, Location.after_behind]
    · rw [← List.append_assoc]
      exact List.getLast?_concat

/-- What reading on at the end of `before` reports is visible. -/
theorem isVisible_of_lexFrom (tokens : List Token) (errors : List LexError) (cs : List Char)
    {here : Location} {before : List Char} (place : here = .behind before) :
    ∃ flaws, (lexFrom here tokens errors cs).errors = errors.reverse ++ flaws ∧
      ∀ e ∈ flaws, IsVisible (before ++ cs) e.location := by
  -- The invariant: the place is the one behind what has been read.
  fun_induction lexFrom here tokens errors cs generalizing before with
  | case1 here tokens errors => exact ⟨[], by simp, by simp⟩
  | case2 here tokens errors c cs reading stop hpiece =>
    rename_i ih
    obtain ⟨flaws, hlex, visible⟩ := ih (Location.after_of_behind place _)
    rw [List.append_assoc, text_append_rest_scan] at visible
    exact ⟨flaws, hlex, visible⟩
  | case3 here tokens errors c cs reading stop d hpiece =>
    rename_i ih
    obtain ⟨flaws, hlex, visible⟩ := ih (Location.after_of_behind place _)
    rw [List.append_assoc, text_append_rest_scan] at visible
    refine ⟨⟨here, .illegalCharacter d⟩ :: flaws, by rw [hlex]; simp, ?_⟩
    refine List.forall_mem_cons.mpr ⟨?_, visible⟩
    have read : scan here c cs = ⟨.illegal d, reading.text, reading.rest⟩ := by rw [← hpiece]
    rw [place]
    exact isVisible_of_isBlank (isBlank_of_scan read (by simp))
  | case4 here tokens errors c cs reading stop kind inner hpiece =>
    rename_i ih
    obtain ⟨flaws, hlex, visible⟩ := ih (Location.after_of_behind place _)
    rw [List.append_assoc, text_append_rest_scan] at visible
    refine ⟨inner ++ flaws, by rw [hlex]; simp, ?_⟩
    have read : scan here c cs = ⟨.token kind inner, reading.text, reading.rest⟩ := by
      rw [← hpiece]
    intro e he
    -- the flaws in the token itself, and those behind it
    rcases List.mem_append.mp he with he | he
    · have marked := isMarked_of_scan read e he
      rw [place] at marked
      exact marked.isVisible (text_append_rest_scan here c cs) (isBlank_of_scan read (by simp))
    · exact visible e he

/-- **Every flaw is reported at a visible place.** -/
theorem isVisible_of_mem_errors {source : String} {e : LexError} (h : e ∈ (lex source).errors) :
    IsVisible source.toList e.location := by
  have place : Location.origin = .behind [] := rfl
  obtain ⟨flaws, hlex, visible⟩ := isVisible_of_lexFrom [] [] source.toList place
  rw [List.reverse_nil, List.nil_append] at hlex
  rw [lex_eq_lexFrom, hlex] at h
  exact visible e h

/-! ### The tokens of a text without flaws -/

section Ends

theorem isBlank_of_isDigit {c : Char} (h : c.isDigit = true) : isBlank c = false := by
  have := toNat_of_isDigit h
  exact isBlank_of_visible (by omega) (by omega)

theorem isBlank_of_mem_exponent {cs : List Char} :
    ∀ d ∈ cs.take (exponentLength cs), isBlank d = false := by
  have power {c : Char} (h : (c == 'e' || c == 'E') = true) : isBlank c = false := by
    simp only [Bool.or_eq_true, beq_iff_eq] at h
    rcases h with rfl | rfl <;> decide
  have digits (ds : List Char) : ∀ d ∈ ds.takeWhile Char.isDigit, isBlank d = false :=
    fun d hd => isBlank_of_isDigit (all_takeWhile _ _ d hd)
  fun_cases exponentLength cs with
  | case1 c hc s ds hs =>
    rw [Nat.add_comm 2, List.take_succ_cons, List.take_succ_cons, take_length_takeWhile]
    have sign : isBlank s = false := by
      simp only [Bool.and_eq_true, Bool.or_eq_true, beq_iff_eq] at hs
      rcases hs.1 with rfl | rfl <;> decide
    exact List.forall_mem_cons.mpr ⟨power hc, List.forall_mem_cons.mpr ⟨sign, digits ds⟩⟩
  | case2 c hc s ds hs digit =>
    rw [Nat.add_comm 1, List.take_succ_cons, take_length_takeWhile]
    exact List.forall_mem_cons.mpr ⟨power hc, digits (s :: ds)⟩
  | case3 | case4 | case5 | case6 => simp

theorem isBlank_of_mem_decimal {cs : List Char} :
    ∀ d ∈ cs.take (decimalLength cs).1, isBlank d = false := by
  intro d hd
  rcases decimal_cases cs with ⟨whole, tail, digits, ends, rfl⟩ |
    ⟨whole, fraction, tail, digits, digits', ends, rfl⟩
  · rw [decimalLength_of_whole digits ends, List.take_length_add_append] at hd
    rcases List.mem_append.mp hd with hd | hd
    · exact isBlank_of_isDigit (digits d hd)
    · exact isBlank_of_mem_exponent d hd
  · rw [decimalLength_of_point digits digits' ends, Nat.add_assoc, List.take_length_add_append,
      Nat.add_comm 1, Nat.add_right_comm, List.take_succ_cons, List.take_length_add_append] at hd
    rcases List.mem_append.mp hd with hd | hd
    · exact isBlank_of_isDigit (digits d hd)
    rcases List.mem_cons.mp hd with rfl | hd
    · decide
    rcases List.mem_append.mp hd with hd | hd
    · exact isBlank_of_isDigit (digits' d hd)
    · exact isBlank_of_mem_exponent d hd

theorem isBlank_of_mem_number {here : Location} {cs text rest : List Char} {piece : Piece}
    (h : scanNumber here cs = ⟨piece, text, rest⟩) : ∀ d ∈ text, isBlank d = false := by
  by_cases hex : ∃ ds, cs = '0' :: 'x' :: ds
  · obtain ⟨ds, rfl⟩ := hex
    obtain ⟨-, rfl, -⟩ := Reading.mk.inj h
    refine List.forall_mem_cons.mpr ⟨by decide, List.forall_mem_cons.mpr ⟨by decide, ?_⟩⟩
    intro d hd
    have := toNat_of_isHexDigit (all_takeWhile _ _ d hd)
    exact isBlank_of_visible (by omega) (by omega)
  · rw [scanNumber_of_decimal fun ds h => hex ⟨ds, h⟩] at h
    obtain ⟨-, rfl, -⟩ := Reading.mk.inj h
    exact isBlank_of_mem_decimal

theorem isBlank_of_mem_sign {cs : List Char} {p : Punctuator} {n : Nat}
    (h : sign? cs = some (p, n)) : ∀ d ∈ cs.take n, isBlank d = false := by
  have single {c : Char} {p : Punctuator} (h : singleSign? c = some p) : isBlank c = false := by
    unfold singleSign? at h
    split at h
    case h_20 => cases h
    all_goals decide
  have pair {c d : Char} {p : Punctuator} (h : pairSign? c d = some p) :
      isBlank c = false ∧ isBlank d = false := by
    unfold pairSign? at h
    split at h
    case h_9 => cases h
    all_goals decide
  unfold sign? at h
  split at h
  · cases h
  · obtain ⟨_, hc, heq⟩ := Option.map_eq_some_iff.mp h
    cases heq
    simpa using single hc
  · split at h
    · rename_i q hpair
      cases h
      simpa using pair hpair
    · obtain ⟨_, hc, heq⟩ := Option.map_eq_some_iff.mp h
      cases heq
      simpa using single hc

/-- Only strings and comments hold blanks. -/
theorem isBlank_of_mem_scan {here : Location} {c : Char} {cs text rest : List Char}
    {kind : TokenKind} {inner : List LexError}
    (h : scan here c cs = ⟨.token kind inner, text, rest⟩) (string : ¬(c = '"' ∨ c = '\'')) :
    ∀ d ∈ text, isBlank d = false := by
  have blank : ¬isBlank c = true := by
    rw [isBlank_of_scan h (by simp)]
    decide
  by_cases comment : c = '#'
  · rw [scan, if_neg blank, if_pos comment] at h
    cases h
  by_cases name : isNameStart c = true
  · rw [scan, if_neg blank, if_neg comment, if_neg string, if_pos name] at h
    cases h
    refine List.forall_mem_cons.mpr ⟨by simpa using blank, ?_⟩
    intro d hd
    -- letters, digits and underscores lie above the blanks
    have := toNat_of_isNameRest (all_takeWhile _ _ d hd)
    exact isBlank_of_visible (by omega) (by omega)
  by_cases number : beginsNumber (c :: cs) = true
  · rw [scan, if_neg blank, if_neg comment, if_neg string, if_neg name, if_pos number] at h
    exact isBlank_of_mem_number h
  rw [scan, if_neg blank, if_neg comment, if_neg string, if_neg name, if_neg number] at h
  cases hsign : sign? (c :: cs) with
  | none =>
    rw [hsign] at h
    cases h
  | some sign =>
    rw [hsign] at h
    cases h
    exact isBlank_of_mem_sign hsign

/-- A token without flaws does not end in a blank. -/
theorem getLast?_of_scan {here : Location} {c : Char} {cs text rest : List Char} {kind : TokenKind}
    (h : scan here c cs = ⟨.token kind [], text, rest⟩) :
    ∃ d ∈ text.getLast?, isBlank d = false := by
  by_cases string : c = '"' ∨ c = '\''
  · have blank := isBlank_of_scan h (by simp)
    rw [scan_of_quote string] at h
    obtain ⟨s, w, -, rfl, -⟩ := encodes_of_scanString h
    refine ⟨c, ?_, blank⟩
    rw [← List.append_assoc]
    exact List.getLast?_concat
  · have nonempty := text_ne_nil_scan here c cs
    rw [h] at nonempty
    exact ⟨_, List.getLast?_eq_some_getLast nonempty,
      isBlank_of_mem_scan h string _ (List.getLast_mem nonempty)⟩

end Ends

/-- In a text without flaws, both ends of a token are visible. -/
theorem isVisible_of_mem_tokens {source : String} (flawless : (lex source).errors = []) {t : Token}
    (h : t ∈ (lex source).tokens) :
    IsVisible source.toList t.span.start ∧ IsVisible source.toList t.span.stop := by
  obtain ⟨before, word, behind, whole, span, c, cs, rfl, reads⟩ := standsIn_of_lex flawless t h
  have read := reads .origin [] .nil
  obtain ⟨d, hd, blank⟩ := getLast?_of_scan read
  rw [whole, span]
  constructor
  · rw [List.append_assoc]
    exact isVisible_of_isBlank (isBlank_of_scan read (by simp))
  · refine ⟨before ++ c :: cs, behind, rfl, rfl, .inr ⟨d, ?_, ne_of_isBlank blank⟩⟩
    rwa [List.getLast?_append_of_ne_nil _ (List.cons_ne_nil c cs)]

/-! ### Errors -/

/-- **A text that is no script is refused at a visible place.** -/
theorem isVisible_of_parseScript {source : String} {error : ParseError}
    (h : parseScript source = .error error) : IsVisible source.toList error.location := by
  cases flaws : (lex source).errors with
  | cons e rest =>
    -- flaws come first, and the parser never runs
    have refused : tokens source = .error (.lexer e) := by rw [tokens, flaws]
    rw [parseScript, refused] at h
    cases h
    exact isVisible_of_mem_errors (flaws ▸ List.mem_cons_self)
  | nil =>
    -- without a flaw, the parser blames a token or the end of the last one
    have visible {t : Token} (ht : t ∈ (lex source).tokens) := isVisible_of_mem_tokens flaws ht
    rw [parseScript, tokens_eq_ok_iff.mpr ⟨flaws, rfl⟩] at h
    generalize (lex source).tokens = ts at h visible
    dsimp only at h
    cases refused : parseStatements (endOfTokens ts) [] ts with
    | ok statements =>
      rw [refused] at h
      cases h
    | error failure =>
      rw [refused] at h
      cases h
      cases blames_of_parseStatements refused with
      | token names split viable =>
        have place := (visible (split ▸ List.mem_append_right _ List.mem_cons_self)).1
        cases names <;> exact place
      | ending x viable =>
        show IsVisible _ (endOfTokens ts)
        cases last : ts.getLast? with
        | none =>
          -- a text without tokens is a script
          rw [List.getLast?_eq_none_iff.mp last, parseStatements] at refused
          cases refused
        | some t =>
          rw [endOfTokens, last]
          exact (visible (List.mem_of_getLast? last)).2

theorem start_of_derivesScript {ts : List Token} {ss : List Statement} (d : DerivesScript ts ss) :
    ∀ s ∈ ss, ∃ t ∈ ts, s.span.start = t.span.start := by
  induction d with
  | nil => simp
  | cons first others ih =>
    refine List.forall_mem_cons.mpr ⟨?_, fun s hs => ?_⟩
    · obtain ⟨t, ht, last, -, span⟩ := first.span
      exact ⟨t, List.mem_append_left _ (List.mem_of_head? ht), by rw [span]⟩
    · obtain ⟨t, ht, place⟩ := ih s hs
      exact ⟨t, List.mem_append_right _ ht, place⟩

/-- The statements of a script begin at visible places. -/
theorem isVisible_of_mem_statements {source : String} {script : Script}
    (h : parseScript source = .ok script) {s : Statement} (hs : s ∈ script.statements) :
    IsVisible source.toList s.span.start := by
  obtain ⟨ts, read, parsed⟩ := parseScript_eq_ok_iff.mp h
  obtain ⟨flawless, rfl⟩ := tokens_eq_ok_iff.mp read
  obtain ⟨t, ht, place⟩ := start_of_derivesScript (parseStatements_eq_ok_iff.mp parsed) s hs
  rw [place]
  exact (isVisible_of_mem_tokens flawless ht).1

/-- A program fails at one of its statements. -/
theorem Program.exists_statement_of_error {ι ω : Type} {commands : Commands ι ω} {p : Program ι}
    {store : Store ω} {effect : Effect ω (Program ι × Except ProgramError Unit)}
    {error : ProgramError} (reachable : Reachable commands p store)
    (hcycle : p.cycle commands store = some effect) (raised : effect.value.2 = .error error) :
    ∃ s ∈ p.script.statements, error.span = s.span := by
  have changes := changes_of_cycle hcycle
  generalize effect.value = value at changes raised
  cases changes with
  | failed h =>
    cases raised
    have placed := placed_of_reachable reachable
    rw [Placed, h] at placed
    obtain ⟨s, hs, span⟩ := placed
    exact ⟨s, List.mem_of_getElem? hs, span⟩
  | @fails s running hs fault =>
    cases raised
    exact ⟨s, List.mem_of_getElem? hs, rfl⟩
  | done | exhausted | waits | completes | closes => cases raised

/-! ### Diagnostics -/

namespace Diagnostic

/-- The diagnostics of a source text: for an error that the parser gives, for a flaw that the lexer
finds, and for an error of a program. -/
inductive Reported (path source : String) : Diagnostic → Prop
  /-- The text is no script. -/
  | parse {e : ParseError} (h : parseScript source = .error e) :
    Reported path source (ofParseError path source e)
  /-- The text has a flaw. -/
  | flaw {e : LexError} (h : e ∈ (lex source).errors) :
    Reported path source (ofLexError path source e)
  /-- A cycle of a program fails. -/
  | program {ι ω : Type} {commands : Commands ι ω} {p : Program ι} {store : Store ω}
    {effect : Effect ω (Program ι × Except ProgramError Unit)} {e : ProgramError}
    (h : parseScript source = .ok p.script) (reachable : Program.Reachable commands p store)
    (hcycle : p.cycle commands store = some effect) (raised : effect.value.2 = .error e) :
    Reported path source (ofProgramError path source e)

theorem Reported.isVisible {path source : String} {d : Diagnostic} (h : Reported path source d) :
    d.source = source ∧ IsVisible source.toList d.span.start := by
  cases h with
  | parse h => exact ⟨rfl, isVisible_of_parseScript h⟩
  | flaw h => exact ⟨rfl, isVisible_of_mem_errors h⟩
  | program h reachable hcycle raised =>
    obtain ⟨s, hs, span⟩ := Program.exists_statement_of_error reachable hcycle raised
    refine ⟨rfl, ?_⟩
    rw [ofProgramError, span]
    exact isVisible_of_mem_statements h hs

variable (d : Diagnostic) (paint : Painter)

/-- The line in question as it is shown, with its number, counted from one. -/
def numberedLine (text : String) : String :=
  paint (.vivid .blue) (toString (d.span.start.line + 1)) ++ " " ++
    paint (.vivid .blue) " | " ++ text ++ "\n"

/-- A caret behind some spaces, below the line in question. -/
def caretLine (spaces : Nat) : String :=
  "".pushn ' ' (toString (d.span.start.line + 1)).length ++ " " ++
    paint (.vivid .blue) " | " ++
    ("".pushn ' ' spaces ++ paint (.vivid .red) "^" ++
      paint (.tinted .red) ("".pushn '~' (d.span.size - 1))) ++ "\n"

theorem renderLine_true (text : String) :
    d.renderLine paint true text =
      d.numberedLine paint text ++ d.caretLine paint d.span.start.column := by
  simp only [renderLine, margin, arrow, numberedLine, caretLine, lineNumber, if_true,
    Bool.false_eq_true, if_false, String.append_assoc]

variable {d}

theorem map_flag_of_ne {line : Nat} {shown : List (String × Nat)} (h : ∀ x ∈ shown, x.2 ≠ line) :
    (shown.map fun (text, i) => (i == line, text)) = (shown.map Prod.fst).map (false, ·) := by
  rw [List.map_map]
  refine List.map_congr_left fun x hx => ?_
  exact Prod.ext (beq_eq_false_iff_ne.mpr (h x hx)) rfl

/-- The numbered lines from the one before a given line on: only that line has its number, and it is
the first or the second of them. -/
theorem exists_numbered {all : List String} {line : Nat} {text : String}
    (h : all[line]? = some text) :
    ∃ old new, all.zipIdx.drop (line - 1) = old ++ (text, line) :: new ∧ old.length ≤ 1 ∧
      (∀ x ∈ old, x.2 ≠ line) ∧ ∀ x ∈ new, x.2 ≠ line := by
  obtain ⟨hlt, htext⟩ := List.getElem?_eq_some_iff.mp h
  have split : all = all.take line ++ text :: all.drop (line + 1) := by
    conv_lhs => rw [← List.take_append_drop line all, List.drop_eq_getElem_cons hlt, htext]
  have length : (all.take line).length = line := List.length_take_of_le (Nat.le_of_lt hlt)
  generalize all.take line = front at split length
  generalize all.drop (line + 1) = back at split
  subst split
  refine ⟨front.zipIdx.drop (line - 1), back.zipIdx (line + 1), ?_, ?_, ?_, ?_⟩
  · rw [List.zipIdx_append, List.drop_append_of_le_length (by rw [List.length_zipIdx]; omega),
      length, Nat.zero_add]
    rfl
  · rw [List.length_drop, List.length_zipIdx]
    omega
  · intro x hx
    have := List.snd_lt_of_mem_zipIdx (List.mem_of_mem_drop hx)
    omega
  · intro x hx
    have := List.le_snd_of_mem_zipIdx hx
    omega

/-- Just one of the lines that are shown is the one in question. -/
theorem exists_window {text : String} (h : (lines d.source)[d.span.start.line]? = some text) :
    ∃ above below : List String, d.window =
      above.map (false, ·) ++ (true, text) :: below.map (false, ·) := by
  rw [window]
  generalize d.span.start.line = line at h
  obtain ⟨old, new, numbered, few, before, behind⟩ := exists_numbered h
  rw [numbered]
  -- at most one line is shown before the one in question, so that three lines include it
  obtain ⟨k, hk⟩ : ∃ k, 3 - old.length = k + 1 := ⟨2 - old.length, by omega⟩
  rw [List.take_append, hk, List.take_succ_cons, List.filter_append, List.map_append,
    List.filter_cons_of_pos (by simp), List.map_cons, map_flag_of_ne, map_flag_of_ne]
  · dsimp only
    rw [beq_self_eq_true]
    exact ⟨_, _, rfl⟩
  · exact fun x hx => behind x (List.mem_of_mem_take (List.mem_filter.mp hx).1)
  · exact fun x hx => before x (List.mem_of_mem_take (List.mem_filter.mp hx).1)

/-- The lines that are shown, with the caret below the one in question. -/
theorem join_window {text : String} {above below : List String}
    (h : d.window = above.map (false, ·) ++ (true, text) :: below.map (false, ·)) :
    String.join (d.window.map fun (primary, text) => d.renderLine paint primary text) =
      String.join (above.map (d.renderLine paint false)) ++
        (d.numberedLine paint text ++ d.caretLine paint d.span.start.column) ++
        String.join (below.map (d.renderLine paint false)) := by
  rw [h, List.map_append, List.map_cons, List.map_map, List.map_map, String.join_append,
    String.join_cons, ← renderLine_true, String.append_assoc]
  rfl

end Diagnostic

open Diagnostic in
/-- **A diagnostic shows the line in question with the caret in the right place.**  Whatever is
reported about a source text, one line of the window is the one in question.  It is the line of the
text that the place lies in, and it is shown with its number, counted from one.  Right below it
stands the caret, behind as many spaces as there are characters between the start of the line and
the place. -/
theorem diagnostics_point_at_their_place (path source : String) {d : Diagnostic}
    (h : Reported path source d) (paint : Painter) :
    ∃ (text : String) (start seg : List Char) (above below : List String),
      (lines source)[d.span.start.line]? = some text ∧
      IsLine source.toList start text.toList ∧ seg <+: text.toList ∧
      d.span.start = .behind (start ++ seg) ∧
      d.window = above.map (false, ·) ++ (true, text) :: below.map (false, ·) ∧
      d.render paint =
        errorLabel paint ++ ": " ++ paint .strong d.message ++ "\n\n" ++
          (String.join (above.map (d.renderLine paint false)) ++
            (d.numberedLine paint text ++ d.caretLine paint seg.length) ++
            String.join (below.map (d.renderLine paint false))) ++
          "\nIn " ++ d.path ++ ":" ++ d.lineNumber ++ ":" ++
            toString (d.span.start.column + 1) ++ "\n\n" := by
  obtain ⟨rfl, visible⟩ := h.isVisible
  obtain ⟨line, start, seg, found, isLine, inside, place, column⟩ := visible.exists_line
  have shown : (lines d.source)[d.span.start.line]? = some (String.ofList line) := by
    rw [lines, List.getElem?_map, found, Option.map_some]
  obtain ⟨above, below, window⟩ := exists_window shown
  rw [← String.toList_ofList (l := line)] at isLine inside
  refine ⟨String.ofList line, start, seg, above, below, shown, isLine, inside, place, window, ?_⟩
  rw [render, join_window paint window, ← column]

open Diagnostic in
/-- A wrong escape in the second line of a string. -/
theorem diagnostics_point_at_their_place_escape :
    (⟨⟨11, 1, 4⟩, .invalidEscape 'q'⟩ : LexError) ∈ (lex "x = 'a\n  b\\q';\n").errors ∧
      ∃ above below : List String,
        (ofLexError "" "x = 'a\n  b\\q';\n" ⟨⟨11, 1, 4⟩, .invalidEscape 'q'⟩).window =
          above.map (false, ·) ++ (true, "  b\\q';") :: below.map (false, ·) := by
  have reported : (⟨⟨11, 1, 4⟩, .invalidEscape 'q'⟩ : LexError) ∈
      (lex "x = 'a\n  b\\q';\n").errors := by decide +kernel
  have second : (lines "x = 'a\n  b\\q';\n")[1]? = some "  b\\q';" := by decide +kernel
  obtain ⟨text, _, _, above, below, found, _, _, _, window, _⟩ :=
    diagnostics_point_at_their_place "" _ (.flaw reported) (.terminal true)
  cases second.symm.trans found
  exact ⟨reported, above, below, window⟩

end StepScript
