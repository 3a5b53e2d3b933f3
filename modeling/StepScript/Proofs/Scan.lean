import Mathlib.Data.List.TakeWhile
import StepScript.Token.Lexer

/-!
# Reading off a list

The cursor of the lexer moves from character to character.  Here the same is said of the list of
characters that are still to be read: each step of the lexer takes one piece off its front.  A piece
is a blank, a comment, a character that begins nothing, or a token.

## Main definitions

* `Piece`, `Reading` — what one step reads.
* `scan` — the step.
* `lexFrom` — the steps until the list is empty.

## Main results

* `text_append_rest_scan` — a step splits the input into what it read and the rest.
* `length_rest_scan_le` — a step reads at least one character.
-/

namespace StepScript

/-- What one step of the lexer reads. -/
inductive Piece
  /-- Blanks or a comment. -/
  | blank
  /-- A character that begins no token. -/
  | illegal (c : Char)
  /-- A token, and what is wrong inside it. -/
  | token (kind : TokenKind) (errors : List LexError)
  deriving DecidableEq, Repr

/-- A piece with the characters that it covers and those that follow it. -/
structure Reading where
  /-- What was read. -/
  piece : Piece
  /-- The characters that it covers. -/
  text : List Char
  /-- The characters behind it. -/
  rest : List Char
  deriving DecidableEq, Repr

/-! ### Signs -/

/-- The sign that a text begins with, and its length.  A sign of two characters goes before the one
that it begins with. -/
def sign? : List Char → Option (Punctuator × Nat)
  | [] => none
  | [c] => (singleSign? c).map (·, 1)
  | c :: d :: _ =>
    match pairSign? c d with
    | some p => some (p, 2)
    | none => (singleSign? c).map (·, 1)

/-! ### Numbers -/

/-- Whether a number begins here: with a digit, or with a point before one. -/
def beginsNumber : List Char → Bool
  | '.' :: cs => beginsWithDigit cs
  | cs => beginsWithDigit cs

/-- The length of the power of ten that a text begins with, as in `e3` or `E-3`; zero if there is
none. -/
def exponentLength : List Char → Nat
  | c :: cs =>
    if c == 'e' || c == 'E' then
      match cs with
      | s :: ds =>
        if (s == '+' || s == '-') && beginsWithDigit ds then 2 + (ds.takeWhile Char.isDigit).length
        else if s.isDigit then 1 + (cs.takeWhile Char.isDigit).length
        else 0
      | [] => 0
    else 0
  | [] => 0

theorem not_sign_of_isDigit {c : Char} (h : c.isDigit = true) : (c == '+' || c == '-') = false := by
  rw [Bool.or_eq_false_iff, beq_eq_false_iff_ne, beq_eq_false_iff_ne]
  constructor
  · rintro rfl
    cases h
  · rintro rfl
    cases h

theorem take_length_takeWhile (p : Char → Bool) (cs : List Char) :
    cs.take (cs.takeWhile p).length = cs.takeWhile p :=
  (List.prefix_iff_eq_take.mp (List.takeWhile_prefix p)).symm

theorem drop_length_takeWhile (p : Char → Bool) (cs : List Char) :
    cs.drop (cs.takeWhile p).length = cs.dropWhile p := by
  have split := congrArg (List.drop (cs.takeWhile p).length)
    (List.takeWhile_append_dropWhile (p := p) (l := cs))
  rw [List.drop_left] at split
  exact split.symm

/-- The token of a number, or what is wrong with it.  A number that does not fit stands for zero. -/
def numberPiece (start : Location) (kind : Option TokenKind) : Piece :=
  match kind with
  | some k => .token k []
  | none => .token (.integer 0) [⟨start, .invalidNumber⟩]

/-- The length of the decimal number that a text begins with, and whether it has a point or a power
of ten. -/
def decimalLength (cs : List Char) : Nat × Bool :=
  let whole := (cs.takeWhile Char.isDigit).length
  let rest := cs.dropWhile Char.isDigit
  let (point, rest) := match rest with
    | '.' :: ds => (1 + (ds.takeWhile Char.isDigit).length, ds.dropWhile Char.isDigit)
    | _ => (0, rest)
  let exponent := exponentLength rest
  (whole + point + exponent, point != 0 || exponent != 0)

/-- Reads the number that a text begins with. -/
def scanNumber (start : Location) (cs : List Char) : Reading :=
  match cs with
  | '0' :: 'x' :: ds =>
    let digits := ds.takeWhile isHexDigit
    ⟨numberPiece start (hexadecimalKind? digits), '0' :: 'x' :: digits, ds.dropWhile isHexDigit⟩
  | _ =>
    let (length, isFloat) := decimalLength cs
    let text := cs.take length
    ⟨numberPiece start (decimalKind? isFloat text), text, cs.drop length⟩

theorem scanNumber_of_decimal {cs : List Char} (decimal : ∀ ds, cs ≠ '0' :: 'x' :: ds)
    (start : Location) :
    scanNumber start cs =
      ⟨numberPiece start (decimalKind? (decimalLength cs).2 (cs.take (decimalLength cs).1)),
        cs.take (decimalLength cs).1, cs.drop (decimalLength cs).1⟩ := by
  unfold scanNumber
  split
  · rename_i ds
    exact absurd rfl (decimal ds)
  · rfl

/-! ### Strings -/

/-- The body of a string literal as read so far, each list with the latest item first. -/
structure StringBody where
  /-- The characters of the value. -/
  value : List Char
  /-- The characters read. -/
  text : List Char
  /-- The unknown escapes. -/
  errors : List LexError

/-- The reading of a string literal with this body. -/
def StringBody.finish (body : StringBody) (closing : List LexError) (rest : List Char) : Reading :=
  { piece := .token (.string (String.ofList body.value.reverse)) (body.errors.reverse ++ closing)
    text := body.text.reverse
    rest := rest }

/-- Reads on in a string literal that began at `start` with the given quote, up to the closing
quote or the end of the text. -/
def scanString (quote : Char) (start : Location) : Location → StringBody → List Char → Reading
  | _, body, [] => body.finish [⟨start, .unterminatedString⟩] []
  | here, body, c :: cs =>
    if c = quote then StringBody.finish { body with text := c :: body.text } [] cs
    else if c = '\\' then
      match cs with
      | [] =>
        StringBody.finish { body with text := c :: body.text } [⟨start, .unterminatedString⟩] []
      | e :: es =>
        let text := e :: c :: body.text
        match unescape? e with
        | some v =>
          scanString quote start ((here.next c).next e) ⟨v :: body.value, text, body.errors⟩ es
        | none =>
          scanString quote start ((here.next c).next e)
            ⟨e :: c :: body.value, text, ⟨here.next c, .invalidEscape e⟩ :: body.errors⟩ es
    else scanString quote start (here.next c) ⟨c :: body.value, c :: body.text, body.errors⟩ cs

/-! ### The step and the loop -/

theorem not_mem_takeWhile_newline (cs : List Char) : '\n' ∉ cs.takeWhile (· != '\n') := by
  intro h
  have := List.mem_takeWhile_imp h
  simp at this

/-- Behind a line stands a line break, or nothing. -/
theorem dropWhile_newline_cases (cs : List Char) :
    cs.dropWhile (· != '\n') = [] ∨ ∃ rest, cs.dropWhile (· != '\n') = '\n' :: rest := by
  have ends := List.head?_dropWhile_not (· != '\n') cs
  cases hrest : cs.dropWhile (· != '\n') with
  | nil => exact .inl rfl
  | cons d rest =>
    rw [hrest] at ends
    obtain rfl : d = '\n' := by simpa using ends
    exact .inr ⟨rest, rfl⟩

/-- Reads one piece off the front of the non-empty input `c :: cs`. -/
def scan (start : Location) (c : Char) (cs : List Char) : Reading :=
  if isBlank c then ⟨.blank, [c], cs⟩
  else if c = '#' then ⟨.blank, c :: cs.takeWhile (· != '\n'), cs.dropWhile (· != '\n')⟩
  else if c = '"' ∨ c = '\'' then scanString c start (start.next c) ⟨[], [c], []⟩ cs
  else if isNameStart c then
    let word := c :: cs.takeWhile isNameRest
    ⟨.token (wordKind (String.ofList word)) [], word, cs.dropWhile isNameRest⟩
  else if beginsNumber (c :: cs) then scanNumber start (c :: cs)
  else
    match sign? (c :: cs) with
    | some (p, n) => ⟨.token (.punctuator p) [], (c :: cs).take n, (c :: cs).drop n⟩
    | none => ⟨.illegal c, [c], cs⟩

theorem StringBody.finish_text (body : StringBody) (closing : List LexError) (rest : List Char) :
    (body.finish closing rest).text = body.text.reverse := rfl

theorem StringBody.finish_rest (body : StringBody) (closing : List LexError) (rest : List Char) :
    (body.finish closing rest).rest = rest := rfl

theorem text_append_rest_scanString (quote : Char) (start here : Location) (body : StringBody)
    (cs : List Char) :
    (scanString quote start here body cs).text ++ (scanString quote start here body cs).rest
      = body.text.reverse ++ cs := by
  fun_induction scanString quote start here body cs <;>
    simp_all +zetaDelta [StringBody.finish_text, StringBody.finish_rest]

theorem text_append_rest_scanNumber (start : Location) (cs : List Char) :
    (scanNumber start cs).text ++ (scanNumber start cs).rest = cs := by
  unfold scanNumber
  split <;> simp

/-- **A step splits the input** into what it read and the rest. -/
theorem text_append_rest_scan (start : Location) (c : Char) (cs : List Char) :
    (scan start c cs).text ++ (scan start c cs).rest = c :: cs := by
  unfold scan
  repeat' split
  · simp
  · simp
  · simp [text_append_rest_scanString]
  · simp
  · exact text_append_rest_scanNumber _ _
  · exact List.take_append_drop _ _
  · simp

theorem text_ne_nil_scanString (quote : Char) (start here : Location) (body : StringBody)
    (cs : List Char) (h : body.text ≠ []) :
    (scanString quote start here body cs).text ≠ [] := by
  fun_induction scanString quote start here body cs <;>
    simp_all +zetaDelta [StringBody.finish_text]

theorem decimalLength_pos {c : Char} {cs : List Char} (h : beginsNumber (c :: cs) = true) :
    0 < (decimalLength (c :: cs)).1 := by
  unfold beginsNumber at h
  unfold decimalLength
  split at h
  · next ds heq =>
    obtain ⟨rfl, rfl⟩ := List.cons.inj heq
    have hdot : Char.isDigit '.' = false := by decide
    grind [List.takeWhile_cons, List.dropWhile_cons]
  · have hc : c.isDigit = true := by simpa [beginsWithDigit] using h
    grind [List.takeWhile_cons]

/-- Each character that begins a sign is one. -/
theorem sign?_eq_none {c : Char} (h : singleSign? c = none) (cs : List Char) :
    sign? (c :: cs) = none := by
  cases cs with
  | nil => rw [sign?, h, Option.map_none]
  | cons d cs =>
    have hpair : pairSign? c d = none := by
      rw [pairSign?.eq_def]
      split <;> first | rfl | cases h
    rw [sign?, hpair, h, Option.map_none]

theorem sign?_length_pos {cs : List Char} {p : Punctuator} {n : Nat} (h : sign? cs = some (p, n)) :
    0 < n := by
  unfold sign? at h
  repeat' split at h
  all_goals simp_all <;> grind

/-- A step reads at least one character. -/
theorem text_ne_nil_scan (start : Location) (c : Char) (cs : List Char) :
    (scan start c cs).text ≠ [] := by
  unfold scan
  repeat' split
  · simp
  · simp
  · exact text_ne_nil_scanString _ _ _ _ _ (by simp)
  · simp
  · next h =>
    unfold scanNumber
    split
    · simp
    · have := decimalLength_pos h
      simp
      omega
  · next h =>
    have := sign?_length_pos h
    simp
    omega
  · simp

theorem length_rest_scan_le (start : Location) (c : Char) (cs : List Char) :
    (scan start c cs).rest.length ≤ cs.length := by
  have h := congrArg List.length (text_append_rest_scan start c cs)
  have hpos := List.length_pos_iff.2 (text_ne_nil_scan start c cs)
  simp at h
  omega

/-- Reads on at the given place.  The tokens and flaws so far come with the latest first. -/
def lexFrom (here : Location) (tokens : List Token) (errors : List LexError) :
    List Char → Lexed
  | [] => ⟨tokens.reverse, errors.reverse⟩
  | c :: cs =>
    let reading := scan here c cs
    let stop := here.after reading.text
    match reading.piece with
    | .blank => lexFrom stop tokens errors reading.rest
    | .illegal c => lexFrom stop tokens (⟨here, .illegalCharacter c⟩ :: errors) reading.rest
    | .token kind inner =>
      lexFrom stop (⟨kind, ⟨here, stop⟩⟩ :: tokens) (inner.reverse ++ errors) reading.rest
termination_by cs => cs.length
decreasing_by all_goals exact Nat.lt_succ_of_le (length_rest_scan_le _ _ _)

section

variable {here : Location} {c d : Char} {cs text rest : List Char} {kind : TokenKind}
  {inner : List LexError}

theorem lexFrom_of_blank (tokens : List Token) (errors : List LexError)
    (h : scan here c cs = ⟨.blank, text, rest⟩) :
    lexFrom here tokens errors (c :: cs) = lexFrom (here.after text) tokens errors rest := by
  rw [lexFrom, h]

theorem lexFrom_of_illegal (tokens : List Token) (errors : List LexError)
    (h : scan here c cs = ⟨.illegal d, text, rest⟩) :
    lexFrom here tokens errors (c :: cs) =
      lexFrom (here.after text) tokens (⟨here, .illegalCharacter d⟩ :: errors) rest := by
  rw [lexFrom, h]

theorem lexFrom_of_token (tokens : List Token) (errors : List LexError)
    (h : scan here c cs = ⟨.token kind inner, text, rest⟩) :
    lexFrom here tokens errors (c :: cs) =
      lexFrom (here.after text) (⟨kind, ⟨here, here.after text⟩⟩ :: tokens)
        (inner.reverse ++ errors) rest := by
  rw [lexFrom, h]

end

end StepScript
