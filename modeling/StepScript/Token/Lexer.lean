import StepScript.Number.Numeral
import StepScript.Text.Blank
import StepScript.Token

/-!
# Reading tokens

The lexer goes through a source text with a cursor that looks one character ahead.  The cursor knows
the place of the character that it looks at, and counts lines and columns behind it.  Words and
numbers are cut out of the text from one place to another.

The lexer never stops at a flaw.  A character that begins no token is left out; a number that does
not fit stands for zero; an unknown escape stands for itself; a string without a closing quote runs
to the end of the text.

## Main definitions

* `LexError` — a flaw and its place.
* `Cursor` — the state of the lexer.
* `Cursor.peek`, `Cursor.consume`, `Cursor.location` — how the lexer moves on.
* `Cursor.token?` — reads the next token.
* `lex` — all tokens and flaws of a text.

## Main results

* `Cursor.length_text_token?_lt` — a token has at least one character.
-/

namespace StepScript

/-- What can be wrong with the characters of a source text. -/
inductive LexFlaw
  /-- A character that no token begins with. -/
  | illegalCharacter (c : Char)
  /-- A number that is no 64-bit integer and no finite floating point number. -/
  | invalidNumber
  /-- A string without its closing quote. -/
  | unterminatedString
  /-- A backslash before a character that takes none. -/
  | invalidEscape (c : Char)
  deriving DecidableEq, Repr

/-- The message for a flaw. -/
def LexFlaw.message : LexFlaw → String
  | illegalCharacter c => "illegal character `" ++ c.toString ++ "`"
  | invalidNumber => "invalid number"
  | unterminatedString => "unterminated string literal"
  | invalidEscape c => "invalid escape `\\" ++ c.toString ++
      "`, only `\\\"`, `\\'`, `\\\\`, `\\0`, `\\n`, `\\r` and `\\t` are allowed"

/-- A flaw in a source text. -/
structure LexError where
  /-- Where it is. -/
  location : Location
  /-- What is wrong. -/
  flaw : LexFlaw
  deriving DecidableEq, Repr

/-- The tokens of a text and its flaws, each in order. -/
structure Lexed where
  /-- The tokens. -/
  tokens : List Token
  /-- The flaws. -/
  errors : List LexError
  deriving DecidableEq, Repr

/-! ### Names and signs -/

/-- Whether a name may begin with the character. -/
def isNameStart (c : Char) : Bool :=
  c.isAlpha || c == '_'

/-- Whether a name may go on with the character. -/
def isNameRest (c : Char) : Bool :=
  c.isAlphanum || c == '_'

/-- The token that a word stands for: a keyword, or else a name. -/
def wordKind (word : String) : TokenKind :=
  match Keyword.ofText? word with
  | some k => .keyword k
  | none => .identifier word

/-- The sign of two characters that they spell. -/
def pairSign? : Char → Char → Option Punctuator
  | '*', '*' => some .doubleStar
  | '/', '/' => some .doubleSlash
  | '=', '=' => some .equal
  | '!', '=' => some .notEqual
  | '<', '<' => some .shiftLeft
  | '<', '=' => some .lessEqual
  | '>', '>' => some .shiftRight
  | '>', '=' => some .greaterEqual
  | _, _ => none

/-- The sign of one character that it spells. -/
def singleSign? : Char → Option Punctuator
  | ',' => some .comma
  | '(' => some .leftParen
  | ')' => some .rightParen
  | '{' => some .leftBrace
  | '}' => some .rightBrace
  | ';' => some .semicolon
  | '=' => some .assign
  | '+' => some .plus
  | '-' => some .minus
  | '*' => some .star
  | '/' => some .slash
  | '%' => some .percent
  | '~' => some .tilde
  | '&' => some .ampersand
  | '|' => some .bar
  | '^' => some .caret
  | '<' => some .less
  | '>' => some .greater
  | '!' => some .bang
  | _ => none

/-! ### Numbers -/

/-- Whether a text begins with a digit. -/
def beginsWithDigit : List Char → Bool
  | c :: _ => c.isDigit
  | [] => false

/-- The text without the sign that it begins with. -/
def dropSign : List Char → List Char
  | c :: cs => if c == '+' || c == '-' then cs else c :: cs
  | [] => []

/-- Whether the character is a hexadecimal digit. -/
def isHexDigit (c : Char) : Bool :=
  (digitValue? 16 c).isSome

/-- The token of a hexadecimal number with the given digits, if it fits. -/
def hexadecimalKind? (digits : List Char) : Option TokenKind :=
  ((readNat? 16 digits).bind fun n => narrow? n).map TokenKind.integer

/-- The token of a decimal number, if it fits. -/
def decimalKind? (isFloat : Bool) (text : List Char) : Option TokenKind :=
  if isFloat then ((readFloat? text).filter Float.isFinite).map TokenKind.float
  else (readInt? text).map TokenKind.integer

/-! ### Strings -/

/-- The character that a backslash and the given one stand for. -/
def unescape? : Char → Option Char
  | '"' => some '"'
  | '\'' => some '\''
  | 'n' => some '\n'
  | 'r' => some '\r'
  | 't' => some '\t'
  | '0' => some '\x00'
  | '\\' => some '\\'
  | _ => none

/-! ### Cutting texts -/

/-- The characters from an offset in bytes on.  There are none to give if the offset lies inside a
character, or behind the end. -/
def dropBytes? : Nat → List Char → Option (List Char)
  | 0, cs => some cs
  | _ + 1, [] => none
  | n + 1, c :: cs => if c.utf8Size ≤ n + 1 then dropBytes? (n + 1 - c.utf8Size) cs else none

/-- The characters that make up the given number of bytes. -/
def takeBytes? : Nat → List Char → Option (List Char)
  | 0, _ => some []
  | _ + 1, [] => none
  | n + 1, c :: cs =>
    if c.utf8Size ≤ n + 1 then (takeBytes? (n + 1 - c.utf8Size) cs).map (c :: ·) else none

/-- The characters from one offset to another. -/
def slice? (start stop : Nat) (cs : List Char) : Option (List Char) :=
  if start ≤ stop then (dropBytes? start cs).bind (takeBytes? (stop - start)) else none

/-- The characters of a text with their offsets. -/
def charOffsets : Nat → List Char → List (Nat × Char)
  | _, [] => []
  | offset, c :: cs => (offset, c) :: charOffsets (offset + c.utf8Size) cs

/-! ### The cursor -/

/-- The state of the lexer. -/
structure Cursor where
  /-- The whole text. -/
  input : String
  /-- The characters that have not been looked at, with their offsets. -/
  chars : List (Nat × Char)
  /-- The character that is looked at, with its place. -/
  current : Option (Location × Char)
  /-- The line of what has not been looked at. -/
  line : Nat
  /-- The column of what has not been looked at. -/
  column : Nat
  /-- The flaws so far, the latest first. -/
  errors : List LexError

namespace Cursor

/-- The cursor before a text. -/
def start (source : String) : Cursor :=
  ⟨source, charOffsets 0 source.toList, none, 0, 0, []⟩

/-- Looks at the next character, unless there is one already. -/
def look (l : Cursor) : Cursor :=
  match l.current, l.chars with
  | none, (offset, c) :: chars =>
    { l with
      chars
      current := some (⟨offset, l.line, l.column⟩, c)
      line := if c = '\n' then l.line + 1 else l.line
      column := if c = '\n' then 0 else l.column + 1 }
  | _, _ => l

/-- The character that comes next. -/
def peek (l : Cursor) : Option Char :=
  l.look.current.map (·.2)

/-- The place of the character that comes next, or the end of the text. -/
def location (l : Cursor) : Location :=
  match l.look.current with
  | some (here, _) => here
  | none => ⟨l.look.input.utf8ByteSize, l.look.line, l.look.column⟩

/-- Leaves the character that it looks at behind, and looks at the next one. -/
def consume (l : Cursor) : Cursor :=
  { l with current := none }.look

/-- Reads the character that comes next. -/
def next (l : Cursor) : Option Char × Cursor :=
  match l.peek with
  | some c => (some c, l.look.consume)
  | none => (none, l.look)

/-- Notes a flaw. -/
def note (l : Cursor) (place : Location) (flaw : LexFlaw) : Cursor :=
  { l with errors := ⟨place, flaw⟩ :: l.errors }

/-- The characters that have not been consumed. -/
def text (l : Cursor) : List Char :=
  (l.current.map (·.2)).toList ++ l.chars.map (·.2)

section

variable {l l' : Cursor} {c : Char}

/-! What looking and reading leave of them. -/

theorem look_look (l : Cursor) : l.look.look = l.look := by
  obtain ⟨input, chars, current, line, column, errors⟩ := l
  rcases current with _ | ⟨here, c⟩ <;> rcases chars with _ | ⟨⟨offset, d⟩, chars⟩ <;> rfl

@[simp] theorem peek_look (l : Cursor) : l.look.peek = l.peek := by
  rw [peek, look_look, peek]

@[simp] theorem text_note (l : Cursor) (place : Location) (flaw : LexFlaw) :
    (l.note place flaw).text = l.text := rfl

@[simp] theorem text_look (l : Cursor) : l.look.text = l.text := by
  obtain ⟨input, chars, current, line, column, errors⟩ := l
  rcases current with _ | ⟨here, c⟩ <;> rcases chars with _ | ⟨⟨offset, d⟩, chars⟩ <;> rfl

theorem peek_eq_head? (l : Cursor) : l.peek = l.text.head? := by
  obtain ⟨input, chars, current, line, column, errors⟩ := l
  rcases current with _ | ⟨here, c⟩ <;> rcases chars with _ | ⟨⟨offset, d⟩, chars⟩ <;> rfl

theorem text_consume_look (l : Cursor) : l.look.consume.text = l.text.tail := by
  obtain ⟨input, chars, current, line, column, errors⟩ := l
  rw [consume, text_look]
  rcases current with _ | ⟨here, c⟩ <;> rcases chars with _ | ⟨⟨offset, d⟩, chars⟩ <;> rfl

theorem length_text_consume_le (l : Cursor) : l.consume.text.length ≤ l.text.length := by
  rw [consume, text_look]
  exact (List.suffix_append _ _).length_le

theorem text_of_peek (h : l.peek = some c) : l.text = c :: l.look.consume.text := by
  rw [peek_eq_head?] at h
  obtain ⟨cs, hcs⟩ := List.head?_eq_some_iff.mp h
  rw [text_consume_look, hcs, List.tail_cons]

theorem text_of_peek_eq_none (h : l.peek = none) : l.text = [] := by
  rw [peek_eq_head?] at h
  exact List.head?_eq_none_iff.mp h

theorem length_text_consume_lt (h : l.peek = some c) :
    l.look.consume.text.length < l.text.length := by
  rw [text_of_peek h]
  exact Nat.lt_succ_self _

theorem next_of_peek (h : l.peek = some c) : l.next = (some c, l.look.consume) := by
  rw [next, h]

theorem next_of_peek_eq_none (h : l.peek = none) : l.next = (none, l.look) := by
  rw [next, h]

theorem length_text_next_lt (h : l.next = (some c, l')) : l'.text.length < l.text.length := by
  cases hpeek : l.peek with
  | none => cases (next_of_peek_eq_none hpeek).symm.trans h
  | some d =>
    cases (next_of_peek hpeek).symm.trans h
    exact length_text_consume_lt hpeek

theorem length_text_next_le (l : Cursor) : l.next.2.text.length ≤ l.text.length := by
  cases hpeek : l.peek with
  | none => exact Nat.le_of_eq (by rw [next_of_peek_eq_none hpeek, text_look])
  | some d =>
    rw [next_of_peek hpeek]
    exact Nat.le_of_lt (length_text_consume_lt hpeek)

/-! ### Blanks -/

/-- Consumes characters as long as they are of the given kind. -/
def consumeWhile (p : Char → Bool) (l : Cursor) : Cursor :=
  match h : l.peek with
  | some c =>
    have := length_text_consume_lt h
    if p c then l.look.consume.consumeWhile p else l.look
  | none => l.look
termination_by l.text.length

theorem text_consumeWhile (p : Char → Bool) (l : Cursor) :
    (l.consumeWhile p).text = l.text.dropWhile p := by
  fun_induction consumeWhile p l with
  | case1 l c h _ hc ih => rw [ih, text_of_peek h, List.dropWhile_cons_of_pos hc]
  | case2 l c h _ hc => rw [text_look, text_of_peek h, List.dropWhile_cons_of_neg hc]
  | case3 l h => rw [text_look, text_of_peek_eq_none h, List.dropWhile_nil]

theorem length_text_consumeWhile_le (p : Char → Bool) (l : Cursor) :
    (l.consumeWhile p).text.length ≤ l.text.length := by
  rw [text_consumeWhile]
  exact (List.dropWhile_suffix p).length_le

/-- Consumes a line with its end. -/
def skipLine (l : Cursor) : Cursor :=
  match h : l.next with
  | (some c, l') =>
    have := length_text_next_lt h
    if c = '\n' then l' else l'.skipLine
  | (none, l') => l'
termination_by l.text.length

theorem length_text_skipLine_le (l : Cursor) : l.skipLine.text.length ≤ l.text.length := by
  fun_induction skipLine l with
  | case1 l l' h shorter => exact Nat.le_of_lt shorter
  | case2 l c l' h shorter _ ih => exact Nat.le_trans ih (Nat.le_of_lt shorter)
  | case3 l l' h =>
    have shorter := l.length_text_next_le
    rwa [h] at shorter

theorem length_text_skipLine_lt (h : l.peek = some c) : l.skipLine.text.length < l.text.length := by
  have hnext := next_of_peek h
  have shorter := length_text_next_lt hnext
  unfold skipLine
  split
  · next c' l' h' =>
    cases hnext.symm.trans h'
    split
    · exact shorter
    · exact Nat.lt_of_le_of_lt (length_text_skipLine_le _) shorter
  · next h' => cases hnext.symm.trans h'

/-- Consumes blanks and comments. -/
def skipBlanks (l : Cursor) : Cursor :=
  match h : l.peek with
  | some c =>
    have := length_text_skipLine_lt h
    have := length_text_consume_lt h
    if c = '#' then l.skipLine.skipBlanks
    else if isBlank c then l.look.consume.skipBlanks
    else l.look
  | none => l.look
termination_by l.text.length

theorem length_text_skipBlanks_le (l : Cursor) : l.skipBlanks.text.length ≤ l.text.length := by
  fun_induction skipBlanks l with
  | case1 l h shorter _ ih => exact Nat.le_trans ih (Nat.le_of_lt shorter)
  | case2 l c h _ shorter _ _ ih => exact Nat.le_trans ih (Nat.le_of_lt shorter)
  | case3 l c h => exact Nat.le_of_eq (congrArg List.length l.text_look)
  | case4 l h => exact Nat.le_of_eq (congrArg List.length l.text_look)

/-! ### Signs and words -/

/-- The token that has been read from a place on. -/
def finish (l : Cursor) (start : Location) (kind : TokenKind) : Token × Cursor :=
  (⟨kind, ⟨start, l.location⟩⟩, l.look)

/-- Reads a sign: that of two characters, if the second one makes it up, and else the single one. -/
def readSign (l : Cursor) (single : Punctuator) (pair? : Char → Option Punctuator) :
    Token × Cursor :=
  let rest := l.look.consume
  match rest.peek.bind pair? with
  | some double => rest.look.consume.finish l.location (.punctuator double)
  | none => rest.finish l.location (.punctuator single)

/-- The characters from a place up to the current one. -/
def textFrom? (l : Cursor) (offset : Nat) : Option (List Char) :=
  slice? offset l.location.offset l.input.toList

/-- Reads a keyword or a name. -/
def readWord (l : Cursor) : Option (Token × Cursor) :=
  let rest := l.look.consumeWhile isNameRest
  (rest.textFrom? l.location.offset).map fun word =>
    rest.finish l.location (wordKind (.ofList word))

/-! ### Numbers -/

/-- The token of a number.  One that does not fit stands for zero. -/
def finishNumber (l : Cursor) (start : Location) : Option TokenKind → Token × Cursor
  | some kind => l.finish start kind
  | none => (l.note start .invalidNumber).finish start (.integer 0)

/-- Reads a hexadecimal number, of which only the digits are cut out. -/
def readHexadecimal (l : Cursor) : Option (Token × Cursor) :=
  let rest := l.look.consume.consume.consumeWhile isHexDigit
  (rest.textFrom? (l.location.offset + 2)).map fun digits =>
    rest.finishNumber l.location (hexadecimalKind? digits)

/-- The characters that stand the given number of bytes behind the current place. -/
def ahead? (l : Cursor) (bytes : Nat) : Option (List Char) :=
  dropBytes? (l.location.offset + bytes) l.input.toList

/-- Reads a point and the digits behind it, and says whether there was one. -/
def readFraction (l : Cursor) : Bool × Cursor :=
  if l.peek = some '.' then (true, l.look.consume.consumeWhile Char.isDigit) else (false, l.look)

/-- Reads a sign before digits. -/
def skipSign (l : Cursor) : Cursor :=
  if l.peek.any fun c => c == '+' || c == '-' then l.look.consume else l.look

/-- Reads a power of ten, as `e3` or `e-3`, and says whether there was one. -/
def readExponent (l : Cursor) : Bool × Cursor :=
  if (l.peek.any fun c => c == 'e' || c == 'E') &&
      ((l.ahead? 1).any fun cs => beginsWithDigit (dropSign cs)) then
    (true, l.look.consume.skipSign.consumeWhile Char.isDigit)
  else (false, l.look)

/-- Reads a decimal number. -/
def readDecimal (l : Cursor) : Option (Token × Cursor) :=
  let fraction := (l.look.consumeWhile Char.isDigit).readFraction
  let exponent := fraction.2.readExponent
  (exponent.2.textFrom? l.location.offset).map fun text =>
    exponent.2.finishNumber l.location (decimalKind? (fraction.1 || exponent.1) text)

/-- Reads a number. -/
def readNumber (l : Cursor) : Option (Token × Cursor) :=
  (l.ahead? 0).bind fun cs => if ['0', 'x'].isPrefixOf cs then l.readHexadecimal else l.readDecimal

/-! ### Strings -/

/-- Reads the rest of a string literal that began at `start` with the given quote.  The characters
of its value so far come with the latest first. -/
def readString (quote : Char) (start : Location) (value : List Char) (l : Cursor) :
    Token × Cursor :=
  match h : l.peek with
  | none => (l.look.note start .unterminatedString).finish start (.string (.ofList value.reverse))
  | some c =>
    let rest := l.look.consume
    if c = quote then rest.finish start (.string (.ofList value.reverse))
    else if c = '\\' then
      match h' : rest.next with
      | (none, rest') =>
        (rest'.note start .unterminatedString).finish start (.string (.ofList value.reverse))
      | (some e, rest') =>
        have := Nat.lt_trans (length_text_next_lt h') (length_text_consume_lt h)
        -- what is no escape is kept as it is written
        match unescape? e with
        | some v => rest'.readString quote start (v :: value)
        | none =>
          (rest'.note rest.location (.invalidEscape e)).readString quote start (e :: '\\' :: value)
    else rest.readString quote start (c :: value)
termination_by l.text.length
decreasing_by
  · assumption
  · rwa [text_note]
  · exact length_text_consume_lt h

/-! ### Tokens -/

/-- There is a token. -/
def found (read : Token × Cursor) : Option Token × Cursor :=
  (some read.1, read.2)

/-- Reads the next token, if there is one.  A character that begins none is a flaw. -/
def token? (l : Cursor) : Option (Option Token × Cursor) :=
  let l' := l.skipBlanks
  match h : l'.peek with
  | none => some (none, l'.look)
  | some c =>
    if c = '"' ∨ c = '\'' then
      some (found (l'.look.consume.readString c l'.location []))
    else if isNameStart c then l'.readWord.map found
    else if c.isDigit || (c == '.' && (l'.ahead? 1).any beginsWithDigit) then
      l'.readNumber.map found
    else
      match singleSign? c with
      | some single => some (found (l'.readSign single (pairSign? c)))
      | none =>
        have : l'.look.consume.text.length < l.text.length :=
          Nat.lt_of_lt_of_le (length_text_consume_lt h) l.length_text_skipBlanks_le
        (l'.look.consume.note l'.location (.illegalCharacter c)).token?
termination_by l.text.length

/-! A token has at least one character. -/

@[simp] theorem text_finish (l : Cursor) (start : Location) (kind : TokenKind) :
    (l.finish start kind).2.text = l.text :=
  l.text_look

@[simp] theorem text_finishNumber (l : Cursor) (start : Location) (kind : Option TokenKind) :
    (l.finishNumber start kind).2.text = l.text := by
  cases kind with
  | none => rw [finishNumber, text_finish, text_note]
  | some kind => exact l.text_finish start kind

theorem length_text_readSign_lt (h : l.peek = some c) (single : Punctuator)
    (pair? : Char → Option Punctuator) :
    (l.readSign single pair?).2.text.length < l.text.length := by
  have shorter := length_text_consume_lt h
  rw [readSign]
  split
  · rw [text_finish]
    refine Nat.lt_of_le_of_lt (length_text_consume_le _) ?_
    rwa [text_look]
  · rwa [text_finish]

theorem isNameRest_of_isNameStart (h : isNameStart c = true) : isNameRest c = true := by
  rcases Bool.or_eq_true_iff.mp h with h | h
  · exact Bool.or_eq_true_iff.mpr (.inl (Bool.or_eq_true_iff.mpr (.inl h)))
  · exact Bool.or_eq_true_iff.mpr (.inr h)

theorem length_text_readWord_lt (h : l.peek = some c) (hc : isNameStart c = true) {t : Token}
    (read : l.readWord = some (t, l')) : l'.text.length < l.text.length := by
  obtain ⟨word, -, hword⟩ := Option.map_eq_some_iff.mp read
  obtain rfl := congrArg Prod.snd hword
  rw [text_finish, text_consumeWhile, text_look, text_of_peek h,
    List.dropWhile_cons_of_pos (isNameRest_of_isNameStart hc)]
  exact Nat.lt_succ_of_le (List.dropWhile_suffix _).length_le

theorem length_text_readHexadecimal_lt (h : l.peek = some c) {t : Token}
    (read : l.readHexadecimal = some (t, l')) : l'.text.length < l.text.length := by
  obtain ⟨digits, -, hdigits⟩ := Option.map_eq_some_iff.mp read
  obtain rfl := congrArg Prod.snd hdigits
  rw [text_finishNumber]
  refine Nat.lt_of_le_of_lt (length_text_consumeWhile_le _ _) ?_
  exact Nat.lt_of_le_of_lt (length_text_consume_le _) (length_text_consume_lt h)

theorem length_text_readFraction_le (l : Cursor) :
    l.readFraction.2.text.length ≤ l.text.length := by
  rw [readFraction]
  split
  · next h =>
    refine Nat.le_trans (length_text_consumeWhile_le _ _) ?_
    exact Nat.le_of_lt (length_text_consume_lt h)
  · exact Nat.le_of_eq (congrArg List.length l.text_look)

theorem length_text_skipSign_le (l : Cursor) : l.skipSign.text.length ≤ l.text.length := by
  rw [skipSign]
  split
  · refine Nat.le_trans (length_text_consume_le _) ?_
    exact Nat.le_of_eq (congrArg List.length l.text_look)
  · exact Nat.le_of_eq (congrArg List.length l.text_look)

theorem length_text_readExponent_le (l : Cursor) :
    l.readExponent.2.text.length ≤ l.text.length := by
  rw [readExponent]
  split
  · refine Nat.le_trans (length_text_consumeWhile_le _ _) ?_
    refine Nat.le_trans (length_text_skipSign_le _) (Nat.le_trans (length_text_consume_le _) ?_)
    exact Nat.le_of_eq (congrArg List.length l.text_look)
  · exact Nat.le_of_eq (congrArg List.length l.text_look)

theorem length_text_readDecimal_lt (h : l.peek = some c) (hc : c.isDigit = true ∨ c = '.')
    {t : Token} (read : l.readDecimal = some (t, l')) : l'.text.length < l.text.length := by
  obtain ⟨text, -, htext⟩ := Option.map_eq_some_iff.mp read
  obtain rfl := congrArg Prod.snd htext
  rw [text_finishNumber]
  refine Nat.lt_of_le_of_lt (length_text_readExponent_le _) ?_
  rcases hc with hc | rfl
  · -- The first digit is read.
    refine Nat.lt_of_le_of_lt (length_text_readFraction_le _) ?_
    rw [text_consumeWhile, text_look, text_of_peek h, List.dropWhile_cons_of_pos hc]
    exact Nat.lt_succ_of_le (List.dropWhile_suffix _).length_le
  · -- No digit stands before the point, which is read.
    have point : (l.look.consumeWhile Char.isDigit).text = l.text := by
      rw [text_consumeWhile, text_look, text_of_peek h, List.dropWhile_cons_of_neg (by decide)]
    have hpeek : (l.look.consumeWhile Char.isDigit).peek = some '.' := by
      rw [peek_eq_head?, point, ← peek_eq_head?, h]
    rw [readFraction, if_pos hpeek, ← point]
    exact Nat.lt_of_le_of_lt (length_text_consumeWhile_le _ _) (length_text_consume_lt hpeek)

theorem length_text_readNumber_lt (h : l.peek = some c) (hc : c.isDigit = true ∨ c = '.')
    {t : Token} (read : l.readNumber = some (t, l')) : l'.text.length < l.text.length := by
  obtain ⟨cs, -, hcs⟩ := Option.bind_eq_some_iff.mp read
  split at hcs
  · exact length_text_readHexadecimal_lt h hcs
  · exact length_text_readDecimal_lt h hc hcs

theorem length_text_readString_le (quote : Char) (start : Location) (value : List Char)
    (l : Cursor) : (l.readString quote start value).2.text.length ≤ l.text.length := by
  fun_induction readString quote start value l with
  | case1 value l h => exact Nat.le_of_eq (by rw [text_finish, text_note, text_look])
  | case2 value l rest h =>
    rw [text_finish]
    exact Nat.le_of_lt (length_text_consume_lt h)
  | case3 value l rest rest' h' h =>
    rw [text_finish, text_note]
    have shorter := rest.length_text_next_le
    rw [h'] at shorter
    exact Nat.le_trans shorter (Nat.le_of_lt (length_text_consume_lt h))
  | case4 value l rest e rest' h' v hv h _ shorter ih =>
    exact Nat.le_trans ih (Nat.le_of_lt shorter)
  | case5 value l rest e rest' h' hv h _ shorter ih =>
    rw [text_note] at ih
    exact Nat.le_trans ih (Nat.le_of_lt shorter)
  | case6 value l c h rest _ _ ih =>
    exact Nat.le_trans ih (Nat.le_of_lt (length_text_consume_lt h))

/-- **A token has at least one character.** -/
theorem length_text_token?_lt {t : Token} (read : l.token? = some (some t, l')) :
    l'.text.length < l.text.length := by
  -- Whatever is read begins behind the blanks, and with the character there.
  fun_induction token? l with
  | case1 => cases read
  | case2 l unread c h =>
    cases read
    refine Nat.lt_of_lt_of_le ?_ l.length_text_skipBlanks_le
    exact Nat.lt_of_le_of_lt (length_text_readString_le _ _ _ _) (length_text_consume_lt h)
  | case3 l unread c h _ hc =>
    obtain ⟨word, hword, hfound⟩ := Option.map_eq_some_iff.mp read
    cases hfound
    refine Nat.lt_of_lt_of_le ?_ l.length_text_skipBlanks_le
    exact length_text_readWord_lt h hc hword
  | case4 l unread c h _ _ hc =>
    obtain ⟨number, hnumber, hfound⟩ := Option.map_eq_some_iff.mp read
    cases hfound
    refine Nat.lt_of_lt_of_le ?_ l.length_text_skipBlanks_le
    refine length_text_readNumber_lt h ?_ hnumber
    rw [Bool.or_eq_true, Bool.and_eq_true, beq_iff_eq] at hc
    exact hc.imp_right And.left
  | case5 l unread c h _ _ _ single hsingle =>
    cases read
    refine Nat.lt_of_lt_of_le ?_ l.length_text_skipBlanks_le
    exact length_text_readSign_lt h single (pairSign? c)
  -- an illegal character is consumed before the next attempt
  | case6 l unread c h _ _ _ _ shorter ih => exact Nat.lt_trans (ih read) shorter

/-- Reads all tokens. -/
def collect (tokens : List Token) (l : Cursor) : Option Lexed :=
  match h : l.token? with
  | none => none
  | some (none, l') => some ⟨tokens.reverse, l'.errors.reverse⟩
  | some (some t, l') =>
    have := length_text_token?_lt h
    l'.collect (t :: tokens)
termination_by l.text.length

end

end Cursor

/-- All tokens and flaws of a source text.  Nothing is read if the text is cut inside a character,
which never happens. -/
def lex (source : String) : Lexed :=
  (Cursor.collect [] (.start source)).getD ⟨[], []⟩

end StepScript
