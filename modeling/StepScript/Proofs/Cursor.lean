import StepScript.Proofs.Scan

/-!
# The place of the cursor

A place is what can be counted before it: bytes, line breaks, and characters since the last line
break.  The cursor of the lexer does not count anew.  It carries along the place of the character
that it looks at, and the line and column behind that.  It still stands where counting says,
whatever characters it has read, so that it never cuts the text inside a character.  What it reads
is then what is read off the list of the remaining characters.

## Main definitions

* `Location.behind` — the place behind a text, by counting.
* `Cursor.standing` — the cursor between the characters that it has read and those to come.

## Main results

* `Location.after_behind` — carrying a place along is counting.
* `Cursor.location_standing`, `Cursor.consume_standing` — a cursor stands at the counted place, and
  goes on to the next one.
* `Cursor.textFrom?_standing` — what lies between two places can be cut out.
* `Cursor.collect_standing` — the cursor reads what is read off the list.
* `lex_eq_lexFrom` — **the lexer reads off the list of characters**, and never fails to.
-/

namespace StepScript

/-! ### Places -/

namespace Location

/-- The place behind a text that stands at the start. -/
def behind (text : List Char) : Location where
  offset := (String.ofList text).utf8ByteSize
  line := text.count '\n'
  column := (text.reverse.takeWhile (· != '\n')).length

theorem offset_behind_append (before text : List Char) :
    (behind (before ++ text)).offset = (behind before).offset + (behind text).offset := by
  simp only [behind, String.ofList_append, String.utf8ByteSize_append]

theorem offset_behind_singleton (c : Char) : (behind [c]).offset = c.utf8Size := by
  simp [behind]

theorem offset_behind_cons (c : Char) (text : List Char) :
    (behind (c :: text)).offset = c.utf8Size + (behind text).offset := by
  rw [← List.singleton_append, offset_behind_append, offset_behind_singleton]

theorem behind_concat (text : List Char) (c : Char) :
    behind (text ++ [c]) = (behind text).next c := by
  have hsize : (String.ofList (text ++ [c])).utf8ByteSize =
      (String.ofList text).utf8ByteSize + c.utf8Size := by
    rw [String.ofList_append, String.utf8ByteSize_append, String.ofList_cons]
    simp
  by_cases hc : c = '\n'
  · subst hc
    simp only [behind, next, hsize]
    simp
  · simp only [behind, next, hsize]
    simp [hc]

/-- **Carrying a place along is counting.** -/
theorem after_behind (before text : List Char) :
    (behind before).after text = behind (before ++ text) := by
  induction text generalizing before with
  | nil => simp
  | cons c text ih =>
    rw [after_cons, ← behind_concat, ih, List.append_assoc, List.singleton_append]

theorem offset_behind_le (before text : List Char) :
    (behind before).offset ≤ (behind (before ++ text)).offset := by
  rw [offset_behind_append]
  exact Nat.le_add_right _ _

theorem offset_behind_lt (before : List Char) {text : List Char} (h : text ≠ []) :
    (behind before).offset < (behind (before ++ text)).offset := by
  obtain ⟨c, rest, rfl⟩ := List.exists_cons_of_ne_nil h
  have hc := Char.utf8Size_pos c
  rw [offset_behind_append, offset_behind_cons]
  omega

end Location

/-! ### Cutting texts -/

theorem dropBytes?_append (before text : List Char) :
    dropBytes? (Location.behind before).offset (before ++ text) = some text := by
  induction before with
  | nil => exact dropBytes?.eq_1 text
  | cons c before ih =>
    have pos := Char.utf8Size_pos c
    obtain ⟨n, hn⟩ : ∃ n, (Location.behind (c :: before)).offset = n + 1 :=
      Nat.exists_eq_add_one_of_ne_zero (by rw [Location.offset_behind_cons]; omega)
    rw [hn, List.cons_append, dropBytes?, if_pos (by rw [← hn, Location.offset_behind_cons]; omega),
      ← hn, Location.offset_behind_cons, Nat.add_sub_cancel_left, ih]

theorem takeBytes?_append (text rest : List Char) :
    takeBytes? (Location.behind text).offset (text ++ rest) = some text := by
  induction text with
  | nil => exact takeBytes?.eq_1 rest
  | cons c text ih =>
    have pos := Char.utf8Size_pos c
    obtain ⟨n, hn⟩ : ∃ n, (Location.behind (c :: text)).offset = n + 1 :=
      Nat.exists_eq_add_one_of_ne_zero (by rw [Location.offset_behind_cons]; omega)
    rw [hn, List.cons_append, takeBytes?, if_pos (by rw [← hn, Location.offset_behind_cons]; omega),
      ← hn, Location.offset_behind_cons, Nat.add_sub_cancel_left, ih, Option.map_some]

/-- Between two places there is always a text. -/
theorem slice?_append (before text rest : List Char) :
    slice? (Location.behind before).offset (Location.behind (before ++ text)).offset
      (before ++ (text ++ rest)) = some text := by
  rw [slice?, if_pos (Location.offset_behind_le before text), dropBytes?_append, Option.bind_some,
    Location.offset_behind_append, Nat.add_sub_cancel_left, takeBytes?_append]

namespace Cursor

/-! ### Standing cursors -/

/-- The cursor that has read the characters `before`, and looks at the first one of `after`. -/
def standing (before : List Char) : List Char → List LexError → Cursor
  | [], errors =>
    ⟨.ofList before, [], none, (Location.behind before).line, (Location.behind before).column,
      errors⟩
  | c :: after, errors =>
    let next := (Location.behind before).next c
    ⟨.ofList (before ++ c :: after), charOffsets next.offset after,
      some (.behind before, c), next.line, next.column, errors⟩

variable {before after : List Char} {errors : List LexError}

@[simp] theorem look_standing :
    (standing before after errors).look = standing before after errors := by
  cases after <;> rfl

@[simp] theorem peek_standing : (standing before after errors).peek = after.head? := by
  cases after <;> rfl

theorem input_standing : (standing before after errors).input.toList = before ++ after := by
  cases after with
  | nil => exact (String.toList_ofList).trans (List.append_nil before).symm
  | cons c after => exact String.toList_ofList

@[simp] theorem note_standing (place : Location) (flaw : LexFlaw) :
    (standing before after errors).note place flaw =
      standing before after (⟨place, flaw⟩ :: errors) := by
  cases after <;> rfl

@[simp] theorem errors_standing : (standing before after errors).errors = errors := by
  cases after <;> rfl

/-- **A cursor stands at the place that can be counted.** -/
@[simp] theorem location_standing :
    (standing before after errors).location = .behind before := by
  cases after <;> rfl

/-- A cursor that has not looked yet looks at the character at its place. -/
theorem look_eq_standing (place : Location) (hplace : place = .behind before) :
    look ⟨.ofList (before ++ after), charOffsets place.offset after, none, place.line,
      place.column, errors⟩ = standing before after errors := by
  subst hplace
  cases after with
  | nil =>
    rw [List.append_nil]
    rfl
  | cons c after =>
    rw [charOffsets, look, standing]
    by_cases hc : c = '\n'
    · simp [hc, Location.next]
    · simp [hc, Location.next]

/-- **A cursor goes on to the place behind the next character.** -/
@[simp] theorem consume_standing (c : Char) :
    (standing before (c :: after) errors).consume = standing (before ++ [c]) after errors := by
  have moved := @look_eq_standing (before ++ [c]) after errors _
    (Location.behind_concat before c).symm
  rw [List.append_assoc, List.singleton_append] at moved
  exact moved

theorem look_start (source : String) : (start source).look = standing [] source.toList [] := by
  have looked := @look_eq_standing [] source.toList [] .origin rfl
  rw [List.nil_append, String.ofList_toList] at looked
  exact looked

/-- What lies behind the characters that have been read can be looked up. -/
theorem ahead?_standing (skipped : List Char) :
    (standing before (skipped ++ after) errors).ahead? (Location.behind skipped).offset =
      some after := by
  rw [ahead?, input_standing, location_standing, ← Location.offset_behind_append,
    ← List.append_assoc, dropBytes?_append]

/-- What has been read since some place can be cut out. -/
theorem textFrom?_standing (word : List Char) :
    (standing (before ++ word) after errors).textFrom? (Location.behind before).offset =
      some word := by
  rw [textFrom?, input_standing, location_standing, List.append_assoc, slice?_append]

/-! ### Blanks -/

section

variable {l l' : Cursor} {c : Char}

theorem consumeWhile_of_peek (p : Char → Bool) (h : l.peek = some c) :
    l.consumeWhile p = if p c then l.look.consume.consumeWhile p else l.look := by
  rw [consumeWhile]
  split
  · next h' =>
    cases h.symm.trans h'
    rfl
  · next h' => cases h.symm.trans h'

theorem consumeWhile_of_peek_eq_none (p : Char → Bool) (h : l.peek = none) :
    l.consumeWhile p = l.look := by
  rw [consumeWhile]
  split
  · next h' => cases h.symm.trans h'
  · rfl

theorem skipLine_of_next (h : l.next = (some c, l')) :
    l.skipLine = if c = '\n' then l' else l'.skipLine := by
  rw [skipLine]
  split
  · next h' =>
    cases h.symm.trans h'
    rfl
  · next h' => cases h.symm.trans h'

theorem skipLine_of_next_eq_none (h : l.next = (none, l')) : l.skipLine = l' := by
  rw [skipLine]
  split
  · next h' => cases h.symm.trans h'
  · next h' =>
    cases h.symm.trans h'
    rfl

theorem skipBlanks_of_peek (h : l.peek = some c) :
    l.skipBlanks = if c = '#' then l.skipLine.skipBlanks
      else if isBlank c then l.look.consume.skipBlanks else l.look := by
  rw [skipBlanks]
  split
  · next h' =>
    cases h.symm.trans h'
    rfl
  · next h' => cases h.symm.trans h'

theorem skipBlanks_of_peek_eq_none (h : l.peek = none) : l.skipBlanks = l.look := by
  rw [skipBlanks]
  split
  · next h' => cases h.symm.trans h'
  · rfl

/-! Whether the cursor has looked before makes no difference. -/

theorem next_look (l : Cursor) : l.look.next = l.next := by
  rw [next, next, peek_look, look_look]

theorem skipLine_look (l : Cursor) : l.look.skipLine = l.skipLine := by
  rcases h : l.next with ⟨_ | c, l'⟩
  · rw [skipLine_of_next_eq_none h, skipLine_of_next_eq_none (l.next_look.trans h)]
  · rw [skipLine_of_next h, skipLine_of_next (l.next_look.trans h)]

theorem skipBlanks_look (l : Cursor) : l.look.skipBlanks = l.skipBlanks := by
  cases h : l.peek with
  | none =>
    rw [skipBlanks_of_peek_eq_none h, skipBlanks_of_peek_eq_none (l.peek_look.trans h), look_look]
  | some c =>
    rw [skipBlanks_of_peek h, skipBlanks_of_peek (l.peek_look.trans h), look_look, skipLine_look]

end

@[simp] theorem consumeWhile_standing (p : Char → Bool) :
    (standing before after errors).consumeWhile p =
      standing (before ++ after.takeWhile p) (after.dropWhile p) errors := by
  induction after generalizing before with
  | nil =>
    rw [consumeWhile_of_peek_eq_none p peek_standing, look_standing, List.takeWhile_nil,
      List.dropWhile_nil, List.append_nil]
  | cons c after ih =>
    rw [consumeWhile_of_peek p peek_standing, look_standing, consume_standing, ih]
    cases hc : p c with
    | true => simp [hc]
    | false => simp [hc]

theorem next_standing (c : Char) :
    (standing before (c :: after) errors).next =
      (some c, standing (before ++ [c]) after errors) := by
  rw [next_of_peek peek_standing, look_standing, consume_standing]

theorem next_standing_nil :
    (standing before [] errors).next = (none, standing before [] errors) := by
  rw [next_of_peek_eq_none peek_standing, look_standing]

/-- A line is read with the line break that ends it, if there is one. -/
theorem skipLine_standing_of_not_mem {line : List Char} (h : '\n' ∉ line)
    (hend : after = [] ∨ ∃ rest, after = '\n' :: rest) :
    (standing before (line ++ after) errors).skipLine =
      standing (before ++ (line ++ after.take 1)) (after.drop 1) errors := by
  induction line generalizing before with
  | nil =>
    rcases hend with rfl | ⟨rest, rfl⟩
    · rw [List.append_nil, skipLine_of_next_eq_none next_standing_nil, List.take_nil,
        List.drop_nil, List.append_nil, List.append_nil]
    · rw [List.nil_append, skipLine_of_next (next_standing '\n'), if_pos rfl]
      rfl
  | cons c line ih =>
    rw [List.mem_cons, not_or] at h
    rw [List.cons_append, skipLine_of_next (next_standing c), if_neg (Ne.symm h.1), ih h.2,
      List.append_assoc]
    rfl

/-! ### Tokens -/

/-- What the cursor reads from the place behind `before` on is the token of a reading. -/
def Reads (before : List Char) (errors : List LexError) (r : Reading) (read : Token × Cursor) :
    Prop :=
  ∃ kind inner, r.piece = .token kind inner ∧
    read = (⟨kind, ⟨.behind before, .behind (before ++ r.text)⟩⟩,
      standing (before ++ r.text) r.rest (inner.reverse ++ errors))

theorem finish_standing (start : Location) (kind : TokenKind) :
    (standing before after errors).finish start kind =
      (⟨kind, ⟨start, .behind before⟩⟩, standing before after errors) := by
  rw [finish, location_standing, look_standing]

theorem readSign_standing {c : Char} {single : Punctuator} (h : singleSign? c = some single) :
    ∃ p n, sign? (c :: after) = some (p, n) ∧
      (standing before (c :: after) errors).readSign single (pairSign? c) =
        (⟨.punctuator p, ⟨.behind before, .behind (before ++ (c :: after).take n)⟩⟩,
          standing (before ++ (c :: after).take n) ((c :: after).drop n) errors) := by
  rw [readSign]
  simp only [look_standing, consume_standing, peek_standing, location_standing]
  cases after with
  | nil =>
    refine ⟨single, 1, ?_, ?_⟩
    · rw [sign?, h, Option.map_some]
    · rw [List.head?_nil, Option.bind_none]
      exact finish_standing _ _
  | cons d after =>
    rw [List.head?_cons, Option.bind_some, sign?]
    cases hpair : pairSign? c d with
    | none =>
      refine ⟨single, 1, ?_, ?_⟩
      · rw [h, Option.map_some]
      · exact finish_standing _ _
    | some double =>
      refine ⟨double, 2, rfl, ?_⟩
      simp only [consume_standing, finish_standing, List.append_assoc, List.singleton_append]
      rfl

theorem readWord_standing {c : Char} (h : isNameStart c = true) :
    (standing before (c :: after) errors).readWord =
      some (⟨wordKind (.ofList (c :: after.takeWhile isNameRest)),
        ⟨.behind before, .behind (before ++ c :: after.takeWhile isNameRest)⟩⟩,
        standing (before ++ c :: after.takeWhile isNameRest) (after.dropWhile isNameRest)
          errors) := by
  have hc := isNameRest_of_isNameStart h
  rw [readWord]
  simp only [look_standing, consumeWhile_standing, location_standing,
    List.takeWhile_cons_of_pos hc, List.dropWhile_cons_of_pos hc, textFrom?_standing,
    Option.map_some, finish_standing]

/-! ### Numbers -/

theorem reads_finishNumber (word rest : List Char) (kind : Option TokenKind) :
    Reads before errors ⟨numberPiece (.behind before) kind, word, rest⟩
      ((standing (before ++ word) rest errors).finishNumber (.behind before) kind) := by
  cases kind with
  | some kind => exact ⟨kind, [], rfl, finish_standing _ _⟩
  | none =>
    refine ⟨.integer 0, [⟨.behind before, .invalidNumber⟩], rfl, ?_⟩
    rw [finishNumber, note_standing, finish_standing]
    rfl

theorem readHexadecimal_standing (ds : List Char) :
    ∃ read, (standing before ('0' :: 'x' :: ds) errors).readHexadecimal = some read ∧
      Reads before errors (scanNumber (.behind before) ('0' :: 'x' :: ds)) read := by
  have two : (Location.behind before).offset + 2 =
      (Location.behind (before ++ ['0', 'x'])).offset := by
    rw [Location.offset_behind_append]
    rfl
  have moved : (standing before ('0' :: 'x' :: ds) errors).look.consume.consume.consumeWhile
      isHexDigit = standing (before ++ ['0', 'x'] ++ ds.takeWhile isHexDigit)
        (ds.dropWhile isHexDigit) errors := by
    rw [look_standing, consume_standing, consume_standing, consumeWhile_standing,
      List.append_assoc before]
    rfl
  refine ⟨_, ?_, reads_finishNumber _ _ _⟩
  rw [readHexadecimal, moved, location_standing, two, textFrom?_standing, Option.map_some,
    List.append_assoc before]
  rfl

/-- The length of the point that a text begins with, and of the digits behind it. -/
def fractionLength : List Char → Nat
  | c :: ds => if c = '.' then (ds.takeWhile Char.isDigit).length + 1 else 0
  | [] => 0

theorem decimalLength_eq (cs : List Char) :
    decimalLength cs =
      let rest := cs.dropWhile Char.isDigit
      let point := fractionLength rest
      let exponent := exponentLength (rest.drop point)
      ((cs.takeWhile Char.isDigit).length + point + exponent, point != 0 || exponent != 0) := by
  unfold decimalLength
  generalize cs.dropWhile Char.isDigit = rest
  rcases rest with _ | ⟨c, ds⟩
  · rfl
  by_cases point : c = '.'
  · subst point
    simp only [fractionLength, if_pos, List.drop_succ_cons, drop_length_takeWhile, Nat.add_comm 1]
  · simp [fractionLength, point]

theorem readFraction_standing :
    (standing before after errors).readFraction =
      (fractionLength after != 0, standing (before ++ after.take (fractionLength after))
        (after.drop (fractionLength after)) errors) := by
  rcases after with _ | ⟨c, ds⟩
  · simp [readFraction, fractionLength]
  by_cases point : c = '.'
  · subst point
    have hpeek : (standing before ('.' :: ds) errors).peek = some '.' := peek_standing
    rw [readFraction, if_pos hpeek, look_standing, consume_standing, consumeWhile_standing,
      fractionLength, if_pos rfl, List.take_succ_cons, List.drop_succ_cons, take_length_takeWhile,
      drop_length_takeWhile, List.append_assoc, List.singleton_append]
    rfl
  · simp [readFraction, fractionLength, point]

/-- The length of the sign that a text begins with. -/
def signLength : List Char → Nat
  | c :: _ => if c == '+' || c == '-' then 1 else 0
  | [] => 0

theorem drop_signLength (cs : List Char) : cs.drop (signLength cs) = dropSign cs := by
  rcases cs with _ | ⟨c, cs⟩
  · rfl
  · rw [signLength, dropSign]
    split <;> rfl

/-- A power of ten is a letter, a sign if need be, and digits. -/
theorem exponentLength_cons {c : Char} (hc : (c == 'e' || c == 'E') = true) (cs : List Char) :
    exponentLength (c :: cs) =
      if beginsWithDigit (dropSign cs) then
        signLength cs + ((dropSign cs).takeWhile Char.isDigit).length + 1
      else 0 := by
  rcases cs with _ | ⟨s, ds⟩
  · simp [exponentLength, dropSign, beginsWithDigit]
  cases hs : s == '+' || s == '-' with
  | true =>
    -- a sign is no digit itself, so that nothing is read without digits behind it
    have digit : s.isDigit = false := by
      rw [← Bool.not_eq_true]
      intro digit
      cases (not_sign_of_isDigit digit).symm.trans hs
    simp [exponentLength, dropSign, signLength, hc, hs, digit, Nat.add_comm 1, Nat.add_comm 2]
  | false => simp [exponentLength, dropSign, signLength, beginsWithDigit, hc, hs, Nat.add_comm 1]

theorem skipSign_standing (cs : List Char) :
    (standing before cs errors).skipSign =
      standing (before ++ cs.take (signLength cs)) (dropSign cs) errors := by
  rcases cs with _ | ⟨s, ds⟩
  · simp [skipSign, signLength, dropSign]
  · rw [skipSign, peek_standing, List.head?_cons, Option.any_some, look_standing,
      consume_standing, signLength, dropSign]
    split <;> simp

/-- A power of ten stands behind a letter that is followed by its digits. -/
theorem exponent_standing {c : Char} (hc : (c == 'e' || c == 'E') = true) (cs : List Char) :
    (standing before (c :: cs) errors).readExponent =
      if beginsWithDigit (dropSign cs) then
        (true, (standing (before ++ [c]) cs errors).skipSign.consumeWhile Char.isDigit)
      else (false, standing before (c :: cs) errors) := by
  have one : (Location.behind [c]).offset = 1 := by
    rw [Bool.or_eq_true, beq_iff_eq, beq_iff_eq] at hc
    rcases hc with rfl | rfl <;> rfl
  have ahead := @ahead?_standing before cs errors [c]
  rw [List.singleton_append, one] at ahead
  rw [readExponent, peek_standing, List.head?_cons, Option.any_some, hc, Bool.true_and, ahead,
    Option.any_some, look_standing, consume_standing]

theorem readExponent_standing :
    (standing before after errors).readExponent =
      (exponentLength after != 0, standing (before ++ after.take (exponentLength after))
        (after.drop (exponentLength after)) errors) := by
  rcases after with _ | ⟨c, cs⟩
  · simp [readExponent, exponentLength]
  cases hc : c == 'e' || c == 'E' with
  | false => simp [readExponent, exponentLength, hc]
  | true =>
    rw [exponent_standing hc, exponentLength_cons hc]
    cases beginsWithDigit (dropSign cs) with
    | false => simp
    | true =>
      rw [if_pos rfl, if_pos rfl, skipSign_standing, consumeWhile_standing, List.take_succ_cons,
        List.drop_succ_cons, List.take_add, ← List.drop_drop, drop_signLength,
        take_length_takeWhile, drop_length_takeWhile]
      simp

theorem readDecimal_standing {cs : List Char} (h : ∀ ds, cs ≠ '0' :: 'x' :: ds) :
    ∃ read, (standing before cs errors).readDecimal = some read ∧
      Reads before errors (scanNumber (.behind before) cs) read := by
  let whole := (cs.takeWhile Char.isDigit).length
  let point := fractionLength (cs.drop whole)
  let exponent := exponentLength ((cs.drop whole).drop point)
  have digits : (standing before cs errors).look.consumeWhile Char.isDigit =
      standing (before ++ cs.take whole) (cs.drop whole) errors := by
    rw [look_standing, consumeWhile_standing, take_length_takeWhile, drop_length_takeWhile]
  have length : decimalLength cs = (whole + point + exponent, point != 0 || exponent != 0) := by
    rw [decimalLength_eq, ← drop_length_takeWhile]
  -- Three parts are read one after the other, and make up the text of the number.
  have text : cs.take whole ++ ((cs.drop whole).take point ++
      ((cs.drop whole).drop point).take exponent) = cs.take (whole + point + exponent) := by
    rw [List.drop_drop, ← List.append_assoc, ← List.take_add, ← List.take_add]
  have rest : ((cs.drop whole).drop point).drop exponent = cs.drop (whole + point + exponent) := by
    rw [List.drop_drop, List.drop_drop, Nat.add_assoc]
  rw [scanNumber_of_decimal h, length]
  refine ⟨_, ?_, reads_finishNumber _ _ _⟩
  rw [readDecimal, digits, readFraction_standing]
  simp only [readExponent_standing, location_standing]
  rw [List.append_assoc, List.append_assoc, text, rest, textFrom?_standing, Option.map_some]

theorem readNumber_standing (cs : List Char) :
    ∃ read, (standing before cs errors).readNumber = some read ∧
      Reads before errors (scanNumber (.behind before) cs) read := by
  have ahead : (standing before cs errors).ahead? 0 = some cs :=
    @ahead?_standing before cs errors []
  rw [readNumber, ahead, Option.bind_some]
  by_cases hex : ∃ ds, cs = '0' :: 'x' :: ds
  · obtain ⟨ds, rfl⟩ := hex
    exact readHexadecimal_standing ds
  · rw [if_neg]
    · exact readDecimal_standing fun ds h => hex ⟨ds, h⟩
    · rw [List.isPrefixOf_iff_prefix]
      rintro ⟨ds, rfl⟩
      exact hex ⟨ds, rfl⟩

/-! ### Strings -/

section

variable {quote : Char} (start : Location) (value : List Char) {l : Cursor} {c : Char}

theorem readString_of_peek_eq_none (h : l.peek = none) :
    l.readString quote start value =
      (l.look.note start .unterminatedString).finish start (.string (.ofList value.reverse)) := by
  rw [readString]
  split
  · rfl
  · next h' => cases h.symm.trans h'

theorem readString_of_peek (h : l.peek = some c) (plain : c ≠ '\\' ∨ c = quote) :
    l.readString quote start value =
      if c = quote then l.look.consume.finish start (.string (.ofList value.reverse))
      else l.look.consume.readString quote start (c :: value) := by
  rw [readString]
  split
  · next h' => cases h.symm.trans h'
  · next h' =>
    cases h.symm.trans h'
    by_cases hquote : c = quote
    · rw [if_pos hquote, if_pos hquote]
    · rw [if_neg hquote, if_neg hquote, if_neg (plain.resolve_right hquote)]

theorem readString_of_slash (h : l.peek = some '\\') (hslash : '\\' ≠ quote) :
    l.readString quote start value =
      match l.look.consume.next with
      | (none, rest) =>
        (rest.note start .unterminatedString).finish start (.string (.ofList value.reverse))
      | (some e, rest) =>
        match unescape? e with
        | some v => rest.readString quote start (v :: value)
        | none =>
          (rest.note l.look.consume.location (.invalidEscape e)).readString quote start
            (e :: '\\' :: value) := by
  rw [readString]
  split
  · next h' => cases h.symm.trans h'
  · next h' =>
    cases h.symm.trans h'
    rw [if_neg hslash, if_pos rfl]
    split
    · next hnext => rw [hnext]
    · next e _ hnext =>
      cases hv : unescape? e <;> simp only [hnext, hv]

theorem readString_nil :
    (standing before [] errors).readString quote start value =
      (⟨.string (.ofList value.reverse), ⟨start, .behind before⟩⟩,
        standing before [] (⟨start, .unterminatedString⟩ :: errors)) := by
  rw [readString_of_peek_eq_none _ _ peek_standing, look_standing, note_standing, finish_standing]

theorem readString_quote :
    (standing before (quote :: after) errors).readString quote start value =
      (⟨.string (.ofList value.reverse), ⟨start, .behind (before ++ [quote])⟩⟩,
        standing (before ++ [quote]) after errors) := by
  rw [readString_of_peek _ _ peek_standing (.inr rfl), if_pos rfl, look_standing, consume_standing,
    finish_standing]

theorem readString_other (hquote : c ≠ quote) (hslash : c ≠ '\\') :
    (standing before (c :: after) errors).readString quote start value =
      (standing (before ++ [c]) after errors).readString quote start (c :: value) := by
  rw [readString_of_peek _ _ peek_standing (.inl hslash), if_neg hquote, look_standing,
    consume_standing]

theorem readString_slash_nil (hslash : '\\' ≠ quote) :
    (standing before ['\\'] errors).readString quote start value =
      (⟨.string (.ofList value.reverse), ⟨start, .behind (before ++ ['\\'])⟩⟩,
        standing (before ++ ['\\']) [] (⟨start, .unterminatedString⟩ :: errors)) := by
  rw [readString_of_slash _ _ peek_standing hslash, look_standing, consume_standing,
    next_standing_nil]
  dsimp only
  rw [note_standing, finish_standing]

/-- Behind a backslash stands a character with its own place. -/
theorem next_slash (e : Char) :
    (standing before ('\\' :: e :: after) errors).look.consume.next =
      (some e, standing (before ++ ['\\', e]) after errors) := by
  rw [look_standing, consume_standing, next_standing, List.append_assoc, List.singleton_append]

theorem readString_escape (hslash : '\\' ≠ quote) {e v : Char} (hv : unescape? e = some v) :
    (standing before ('\\' :: e :: after) errors).readString quote start value =
      (standing (before ++ ['\\', e]) after errors).readString quote start (v :: value) := by
  rw [readString_of_slash _ _ peek_standing hslash, next_slash]
  dsimp only
  rw [hv]

theorem readString_unknown (hslash : '\\' ≠ quote) {e : Char} (hv : unescape? e = none) :
    (standing before ('\\' :: e :: after) errors).readString quote start value =
      (standing (before ++ ['\\', e]) after
        (⟨.behind (before ++ ['\\']), .invalidEscape e⟩ :: errors)).readString quote start
          (e :: '\\' :: value) := by
  rw [readString_of_slash _ _ peek_standing hslash, next_slash]
  dsimp only
  rw [hv, look_standing, consume_standing, location_standing, note_standing]

end

theorem reads_finish (body : StringBody) (closing : List LexError) (rest : List Char) :
    Reads before errors (body.finish closing rest)
      (⟨.string (.ofList body.value.reverse),
          ⟨.behind before, .behind (before ++ body.text.reverse)⟩⟩,
        standing (before ++ body.text.reverse) rest
          (closing.reverse ++ (body.errors ++ errors))) := by
  refine ⟨_, body.errors.reverse ++ closing, rfl, ?_⟩
  rw [List.reverse_append, List.reverse_reverse, List.append_assoc]
  rfl

/-- **A string literal is read off the list**, with all that is wrong inside it. -/
theorem reads_readString {quote : Char} (here : Location) (body : StringBody) (cs : List Char)
    (hhere : here = .behind (before ++ body.text.reverse)) :
    Reads before errors (scanString quote (.behind before) here body cs)
      ((standing (before ++ body.text.reverse) cs (body.errors ++ errors)).readString quote
        (.behind before) body.value) := by
  have concat (text : List Char) (c : Char) :
      before ++ (c :: text).reverse = before ++ text.reverse ++ [c] := by
    rw [List.reverse_cons, List.append_assoc]
  have concatTwo (text : List Char) (c d : Char) :
      before ++ (d :: c :: text).reverse = before ++ text.reverse ++ [c, d] := by
    rw [concat, concat, List.append_assoc, List.singleton_append]
  -- Along the list: the text so far says where the cursor stands.
  fun_induction scanString quote (.behind before) here body cs with
  | case1 here body =>
    rw [readString_nil]
    exact reads_finish body [⟨.behind before, .unterminatedString⟩] []
  | case2 here body cs =>
    rw [readString_quote, ← concat]
    exact reads_finish { body with text := quote :: body.text } [] cs
  | case3 here body hslash =>
    rw [readString_slash_nil _ _ hslash, ← concat]
    exact reads_finish { body with text := '\\' :: body.text }
      [⟨.behind before, .unterminatedString⟩] []
  | case4 here body e es v hv hslash text ih =>
    rw [readString_escape _ _ hslash hv, ← concatTwo]
    refine ih ?_
    rw [hhere, concatTwo, ← Location.behind_concat, ← Location.behind_concat, List.append_assoc,
      List.append_assoc, List.append_assoc]
    rfl
  | case5 here body e es hv hslash text ih =>
    rw [readString_unknown _ _ hslash hv, ← concatTwo]
    have moved : here.next '\\' = .behind (before ++ body.text.reverse ++ ['\\']) := by
      rw [hhere, Location.behind_concat]
    rw [← moved]
    refine ih ?_
    rw [moved, concatTwo, ← Location.behind_concat, List.append_assoc, List.append_assoc,
      List.append_assoc]
    rfl
  | case6 here body c cs hquote hslash ih =>
    rw [readString_other _ _ hquote hslash, ← concat]
    refine ih ?_
    rw [hhere, concat, Location.behind_concat]

/-! ### The loop -/

section

variable {l l' : Cursor} {c : Char}

theorem token?_of_peek (h : l.skipBlanks.peek = some c) :
    l.token? =
      let unread := l.skipBlanks
      if c = '"' ∨ c = '\'' then
        some (found (unread.look.consume.readString c unread.location []))
      else if isNameStart c then unread.readWord.map found
      else if c.isDigit || (c == '.' && (unread.ahead? 1).any beginsWithDigit) then
        unread.readNumber.map found
      else
        match singleSign? c with
        | some single => some (found (unread.readSign single (pairSign? c)))
        | none => (unread.look.consume.note unread.location (.illegalCharacter c)).token? := by
  rw [token?]
  split
  · next h' => cases h.symm.trans h'
  · next h' =>
    cases h.symm.trans h'
    rfl

theorem token?_of_peek_eq_none (h : l.skipBlanks.peek = none) :
    l.token? = some (none, l.skipBlanks.look) := by
  rw [token?]
  split
  · rfl
  · next h' => cases h.symm.trans h'

/-- The next token depends only on what is behind the blanks. -/
theorem token?_congr (h : l.skipBlanks = l'.skipBlanks) : l.token? = l'.token? := by
  cases hpeek : l.skipBlanks.peek with
  | none => rw [token?_of_peek_eq_none hpeek, token?_of_peek_eq_none (h ▸ hpeek), h]
  | some c => rw [token?_of_peek hpeek, token?_of_peek (h ▸ hpeek), h]

theorem collect_eq (tokens : List Token) (l : Cursor) :
    l.collect tokens = l.token?.bind fun
      | (none, l') => some ⟨tokens.reverse, l'.errors.reverse⟩
      | (some t, l') => l'.collect (t :: tokens) := by
  rw [collect]
  split
  · next h => rw [h, Option.bind_none]
  · next h => rw [h, Option.bind_some]
  · next h => simp only [h, Option.bind_some]

end

/-- The cursor goes on as the step that a reading is off the list. -/
def Agrees (before : List Char) (errors : List LexError) (r : Reading) (l : Cursor) : Prop :=
  match r.piece with
  | .blank => l.token? = (standing (before ++ r.text) r.rest errors).token?
  | .illegal c =>
    l.token? = (standing (before ++ r.text) r.rest
      (⟨.behind before, .illegalCharacter c⟩ :: errors)).token?
  | .token kind inner =>
    l.token? = some (some ⟨kind, ⟨.behind before, .behind (before ++ r.text)⟩⟩,
      standing (before ++ r.text) r.rest (inner.reverse ++ errors))

theorem agrees_of_reads {r : Reading} {read : Token × Cursor} (reads : Reads before errors r read)
    {l : Cursor} (h : l.token? = some (found read)) : Agrees before errors r l := by
  obtain ⟨kind, inner, hpiece, rfl⟩ := reads
  rw [Agrees, hpiece]
  exact h

theorem skipBlanks_blank {c : Char} (h : isBlank c = true) :
    (standing before (c :: after) errors).skipBlanks =
      (standing (before ++ [c]) after errors).skipBlanks := by
  have sharp : c ≠ '#' := by
    rintro rfl
    cases h
  rw [skipBlanks_of_peek peek_standing, if_neg sharp, if_pos h, look_standing, consume_standing]

/-- A comment goes up to the end of its line, and the line break behind it is blank. -/
theorem skipBlanks_comment :
    (standing before ('#' :: after) errors).skipBlanks =
      (standing (before ++ '#' :: after.takeWhile (· != '\n')) (after.dropWhile (· != '\n'))
        errors).skipBlanks := by
  have whole : '#' :: after =
      '#' :: after.takeWhile (· != '\n') ++ after.dropWhile (· != '\n') := by
    rw [List.cons_append, List.takeWhile_append_dropWhile]
  have plain : '\n' ∉ '#' :: after.takeWhile (· != '\n') := by
    intro h
    rcases List.mem_cons.mp h with h | h
    · cases h
    · exact not_mem_takeWhile_newline after h
  have ends := dropWhile_newline_cases after
  rw [skipBlanks_of_peek peek_standing, if_pos rfl, whole, skipLine_standing_of_not_mem plain ends]
  rcases ends with ends | ⟨rest, ends⟩
  · rw [ends, List.take_nil, List.drop_nil, List.append_nil]
  · rw [ends, skipBlanks_blank isBlank_newline, List.append_assoc]
    rfl

theorem skipBlanks_visible {c : Char} (blank : isBlank c = false) (sharp : c ≠ '#') :
    (standing before (c :: after) errors).skipBlanks = standing before (c :: after) errors := by
  rw [skipBlanks_of_peek peek_standing, if_neg sharp, blank, if_neg Bool.false_ne_true,
    look_standing]

theorem beginsNumber_standing (c : Char) (cs : List Char) :
    (c.isDigit || (c == '.' &&
      ((standing before (c :: cs) errors).ahead? 1).any beginsWithDigit)) =
        beginsNumber (c :: cs) := by
  by_cases point : c = '.'
  · subst point
    have ahead : (standing before ('.' :: cs) errors).ahead? 1 = some cs :=
      @ahead?_standing before cs errors ['.']
    rw [ahead]
    rfl
  · simp [beginsNumber, beginsWithDigit, point]

/-- **One step of the cursor is one step off the list.** -/
theorem agrees_scan (c : Char) (cs : List Char) :
    Agrees before errors (scan (.behind before) c cs) (standing before (c :: cs) errors) := by
  rw [scan]
  cases blank : isBlank c with
  | true => exact token?_congr (skipBlanks_blank blank)
  | false =>
    by_cases sharp : c = '#'
    · subst sharp
      exact token?_congr skipBlanks_comment
    -- The character is visible, and the cursor decides by it what to read.
    have visible := @skipBlanks_visible before cs errors c blank sharp
    have hpeek : (standing before (c :: cs) errors).skipBlanks.peek = some c := by
      rw [visible, peek_standing, List.head?_cons]
    have htoken := token?_of_peek hpeek
    simp only [visible, look_standing, consume_standing, note_standing, location_standing,
      beginsNumber_standing] at htoken
    rw [if_neg Bool.false_ne_true, if_neg sharp]
    by_cases quoted : c = '"' ∨ c = '\''
    · rw [if_pos quoted] at htoken ⊢
      exact agrees_of_reads (reads_readString _ ⟨[], [c], []⟩ cs (Location.behind_concat _ _).symm)
        htoken
    rw [if_neg quoted] at htoken ⊢
    by_cases named : isNameStart c = true
    · rw [if_pos named] at htoken ⊢
      rw [readWord_standing named, Option.map_some] at htoken
      exact agrees_of_reads ⟨_, [], rfl, rfl⟩ htoken
    rw [if_neg named] at htoken ⊢
    by_cases number : beginsNumber (c :: cs) = true
    · rw [if_pos number] at htoken ⊢
      obtain ⟨read, hread, reads⟩ := @readNumber_standing before errors (c :: cs)
      rw [hread, Option.map_some] at htoken
      exact agrees_of_reads reads htoken
    rw [if_neg number] at htoken ⊢
    cases hsingle : singleSign? c with
    | some single =>
      obtain ⟨p, n, hsign, hread⟩ := @readSign_standing before cs errors c single hsingle
      simp only [hsingle, hread] at htoken
      rw [hsign]
      exact agrees_of_reads ⟨_, [], rfl, rfl⟩ htoken
    | none =>
      rw [hsingle] at htoken
      rw [sign?_eq_none hsingle cs]
      exact htoken

theorem token?_standing_nil :
    (standing before [] errors).token? = some (none, standing before [] errors) := by
  have hblanks : (standing before [] errors).skipBlanks = standing before [] errors :=
    skipBlanks_of_peek_eq_none peek_standing
  rw [token?_of_peek_eq_none (by rw [hblanks, peek_standing, List.head?_nil]), hblanks,
    look_standing]

/-- **The cursor reads what is read off the list.** -/
theorem collect_standing (tokens : List Token) :
    (standing before after errors).collect tokens =
      some (lexFrom (.behind before) tokens errors after) := by
  -- Each step leaves fewer characters; blanks and flaws leave the tokens as they are.
  induction hn : after.length using Nat.strongRecOn generalizing before after errors tokens with
  | ind n ih =>
    subst hn
    cases after with
    | nil =>
      rw [collect_eq, token?_standing_nil, lexFrom, Option.bind_some]
      cases errors <;> rfl
    | cons c cs =>
      have agrees := @agrees_scan before errors c cs
      have shorter := Nat.lt_succ_of_le (length_rest_scan_le (.behind before) c cs)
      rcases hscan : scan (.behind before) c cs with ⟨piece, text, rest⟩
      rw [hscan] at agrees shorter
      cases piece with
      | blank =>
        rw [collect_eq, agrees, ← collect_eq, ih _ shorter _ rfl, lexFrom_of_blank _ _ hscan,
          Location.after_behind]
      | illegal d =>
        rw [collect_eq, agrees, ← collect_eq, ih _ shorter _ rfl, lexFrom_of_illegal _ _ hscan,
          Location.after_behind]
      | token kind inner =>
        rw [collect_eq, agrees, Option.bind_some]
        exact (ih _ shorter _ rfl).trans
          (by rw [lexFrom_of_token _ _ hscan, Location.after_behind])

end Cursor

/-- **The lexer reads off the list of characters**, and never fails to. -/
theorem collect_start (source : String) :
    Cursor.collect [] (.start source) = some (lexFrom .origin [] [] source.toList) := by
  have looked := Cursor.token?_congr (Cursor.start source).skipBlanks_look
  rw [Cursor.collect_eq, ← looked, ← Cursor.collect_eq, Cursor.look_start, Cursor.collect_standing]
  rfl

theorem lex_eq_lexFrom (source : String) : lex source = lexFrom .origin [] [] source.toList := by
  rw [lex, collect_start, Option.getD_some]

end StepScript
