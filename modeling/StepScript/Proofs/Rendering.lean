import StepScript.Proofs.Numerals
import StepScript.Proofs.Printed
import StepScript.Proofs.Segments

/-!
# Reading the text of an expression

The lexer reads the text of an expression piece by piece, and what it reads are the printed tokens
of the expression.  The one piece that may go wrong is a string: a character that is written by its
code point begins with an escape that the lexer does not know.

## Main definitions

* `Lexes` — the lexer turns the front of a text into tokens of given kinds.
* `IsName` — the names that the lexer reads as such.
* `Expr.Proper`, `Expr.ReadsBack`, `Expr.PlainStrings` — what the literals and names of an
  expression have to be like.

## Main results

* `lexes_quote` — reading a quoted string.
* `lexes_display` — reading the text of an expression.
-/

namespace StepScript

/-! ### Reading from the front -/

/-- `Lexes cs kinds clean rest`: the lexer reads `cs` up to `rest`.  It finds tokens of these kinds
and no flaw if `clean` holds, and some flaw otherwise. -/
def Lexes (cs : List Char) (kinds : List TokenKind) (clean : Prop) (rest : List Char) : Prop :=
  ∀ here (tokens : List Token) (errors : List LexError), ∃ here' new flaws,
    lexFrom here tokens errors cs = lexFrom here' (List.reverse new ++ tokens) (flaws ++ errors) rest ∧
      (flaws = [] ↔ clean) ∧ (clean → new.map Token.kind = kinds)

namespace Lexes

variable {cs ds rest : List Char} {kinds kinds' : List TokenKind} {clean clean' : Prop}

theorem refl (cs : List Char) : Lexes cs [] True cs :=
  fun here _ _ => ⟨here, [], [], rfl, by simp, fun _ => rfl⟩

theorem trans (h : Lexes cs kinds clean ds) (h' : Lexes ds kinds' clean' rest) :
    Lexes cs (kinds ++ kinds') (clean ∧ clean') rest := by
  intro here tokens errors
  obtain ⟨here₁, new₁, flaws₁, step₁, clean₁, kinds₁⟩ := h here tokens errors
  obtain ⟨here₂, new₂, flaws₂, step₂, clean₂, kinds₂⟩ :=
    h' here₁ (new₁.reverse ++ tokens) (flaws₁ ++ errors)
  refine ⟨here₂, new₁ ++ new₂, flaws₂ ++ flaws₁, ?_, ?_, ?_⟩
  · rw [step₁, step₂]
    simp
  · rw [List.append_eq_nil_iff, clean₁, clean₂, and_comm]
  · rintro ⟨hc, hc'⟩
    rw [List.map_append, kinds₁ hc, kinds₂ hc']

theorem congr (h : Lexes cs kinds clean rest) (same : clean ↔ clean') :
    Lexes cs kinds clean' rest := by
  rwa [← propext same]

/-- A piece without flaws in front of what is read next. -/
theorem after (h : Lexes cs kinds True ds) (h' : Lexes ds kinds' clean' rest) :
    Lexes cs (kinds ++ kinds') clean' rest :=
  (h.trans h').congr (by simp)

/-- A piece without flaws behind what is read first. -/
theorem before (h : Lexes cs kinds clean ds) (h' : Lexes ds kinds' True rest) :
    Lexes cs (kinds ++ kinds') clean rest :=
  (h.trans h').congr (by simp)

theorem of_token {c : Char} {kind : TokenKind}
    (h : ∀ start, ∃ kind' inner text, scan start c cs = ⟨.token kind' inner, text, rest⟩ ∧
      (inner = [] ↔ clean) ∧ (clean → kind' = kind)) : Lexes (c :: cs) [kind] clean rest := by
  intro here tokens errors
  obtain ⟨kind', inner, text, hs, hclean, hkind⟩ := h here
  refine ⟨here.after text, [⟨kind', ⟨here, here.after text⟩⟩], inner.reverse, ?_, ?_, ?_⟩
  · rw [lexFrom_of_token tokens errors hs]
    rfl
  · rw [List.reverse_eq_nil_iff, hclean]
  · intro hc
    rw [← hkind hc]
    rfl

theorem of_scan {c : Char} {kind : TokenKind} {text : List Char}
    (h : ∀ start, scan start c cs = ⟨.token kind [], text, rest⟩) :
    Lexes (c :: cs) [kind] True rest :=
  of_token fun start => ⟨kind, [], text, h start, by simp, fun _ => rfl⟩

theorem of_blank {c : Char} {text : List Char}
    (h : ∀ start, scan start c cs = ⟨.blank, text, rest⟩) : Lexes (c :: cs) [] True rest := by
  intro here tokens errors
  exact ⟨here.after text, [], [], lexFrom_of_blank tokens errors (h here), by simp, fun _ => rfl⟩

theorem space (rest : List Char) : Lexes (' ' :: rest) [] True rest :=
  of_blank fun _ => rfl

end Lexes

/-! ### Signs -/

/-- Whether a text that begins with the character begins with a sign or with an illegal
character. -/
def beginsSign (c : Char) : Bool :=
  !isBlank c && c != '#' && c != '"' && c != '\'' && !isNameStart c && !c.isDigit && c != '.'

theorem scan_of_sign {c : Char} {cs : List Char} {p : Punctuator} {n : Nat}
    (hc : beginsSign c = true) (hs : sign? (c :: cs) = some (p, n)) (start : Location) :
    scan start c cs = ⟨.token (.punctuator p) [], (c :: cs).take n, (c :: cs).drop n⟩ := by
  simp only [beginsSign, Bool.and_eq_true, Bool.not_eq_true', bne_iff_ne, ne_eq] at hc
  obtain ⟨⟨⟨⟨⟨⟨blank, comment⟩, double⟩, single⟩, name⟩, digit⟩, point⟩ := hc
  have number : beginsNumber (c :: cs) = false := by
    rw [beginsNumber.eq_def]
    split
    · rename_i heq
      exact absurd (List.cons.inj heq).1 point
    · exact digit
  rw [scan]
  simp only [blank, comment, double, single, name, number, hs, or_self, if_false,
    Bool.false_eq_true]

theorem lexes_sign {c : Char} {cs : List Char} {p : Punctuator} (hc : beginsSign c = true)
    (hs : sign? (c :: cs) = some (p, 1)) : Lexes (c :: cs) [.punctuator p] True cs :=
  .of_scan (scan_of_sign hc hs)

theorem lexes_pair {c d : Char} {cs : List Char} {p : Punctuator} (hc : beginsSign c = true)
    (hs : sign? (c :: d :: cs) = some (p, 2)) : Lexes (c :: d :: cs) [.punctuator p] True cs :=
  .of_scan (scan_of_sign hc hs)

/-- A character that no sign of two characters begins with is a sign by itself. -/
theorem sign?_of_single {c : Char} {p : Punctuator} (hp : ∀ d, pairSign? c d = none)
    (hs : singleSign? c = some p) (cs : List Char) : sign? (c :: cs) = some (p, 1) := by
  cases cs with
  | nil => simp [sign?, hs]
  | cons d cs => simp [sign?, hp, hs]

theorem lexes_leftParen (cs : List Char) : Lexes ('(' :: cs) [.punctuator .leftParen] True cs :=
  lexes_sign (by decide) (sign?_of_single (fun _ => rfl) rfl cs)

theorem lexes_rightParen (cs : List Char) : Lexes (')' :: cs) [.punctuator .rightParen] True cs :=
  lexes_sign (by decide) (sign?_of_single (fun _ => rfl) rfl cs)

theorem lexes_comma (cs : List Char) : Lexes (',' :: cs) [.punctuator .comma] True cs :=
  lexes_sign (by decide) (sign?_of_single (fun _ => rfl) rfl cs)

theorem lexes_unary {op : UnaryOp} (sign : op ≠ .not) (cs : List Char) :
    Lexes (op.text.toList ++ cs) [op.kind] True cs := by
  cases op with
  | plus => exact lexes_sign (by decide) (sign?_of_single (fun _ => rfl) rfl cs)
  | negate => exact lexes_sign (by decide) (sign?_of_single (fun _ => rfl) rfl cs)
  | complement => exact lexes_sign (by decide) (sign?_of_single (fun _ => rfl) rfl cs)
  | not => exact absurd rfl sign

/-! ### Words -/

/-- What cannot go on a word. -/
def EndsWord (rest : List Char) : Prop :=
  ∀ c ∈ rest.head?, isNameRest c = false

theorem EndsWord.cons {c : Char} (h : isNameRest c = false) (cs : List Char) :
    EndsWord (c :: cs) := by
  rintro _ ⟨⟩
  exact h

theorem Boundary.endsWord {rest : List Char} (h : Boundary rest) : EndsWord rest := by
  intro c hc
  rcases h c hc with rfl | rfl | rfl <;> decide

theorem isBlank_of_visible {c : Char} (low : 0x21 ≤ c.toNat) (high : c.toNat ≤ 0x7e) :
    isBlank c = false := by
  rw [← Bool.not_eq_true, isBlank, CodeSet.has_eq_true_iff]
  rintro ⟨r, hr, hlow, hhigh⟩
  simp only [CodeSet.blanks, List.mem_cons, List.not_mem_nil, or_false] at hr
  rcases hr with rfl | rfl | rfl | rfl | rfl | rfl | rfl | rfl | rfl | rfl <;> simp at hlow hhigh <;>
    omega

theorem toNat_of_isNameStart {c : Char} (h : isNameStart c = true) :
    0x41 ≤ c.toNat ∧ c.toNat ≤ 0x7a := by
  rw [isNameStart, Bool.or_eq_true, beq_iff_eq] at h
  rcases h with letter | rfl
  · rcases Bool.or_eq_true_iff.mp letter with upper | lower
    · have bounds : 0x41 ≤ c.toNat ∧ c.toNat ≤ 0x5a := of_decide_eq_true upper
      omega
    · obtain ⟨low, high⟩ := Bool.and_eq_true_iff.mp lower
      have low : 0x61 ≤ c.toNat := of_decide_eq_true low
      have high : c.toNat ≤ 0x7a := of_decide_eq_true high
      omega
  · decide

theorem scan_of_word {c : Char} {cs rest : List Char} (start : isNameStart c = true)
    (all : ∀ d ∈ cs, isNameRest d = true) (ends : EndsWord rest) (here : Location) :
    scan here c (cs ++ rest) =
      ⟨.token (wordKind (String.ofList (c :: cs))) [], c :: cs, rest⟩ := by
  have bounds := toNat_of_isNameStart start
  have blank : isBlank c = false := isBlank_of_visible (by omega) (by omega)
  have comment : c ≠ '#' := by
    rintro rfl
    cases start
  have string : ¬(c = '"' ∨ c = '\'') := by
    rintro (rfl | rfl) <;> cases start
  obtain ⟨taken, left⟩ := takeWhile_append_of_head? all ends
  rw [scan, if_neg (by simp [blank]), if_neg comment, if_neg string, if_pos start]
  simp only [taken, left]

/-- A name: letters, digits and underlines that do not begin with a digit and spell no keyword. -/
structure IsName (name : String) : Prop where
  word : ∃ c cs, name.toList = c :: cs ∧ isNameStart c = true ∧ ∀ d ∈ cs, isNameRest d = true
  free : Keyword.ofText? name = none

theorem lexes_word {word : String} {c : Char} {cs rest : List Char} (text : word.toList = c :: cs)
    (start : isNameStart c = true) (all : ∀ d ∈ cs, isNameRest d = true) (ends : EndsWord rest) :
    Lexes (word.toList ++ rest) [wordKind word] True rest := by
  have same : String.ofList (c :: cs) = word := by rw [← text, String.ofList_toList]
  rw [text]
  exact .of_scan (same ▸ scan_of_word start all ends)

theorem IsName.lexes {name : String} (h : IsName name) {rest : List Char} (ends : EndsWord rest) :
    Lexes (name.toList ++ rest) [.identifier name] True rest := by
  obtain ⟨c, cs, text, start, all⟩ := h.word
  have kind : wordKind name = .identifier name := by rw [wordKind, h.free]
  exact kind ▸ lexes_word text start all ends

theorem lexes_keyword (k : Keyword) {rest : List Char} (ends : EndsWord rest) :
    Lexes (k.text.toList ++ rest) [.keyword k] True rest := by
  have kind : wordKind k.text = .keyword k := by cases k <;> rfl
  rw [← kind]
  cases k <;> exact lexes_word rfl rfl (List.all_eq_true.mp rfl) ends

theorem lexes_operator (op : BinaryOp) (cs : List Char) :
    Lexes (op.text.toList ++ ' ' :: cs) op.kinds True (' ' :: cs) := by
  have ends : EndsWord (' ' :: cs) := .cons (by decide) cs
  cases op with
  | power | floorDivide | shiftLeft | shiftRight => exact lexes_pair (by decide) rfl
  | multiply | divide | modulo | add | subtract | bitAnd | bitXor | bitOr =>
    exact lexes_sign (by decide) rfl
  | compare c =>
    cases c with
    | equal | notEqual | lessEqual | greaterEqual => exact lexes_pair (by decide) rfl
    | less | greater => exact lexes_sign (by decide) rfl
  | isIn => exact lexes_keyword .membership ends
  | notIn =>
    have first : Lexes (Keyword.negation.text.toList ++ ' ' :: ("in".toList ++ ' ' :: cs)) _ True _ :=
      lexes_keyword .negation (.cons (by decide) _)
    exact first.after ((Lexes.space _).after (lexes_keyword .membership ends))
  | and => exact lexes_keyword .conjunction ends
  | or => exact lexes_keyword .disjunction ends

/-! ### Numbers -/

theorem scan_of_digit {c : Char} (digit : c.isDigit = true) (cs : List Char) (here : Location) :
    scan here c cs = scanNumber here (c :: cs) := by
  have bounds : 0x30 ≤ c.toNat ∧ c.toNat ≤ 0x39 := by
    simp only [Char.isDigit, ge_iff_le, Bool.and_eq_true, decide_eq_true_eq,
      UInt32.le_iff_toNat_le] at digit
    exact digit
  have blank : isBlank c = false := isBlank_of_visible (by omega) (by omega)
  have comment : c ≠ '#' := by
    rintro rfl
    cases digit
  have string : ¬(c = '"' ∨ c = '\'') := by
    rintro (rfl | rfl) <;> cases digit
  have name : ¬isNameStart c = true := by
    intro start
    have := toNat_of_isNameStart start
    omega
  rw [scan, if_neg (by simp [blank]), if_neg comment, if_neg string, if_neg name,
    if_pos (beginsNumber_of_isDigit cs digit)]

theorem lexes_number {text rest : List Char} {kind : TokenKind}
    (begins : ∃ c cs, text = c :: cs ∧ c.isDigit = true)
    (h : ∀ start, scanNumber start (text ++ rest) = ⟨.token kind [], text, rest⟩) :
    Lexes (text ++ rest) [kind] True rest := by
  obtain ⟨c, cs, rfl, digit⟩ := begins
  exact .of_scan fun start => (scan_of_digit digit _ start).trans (h start)

theorem lexes_integer {i : Int64} (nonneg : 0 ≤ i.toInt) {rest : List Char} (ends : Boundary rest) :
    Lexes ((toString i.toInt).toList ++ rest) [.integer i] True rest := by
  refine lexes_number ?_ (scanNumber_integer nonneg ends)
  rw [toString_of_nonneg nonneg]
  obtain ⟨c, cs, h⟩ := List.exists_cons_of_ne_nil (Nat.toDigits_ne_nil (n := i.toInt.toNat) (b := 10))
  exact ⟨c, cs, h, allDigits_toDigits _ c (h ▸ List.mem_cons_self)⟩

theorem lexes_float {x : Float} (finite : x.isFinite = true) (plus : hasMinus x = false)
    (readsBack : readFloat? (FloatFormat.value.write x).toList = some x) {rest : List Char}
    (ends : Boundary rest) :
    Lexes ((FloatFormat.value.write x).toList ++ rest) [.float x] True rest := by
  refine lexes_number ?_ (scanNumber_float finite plus readsBack ends)
  obtain ⟨whole, fraction, exponent, numeral, text, _⟩ := isFloatText_write finite plus
  obtain ⟨c, cs, rfl⟩ := List.exists_cons_of_ne_nil numeral.whole_ne_nil
  exact ⟨c, _, text, numeral.digits c List.mem_cons_self⟩

/-! ### Strings -/

/-- Whether a character is written between quotes by its code point. -/
def IsCoded (c : Char) : Prop :=
  escape c = escapeCode c

section

variable {start here : Location} {body : StringBody}

theorem scanString_plain {c : Char} (quote : c ≠ '"') (backslash : c ≠ '\\') (cs : List Char) :
    scanString '"' start here body (c :: cs) =
      scanString '"' start (here.next c) ⟨c :: body.value, c :: body.text, body.errors⟩ cs := by
  rw [scanString.eq_def]
  simp only [quote, backslash, if_false]

theorem scanString_escaped {c v : Char} (known : unescape? c = some v) (cs : List Char) :
    scanString '"' start here body ('\\' :: c :: cs) =
      scanString '"' start ((here.next '\\').next c)
        ⟨v :: body.value, c :: '\\' :: body.text, body.errors⟩ cs := by
  rw [scanString, if_neg (by decide), if_pos rfl]
  simp only [known]

theorem scanString_unknown {c : Char} (unknown : unescape? c = none) (cs : List Char) :
    scanString '"' start here body ('\\' :: c :: cs) =
      scanString '"' start ((here.next '\\').next c)
        ⟨c :: '\\' :: body.value, c :: '\\' :: body.text,
          ⟨here.next '\\', .invalidEscape c⟩ :: body.errors⟩ cs := by
  rw [scanString, if_neg (by decide), if_pos rfl]
  simp only [unknown]

theorem exists_scanString_plain {text : List Char} (plain : ∀ c ∈ text, c ≠ '"' ∧ c ≠ '\\')
    (cs : List Char) : ∃ here' value' text',
      scanString '"' start here body (text ++ cs) =
        scanString '"' start here' ⟨value', text', body.errors⟩ cs := by
  induction text generalizing here body with
  | nil => exact ⟨here, body.value, body.text, rfl⟩
  | cons c text ih =>
    obtain ⟨⟨quote, backslash⟩, plain⟩ := List.forall_mem_cons.mp plain
    rw [List.cons_append, scanString_plain quote backslash]
    exact ih plain

theorem plain_toDigits (n : Nat) : ∀ c ∈ Nat.toDigits 16 n, c ≠ '"' ∧ c ≠ '\\' := by
  induction n using Nat.strongRecOn with
  | ind n ih =>
    rw [Nat.toDigits_eq_if (by decide)]
    split
    · simp
    · intro c hc
      rcases List.mem_append.mp hc with hc | hc
      · exact ih (n / 16) (by omega) c hc
      · cases List.mem_singleton.mp hc
        simp

/-- A code point begins with an escape that strings do not have. -/
theorem exists_scanString_escapeCode (c : Char) (cs : List Char) :
    ∃ here' value' text' flaw, scanString '"' start here body (escapeCode c ++ cs) =
      scanString '"' start here' ⟨value', text', flaw :: body.errors⟩ cs := by
  have plain : ∀ d ∈ '{' :: (Nat.toDigits 16 c.toNat ++ ['}']), d ≠ '"' ∧ d ≠ '\\' := by
    rw [List.forall_mem_cons]
    refine ⟨by decide, fun d hd => ?_⟩
    rcases List.mem_append.mp hd with hd | hd
    · exact plain_toDigits _ d hd
    · cases List.mem_singleton.mp hd
      decide
  have text : escapeCode c ++ cs =
      '\\' :: 'u' :: ('{' :: (Nat.toDigits 16 c.toNat ++ ['}']) ++ cs) := by
    simp [escapeCode]
  rw [text, scanString_unknown rfl]
  obtain ⟨here', value', text', h⟩ := exists_scanString_plain plain cs
  exact ⟨here', value', text', _, h⟩

/-- A character is written by its code point, by a letter behind a backslash, or as itself. -/
theorem escape_cases (c : Char) : IsCoded c ∨ (∃ e, escape c = ['\\', e] ∧ unescape? e = some c) ∨
    (escape c = [c] ∧ c ≠ '"' ∧ c ≠ '\\') := by
  unfold IsCoded
  rw [escape]
  split
  · subst c; exact .inr (.inl ⟨_, rfl, rfl⟩)
  split
  · subst c; exact .inr (.inl ⟨_, rfl, rfl⟩)
  split
  · subst c; exact .inr (.inl ⟨_, rfl, rfl⟩)
  split
  · subst c; exact .inr (.inl ⟨_, rfl, rfl⟩)
  split
  · subst c; exact .inr (.inl ⟨_, rfl, rfl⟩)
  split
  · subst c; exact .inr (.inl ⟨_, rfl, rfl⟩)
  rename_i quote backslash _ _ _ _
  split
  · exact .inr (.inr ⟨rfl, quote, backslash⟩)
  split
  · exact .inl rfl
  split
  · exact .inr (.inr ⟨rfl, quote, backslash⟩)
  · exact .inl rfl

/-- A character that is not written by its code point is read as itself. -/
theorem exists_scanString_escape {c : Char} (h : ¬IsCoded c) (cs : List Char) :
    ∃ here' text', scanString '"' start here body (escape c ++ cs) =
      scanString '"' start here' ⟨c :: body.value, text', body.errors⟩ cs := by
  rcases escape_cases c with coded | ⟨e, text, known⟩ | ⟨text, quote, backslash⟩
  · exact absurd coded h
  · rw [text]
    exact ⟨_, _, scanString_escaped known cs⟩
  · rw [text]
    exact ⟨_, _, scanString_plain quote backslash cs⟩

end

/-- The body of a string literal that was written character by character. -/
theorem exists_scanString_flatMap (start : Location) (s rest : List Char) (here : Location)
    (body : StringBody) : ∃ value text flaws,
      scanString '"' start here body (s.flatMap escape ++ '"' :: rest) =
        ⟨.token (.string (String.ofList value)) (body.errors.reverse ++ flaws), text, rest⟩ ∧
      (flaws = [] ↔ ∀ c ∈ s, ¬IsCoded c) ∧
      ((∀ c ∈ s, ¬IsCoded c) → value = body.value.reverse ++ s) := by
  induction s generalizing here body with
  | nil =>
    refine ⟨body.value.reverse, ('"' :: body.text).reverse, [], ?_, by simp, by simp⟩
    rw [List.flatMap_nil, List.nil_append, scanString.eq_def]
    rfl
  | cons c s ih =>
    rw [List.flatMap_cons, List.append_assoc]
    by_cases coded : IsCoded c
    · have text : escape c = escapeCode c := coded
      obtain ⟨here', value', text', flaw, step⟩ :=
        exists_scanString_escapeCode c (s.flatMap escape ++ '"' :: rest)
      obtain ⟨value, text'', flaws, h, _, _⟩ := ih here' ⟨value', text', flaw :: body.errors⟩
      refine ⟨value, text'', flaw :: flaws, ?_, by simp [coded], by simp [coded]⟩
      rw [text, step, h]
      simp
    · obtain ⟨here', text', step⟩ :=
        exists_scanString_escape coded (s.flatMap escape ++ '"' :: rest)
      obtain ⟨value, text'', flaws, h, clean, same⟩ := ih here' ⟨c :: body.value, text', body.errors⟩
      refine ⟨value, text'', flaws, by rw [step, h], by simpa [coded] using clean, ?_⟩
      intro all
      rw [same (List.forall_mem_cons.mp all).2]
      simp

/-- **A quoted string is read as the string if and only if no character of it is written by its code
point.** -/
theorem lexes_quote (s : String) (rest : List Char) :
    Lexes ((quote s).toList ++ rest) [.string s] (∀ c ∈ s.toList, ¬IsCoded c) rest := by
  have text : (quote s).toList ++ rest = '"' :: (s.toList.flatMap escape ++ '"' :: rest) := by
    simp [quote]
  rw [text]
  refine .of_token fun start => ?_
  have string : scan start '"' (s.toList.flatMap escape ++ '"' :: rest) =
      scanString '"' start (start.next '"') ⟨[], ['"'], []⟩ (s.toList.flatMap escape ++ '"' :: rest) := by
    rw [scan, if_neg (by decide), if_neg (by decide), if_pos (.inl rfl)]
  obtain ⟨value, text', flaws, h, clean, same⟩ :=
    exists_scanString_flatMap start s.toList rest (start.next '"') ⟨[], ['"'], []⟩
  refine ⟨_, flaws, text', string.trans h, clean, fun all => ?_⟩
  rw [same all, List.reverse_nil, List.nil_append, String.ofList_toList]

/-! ### The text of an expression -/

namespace Expr

/-- The literals and the names of an expression are such as the lexer reads. -/
def Proper : Expr → Prop
  | literal (.int i) => 0 ≤ i.toInt
  | literal (.float x) => x.isFinite = true ∧ hasMinus x = false
  | literal .wildcard | literal (.host _) => False
  | literal _ => True
  | reference name | call name _ => IsName name
  | _ => True

/-- The text of a floating point literal reads back as the same number. -/
def ReadsBack : Expr → Prop
  | literal (.float x) => readFloat? (FloatFormat.value.write x).toList = some x
  | _ => True

/-- A string literal has no character that is written by its code point. -/
def PlainStrings : Expr → Prop
  | literal (.str s) => ∀ c ∈ s.toList, ¬IsCoded c
  | _ => True

end Expr

/-- The texts of several expressions, with commas between them. -/
theorem lexes_arguments {es : List Expr} {clean : Expr → Prop}
    (each : ∀ e ∈ es, ∀ rest, Boundary rest →
      Lexes (e.display.toList ++ rest) e.printed (clean e) rest)
    {rest : List Char} (ends : Boundary rest) :
    Lexes ((", ".intercalate (Expr.displayAll es)).toList ++ rest) (Expr.printedAll es)
      (∀ e ∈ es, clean e) rest := by
  induction es with
  | nil => exact (Lexes.refl rest).congr (by simp)
  | cons e es ih =>
    obtain ⟨here, later⟩ := List.forall_mem_cons.mp each
    cases es with
    | nil =>
      simp only [Expr.displayAll, Expr.printedAll, String.intercalate_singleton]
      exact (here rest ends).congr (by simp)
    | cons e' es =>
      have text : (", ".intercalate (Expr.displayAll (e :: e' :: es))).toList ++ rest =
          e.display.toList ++ ',' :: ' ' ::
            ((", ".intercalate (Expr.displayAll (e' :: es))).toList ++ rest) := by
        simp [Expr.displayAll, String.intercalate_cons_cons]
      have comma : Boundary (',' :: ' ' ::
          ((", ".intercalate (Expr.displayAll (e' :: es))).toList ++ rest)) := by
        rintro _ ⟨⟩
        exact .inr (.inr rfl)
      rw [text, Expr.printedAll]
      refine ((here _ comma).trans ((lexes_comma _).after ((Lexes.space _).after (ih later)))).congr ?_
      simp

theorem Boundary.space (cs : List Char) : Boundary (' ' :: cs) := by
  rintro _ ⟨⟩
  exact .inl rfl

theorem Boundary.paren (cs : List Char) : Boundary (')' :: cs) := by
  rintro _ ⟨⟩
  exact .inr (.inl rfl)

theorem lexes_literal {v : Value} (proper : (Expr.literal v).Proper)
    (readsBack : (Expr.literal v).ReadsBack) {rest : List Char} (ends : Boundary rest) :
    Lexes ((Expr.displayLiteral v).toList ++ rest) [v.kind] (Expr.literal v).PlainStrings rest := by
  cases v with
  | null => exact lexes_keyword .nothing ends.endsWord
  | bool b =>
    cases b with
    | false => exact lexes_keyword .falsity ends.endsWord
    | true => exact lexes_keyword .truth ends.endsWord
  | int i => exact lexes_integer proper ends
  | float x => exact lexes_float proper.1 proper.2 readsBack ends
  | str s => exact lexes_quote s rest
  | wildcard | host => exact proper.elim

/-- **The lexer reads the text of an expression as the printed tokens of the expression**, without a
flaw if and only if no string in it has a character that is written by its code point. -/
theorem lexes_display (e : Expr) (proper : e.Everywhere Expr.Proper)
    (readsBack : e.Everywhere Expr.ReadsBack) {rest : List Char} (ends : Boundary rest) :
    Lexes (e.display.toList ++ rest) e.printed (e.Everywhere Expr.PlainStrings) rest := by
  induction e using Expr.operands_induction generalizing rest with
  | step e ih =>
    -- the texts of the operands, whatever ends them
    have below (x : Expr) (hx : x ∈ e.operands) (rest : List Char) (ends : Boundary rest) :=
      ih x hx (proper.of_mem hx) (readsBack.of_mem hx) ends
    cases e with
    | literal v =>
      exact (lexes_literal proper.here readsBack.here ends).congr Expr.everywhere_literal_iff.symm
    | reference name =>
      refine (IsName.lexes proper.here ends.endsWord).congr ?_
      simp [Expr.everywhere_reference_iff, Expr.PlainStrings]
    | call name es =>
      have text : (Expr.call name es).display.toList ++ rest = name.toList ++ '(' ::
          ((", ".intercalate (Expr.displayAll es)).toList ++ ')' :: rest) := by
        simp [Expr.display]
      -- the name ends at the parenthesis, and the last argument at the closing one
      have named := IsName.lexes proper.here (.cons (by decide : isNameRest '(' = false)
        ((", ".intercalate (Expr.displayAll es)).toList ++ ')' :: rest))
      have inner := (lexes_arguments below (.paren rest)).before (lexes_rightParen rest)
      rw [text]
      refine (named.after ((lexes_leftParen _).after inner)).congr ?_
      simp [Expr.everywhere_call_iff, Expr.operands, Expr.PlainStrings]
    | unary op x =>
      have inner := below x (List.mem_singleton.mpr rfl) rest ends
      have clean : x.Everywhere Expr.PlainStrings ↔ (Expr.unary op x).Everywhere Expr.PlainStrings := by
        simp [Expr.everywhere_unary_iff, Expr.PlainStrings]
      -- `not` is a word and needs a space; the other operators are signs
      by_cases negation : op = .not
      · subst negation
        have text : (Expr.unary .not x).display.toList ++ rest =
            Keyword.negation.text.toList ++ ' ' :: (x.display.toList ++ rest) := by
          simp [Expr.display, Keyword.text]
        rw [text]
        have word := lexes_keyword .negation
          (.cons (by decide : isNameRest ' ' = false) (x.display.toList ++ rest))
        exact (word.after ((Lexes.space _).after inner)).congr clean
      · have text : (Expr.unary op x).display.toList ++ rest =
            op.text.toList ++ (x.display.toList ++ rest) := by
          cases op <;> simp_all [Expr.display]
        rw [text]
        exact ((lexes_unary negation _).after inner).congr clean
    | binary op l r =>
      have left := below l (by simp [Expr.operands])
      have right := below r (by simp [Expr.operands])
      have text : (Expr.binary op l r).display.toList ++ rest = '(' :: (l.display.toList ++ ' ' ::
          (op.text.toList ++ ' ' :: (r.display.toList ++ ')' :: rest))) := by
        simp [Expr.display]
      -- from the right: each part has to end where the next one begins
      have last := (right _ (.paren rest)).before (lexes_rightParen rest)
      have middle := (Lexes.space _).after ((lexes_operator op _).after ((Lexes.space _).after last))
      have all := (lexes_leftParen _).after ((left _ (.space _)).trans middle)
      rw [text]
      have kinds : (Expr.binary op l r).printed = [.punctuator .leftParen] ++ (l.printed ++
          ([] ++ (op.kinds ++ ([] ++ (r.printed ++ [.punctuator .rightParen]))))) := by
        simp [Expr.printed, enclosed]
      rw [kinds]
      refine all.congr ?_
      simp [Expr.everywhere_binary_iff, Expr.PlainStrings]

end StepScript
