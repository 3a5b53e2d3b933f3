import StepScript.Proofs.FloatText
import StepScript.Proofs.Munch
import StepScript.Proofs.RoundTrip

/-!
# The text of an expression tells it from all others

Two expressions that were read have the same text only if they are the same, also where the text is
not read back.  The text of an expression begins with one token, and what is written behind that
token are texts of operands between signs of its own.  So it is enough that tokens can be told from
each other at the front of a text, given what may follow them, and the rest is an induction over the
expression.

## Main definitions

* `TokenKind.spelled` — the text of a token inside the text of an expression.
* `TokenKind.Fronts` — the tokens that the text of an expression begins with.
* `Family`, `TokenKind.EndsAt` — what the first character of a token tells, and where it ends.
* `Expr.front`, `Expr.behind` — the first token of an expression's text and what follows it.
* `Expr.Alike` — expressions that their first tokens do not tell from each other.

## Main results

* `quote_unique` — what quoted string a text begins with.
* `spelled_unique` — what token a text begins with.
* `display_unique` — what expression a text begins with.
* `display_identifies_expression` — expressions with the same text are the same.
-/

namespace StepScript

/-- Two runs of characters that end where the runs do are the same if the texts are. -/
theorem run_unique {p : Char → Bool} {run run' rest rest' : List Char}
    (all : ∀ c ∈ run, p c = true) (ends : ∀ c ∈ rest.head?, p c = false)
    (all' : ∀ c ∈ run', p c = true) (ends' : ∀ c ∈ rest'.head?, p c = false)
    (same : run ++ rest = run' ++ rest') : run = run' ∧ rest = rest' := by
  obtain ⟨taken, left⟩ := takeWhile_append_of_head? all ends
  obtain ⟨taken', left'⟩ := takeWhile_append_of_head? all' ends'
  exact ⟨by rw [← taken, same, taken'], by rw [← left, same, left']⟩

/-! ### Quoted strings -/

theorem digitChar_unique : ∀ a < 16, ∀ b < 16, Nat.digitChar a = Nat.digitChar b → a = b := by
  decide

theorem digitChar_ne_brace : ∀ a < 16, (Nat.digitChar a != '}') = true := by
  decide

/-- The last hexadecimal digit behind the others. -/
theorem toDigits_sixteen (n : Nat) :
    Nat.toDigits 16 n = (if n < 16 then [] else Nat.toDigits 16 (n / 16)) ++
      [Nat.digitChar (n % 16)] := by
  rw [Nat.toDigits_eq_if (by decide)]
  split
  · rw [Nat.mod_eq_of_lt ‹_›, List.nil_append]
  · rfl

theorem toDigits_sixteen_unique {m n : Nat} (same : Nat.toDigits 16 m = Nat.toDigits 16 n) :
    m = n := by
  induction m using Nat.strongRecOn generalizing n with
  | ind m ih =>
    rw [toDigits_sixteen m, toDigits_sixteen n] at same
    obtain ⟨high, low⟩ := List.append_inj' same rfl
    have low := digitChar_unique (m % 16) (by omega) (n % 16) (by omega) (List.singleton_inj.mp low)
    split at high <;> split at high
    · omega
    · exact absurd high.symm Nat.toDigits_ne_nil
    · exact absurd high Nat.toDigits_ne_nil
    · have := ih (m / 16) (by omega) high
      omega

theorem toDigits_ne_brace (n : Nat) : ∀ c ∈ Nat.toDigits 16 n, (c != '}') = true := by
  induction n using Nat.strongRecOn with
  | ind n ih =>
    intro c hc
    rw [toDigits_sixteen] at hc
    rcases List.mem_append.mp hc with hc | hc
    · split at hc
      · cases hc
      · exact ih (n / 16) (by omega) c hc
    · cases List.mem_singleton.mp hc
      exact digitChar_ne_brace (n % 16) (by omega)

/-- The digits of a code point end at the brace. -/
theorem escapeCode_unique {c d : Char} {cs ds : List Char}
    (same : escapeCode c ++ cs = escapeCode d ++ ds) : c = d ∧ cs = ds := by
  have text (a : Char) (as : List Char) :
      escapeCode a ++ as = ['\\', 'u', '{'] ++ (Nat.toDigits 16 a.toNat ++ '}' :: as) := by
    simp [escapeCode]
  have brace (as : List Char) : ∀ a ∈ ('}' :: as).head?, (a != '}') = false := by
    rintro _ ⟨⟩
    rfl
  rw [text, text, List.append_cancel_left_eq] at same
  obtain ⟨digits, rest⟩ :=
    run_unique (toDigits_ne_brace _) (brace _) (toDigits_ne_brace _) (brace _) same
  exact ⟨Char.toNat_inj.mp (toDigits_sixteen_unique digits), List.tail_eq_of_cons_eq rest⟩

/-- Where two characters are written alike, they are the same, and so is what follows. -/
theorem escape_unique {c d : Char} {cs ds : List Char} (same : escape c ++ cs = escape d ++ ds) :
    c = d ∧ cs = ds := by
  have unknown : unescape? 'u' = none := rfl
  -- by code, by a letter, or plainly: two ways to write never begin alike
  rcases escape_cases c with coded | ⟨e, text, known⟩ | ⟨text, _, plain⟩ <;>
    rcases escape_cases d with coded' | ⟨e', text', known'⟩ | ⟨text', _, plain'⟩
  · rw [coded, coded'] at same
    exact escapeCode_unique same
  · rw [coded, text'] at same
    cases (List.cons.inj (List.cons.inj same).2).1
    cases known'
  · rw [coded, text'] at same
    exact absurd (List.cons.inj same).1.symm plain'
  · rw [text, coded'] at same
    cases (List.cons.inj (List.cons.inj same).2).1
    cases known
  · rw [text, text'] at same
    obtain ⟨rfl, rest⟩ := List.cons.inj (List.cons.inj same).2
    exact ⟨Option.some.inj (known.symm.trans known'), rest⟩
  · rw [text, text'] at same
    exact absurd (List.cons.inj same).1.symm plain'
  · rw [text, coded'] at same
    exact absurd (List.cons.inj same).1 plain
  · rw [text, text'] at same
    exact absurd (List.cons.inj same).1 plain
  · rw [text, text'] at same
    exact List.cons.inj same

/-- No character is written with a quote at its front. -/
theorem escape_head (c : Char) : ∃ a as, escape c = a :: as ∧ a ≠ '"' := by
  rcases escape_cases c with coded | ⟨e, text, _⟩ | ⟨text, quote, _⟩
  · exact ⟨_, _, coded, by decide⟩
  · exact ⟨_, _, text, by decide⟩
  · exact ⟨_, _, text, quote⟩

theorem flatMap_escape_unique {s s' rest rest' : List Char}
    (same : s.flatMap escape ++ '"' :: rest = s'.flatMap escape ++ '"' :: rest') :
    s = s' ∧ rest = rest' := by
  induction s generalizing s' with
  | nil =>
    cases s' with
    | nil => exact ⟨rfl, (List.cons.inj same).2⟩
    | cons c s' =>
      obtain ⟨a, as, text, quote⟩ := escape_head c
      rw [List.flatMap_cons, text] at same
      exact absurd (List.cons.inj same).1.symm quote
  | cons c s ih =>
    cases s' with
    | nil =>
      obtain ⟨a, as, text, quote⟩ := escape_head c
      rw [List.flatMap_cons, text] at same
      exact absurd (List.cons.inj same).1 quote
    | cons d s' =>
      rw [List.flatMap_cons, List.flatMap_cons, List.append_assoc, List.append_assoc] at same
      obtain ⟨rfl, later⟩ := escape_unique same
      obtain ⟨rfl, behind⟩ := ih later
      exact ⟨rfl, behind⟩

theorem quote_unique {s s' : String} {rest rest' : List Char}
    (same : (quote s).toList ++ rest = (quote s').toList ++ rest') : s = s' ∧ rest = rest' := by
  have text (t : String) (cs : List Char) :
      (quote t).toList ++ cs = '"' :: (t.toList.flatMap escape ++ '"' :: cs) := by
    simp [quote]
  rw [text, text] at same
  obtain ⟨body, rest⟩ := flatMap_escape_unique (List.cons.inj same).2
  exact ⟨String.toList_injective body, rest⟩

/-! ### The first token of a text -/

/-- The text of a token inside the text of an expression. -/
def TokenKind.spelled : TokenKind → String
  | .float x => FloatFormat.value.write x
  | k => k.display

/-- The signs that begin the text of an expression, and the one that ends a list of arguments. -/
def frontSigns : List Punctuator :=
  [.plus, .minus, .tilde, .leftParen, .rightParen]

/-- The token may begin the text of an expression, or end a list of arguments. -/
def TokenKind.Fronts : TokenKind → Prop
  | .punctuator p => p ∈ frontSigns
  | k => k.Regular

/-- What a token is, as far as its first character tells. -/
inductive Family
  | word
  | number
  | string
  | sign

/-- The family of the tokens that begin with the character. -/
def familyOf (c : Char) : Family :=
  if isNameStart c then .word else if c.isDigit then .number else if c = '"' then .string else .sign

/-- The family of a token. -/
def TokenKind.family : TokenKind → Family
  | .keyword _ | .identifier _ => .word
  | .integer _ | .float _ => .number
  | .string _ => .string
  | .punctuator _ => .sign

/-- Whether the text of a number may have the character. -/
def inNumber (c : Char) : Bool :=
  c.isDigit || c == '.' || c == 'e' || c == '-'

/-- The characters that would go on a token. -/
def Family.goesOn : Family → Char → Bool
  | word => isNameRest
  | number => inNumber
  | string | sign => fun _ => false

/-- The text may follow the token: it does not go on with it. -/
def TokenKind.EndsAt (k : TokenKind) (rest : List Char) : Prop :=
  ∀ c ∈ rest.head?, k.family.goesOn c = false

theorem AllDigits.inNumber {cs : List Char} (h : AllDigits cs) : ∀ c ∈ cs, inNumber c = true := by
  intro c hc
  simp [StepScript.inNumber, h c hc]

theorem IsFloatText.inNumber {cs : List Char} (h : IsFloatText cs) :
    ∀ c ∈ cs, inNumber c = true := by
  obtain ⟨whole, fraction, exponent, numeral, rfl, _⟩ := h
  intro c hc
  rcases List.mem_append.mp hc with hc | hc
  · exact numeral.digits.inNumber c hc
  rcases List.mem_append.mp hc with hc | hc
  · cases numeral.fraction with
    | none => cases hc
    | point digits =>
      rcases List.mem_cons.mp hc with rfl | hc
      · rfl
      · exact digits.inNumber c hc
  · cases numeral.exponent with
    | none => cases hc
    | plus digits =>
      rcases List.mem_cons.mp hc with rfl | hc
      · rfl
      · exact digits.inNumber c hc
    | minus digits =>
      rcases List.mem_cons.mp hc with rfl | hc
      · rfl
      rcases List.mem_cons.mp hc with rfl | hc
      · rfl
      · exact digits.inNumber c hc

/-- A number with a point or a power of ten is not made of digits only. -/
theorem IsFloatText.not_allDigits {cs : List Char} (h : IsFloatText cs) : ¬AllDigits cs := by
  obtain ⟨whole, fraction, exponent, numeral, rfl, pointed⟩ := h
  intro digits
  rcases pointed with point | power
  · cases numeral.fraction with
    | none => exact point rfl
    | point => exact absurd (digits '.' (by simp)) (by decide)
  · cases numeral.exponent with
    | none => exact power rfl
    | plus | minus => exact absurd (digits 'e' (by simp)) (by decide)

theorem Boundary.not_inNumber {rest : List Char} (h : Boundary rest) :
    ∀ c ∈ rest.head?, inNumber c = false := by
  intro c hc
  rcases h c hc with rfl | rfl | rfl <;> decide

theorem isNameRest_of_isNameStart {c : Char} (h : isNameStart c = true) : isNameRest c = true := by
  simp only [isNameStart, isNameRest, Char.isAlphanum, Bool.or_eq_true] at h ⊢
  exact h.imp_left .inl

/-- The text of a word tells its token and is made of the characters of names. -/
theorem word_of_fronts {k : TokenKind} (h : k.Fronts) (word : k.family = .word) :
    wordKind k.spelled = k ∧ (∀ c ∈ k.spelled.toList, isNameRest c = true) ∧
      ∃ c cs, k.spelled.toList = c :: cs ∧ isNameStart c = true := by
  cases k with
  | keyword k => cases k <;> exact ⟨rfl, List.all_eq_true.mp rfl, _, _, rfl, rfl⟩
  | identifier name =>
    have named : IsName name := h
    obtain ⟨c, cs, text, start, all⟩ := named.word
    refine ⟨?_, ?_, c, cs, text, start⟩
    · change wordKind name = .identifier name
      rw [wordKind, named.free]
    · change ∀ c ∈ name.toList, isNameRest c = true
      rw [text, List.forall_mem_cons]
      exact ⟨isNameRest_of_isNameStart start, all⟩
  | string | integer | float | punctuator => cases word

theorem allDigits_integer {i : Int64} (h : (TokenKind.integer i).Fronts) :
    AllDigits (TokenKind.integer i).spelled.toList := by
  have text : (TokenKind.integer i).spelled.toList = _ := toString_of_nonneg h
  exact text ▸ allDigits_toDigits _

theorem isFloatText_float {x : Float} (h : (TokenKind.float x).Fronts) :
    IsFloatText (TokenKind.float x).spelled.toList :=
  isFloatText_write h.1 h.2

theorem number_of_fronts {k : TokenKind} (h : k.Fronts) (number : k.family = .number) :
    (∀ c ∈ k.spelled.toList, inNumber c = true) ∧
      ∃ c cs, k.spelled.toList = c :: cs ∧ c.isDigit = true := by
  cases k with
  | integer i =>
    have digits := allDigits_integer h
    have text : (TokenKind.integer i).spelled.toList = _ := toString_of_nonneg h
    obtain ⟨c, cs, front⟩ := List.exists_cons_of_ne_nil (text ▸ Nat.toDigits_ne_nil)
    exact ⟨digits.inNumber, c, cs, front, digits c (front ▸ List.mem_cons_self)⟩
  | float x =>
    have text := isFloatText_float h
    refine ⟨text.inNumber, ?_⟩
    obtain ⟨whole, fraction, exponent, numeral, written, _⟩ := text
    obtain ⟨c, cs, rfl⟩ := List.exists_cons_of_ne_nil numeral.whole_ne_nil
    exact ⟨c, _, written, numeral.digits c List.mem_cons_self⟩
  | keyword | identifier | string | punctuator => cases number

theorem familyOf_front {k : TokenKind} (h : k.Fronts) :
    ∃ c cs, k.spelled.toList = c :: cs ∧ familyOf c = k.family := by
  cases hk : k.family with
  | word =>
    obtain ⟨_, _, c, cs, text, start⟩ := word_of_fronts h hk
    exact ⟨c, cs, text, if_pos start⟩
  | number =>
    obtain ⟨_, c, cs, text, digit⟩ := number_of_fronts h hk
    have name : ¬isNameStart c = true := by
      intro start
      have := toNat_of_isNameStart start
      have := toNat_of_isDigit digit
      omega
    exact ⟨c, cs, text, by rw [familyOf, if_neg name, if_pos digit]⟩
  | string =>
    cases k with
    | string s =>
      have text : (quote s).toList = '"' :: (s.toList.flatMap escape ++ ['"']) := by simp [quote]
      exact ⟨_, _, text, rfl⟩
    | keyword | identifier | integer | float | punctuator => cases hk
  | sign =>
    cases k with
    | punctuator p =>
      simp only [TokenKind.Fronts, frontSigns, List.mem_cons, List.not_mem_nil, or_false] at h
      rcases h with rfl | rfl | rfl | rfl | rfl <;> exact ⟨_, _, rfl, rfl⟩
    | keyword | identifier | integer | float | string => cases hk

theorem integer_unique {i j : Int64} (hi : (TokenKind.integer i).Fronts)
    (hj : (TokenKind.integer j).Fronts)
    (same : (TokenKind.integer i).spelled = (TokenKind.integer j).spelled) : i = j := by
  have digits : Nat.toDigits 10 i.toInt.toNat = Nat.toDigits 10 j.toInt.toNat := by
    rw [← toString_of_nonneg hi, ← toString_of_nonneg hj]
    exact congrArg String.toList same
  have value := congrArg (Nat.ofDigitChars 10 · 0) digits
  simp only [Nat.ofDigitChars_toDigits (b := 10) (by decide) (by decide)] at value
  have hi : 0 ≤ i.toInt := hi
  have hj : 0 ≤ j.toInt := hj
  exact Int64.toInt_inj.mp (by omega)

/-- Numbers with the same text are the same. -/
theorem number_unique {k k' : TokenKind} (h : k.Fronts) (h' : k'.Fronts)
    (number : k.family = .number) (number' : k'.family = .number) (same : k.spelled = k'.spelled) :
    k = k' := by
  cases k with
  | integer i =>
    cases k' with
    | integer j => rw [integer_unique h h' same]
    | float y => exact absurd (same ▸ allDigits_integer h) (isFloatText_float h').not_allDigits
    | keyword | identifier | string | punctuator => cases number'
  | float x =>
    cases k' with
    | integer j => exact absurd (same ▸ allDigits_integer h') (isFloatText_float h).not_allDigits
    | float y => rw [write_injective h.1 h.2 h'.1 h'.2 same]
    | keyword | identifier | string | punctuator => cases number'
  | keyword | identifier | string | punctuator => cases number

theorem sign_unique : ∀ p ∈ frontSigns, ∀ p' ∈ frontSigns,
    p.text.toList.length = p'.text.toList.length ∧ (p.text.toList = p'.text.toList → p = p') := by
  decide

/-- **A text begins with one token only**, of those that an expression's text begins with. -/
theorem spelled_unique {k k' : TokenKind} {rest rest' : List Char} (h : k.Fronts) (h' : k'.Fronts)
    (ends : k.EndsAt rest) (ends' : k'.EndsAt rest')
    (same : k.spelled.toList ++ rest = k'.spelled.toList ++ rest') : k = k' ∧ rest = rest' := by
  -- the first character tells what the token is, and with it where it ends
  have alike : k'.family = k.family := by
    obtain ⟨c, cs, text, family⟩ := familyOf_front h
    obtain ⟨c', cs', text', family'⟩ := familyOf_front h'
    rw [text, text'] at same
    rw [← family, ← family', (List.cons.inj same).1]
  rw [TokenKind.EndsAt, alike] at ends'
  rw [TokenKind.EndsAt] at ends
  cases hk : k.family with
  | word =>
    rw [hk] at ends ends' alike
    obtain ⟨kind, all, _⟩ := word_of_fronts h hk
    obtain ⟨kind', all', _⟩ := word_of_fronts h' alike
    obtain ⟨text, behind⟩ := run_unique all ends all' ends' same
    exact ⟨by rw [← kind, ← kind', String.toList_injective text], behind⟩
  | number =>
    rw [hk] at ends ends' alike
    obtain ⟨all, _⟩ := number_of_fronts h hk
    obtain ⟨all', _⟩ := number_of_fronts h' alike
    obtain ⟨text, behind⟩ := run_unique all ends all' ends' same
    exact ⟨number_unique h h' hk alike (String.toList_injective text), behind⟩
  | string =>
    cases k <;> cases hk
    cases k' <;> cases alike
    obtain ⟨rfl, behind⟩ := quote_unique same
    exact ⟨rfl, behind⟩
  | sign =>
    cases k <;> cases hk
    cases k' <;> cases alike
    obtain ⟨length, inj⟩ := sign_unique _ h _ h'
    obtain ⟨text, behind⟩ := List.append_inj same length
    exact ⟨by rw [inj text], behind⟩

/-! ### The first token of an expression -/

/-- The token that the text of an expression begins with. -/
def Expr.front : Expr → TokenKind
  | .literal v => v.kind
  | .reference name | .call name _ => .identifier name
  | .unary op _ => op.kind
  | .binary .. => .punctuator .leftParen

/-- The texts of further arguments, each behind a comma. -/
def Expr.further : List Expr → List Char
  | [] => []
  | e :: es => ',' :: ' ' :: (e.display.toList ++ further es)

/-- The texts of the arguments of a call. -/
def Expr.listed : List Expr → List Char
  | [] => []
  | e :: es => e.display.toList ++ further es

/-- What is written behind the first token of an expression, with `rest` behind the expression. -/
def Expr.behind : Expr → List Char → List Char
  | .literal _, rest | .reference _, rest => rest
  | .call _ es, rest => '(' :: (listed es ++ ')' :: rest)
  | .unary .not x, rest => ' ' :: (x.display.toList ++ rest)
  | .unary _ x, rest => x.display.toList ++ rest
  | .binary op l r, rest =>
    l.display.toList ++ ' ' :: (op.text.toList ++ ' ' :: (r.display.toList ++ ')' :: rest))

theorem Expr.toList_intercalate_displayAll (es : List Expr) :
    (", ".intercalate (displayAll es)).toList = listed es := by
  cases es with
  | nil => rfl
  | cons e es =>
    induction es generalizing e with
    | nil => simp [displayAll, listed, further]
    | cons e' es ih =>
      have later := ih e'
      simp only [displayAll, listed, further, String.intercalate_cons_cons, String.toList_append]
        at later ⊢
      rw [later]
      simp

theorem Expr.display_eq {e : Expr} (proper : e.Proper) (rest : List Char) :
    e.display.toList ++ rest = e.front.spelled.toList ++ e.behind rest := by
  cases e with
  | literal v =>
    cases v with
    | bool b => cases b <;> rfl
    | null | int | float | str => rfl
    | wildcard | host => exact proper.elim
  | reference name => rfl
  | call name es =>
    have text : (call name es).display.toList =
        name.toList ++ '(' :: ((", ".intercalate (displayAll es)).toList ++ [')']) := by
      simp [display]
    rw [text, toList_intercalate_displayAll]
    simp [front, behind, TokenKind.spelled, TokenKind.display]
  | unary op x => cases op <;> simp [display, front, behind, UnaryOp.text, UnaryOp.kind,
      TokenKind.spelled, TokenKind.display, Keyword.text, Punctuator.text]
  | binary op l r =>
    simp [display, front, behind, TokenKind.spelled, TokenKind.display, Punctuator.text]

theorem fronts_sign {p : Punctuator} (h : p ∈ frontSigns) : (TokenKind.punctuator p).Fronts :=
  h

theorem Expr.fronts {e : Expr} (proper : e.Proper) : e.front.Fronts := by
  cases e with
  | literal v =>
    cases v with
    | bool b => cases b <;> trivial
    | null | str => trivial
    | int | float => exact proper
    | wildcard | host => exact proper.elim
  | reference | call => exact proper
  | unary op x =>
    cases op with
    | not => trivial
    | plus | negate | complement => exact fronts_sign (by decide)
  | binary => exact fronts_sign (by decide)

theorem endsAt_literal {v : Value} {rest : List Char} (ends : Boundary rest) :
    v.kind.EndsAt rest := by
  intro c hc
  cases v with
  | bool b => cases b <;> exact ends.endsWord c hc
  | null | wildcard | host => exact ends.endsWord c hc
  | int | float => exact ends.not_inNumber c hc
  | str => rfl

/-- What is written behind the first token does not go on with it. -/
theorem Expr.endsAt_behind (e : Expr) {rest : List Char} (ends : Boundary rest) :
    e.front.EndsAt (e.behind rest) := by
  cases e with
  | literal => exact endsAt_literal ends
  | reference => exact ends.endsWord
  | call => exact EndsWord.cons (by decide) _
  | unary op x =>
    cases op with
    | not => exact EndsWord.cons (by decide) _
    | plus | negate | complement => exact fun _ _ => rfl
  | binary => exact fun _ _ => rfl

theorem SpellsLiteral.unique {k : TokenKind} {v v' : Value} (h : SpellsLiteral k v)
    (h' : SpellsLiteral k v') : v = v' := by
  cases h <;> cases h' <;> rfl

theorem Expr.spellsLiteral {v : Value} (proper : (literal v).Proper) :
    SpellsLiteral (literal v).front v := by
  cases v with
  | bool b => cases b <;> constructor
  | null | int | float | str => constructor
  | wildcard | host => exact proper.elim

/-- An expression whose text begins with a literal is that literal. -/
theorem Expr.eq_literal {e : Expr} {v : Value} (proper : e.Proper)
    (spells : SpellsLiteral e.front v) : e = literal v := by
  cases e with
  | literal w => rw [(spellsLiteral proper).unique spells]
  | reference | call | binary => cases spells
  | unary op => cases op <;> cases spells

theorem UnaryOp.kind_inj {op op' : UnaryOp} (h : op.kind = op'.kind) : op = op' := by
  cases op <;> cases op' <;> first | rfl | cases h

/-- `Alike e e'`: as far as their first tokens tell, the expressions are the same. -/
inductive Expr.Alike : Expr → Expr → Prop
  | literal (v : Value) : Alike (.literal v) (.literal v)
  | reference (name : String) : Alike (.reference name) (.reference name)
  | referenceCall (name : String) (es : List Expr) : Alike (.reference name) (.call name es)
  | callReference (name : String) (es : List Expr) : Alike (.call name es) (.reference name)
  | call (name : String) (es es' : List Expr) : Alike (.call name es) (.call name es')
  | unary (op : UnaryOp) (x x' : Expr) : Alike (.unary op x) (.unary op x')
  | binary (op op' : BinaryOp) (l l' r r' : Expr) : Alike (.binary op l r) (.binary op' l' r')

/-- The first token tells what kind of expression it is. -/
theorem Expr.alike_of_front {e e' : Expr} (proper : e.Proper) (proper' : e'.Proper)
    (h : e.front = e'.front) : Alike e e' := by
  -- The kinds of first tokens are disjoint, but for names, which may be called.
  cases e with
  | literal v =>
    have spells : SpellsLiteral e'.front v := h ▸ spellsLiteral proper
    rw [eq_literal proper' spells]
    exact .literal v
  | reference name =>
    cases e' with
    | literal v => cases eq_literal proper (h ▸ spellsLiteral proper')
    | reference | call => cases h; constructor
    | unary op => cases op <;> cases h
    | binary => cases h
  | call name es =>
    cases e' with
    | literal v => cases eq_literal proper (h ▸ spellsLiteral proper')
    | reference | call => cases h; constructor
    | unary op => cases op <;> cases h
    | binary => cases h
  | unary op x =>
    cases e' with
    | literal v => cases eq_literal proper (h ▸ spellsLiteral proper')
    | reference | call | binary => cases op <;> cases h
    | unary op' x' => rw [UnaryOp.kind_inj h]; constructor
  | binary op l r =>
    cases e' with
    | literal v => cases eq_literal proper (h ▸ spellsLiteral proper')
    | reference | call => cases h
    | unary op' => cases op' <;> cases h
    | binary => constructor

/-- Every operator with two operands. -/
def BinaryOp.all : List BinaryOp :=
  [power, multiply, divide, floorDivide, modulo, add, subtract, shiftLeft, shiftRight, bitAnd,
    bitXor, bitOr, compare .equal, compare .notEqual, compare .less, compare .lessEqual,
    compare .greater, compare .greaterEqual, isIn, notIn, and, or]

/-- The operator that stands at the front of a text, with a blank behind it. -/
def readOperator? (cs : List Char) : Option BinaryOp :=
  BinaryOp.all.find? fun op => (op.text.toList ++ [' ']).isPrefixOf cs

theorem readOperator?_append (op : BinaryOp) (rest : List Char) :
    readOperator? (op.text.toList ++ ' ' :: rest) = some op := by
  cases op with
  | compare c => cases c <;> rfl
  | _ => rfl

theorem operator_unique {op op' : BinaryOp} {rest rest' : List Char}
    (same : op.text.toList ++ ' ' :: rest = op'.text.toList ++ ' ' :: rest') :
    op = op' ∧ rest = rest' := by
  have read := congrArg readOperator? same
  rw [readOperator?_append, readOperator?_append] at read
  obtain rfl := Option.some.inj read
  exact ⟨rfl, (List.cons.inj (List.append_cancel_left same)).2⟩

/-! ### The text of an expression -/

/-- Where the text of the expression begins a text, that of no other expression does. -/
def Expr.Identified (e : Expr) : Prop :=
  ∀ {e' : Expr} {rest rest' : List Char}, e'.Everywhere Proper → Boundary rest → Boundary rest' →
    e.display.toList ++ rest = e'.display.toList ++ rest' → e = e' ∧ rest = rest'

theorem Boundary.comma (cs : List Char) : Boundary (',' :: cs) := by
  rintro _ ⟨⟩
  exact .inr (.inr rfl)

/-- A name with a parenthesis behind it is not all of an operand. -/
theorem not_boundary_paren (cs : List Char) : ¬Boundary ('(' :: cs) := by
  intro ends
  exact absurd (ends '(' rfl) (by decide)

theorem boundary_further (es : List Expr) (rest : List Char) :
    Boundary (Expr.further es ++ ')' :: rest) := by
  cases es with
  | nil => exact .paren rest
  | cons e es => exact .comma _

section

variable {es es' : List Expr} {rest rest' : List Char}

theorem further_unique (each : ∀ e ∈ es, e.Identified)
    (proper : ∀ e ∈ es', e.Everywhere Expr.Proper)
    (same : Expr.further es ++ ')' :: rest = Expr.further es' ++ ')' :: rest') :
    es = es' ∧ rest = rest' := by
  induction es generalizing es' with
  | nil =>
    cases es' with
    | nil => exact ⟨rfl, (List.cons.inj same).2⟩
    | cons e' es' => exact absurd (List.cons.inj same).1 (by decide)
  | cons e es ih =>
    cases es' with
    | nil => exact absurd (List.cons.inj same).1 (by decide)
    | cons e' es' =>
      obtain ⟨here, later⟩ := List.forall_mem_cons.mp each
      obtain ⟨proper, proper'⟩ := List.forall_mem_cons.mp proper
      have texts : e.display.toList ++ (Expr.further es ++ ')' :: rest) =
          e'.display.toList ++ (Expr.further es' ++ ')' :: rest') := by
        simpa [Expr.further] using same
      obtain ⟨rfl, others⟩ :=
        here proper (boundary_further es rest) (boundary_further es' rest') texts
      obtain ⟨rfl, behind⟩ := ih later proper' others
      exact ⟨rfl, behind⟩

theorem not_paren_of_display {e : Expr} (proper : e.Proper) (ends : Boundary rest) :
    ')' :: rest' ≠ e.display.toList ++ rest := by
  intro same
  rw [Expr.display_eq proper] at same
  obtain ⟨front, _⟩ := spelled_unique (fronts_sign (p := .rightParen) (by decide))
    (Expr.fronts proper) (fun _ _ => rfl) (e.endsAt_behind ends) same
  cases e with
  | literal v =>
    have spells : SpellsLiteral (.punctuator .rightParen) v := front ▸ Expr.spellsLiteral proper
    cases spells
  | reference | call | binary => cases front
  | unary op => cases op <;> cases front

theorem listed_unique (each : ∀ e ∈ es, e.Identified)
    (proper : ∀ e ∈ es', e.Everywhere Expr.Proper) (proper' : ∀ e ∈ es, e.Proper)
    (same : Expr.listed es ++ ')' :: rest = Expr.listed es' ++ ')' :: rest') :
    es = es' ∧ rest = rest' := by
  cases es with
  | nil =>
    cases es' with
    | nil => exact ⟨rfl, (List.cons.inj same).2⟩
    | cons e' es' =>
      -- no expression begins with the closing parenthesis
      rw [Expr.listed, Expr.listed, List.append_assoc] at same
      exact absurd same (not_paren_of_display (proper e' List.mem_cons_self).here
        (boundary_further es' rest'))
  | cons e es =>
    cases es' with
    | nil =>
      rw [Expr.listed, Expr.listed, List.append_assoc] at same
      exact absurd same.symm (not_paren_of_display (proper' e List.mem_cons_self)
        (boundary_further es rest))
    | cons e' es' =>
      obtain ⟨here, later⟩ := List.forall_mem_cons.mp each
      obtain ⟨proper, proper'⟩ := List.forall_mem_cons.mp proper
      rw [Expr.listed, Expr.listed, List.append_assoc, List.append_assoc] at same
      obtain ⟨rfl, others⟩ :=
        here proper (boundary_further es rest) (boundary_further es' rest') same
      obtain ⟨rfl, behind⟩ := further_unique later proper' others
      exact ⟨rfl, behind⟩

end

/-- **A text begins with one expression only**, of those whose literals and names are such as the
lexer reads. -/
theorem display_unique (e : Expr) (proper : e.Everywhere Expr.Proper) : e.Identified := by
  induction e using Expr.operands_induction with
  | step e ih =>
    have below : ∀ x ∈ e.operands, x.Identified := fun x hx => ih x hx (proper.of_mem hx)
    intro e' rest rest' proper' ends ends' same
    rw [Expr.display_eq proper.here, Expr.display_eq proper'.here] at same
    obtain ⟨front, behind⟩ := spelled_unique (Expr.fronts proper.here) (Expr.fronts proper'.here)
      (e.endsAt_behind ends) (e'.endsAt_behind ends') same
    -- the operands are told by induction, and with them what is written between and behind them
    cases Expr.alike_of_front proper.here proper'.here front with
    | literal | reference => exact ⟨rfl, behind⟩
    | referenceCall name es' =>
      have opened : rest = '(' :: _ := behind
      exact absurd (opened ▸ ends) (not_boundary_paren _)
    | callReference name es =>
      have opened : '(' :: _ = rest' := behind
      exact absurd (opened ▸ ends') (not_boundary_paren _)
    | call name es es' =>
      obtain ⟨rfl, closed⟩ := listed_unique below (Expr.everywhere_call_iff.mp proper').2
        (fun x hx => (proper.of_mem hx).here) (List.cons.inj behind).2
      exact ⟨rfl, closed⟩
    | unary op x x' =>
      have texts : x.display.toList ++ rest = x'.display.toList ++ rest' := by
        cases op with
        | not => exact (List.cons.inj behind).2
        | plus | negate | complement => exact behind
      obtain ⟨rfl, last⟩ := below x (List.mem_singleton.mpr rfl)
        (Expr.everywhere_unary_iff.mp proper').2 ends ends' texts
      exact ⟨rfl, last⟩
    | binary op op' l l' r r' =>
      obtain ⟨_, left, right⟩ := Expr.everywhere_binary_iff.mp proper'
      obtain ⟨rfl, middle⟩ := below l (by simp [Expr.operands]) left (.space _) (.space _) behind
      obtain ⟨rfl, last⟩ := operator_unique (List.cons.inj middle).2
      obtain ⟨rfl, closed⟩ := below r (by simp [Expr.operands]) right (.paren _) (.paren _) last
      exact ⟨rfl, (List.cons.inj closed).2⟩

theorem proper_of_parseExpr {source : String} {e : Expr} (parsed : parseExpr source = .ok e) :
    e.Everywhere Expr.Proper := by
  obtain ⟨_, ts, d, rest, whole, _⟩ := parseExpr_eq_ok_iff_derives.mp parsed
  have regular : ∀ t ∈ ts, t.kind.Regular :=
    fun t ht => regular_of_mem_lex (whole ▸ List.mem_append_left rest ht)
  exact proper_of_derives d regular e (List.mem_singleton.mpr rfl)

/-- **Expressions that were read have the same text if and only if they are the same**, also where
that text is read as another expression, or not at all. -/
theorem display_identifies_expression {source source' : String} {e e' : Expr}
    (parsed : parseExpr source = .ok e) (parsed' : parseExpr source' = .ok e') :
    e.display = e'.display ↔ e = e' := by
  constructor
  · intro same
    have ends : Boundary [] := by
      intro c hc
      cases hc
    have texts : e.display.toList ++ [] = e'.display.toList ++ [] := by rw [same]
    exact (display_unique e (proper_of_parseExpr parsed) (proper_of_parseExpr parsed') ends ends
      texts).1
  · intro same
    rw [same]

/-- The power `-(a ** 2.5)`. -/
def negatedPower : Expr :=
  .unary .negate (.binary .power (.reference "a") (.literal (.float 2.5)))

theorem parseExpr_negatedPower : parseExpr "(-a ** 2.5)" = .ok negatedPower := by
  have kinds : (lex "(-a ** 2.5)").tokens.map Token.kind = [.punctuator .leftParen,
      .punctuator .minus, .identifier "a", .punctuator .doubleStar, .float 2.5,
      .punctuator .rightParen] := by
    decide +kernel
  simp only [List.map_eq_cons_iff, List.map_eq_nil_iff] at kinds
  obtain ⟨opening, _, whole, opens, minus, _, rfl, sign, a, _, rfl, named, star, _, rfl, power,
    number, _, rfl, two, closing, _, rfl, closes, rfl⟩ := kinds
  have exponent : Derives (.level .sign (.literal (.float 2.5))) [number] :=
    .unsigned (.base (.literal (two ▸ .float 2.5)))
  have raised := Derives.raised (.reference named) power exponent
  have inner : Derives (.level .sign negatedPower) [minus, a, star, number] :=
    .signed (sign ▸ .minus) (.unsigned raised)
  have d := (Derives.base (.parens opens inner.to_disjunction closes)).to_disjunction
  exact parseExpr_eq_ok_iff_derives.mpr ⟨by decide +kernel, _, d, [], whole, rfl⟩

/-- The text of `(-a) ** 2.5` is read as `-(a ** 2.5)`, whose own text is another one. -/
theorem display_identifies_expression_powers :
    parseExpr "(-a) ** 2.5" = .ok signedPower ∧ signedPower.display = "(-a ** 2.5)" ∧
      parseExpr "(-a ** 2.5)" = .ok negatedPower ∧ signedPower.display ≠ negatedPower.display := by
  refine ⟨parseExpr_signedPower, by decide +kernel, parseExpr_negatedPower, fun same => ?_⟩
  cases (display_identifies_expression parseExpr_signedPower parseExpr_negatedPower).mp same

end StepScript
