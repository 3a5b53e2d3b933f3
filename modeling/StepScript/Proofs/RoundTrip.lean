import StepScript.Proofs.Rendering
import StepScript.Proofs.ScriptParsing

/-!
# Reading back the text of an expression

An expression that was read from a text has literals and names that the lexer knows.  So its own
text is read as its printed tokens, unless a string in it has a character that is written by its
code point; and the printed tokens are read as the expression, unless an operand binds too loosely.

## Main definitions

* `TokenKind.Regular` — the tokens that the lexer gives.

## Main results

* `regular_of_mem_lex` — what the lexer gives is regular.
* `proper_of_derives` — expressions read from regular tokens have literals and names that the lexer
  knows.
* `display_reads_back_iff` — which expressions are read back from their text.
-/

namespace StepScript

/-! ### The tokens of a text -/

/-- The token is a name that is no keyword, a whole number that is not negative, a finite number
without a minus, or of a kind that asks for nothing. -/
def TokenKind.Regular : TokenKind → Prop
  | .identifier name => IsName name
  | .integer i => 0 ≤ i.toInt
  | .float x => x.isFinite = true ∧ hasMinus x = false
  | _ => True

/-- The piece is no token, or a regular one. -/
def Piece.Regular : Piece → Prop
  | .token kind _ => kind.Regular
  | _ => True

theorem regular_scanString (quote : Char) (start here : Location) (body : StringBody)
    (cs : List Char) : (scanString quote start here body cs).piece.Regular := by
  fun_induction scanString quote start here body cs with
  | case1 | case2 | case3 => trivial
  | case4 _ _ _ _ _ _ _ _ ih => exact ih
  | case5 _ _ _ _ _ _ _ ih => exact ih
  | case6 _ _ _ _ _ _ ih => exact ih

theorem regular_numberPiece {start : Location} {kind : Option TokenKind}
    (h : ∀ k ∈ kind, k.Regular) : (numberPiece start kind).Regular := by
  cases kind with
  | none => exact Int.le_refl 0
  | some k => exact h k rfl

theorem nonneg_of_narrow? {n : Nat} {i : Int64} (h : narrow? n = some i) : 0 ≤ i.toInt := by
  rw [toInt_of_narrow? h]
  omega

theorem regular_scanNumber (start : Location) {c : Char} {cs : List Char}
    (begins : beginsNumber (c :: cs) = true) : (scanNumber start (c :: cs)).piece.Regular := by
  have unsigned : c ≠ '-' ∧ c ≠ '+' := by
    constructor <;> rintro rfl <;> cases begins
  unfold scanNumber
  split
  · refine regular_numberPiece fun k hk => ?_
    obtain ⟨i, hi, rfl⟩ := Option.map_eq_some_iff.mp hk
    obtain ⟨n, _, hn⟩ := Option.bind_eq_some_iff.mp hi
    exact nonneg_of_narrow? hn
  · -- the text is not empty, so it begins with the same character and has no sign
    obtain ⟨n, hn⟩ := Nat.exists_eq_add_one_of_ne_zero (Nat.ne_of_gt (decimalLength_pos begins))
    refine regular_numberPiece fun k hk => ?_
    simp only [hn, List.take_succ_cons, decimalKind?] at hk
    split at hk
    · obtain ⟨x, hx, rfl⟩ := Option.map_eq_some_iff.mp hk
      obtain ⟨hx, finite⟩ := Option.filter_eq_some_iff.mp hx
      have read : readMagnitude? (c :: cs.take n) = some x := by
        rw [← hx, readFloat?.eq_def]
        split <;> simp_all
      exact ⟨finite, hasMinus_of_readMagnitude? read⟩
    · obtain ⟨i, hi, rfl⟩ := Option.map_eq_some_iff.mp hk
      rw [readInt?.eq_def] at hi
      split at hi
      · simp_all
      · simp_all
      · obtain ⟨n, _, hn⟩ := Option.bind_eq_some_iff.mp hi
        exact nonneg_of_narrow? hn

theorem regular_wordKind {c : Char} {cs : List Char} (start : isNameStart c = true)
    (all : ∀ d ∈ cs, isNameRest d = true) : (wordKind (String.ofList (c :: cs))).Regular := by
  unfold wordKind
  split
  · trivial
  · rename_i free
    exact ⟨⟨c, cs, String.toList_ofList, start, all⟩, free⟩

theorem regular_scan (start : Location) (c : Char) (cs : List Char) :
    (scan start c cs).piece.Regular := by
  unfold scan
  split
  · trivial
  split
  · trivial
  split
  · exact regular_scanString _ _ _ _ _
  split
  · rename_i name
    exact regular_wordKind name fun d hd => List.mem_takeWhile_imp hd
  split
  · rename_i number
    exact regular_scanNumber start number
  split <;> trivial

theorem regular_lexFrom (here : Location) (tokens : List Token) (errors : List LexError)
    (cs : List Char) (h : ∀ t ∈ tokens, t.kind.Regular) :
    ∀ t ∈ (lexFrom here tokens errors cs).tokens, t.kind.Regular := by
  fun_induction lexFrom here tokens errors cs with
  | case1 tokens errors =>
    intro t ht
    exact h t (List.mem_reverse.mp ht)
  | case2 _ _ _ _ _ _ _ _ ih => exact ih h
  | case3 _ _ _ _ _ _ _ _ _ ih => exact ih h
  | case4 here tokens errors c cs reading stop kind inner hpiece ih =>
    refine ih (List.forall_mem_cons.mpr ⟨?_, h⟩)
    have regular := regular_scan here c cs
    rwa [show (scan here c cs).piece = _ from hpiece] at regular

theorem regular_of_mem_lex {source : String} {t : Token} (ht : t ∈ (lex source).tokens) :
    t.kind.Regular := by
  rw [lex_eq_lexFrom] at ht
  exact regular_lexFrom _ _ _ _ (by simp) t ht

/-! ### The expressions of regular tokens -/

/-- The expressions of a phrase. -/
def Phrase.exprs : Phrase → List Expr
  | level _ e => [e]
  | arguments es | list es => es

theorem SpellsLiteral.proper {k : TokenKind} {v : Value} (h : SpellsLiteral k v)
    (regular : k.Regular) : (Expr.literal v).Proper := by
  cases h <;> exact regular

theorem proper_of_derives {phrase : Phrase} {ts : List Token} (d : Derives phrase ts)
    (regular : ∀ t ∈ ts, t.kind.Regular) :
    ∀ e ∈ phrase.exprs, e.Everywhere Expr.Proper := by
  -- Literals and names are tokens, and these are regular; all else is built of them.
  induction d with
  | operand _ _ ih | plain _ ih | unsigned _ ih | base _ ih | someArguments _ ih | last _ ih =>
    exact ih regular
  | @chain _ _ a b op ls ops rs _ _ _ _ ihl ihr =>
    have left := ihl (fun t ht => regular t (by simp [ht])) a (List.mem_singleton.mpr rfl)
    have right := ihr (fun t ht => regular t (by simp [ht])) b (List.mem_singleton.mpr rfl)
    exact List.forall_mem_singleton.mpr (Expr.everywhere_binary_iff.mpr ⟨trivial, left, right⟩)
  | @raised _ a b ls rs _ _ _ ihl ihr =>
    have left := ihl (fun t ht => regular t (by simp [ht])) a (List.mem_singleton.mpr rfl)
    have right := ihr (fun t ht => regular t (by simp [ht])) b (List.mem_singleton.mpr rfl)
    exact List.forall_mem_singleton.mpr (Expr.everywhere_binary_iff.mpr ⟨trivial, left, right⟩)
  | negated _ _ ih | signed _ _ ih =>
    have inner := ih (List.forall_mem_cons.mp regular).2 _ (List.mem_singleton.mpr rfl)
    exact List.forall_mem_singleton.mpr (Expr.everywhere_unary_iff.mpr ⟨trivial, inner⟩)
  | literal spells =>
    have proper := spells.proper (regular _ List.mem_cons_self)
    exact List.forall_mem_singleton.mpr (Expr.everywhere_literal_iff.mpr proper)
  | reference named =>
    have proper := named ▸ regular _ List.mem_cons_self
    exact List.forall_mem_singleton.mpr (Expr.everywhere_reference_iff.mpr proper)
  | call named _ _ _ ih =>
    have proper := named ▸ regular _ List.mem_cons_self
    have inner := ih fun t ht => regular t (by simp [ht])
    exact List.forall_mem_singleton.mpr (Expr.everywhere_call_iff.mpr ⟨proper, inner⟩)
  | parens _ _ _ ih => exact ih fun t ht => regular t (by simp [ht])
  | noArguments => exact fun e he => nomatch he
  | more _ _ _ ihl ihr =>
    have first := ihl fun t ht => regular t (by simp [ht])
    have others := ihr fun t ht => regular t (by simp [ht])
    exact List.forall_mem_cons.mpr ⟨first _ (List.mem_singleton.mpr rfl), others⟩

theorem Expr.Proper.written {e : Expr} (h : e.Proper) : e.Written := by
  cases e with
  | literal v =>
    cases v with
    | null => exact .nothing
    | bool b =>
      cases b with
      | false => exact .falsity
      | true => exact .truth
    | int i => exact .integer i
    | float x => exact .float x
    | str s => exact .string s
    | wildcard | host => exact h.elim
  | reference | call | unary | binary => trivial

/-! ### Texts -/

theorem lex_display {e : Expr} (proper : e.Everywhere Expr.Proper)
    (readsBack : e.Everywhere Expr.ReadsBack) :
    ((lex e.display).errors = [] ↔ e.Everywhere Expr.PlainStrings) ∧
      (e.Everywhere Expr.PlainStrings → (lex e.display).tokens.map Token.kind = e.printed) := by
  have ends : Boundary [] := by
    intro c hc
    cases hc
  obtain ⟨here, new, flaws, h, clean, kinds⟩ := lexes_display e proper readsBack ends .origin [] []
  have result : lex e.display = ⟨new, flaws.reverse⟩ := by
    rw [lex_eq_lexFrom, ← List.append_nil e.display.toList, h, lexFrom]
    simp
  rw [result]
  exact ⟨by rw [List.reverse_eq_nil_iff, clean], kinds⟩

/-- What is read of the printed tokens of an expression is all of them. -/
theorem derives_append_printed_iff {e : Expr} {us : List Token} (h : us.map Token.kind = e.printed) :
    (∃ ts, Derives (.level (.tier .disjunction) e) ts ∧ ∃ rest, us = ts ++ rest ∧
      dropSemicolon rest = []) ↔ Derives (.level (.tier .disjunction) e) us := by
  constructor
  · rintro ⟨ts, d, rest, rfl, _⟩
    have same := map_kind_eq_printed d (.inl (h ▸ by simp))
    have exhausted : rest = [] := by simpa [same] using h
    rwa [exhausted, List.append_nil]
  · intro d
    exact ⟨us, d, [], (List.append_nil us).symm, rfl⟩

/-- **The text of an expression that was read reads back as the same expression if and only if** no
negation stands under `+`, `-` or `~` or under a binary operator other than `and` and `or`, no
operand with `+`, `-` or `~` in front is raised to a power, and no string has a character that is
written by its code point.  The texts of its floating point literals are taken to read back. -/
theorem display_reads_back_iff {source : String} {e : Expr} (parsed : parseExpr source = .ok e)
    (readsBack : e.Everywhere Expr.ReadsBack) :
    parseExpr e.display = .ok e ↔
      e.Everywhere Expr.LooseNot ∧ e.Everywhere Expr.UnsignedBase ∧
        e.Everywhere Expr.PlainStrings := by
  obtain ⟨_, ts, d, rest, whole, _⟩ := parseExpr_eq_ok_iff_derives.mp parsed
  have regular : ∀ t ∈ ts, t.kind.Regular :=
    fun t ht => regular_of_mem_lex (whole ▸ List.mem_append_left rest ht)
  have proper : e.Everywhere Expr.Proper :=
    proper_of_derives d regular e (List.mem_singleton.mpr rfl)
  have written : e.Everywhere Expr.Written := fun x hx => (proper x hx).written
  obtain ⟨clean, kinds⟩ := lex_display proper readsBack
  rw [parseExpr_eq_ok_iff_derives, clean, ← and_assoc, ← Expr.everywhere_fits_iff, and_comm]
  refine and_congr_left fun plain => ?_
  rw [derives_append_printed_iff (kinds plain), derives_printed_iff written (kinds plain)]

/-- The power `(-a) ** 2.5`. -/
def signedPower : Expr :=
  .binary .power (.unary .negate (.reference "a")) (.literal (.float 2.5))

theorem parseExpr_signedPower : parseExpr "(-a) ** 2.5" = .ok signedPower := by
  have kinds : (lex "(-a) ** 2.5").tokens.map Token.kind = [.punctuator .leftParen,
      .punctuator .minus, .identifier "a", .punctuator .rightParen, .punctuator .doubleStar,
      .float 2.5] := by
    decide +kernel
  simp only [List.map_eq_cons_iff, List.map_eq_nil_iff] at kinds
  obtain ⟨opening, _, whole, opens, minus, _, rfl, sign, a, _, rfl, named, closing, _, rfl, closes,
    star, _, rfl, power, number, _, rfl, two, rfl⟩ := kinds
  have base : Derives (.level .sign (.unary .negate (.reference "a"))) [minus, a] :=
    .signed (sign ▸ .minus) (.unsigned (.base (.reference named)))
  have exponent : Derives (.level .sign (.literal (.float 2.5))) [number] :=
    .unsigned (.base (.literal (two ▸ .float 2.5)))
  have left := Derives.parens opens base.to_disjunction closes
  have d := (Derives.raised left power exponent).to_disjunction
  exact parseExpr_eq_ok_iff_derives.mpr ⟨by decide +kernel, _, d, [], whole, rfl⟩

/-- The text of `(-a) ** 2.5` is `(-a ** 2.5)`, which is read as the negation of a power. -/
theorem display_reads_back_iff_signedPower :
    parseExpr "(-a) ** 2.5" = .ok signedPower ∧ signedPower.Everywhere Expr.ReadsBack ∧
      signedPower.display = "(-a ** 2.5)" ∧ parseExpr signedPower.display ≠ .ok signedPower := by
  have readsBack : signedPower.Everywhere Expr.ReadsBack := by
    have two : (Expr.literal (.float 2.5)).ReadsBack := by
      unfold Expr.ReadsBack
      decide +kernel
    have base : (Expr.unary .negate (.reference "a")).Everywhere Expr.ReadsBack :=
      Expr.everywhere_unary_iff.mpr ⟨trivial, Expr.everywhere_reference_iff.mpr trivial⟩
    exact Expr.everywhere_binary_iff.mpr ⟨trivial, base, Expr.everywhere_literal_iff.mpr two⟩
  refine ⟨parseExpr_signedPower, readsBack, by decide +kernel, fun h => ?_⟩
  have fits := (display_reads_back_iff parseExpr_signedPower readsBack).mp h
  have unsigned : (Expr.unary .negate (.reference "a")).isSigned = false := fits.2.1.here
  cases unsigned

end StepScript
