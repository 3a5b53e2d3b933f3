import StepScript.Proofs.Rendering

/-!
# A token is read off its own text

How far a token reaches is decided by its own characters and by the one behind it.  If that one is a
blank or begins a comment, or if there is none, then the token ends where it ended before, whatever
stood there: a token without flaws is read off its own text alone.

## Main definitions

* `AtGap` — a text begins with a blank or a comment, or is empty.
* `ReadsAs` — a word is read as a token of some kind wherever a gap follows it.

## Main results

* `scanString_of_flawless`, `scanNumber_of_flawless`, `sign?_of_atGap` — the classes of tokens.
* `readsAs_of_scan` — **a token is read off its own text**.
-/

namespace StepScript

/-! ### What follows a word -/

theorem toNat_of_isDigit {c : Char} (h : c.isDigit = true) : 0x30 ≤ c.toNat ∧ c.toNat ≤ 0x39 := by
  obtain ⟨low, high⟩ := Bool.and_eq_true_iff.mp h
  exact ⟨of_decide_eq_true low, of_decide_eq_true high⟩

theorem toNat_of_isNameRest {c : Char} (h : isNameRest c = true) :
    0x30 ≤ c.toNat ∧ c.toNat ≤ 0x7a := by
  rw [isNameRest, Bool.or_eq_true, beq_iff_eq] at h
  rcases h with alphanum | rfl
  · rcases Bool.or_eq_true_iff.mp alphanum with letter | digit
    · have := toNat_of_isNameStart (c := c) (by rw [isNameStart, letter]; rfl)
      omega
    · have := toNat_of_isDigit digit
      omega
  · decide

theorem toNat_of_isHexDigit {c : Char} (h : isHexDigit c = true) :
    0x30 ≤ c.toNat ∧ c.toNat ≤ 0x7a := by
  have bounds {low high : Char} (h : low ≤ c ∧ c ≤ high) :
      low.toNat ≤ c.toNat ∧ c.toNat ≤ high.toNat := h
  rw [isHexDigit, digitValue?] at h
  split at h
  · next h' =>
    have : 0x30 ≤ c.toNat ∧ c.toNat ≤ 0x39 := bounds h'
    omega
  split at h
  · next h' =>
    have : 0x61 ≤ c.toNat ∧ c.toNat ≤ 0x66 := bounds h'
    omega
  split at h
  · next h' =>
    have : 0x41 ≤ c.toNat ∧ c.toNat ≤ 0x46 := bounds h'
    omega
  · cases h

/-- The text is empty, or begins with a blank or a comment. -/
def AtGap (rest : List Char) : Prop :=
  ∀ c ∈ rest.head?, isBlank c = true ∨ c = '#'

namespace AtGap

variable {rest : List Char} {c : Char}

theorem nil : AtGap [] := by
  rintro c ⟨⟩

/-- No visible ASCII character but `#` stands where a gap begins. -/
theorem ne_visible (h : AtGap rest) (hc : c ∈ rest.head?) {d : Char} (low : 0x21 ≤ d.toNat)
    (high : d.toNat ≤ 0x7e) (sharp : d ≠ '#') : c ≠ d := by
  rintro rfl
  rcases h c hc with blank | rfl
  · rw [isBlank_of_visible low high] at blank
    cases blank
  · exact sharp rfl

/-- No letter or digit stands where a gap begins. -/
theorem eq_false (h : AtGap rest) {p : Char → Bool}
    (visible : ∀ d, p d = true → 0x30 ≤ d.toNat ∧ d.toNat ≤ 0x7a) :
    ∀ c ∈ rest.head?, p c = false := by
  intro c hc
  rw [Bool.eq_false_iff]
  intro hp
  obtain ⟨low, high⟩ := visible c hp
  refine h.ne_visible hc (by omega) (by omega) ?_ rfl
  rintro rfl
  exact absurd low (by decide)

theorem endsWord (h : AtGap rest) : EndsWord rest :=
  h.eq_false fun _ => toNat_of_isNameRest

theorem not_isDigit (h : AtGap rest) : ∀ c ∈ rest.head?, c.isDigit = false :=
  h.eq_false fun d digit => by
    have := toNat_of_isDigit digit
    omega

end AtGap

/-! ### Strings -/

/-- A string without flaws ends with its own last quote. -/
theorem scanString_of_flawless {quote : Char} {start here : Location} {body : StringBody}
    {cs text rest : List Char} {kind : TokenKind}
    (h : scanString quote start here body cs = ⟨.token kind [], text, rest⟩) :
    body.errors = [] ∧ ∃ used, text = body.text.reverse ++ used ∧ ∀ start here rest,
      scanString quote start here body (used ++ rest) = ⟨.token kind [], text, rest⟩ := by
  fun_induction scanString quote start here body cs with
  | case1 here body => simp [StringBody.finish] at h
  | case2 here body cs =>
    obtain ⟨⟨rfl, flawless⟩, rfl, -⟩ : (_ ∧ body.errors = []) ∧ _ = text ∧ cs = rest := by
      simpa [StringBody.finish] using h
    refine ⟨flawless, [quote], rfl, fun start here rest => ?_⟩
    rw [List.singleton_append, scanString.eq_def]
    simp [StringBody.finish, flawless]
  | case3 here body hquote => simp [StringBody.finish] at h
  | case4 here body e es v hv hquote read ih =>
    obtain ⟨flawless, used, rfl, again⟩ := ih h
    refine ⟨flawless, '\\' :: e :: used, by simp [read], fun start here rest => ?_⟩
    rw [← again start ((here.next '\\').next e) rest, List.cons_append, List.cons_append,
      scanString.eq_def]
    simp [hquote, hv, read]
  | case5 here body e es hv hquote read ih =>
    -- an unknown escape is a flaw
    obtain ⟨flawless, -⟩ := ih h
    cases flawless
  | case6 here body c cs hquote hslash ih =>
    obtain ⟨flawless, used, rfl, again⟩ := ih h
    refine ⟨flawless, c :: used, by simp, fun start here rest => ?_⟩
    rw [← again start (here.next c) rest, List.cons_append, scanString.eq_def]
    simp [hquote, hslash]

/-! ### Numbers -/

theorem all_takeWhile (p : Char → Bool) (cs : List Char) : ∀ c ∈ cs.takeWhile p, p c = true :=
  fun _ => List.mem_takeWhile_imp

theorem beginsWithDigit_takeWhile_append {cs : List Char} (h : beginsWithDigit cs = true)
    (rest : List Char) : beginsWithDigit (cs.takeWhile Char.isDigit ++ rest) = true := by
  cases cs with
  | nil => cases h
  | cons c cs =>
    rw [beginsWithDigit] at h
    simp [h, beginsWithDigit]

/-- What may follow the digits of a number: neither another digit nor what makes it another
number. -/
def EndsDigits (rest : List Char) : Prop :=
  ∀ c ∈ rest.head?, c.isDigit = false ∧ c ≠ '.' ∧ c ≠ 'x'

theorem EndsDigits.not_isDigit {rest : List Char} (h : EndsDigits rest) :
    ∀ c ∈ rest.head?, c.isDigit = false :=
  fun c hc => (h c hc).1

theorem AtGap.endsDigits {rest : List Char} (h : AtGap rest) : EndsDigits rest :=
  fun c hc => ⟨h.not_isDigit c hc, h.ne_visible hc (by decide) (by decide) (by decide),
    h.ne_visible hc (by decide) (by decide) (by decide)⟩

theorem AtGap.exponentLength {rest : List Char} (h : AtGap rest) : exponentLength rest = 0 := by
  rcases rest with _ | ⟨c, cs⟩
  · rfl
  · have lower : c ≠ 'e' := h.ne_visible rfl (by decide) (by decide) (by decide)
    have upper : c ≠ 'E' := h.ne_visible rfl (by decide) (by decide) (by decide)
    rw [StepScript.exponentLength.eq_def]
    simp [lower, upper]

theorem endsDigits_of_power {c : Char} (h : (c == 'e' || c == 'E') = true) (cs : List Char) :
    EndsDigits (c :: cs) := by
  rintro _ ⟨⟩
  rw [Bool.or_eq_true, beq_iff_eq, beq_iff_eq] at h
  rcases h with rfl | rfl <;> decide

/-- A power of ten is read off its own text. -/
theorem exponentLength_take_append (cs : List Char) {rest : List Char} (gap : AtGap rest) :
    exponentLength (cs.take (exponentLength cs) ++ rest) = exponentLength cs ∧
      EndsDigits (cs.take (exponentLength cs) ++ rest) := by
  have run (ds : List Char) :=
    takeWhile_append_of_head? (all_takeWhile Char.isDigit ds) gap.not_isDigit
  fun_cases exponentLength cs with
  | case1 c hc s ds hs =>
    have begins := beginsWithDigit_takeWhile_append (Bool.and_eq_true_iff.mp hs).2 rest
    have signed := (Bool.and_eq_true_iff.mp hs).1
    rw [Nat.add_comm 2, List.take_succ_cons, List.take_succ_cons, take_length_takeWhile]
    refine ⟨?_, endsDigits_of_power hc _⟩
    simp [exponentLength, hc, signed, begins, run, Nat.add_comm]
  | case2 c hc s ds hs digit =>
    rw [Nat.add_comm 1, List.take_succ_cons, take_length_takeWhile, List.takeWhile_cons_of_pos digit]
    refine ⟨?_, endsDigits_of_power hc _⟩
    simp [exponentLength, hc, not_sign_of_isDigit digit, digit, run, Nat.add_comm]
  | case3 c hc s ds hs digit => exact ⟨gap.exponentLength, gap.endsDigits⟩
  | case4 c hc => exact ⟨gap.exponentLength, gap.endsDigits⟩
  | case5 c cs hc => exact ⟨gap.exponentLength, gap.endsDigits⟩
  | case6 => exact ⟨gap.exponentLength, gap.endsDigits⟩

theorem exponentLength_le (cs : List Char) : exponentLength cs ≤ cs.length := by
  have run (ds : List Char) : (ds.takeWhile Char.isDigit).length ≤ ds.length :=
    (List.takeWhile_prefix _).length_le
  fun_cases exponentLength cs with
  | case1 c hc s ds hs =>
    have := run ds
    simp only [List.length_cons]
    omega
  | case2 c hc s ds hs digit =>
    have := run (s :: ds)
    simp only [List.length_cons] at this ⊢
    omega
  | case3 | case4 | case5 | case6 => exact Nat.zero_le _

section Decimal

variable {whole fraction tail : List Char}

theorem decimalLength_of_whole (digits : AllDigits whole)
    (ends : ∀ c ∈ tail.head?, c.isDigit = false ∧ c ≠ '.') :
    decimalLength (whole ++ tail) =
      (whole.length + exponentLength tail, exponentLength tail != 0) := by
  obtain ⟨taken, left⟩ := takeWhile_append_of_head? digits fun c hc => (ends c hc).1
  unfold decimalLength
  rw [taken, left]
  rcases tail with _ | ⟨c, cs⟩
  · rfl
  · have point := (ends c rfl).2
    simp [point]

theorem decimalLength_of_point (digits : AllDigits whole) (digits' : AllDigits fraction)
    (ends : ∀ c ∈ tail.head?, c.isDigit = false) :
    decimalLength (whole ++ '.' :: (fraction ++ tail)) =
      (whole.length + (1 + fraction.length) + exponentLength tail, true) := by
  have point : ∀ c ∈ ('.' :: (fraction ++ tail)).head?, c.isDigit = false := by
    rintro _ ⟨⟩
    rfl
  obtain ⟨taken, left⟩ := takeWhile_append_of_head? digits point
  obtain ⟨taken', left'⟩ := takeWhile_append_of_head? digits' ends
  unfold decimalLength
  rw [taken, left]
  simp only [taken', left']
  simp

/-- A text begins with digits, and then a point with more digits may follow. -/
theorem decimal_cases (cs : List Char) :
    (∃ whole tail, AllDigits whole ∧ (∀ c ∈ tail.head?, c.isDigit = false ∧ c ≠ '.') ∧
      cs = whole ++ tail) ∨
    ∃ whole fraction tail, AllDigits whole ∧ AllDigits fraction ∧
      (∀ c ∈ tail.head?, c.isDigit = false) ∧ cs = whole ++ '.' :: (fraction ++ tail) := by
  have cut (ds : List Char) : ∃ digits tail, AllDigits digits ∧
      (∀ c ∈ tail.head?, c.isDigit = false) ∧ ds = digits ++ tail := by
    refine ⟨ds.takeWhile Char.isDigit, ds.dropWhile Char.isDigit, all_takeWhile _ _, ?_,
      List.takeWhile_append_dropWhile.symm⟩
    intro c hc
    have := List.head?_dropWhile_not Char.isDigit ds
    rw [hc] at this
    simpa using this
  obtain ⟨whole, tail, digits, ends, rfl⟩ := cut cs
  rcases tail with _ | ⟨c, ds⟩
  · exact .inl ⟨whole, [], digits, by simp, rfl⟩
  · by_cases point : c = '.'
    · subst point
      obtain ⟨fraction, tail, digits', ends', rfl⟩ := cut ds
      exact .inr ⟨whole, fraction, tail, digits, digits', ends', rfl⟩
    · refine .inl ⟨whole, c :: ds, digits, ?_, rfl⟩
      rintro _ ⟨⟩
      exact ⟨ends c rfl, point⟩

theorem decimalLength_le (cs : List Char) : (decimalLength cs).1 ≤ cs.length := by
  rcases decimal_cases cs with ⟨whole, tail, digits, ends, rfl⟩ |
    ⟨whole, fraction, tail, digits, digits', ends, rfl⟩
  · have := exponentLength_le tail
    rw [decimalLength_of_whole digits ends, List.length_append]
    omega
  · have := exponentLength_le tail
    rw [decimalLength_of_point digits digits' ends]
    simp only [List.length_append, List.length_cons]
    omega

/-- A decimal number is read off its own text. -/
theorem decimalLength_take_append (cs : List Char) {rest : List Char} (gap : AtGap rest) :
    decimalLength (cs.take (decimalLength cs).1 ++ rest) = decimalLength cs := by
  rcases decimal_cases cs with ⟨whole, tail, digits, ends, rfl⟩ |
    ⟨whole, fraction, tail, digits, digits', ends, rfl⟩
  · obtain ⟨same, ends'⟩ := exponentLength_take_append tail gap
    rw [decimalLength_of_whole digits ends, List.take_length_add_append, List.append_assoc,
      decimalLength_of_whole digits fun c hc => ⟨(ends' c hc).1, (ends' c hc).2.1⟩, same]
  · obtain ⟨same, ends'⟩ := exponentLength_take_append tail gap
    have taken : (whole ++ '.' :: (fraction ++ tail)).take
        (whole.length + (1 + fraction.length) + exponentLength tail) ++ rest =
        whole ++ '.' :: (fraction ++ (tail.take (exponentLength tail) ++ rest)) := by
      rw [Nat.add_assoc, List.take_length_add_append, Nat.add_comm 1, Nat.add_right_comm,
        List.take_succ_cons, List.take_length_add_append]
      simp
    rw [decimalLength_of_point digits digits' ends, taken,
      decimalLength_of_point digits digits' ends'.not_isDigit, same]

end Decimal

theorem two_le_decimalLength_of_point {d : Char} (digit : d.isDigit = true) (ds : List Char) :
    2 ≤ (decimalLength ('.' :: d :: ds)).1 := by
  have point : Char.isDigit '.' = false := rfl
  have run : (d :: ds).takeWhile Char.isDigit = d :: ds.takeWhile Char.isDigit :=
    List.takeWhile_cons_of_pos digit
  unfold decimalLength
  rw [List.takeWhile_cons_of_neg (by simp [point]), List.dropWhile_cons_of_neg (by simp [point])]
  simp only [run, List.length_cons]
  omega

/-- A number begins with its own characters. -/
theorem beginsNumber_take_append {cs : List Char} (begins : beginsNumber cs = true)
    (rest : List Char) : beginsNumber (cs.take (decimalLength cs).1 ++ rest) = true := by
  cases cs with
  | nil => cases begins
  | cons c cs =>
    have pos := decimalLength_pos begins
    obtain ⟨n, hn⟩ := Nat.exists_eq_add_one_of_ne_zero (Nat.ne_of_gt pos)
    rw [hn, List.take_succ_cons, List.cons_append]
    by_cases point : c = '.'
    · -- a point is followed by a digit, which belongs to the number too
      subst point
      cases cs with
      | nil => cases begins
      | cons d ds =>
        have digit : d.isDigit = true := begins
        have two := two_le_decimalLength_of_point digit ds
        obtain ⟨m, rfl⟩ := Nat.exists_eq_add_one_of_ne_zero (show n ≠ 0 by omega)
        exact digit
    · refine beginsNumber_of_isDigit _ ?_
      rw [beginsNumber.eq_def] at begins
      simpa [point, beginsWithDigit] using begins

theorem numberPiece_eq_flawless_iff {start : Location} {kind : Option TokenKind} {k : TokenKind} :
    numberPiece start kind = .token k [] ↔ kind = some k := by
  cases kind <;> simp [numberPiece]

/-- A gap behind a decimal number does not make it a hexadecimal one. -/
theorem decimal_take_append {cs : List Char} (begins : beginsNumber cs = true)
    (decimal : ∀ ds, cs ≠ '0' :: 'x' :: ds) {rest : List Char} (gap : AtGap rest) (ds : List Char) :
    cs.take (decimalLength cs).1 ++ rest ≠ '0' :: 'x' :: ds := by
  cases cs with
  | nil => cases begins
  | cons c cs =>
    obtain ⟨n, hn⟩ := Nat.exists_eq_add_one_of_ne_zero (Nat.ne_of_gt (decimalLength_pos begins))
    rw [hn, List.take_succ_cons, List.cons_append]
    intro same
    obtain ⟨rfl, hex⟩ := List.cons.inj same
    cases hcs : cs.take n with
    | nil =>
      rw [hcs, List.nil_append] at hex
      exact (gap.endsDigits 'x' (hex ▸ rfl)).2.2 rfl
    | cons d tail =>
      rw [hcs] at hex
      obtain ⟨rfl, -⟩ := List.cons.inj hex
      refine decimal (tail ++ cs.drop n) ?_
      rw [← List.cons_append, ← hcs, List.take_append_drop]

/-- A number without flaws is read off its own text. -/
theorem scanNumber_of_flawless {here : Location} {cs text behind : List Char} {kind : TokenKind}
    (begins : beginsNumber cs = true)
    (h : scanNumber here cs = ⟨.token kind [], text, behind⟩) (start : Location) {rest : List Char}
    (gap : AtGap rest) :
    scanNumber start (text ++ rest) = ⟨.token kind [], text, rest⟩ ∧
      beginsNumber (text ++ rest) = true := by
  by_cases hex : ∃ ds, cs = '0' :: 'x' :: ds
  · obtain ⟨ds, rfl⟩ := hex
    obtain ⟨piece, rfl, -⟩ := Reading.mk.inj h
    have run := takeWhile_append_of_head? (all_takeWhile isHexDigit ds)
      (gap.eq_false fun _ => toNat_of_isHexDigit)
    refine ⟨?_, rfl⟩
    simp only [List.cons_append, scanNumber, run, numberPiece_eq_flawless_iff.mp piece]
    rfl
  · have decimal : ∀ ds, cs ≠ '0' :: 'x' :: ds := fun ds h => hex ⟨ds, h⟩
    rw [scanNumber_of_decimal decimal] at h
    obtain ⟨piece, rfl, -⟩ := Reading.mk.inj h
    have length : (cs.take (decimalLength cs).1).length = (decimalLength cs).1 :=
      List.length_take_of_le (decimalLength_le cs)
    refine ⟨?_, beginsNumber_take_append begins rest⟩
    rw [scanNumber_of_decimal (decimal_take_append begins decimal gap),
      decimalLength_take_append cs gap, List.take_left' length, List.drop_left' length]
    rw [numberPiece_eq_flawless_iff] at piece
    rw [piece]
    rfl

/-! ### Signs -/

/-- The second character of a sign begins no gap. -/
theorem pairSign?_eq_none_of_atGap {d : Char} {rest : List Char} (gap : AtGap (d :: rest))
    (c : Char) : pairSign? c d = none := by
  have visible {e : Char} (low : 0x21 ≤ e.toNat) (high : e.toNat ≤ 0x7e) (sharp : e ≠ '#') : d ≠ e :=
    gap.ne_visible rfl low high sharp
  unfold pairSign?
  split
  case h_9 => rfl
  all_goals exact absurd rfl (visible (by decide) (by decide) (by decide))

theorem sign?_eq_none_of_point (cs : List Char) : sign? ('.' :: cs) = none := by
  cases cs <;> rfl

theorem sign?_length_le {cs : List Char} {p : Punctuator} {n : Nat} (h : sign? cs = some (p, n)) :
    n ≤ cs.length := by
  unfold sign? at h
  split at h
  · cases h
  · obtain ⟨_, -, heq⟩ := Option.map_eq_some_iff.mp h
    cases heq
    simp
  · split at h
    · cases h
      simp
    · obtain ⟨_, -, heq⟩ := Option.map_eq_some_iff.mp h
      cases heq
      simp

/-- A sign is read off its own text. -/
theorem sign?_take_append {cs : List Char} {p : Punctuator} {n : Nat} (h : sign? cs = some (p, n))
    {rest : List Char} (gap : AtGap rest) : sign? (cs.take n ++ rest) = some (p, n) := by
  have single {c : Char} {p : Punctuator} (h : singleSign? c = some p) :
      sign? (c :: rest) = some (p, 1) := by
    rcases rest with _ | ⟨d, ds⟩
    · simp [sign?, h]
    · simp [sign?, pairSign?_eq_none_of_atGap gap, h]
  unfold sign? at h
  split at h
  · cases h
  · rename_i c
    obtain ⟨_, hc, heq⟩ := Option.map_eq_some_iff.mp h
    cases heq
    exact single hc
  · rename_i c d ds
    split at h
    · rename_i q hpair
      cases h
      simp [sign?, hpair]
    · obtain ⟨_, hc, heq⟩ := Option.map_eq_some_iff.mp h
      cases heq
      exact single hc

/-! ### Tokens -/

/-- The word is read as a token of this kind wherever it stands before a gap. -/
def ReadsAs (word : List Char) (kind : TokenKind) : Prop :=
  ∃ c cs, word = c :: cs ∧ ∀ here rest, AtGap rest →
    scan here c (cs ++ rest) = ⟨.token kind [], word, rest⟩

/-- **A token without flaws is read off its own text.** -/
theorem readsAs_of_scan {here : Location} {c : Char} {cs text behind : List Char} {kind : TokenKind}
    (h : scan here c cs = ⟨.token kind [], text, behind⟩) : ReadsAs text kind := by
  -- the text begins with the character that decides how it is read
  obtain ⟨word, rfl⟩ : ∃ word, text = c :: word := by
    have whole := text_append_rest_scan here c cs
    have nonempty := text_ne_nil_scan here c cs
    rw [h] at whole nonempty
    obtain ⟨d, word, rfl⟩ := List.exists_cons_of_ne_nil nonempty
    exact ⟨word, by rw [(List.cons.inj whole).1]⟩
  refine ⟨c, word, rfl, fun start rest gap => ?_⟩
  -- the same decision is taken before the gap, so that only the ends matter
  by_cases blank : isBlank c = true
  · rw [scan, if_pos blank] at h
    cases h
  by_cases comment : c = '#'
  · rw [scan, if_neg blank, if_pos comment] at h
    cases h
  by_cases string : c = '"' ∨ c = '\''
  · -- a string ends at its quote, whatever follows
    rw [scan, if_neg blank, if_neg comment, if_pos string] at h ⊢
    obtain ⟨-, used, same, again⟩ := scanString_of_flawless h
    obtain rfl : word = used := (List.cons.inj same).2
    exact again start (start.next c) rest
  by_cases name : isNameStart c = true
  · -- a name ends before the gap, where none can go on
    rw [scan, if_neg blank, if_neg comment, if_neg string, if_pos name] at h
    cases h
    exact scan_of_word name (all_takeWhile _ _) gap.endsWord start
  by_cases number : beginsNumber (c :: cs) = true
  · rw [scan, if_neg blank, if_neg comment, if_neg string, if_neg name, if_pos number] at h
    -- so does a number, and a point before a digit is read with it
    obtain ⟨again, begins⟩ := scanNumber_of_flawless number h start gap
    rw [scan, if_neg blank, if_neg comment, if_neg string, if_neg name, ← List.cons_append,
      if_pos begins, again]
  · rw [scan, if_neg blank, if_neg comment, if_neg string, if_neg name, if_neg number] at h
    cases hsign : sign? (c :: cs) with
    | none =>
      rw [hsign] at h
      cases h
    | some sign =>
      obtain ⟨p, n⟩ := sign
      -- what is left begins a sign, and a gap makes no longer one of it
      have begins : beginsSign c = true := by
        have point : c ≠ '.' := by
          rintro rfl
          rw [sign?_eq_none_of_point] at hsign
          cases hsign
        have digit : c.isDigit ≠ true := fun digit => number (beginsNumber_of_isDigit cs digit)
        simp_all [beginsSign]
      rw [hsign] at h
      obtain ⟨piece, text, -⟩ := Reading.mk.inj h
      cases piece
      have again := sign?_take_append hsign gap
      have length := List.length_take_of_le (sign?_length_le hsign)
      rw [text] at again length
      rw [List.cons_append] at again
      rw [scan_of_sign begins again, ← List.cons_append, List.take_left' length,
        List.drop_left' length]

end StepScript
