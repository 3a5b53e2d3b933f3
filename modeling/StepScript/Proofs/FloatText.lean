import StepScript.Proofs.Numerals
import StepScript.Proofs.Shortest

/-!
# The text of a number tells it from all others

The text of a floating point number spells its shortest decimal form, wherever the point is put and
whether or not there is a power of ten.  That decimal is rounded to the number, so two numbers with
the same text are the same.

## Main definitions

* `Numeral.value` — the number that a numeral is.
* `Denotes` — the text spells a numeral of a given value.

## Main results

* `denotes_magnitude` — the text of a positive number denotes its shortest decimal form.
* `write_injective` — finite numbers without a minus are told by their texts.
-/

namespace StepScript

/-! ### Reading a numeral -/

/-- The number that a numeral is. -/
def Numeral.value (n : Numeral) : ℚ :=
  Nat.ofDigitChars 10 n.digits 0 * 10 ^ n.exponent

theorem exponent?_toString (k : ℤ) : Numeral.exponent? ('e' :: (toString k).toList) = some k := by
  cases k with
  | ofNat n =>
    have text : (toString (Int.ofNat n)).toList = Nat.toDigits 10 n := toList_toString n
    have digits := allDigits_toDigits n
    have value := readNat?_toDigits n
    rw [text]
    -- the first character is a digit, and not taken for a sign
    obtain ⟨d, ds, front⟩ := List.exists_cons_of_ne_nil (Nat.toDigits_ne_nil (n := n) (b := 10))
    rw [front] at digits value ⊢
    have digit := digits d List.mem_cons_self
    have minus : d ≠ '-' := by
      rintro rfl
      cases digit
    have plus : d ≠ '+' := by
      rintro rfl
      cases digit
    have letter : ('e' == 'e' || 'e' == 'E') = true := rfl
    simp only [Numeral.exponent?, letter, if_true]
    split
    · exact absurd (List.cons.inj ‹_›).1 minus
    · exact absurd (List.cons.inj ‹_›).1 plus
    · rw [value]
      rfl
  | negSucc n =>
    have text : (toString (Int.negSucc n)).toList = '-' :: Nat.toDigits 10 (n + 1) := by
      change ("-" ++ toString (n + 1)).toList = _
      rw [String.toList_append, toList_toString]
      rfl
    rw [text, Numeral.exponent?, if_pos (by decide), readNat?_toDigits]
    rfl

/-- The text spells a numeral of the value. -/
def Denotes (text : List Char) (q : ℚ) : Prop :=
  ∃ n, Numeral.read? text = some n ∧ n.value = q

theorem Denotes.unique {text : List Char} {q r : ℚ} (h : Denotes text q) (h' : Denotes text r) :
    q = r := by
  obtain ⟨n, read, rfl⟩ := h
  obtain ⟨n', read', rfl⟩ := h'
  rw [Option.some.inj (read.symm.trans read')]

section

variable {whole fraction rest : List Char} {e : ℤ}

/-- Digits, a point, more digits and a power of ten. -/
theorem denotes_point (begins : whole ≠ []) (hw : AllDigits whole) (hf : AllDigits fraction)
    (ends : ∀ c ∈ rest.head?, c.isDigit = false) (power : Numeral.exponent? rest = some e) :
    Denotes (whole ++ '.' :: (fraction ++ rest))
      (Nat.ofDigitChars 10 (whole ++ fraction) 0 * 10 ^ (e - fraction.length)) := by
  have point : ∀ c ∈ ('.' :: (fraction ++ rest)).head?, c.isDigit = false := by
    rintro _ ⟨⟩
    rfl
  obtain ⟨taken, left⟩ := takeWhile_append_of_head? hw point
  obtain ⟨taken', left'⟩ := takeWhile_append_of_head? hf ends
  refine ⟨⟨whole ++ fraction, e - fraction.length⟩, ?_, rfl⟩
  simp only [Numeral.read?, taken, left, taken', left', power]
  simp [begins]

/-- Digits, a point and more digits. -/
theorem denotes_fraction (begins : whole ≠ []) (hw : AllDigits whole) (hf : AllDigits fraction) :
    Denotes (whole ++ '.' :: fraction)
      (Nat.ofDigitChars 10 (whole ++ fraction) 0 * 10 ^ (-fraction.length : ℤ)) := by
  have nothing : ∀ c ∈ ([] : List Char).head?, c.isDigit = false := by
    intro c hc
    cases hc
  have h := denotes_point begins hw hf nothing rfl
  rwa [List.append_nil, Int.zero_sub] at h

/-- Digits and a power of ten. -/
theorem denotes_whole (begins : whole ≠ []) (hw : AllDigits whole)
    (ends : ∀ c ∈ rest.head?, c.isDigit = false ∧ c ≠ '.')
    (power : Numeral.exponent? rest = some e) :
    Denotes (whole ++ rest) (Nat.ofDigitChars 10 whole 0 * 10 ^ e) := by
  obtain ⟨taken, left⟩ := takeWhile_append_of_head? hw fun c hc => (ends c hc).1
  refine ⟨⟨whole, e⟩, ?_, rfl⟩
  simp only [Numeral.read?, taken, left]
  split
  · exact absurd rfl (ends '.' (by simp)).2
  · simp [begins, power]

end

/-! ### The text of a number -/

theorem length_toString (n : ℕ) : (toString n).length = (Nat.toDigits 10 n).length := by
  rw [← toList_toString, String.length_toList]

/-- The point stands before the digits, with zeros behind it. -/
theorem denotes_point_before (n zeros : ℕ) :
    Denotes ("0." ++ "".pushn '0' zeros ++ toString n).toList
      (n * 10 ^ (-(zeros + (toString n).length) : ℤ)) := by
  have text : ("0." ++ "".pushn '0' zeros ++ toString n).toList =
      ['0'] ++ '.' :: (List.replicate zeros '0' ++ Nat.toDigits 10 n) := by
    simp [toList_pushn]
  have value : Nat.ofDigitChars 10 (['0'] ++ (List.replicate zeros '0' ++ Nat.toDigits 10 n)) 0 =
      n := by
    have zero : Nat.ofDigitChars 10 ['0'] 0 = 0 := rfl
    rw [Nat.ofDigitChars_append, zero, Nat.ofDigitChars_append, Nat.ofDigitChars_replicate_zero,
      Nat.mul_zero, Nat.ofDigitChars_ten_toDigits]
  have exponent : (-(List.replicate zeros '0' ++ Nat.toDigits 10 n).length : ℤ) =
      -(zeros + (toString n).length) := by
    rw [length_toString, List.length_append, List.length_replicate]
    omega
  have h := denotes_fraction (List.cons_ne_nil '0' []) (by simp [AllDigits])
    ((allDigits_replicate zeros).append (allDigits_toDigits n))
  rwa [← text, value, exponent] at h

/-- The point stands behind the digits, with zeros before it. -/
theorem denotes_point_behind (n zeros : ℕ) :
    Denotes (toString n ++ "".pushn '0' zeros ++ ".0").toList (n * 10 ^ (zeros : ℤ)) := by
  have text : (toString n ++ "".pushn '0' zeros ++ ".0").toList =
      (Nat.toDigits 10 n ++ List.replicate zeros '0') ++ ['.', '0'] := by
    simp [toList_pushn]
  have value : Nat.ofDigitChars 10 (Nat.toDigits 10 n ++ List.replicate zeros '0' ++ ['0']) 0 =
      n * 10 ^ zeros * 10 := by
    have zero (k : ℕ) : Nat.ofDigitChars 10 ['0'] k = 10 * k := rfl
    rw [Nat.ofDigitChars_append, zero, Nat.ofDigitChars_append, Nat.ofDigitChars_replicate_zero,
      Nat.ofDigitChars_ten_toDigits]
    ring
  have scaled : ((n * 10 ^ zeros * 10 : ℕ) : ℚ) * 10 ^ (-['0'].length : ℤ) =
      n * 10 ^ (zeros : ℤ) := by
    rw [zpow_natCast]
    push_cast
    simp
  have zero : AllDigits ['0'] := by simp [AllDigits]
  have h := denotes_fraction (by simp)
    ((allDigits_toDigits n).append (allDigits_replicate zeros)) zero
  rwa [← text, value, scaled] at h

/-- The point stands among the digits. -/
theorem denotes_point_within (n point : ℕ) (pos : 0 < point)
    (less : point < (toString n).length) :
    Denotes (String.ofList ((toString n).toList.take point) ++ "." ++
      String.ofList ((toString n).toList.drop point)).toList
      (n * 10 ^ (point - (toString n).length : ℤ)) := by
  have digits := allDigits_toDigits n
  have text : (String.ofList ((toString n).toList.take point) ++ "." ++
      String.ofList ((toString n).toList.drop point)).toList =
      (Nat.toDigits 10 n).take point ++ '.' :: (Nat.toDigits 10 n).drop point := by
    simp
  have exponent : (-((Nat.toDigits 10 n).drop point).length : ℤ) = point - (toString n).length := by
    rw [length_toString] at less ⊢
    rw [List.length_drop]
    omega
  have begins : (Nat.toDigits 10 n).take point ≠ [] := by
    rw [ne_eq, List.take_eq_nil_iff]
    simp only [Nat.toDigits_ne_nil, or_false]
    omega
  have h := denotes_fraction begins (fun c hc => digits c (List.mem_of_mem_take hc))
    (fun c hc => digits c (List.mem_of_mem_drop (i := point) hc))
  rwa [← text, List.take_append_drop, Nat.ofDigitChars_ten_toDigits, exponent] at h

theorem denotes_placePoint (n : ℕ) (t : ℤ) :
    Denotes (FloatFormat.value.placePoint (toString n) (t + (toString n).length)).toList
      (n * 10 ^ t) := by
  unfold FloatFormat.placePoint
  dsimp only
  split
  · have h := denotes_point_before n (-(t + (toString n).length)).toNat
    rwa [show (-((-(t + (toString n).length)).toNat + (toString n).length) : ℤ) = t by omega] at h
  split
  · have h := denotes_point_behind n ((t + (toString n).length).toNat - (toString n).length)
    rwa [show (((t + (toString n).length).toNat - (toString n).length : ℕ) : ℤ) = t by omega] at h
  · have h := denotes_point_within n (t + (toString n).length).toNat (by omega) (by omega)
    rwa [show ((t + (toString n).length).toNat - (toString n).length : ℤ) = t by omega] at h

theorem denotes_scientific (n : ℕ) (t : ℤ) :
    Denotes (FloatFormat.scientific (toString n) (t + (toString n).length - 1)).toList
      (n * 10 ^ t) := by
  have digits := allDigits_toDigits n
  have value : Nat.ofDigitChars 10 (Nat.toDigits 10 n) 0 = n := Nat.ofDigitChars_ten_toDigits
  rw [length_toString]
  unfold FloatFormat.scientific
  rw [toList_toString]
  split
  · exact absurd ‹_› Nat.toDigits_ne_nil
  · -- a single digit is written without a point
    rename_i d single
    rw [single] at digits value ⊢
    have h := denotes_whole (List.cons_ne_nil d []) digits (by rintro _ ⟨⟩; decide)
      (exponent?_toString t)
    have text : (d.toString ++ "e" ++ toString (t + ([d] : List Char).length - 1)).toList =
        [d] ++ 'e' :: (toString t).toList := by
      simp [Char.toString]
    rwa [← text, value] at h
  · rename_i d ds _ several
    rw [several] at digits value ⊢
    obtain ⟨hd, hds⟩ := List.forall_mem_cons.mp digits
    -- the point stands behind the first digit, so that the exponent counts the others
    generalize hk : t + (d :: ds).length - 1 = k
    have text : (d.toString ++ "." ++ String.ofList ds ++ "e" ++ toString k).toList =
        [d] ++ '.' :: (ds ++ 'e' :: (toString k).toList) := by
      simp [Char.toString]
    have exponent : k - ds.length = t := by
      rw [← hk, List.length_cons]
      omega
    have h := denotes_point (List.cons_ne_nil d []) (by simpa [AllDigits] using hd) hds
      (by rintro _ ⟨⟩; decide) (exponent?_toString k)
    rwa [← text, List.singleton_append, value, exponent] at h

theorem denotes_magnitude (b : Binary) :
    Denotes (FloatFormat.value.magnitude b).toList b.shortest.value := by
  unfold FloatFormat.magnitude
  extract_lets decimal digits k plain
  cases plain with
  | true =>
    have point : k + 1 = decimal.exponent + digits.length := by omega
    rw [if_pos rfl, point]
    exact denotes_placePoint _ _
  | false => exact denotes_scientific _ _

/-- The text of a finite number without a minus denotes zero for zero, and otherwise a decimal that
is rounded to the number. -/
theorem exists_denotes_write {x : Float} (finite : x.isFinite = true) (plus : hasMinus x = false) :
    ∃ b q, Binary.ofFloat? x = some b ∧ b.negative = false ∧ b.Canonical ∧
      Denotes (FloatFormat.value.write x).toList q ∧
      (b.mantissa = 0 ∧ q = 0 ∨ 0 < b.mantissa ∧ b.Covers q) := by
  obtain ⟨b, parts, sign⟩ := exists_ofFloat?_of_isFinite finite
  have canonical := (Binary.parts_of_ofFloat? parts).1
  rw [plus] at sign
  rw [FloatFormat.write, parts]
  simp only [sign, Bool.false_eq_true, if_false]
  by_cases zero : b.mantissa = 0
  · rw [if_pos zero]
    refine ⟨b, 0, rfl, sign, canonical, ?_, .inl ⟨zero, rfl⟩⟩
    exact ⟨⟨['0', '0'], -1⟩, rfl, by simp [Numeral.value, Nat.ofDigitChars]⟩
  · have pos := Nat.pos_of_ne_zero zero
    rw [if_neg zero]
    have covers := Binary.covers_shortest canonical pos
    exact ⟨b, _, rfl, sign, canonical, denotes_magnitude b, .inr ⟨pos, covers⟩⟩

/-- **Finite numbers without a minus have the same text only if they are the same.** -/
theorem write_injective {x y : Float} (hx : x.isFinite = true) (px : hasMinus x = false)
    (hy : y.isFinite = true) (py : hasMinus y = false)
    (same : FloatFormat.value.write x = FloatFormat.value.write y) : x = y := by
  obtain ⟨b, q, parts, sign, canonical, denotes, cases⟩ := exists_denotes_write hx px
  obtain ⟨b', q', parts', sign', canonical', denotes', cases'⟩ := exists_denotes_write hy py
  obtain rfl : q = q' := (same ▸ denotes).unique denotes'
  have equal : b.mantissa = b'.mantissa ∧ b.exponent = b'.exponent := by
    rcases cases with ⟨zero, hq⟩ | ⟨pos, covers⟩
    · rcases cases' with ⟨zero', _⟩ | ⟨pos', covers'⟩
      · have := canonical.mantissa_ge
        have := canonical'.mantissa_ge
        omega
      · exact absurd (hq ▸ covers'.le.1) (Binary.lower_pos pos').not_ge
    · rcases cases' with ⟨zero', hq⟩ | ⟨pos', covers'⟩
      · exact absurd (hq ▸ covers.le.1) (Binary.lower_pos pos).not_ge
      · exact Binary.eq_of_covers canonical canonical' covers covers'
  have : b = b' := by
    cases b
    cases b'
    simp_all
  exact Binary.ofFloat?_unique parts (this ▸ parts')

end StepScript
