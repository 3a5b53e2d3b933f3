import StepScript.Proofs.Scan

/-!
# Numbers as they are read and written

A number in a source text has no sign of its own, so what it stands for carries no minus.  The text
of such a number is made of digits, a point and a power of ten, and the lexer reads all of it as one
token.

## Main definitions

* `Unsigned` — a floating point number, taken apart, carries no minus.
* `IsFraction`, `IsExponent`, `IsNumeral` — the parts of the text of a number.
* `Boundary` — what follows a number in the text of an expression.

## Main results

* `hasMinus_of_readMagnitude?` — what is read without a sign carries no minus.
* `isNumeral_write` — the text of a finite number without a minus.
* `scanNumber_integer`, `scanNumber_float` — the lexer reads the text of a number.
-/

namespace StepScript

/-! ### The sign of a number -/

section Sign

open Float.Model

/-- The number carries no minus sign. -/
def Unsigned : UnpackedFloat → Prop
  | .notANumber => True
  | .infinity s | .zero s | .finite s _ _ _ => s = .positive

theorem unsigned_dite {p : Prop} [Decidable p] {a : p → UnpackedFloat} {b : ¬p → UnpackedFloat}
    (ha : ∀ h, Unsigned (a h)) (hb : ∀ h, Unsigned (b h)) :
    Unsigned (if h : p then a h else b h) := by
  by_cases h : p
  · rw [dif_pos h]
    exact ha h
  · rw [dif_neg h]
    exact hb h

theorem unsigned_ite {p : Prop} [Decidable p] {a b : UnpackedFloat} (ha : Unsigned a)
    (hb : Unsigned b) : Unsigned (if p then a else b) := by
  by_cases h : p
  · rwa [if_pos h]
  · rwa [if_neg h]

theorem unsigned_roundWithAccuracy (m : Nat) (e : Int) (a : UnpackedFloat.Accuracy) :
    Unsigned (.roundWithAccuracy .binary64 .positive m e a) :=
  unsigned_dite (fun _ => rfl) fun _ => rfl

theorem unsigned_mul {a b : UnpackedFloat} (ha : Unsigned a) (hb : Unsigned b) :
    Unsigned (.mul .binary64 a b) := by
  cases a <;> cases b <;> cases ha <;> cases hb <;>
    first | trivial | rfl | exact unsigned_roundWithAccuracy _ _ _

theorem unsigned_div {a b : UnpackedFloat} (ha : Unsigned a) (hb : Unsigned b) :
    Unsigned (.div .binary64 a b) := by
  cases a <;> cases b <;> cases ha <;> cases hb <;>
    first | trivial | rfl | exact unsigned_roundWithAccuracy _ _ _

theorem hasMinus_eq_false_iff {x : Float} :
    hasMinus x = false ↔ x.toBits.toNat < Nat.pow 2 63 := by
  have := x.toBits.toNat_lt
  have hp : Nat.pow 2 63 = 2 ^ 63 := rfl
  rw [hasMinus, hp, beq_eq_false_iff_ne]
  omega

theorem msb_packComponents (e : BitVec 11) (m : BitVec 52) :
    (UnpackedFloat.packComponents .binary64 .positive e m).msb = false := by
  change ((0#1 ++ e) ++ m).msb = false
  rw [BitVec.msb_append, BitVec.msb_append]
  rfl

theorem msb_pack {u : UnpackedFloat} (h : Unsigned u) :
    (UnpackedFloat.pack .binary64 u).msb = false := by
  cases u with
  | notANumber => exact msb_packComponents _ _
  | infinity s => cases h; exact msb_packComponents _ _
  | zero s => cases h; exact msb_packComponents _ _
  | finite s m e pos =>
    cases h
    unfold UnpackedFloat.pack
    dsimp only
    split
    · exact msb_packComponents _ _
    split
    · exact msb_packComponents _ _
    · exact msb_packComponents _ _

theorem hasMinus_pack {u : UnpackedFloat} (h : Unsigned u) :
    hasMinus (.ofModel (.pack u)) = false := by
  rw [hasMinus_eq_false_iff]
  have : 2 * (UnpackedFloat.pack .binary64 u).toNat < 2 ^ 64 :=
    BitVec.msb_eq_false_iff_two_mul_lt.mp (msb_pack h)
  change (UnpackedFloat.pack .binary64 u).toNat < 2 ^ 63
  omega

theorem unsigned_unpack {bits : BitVec 64} (h : bits.toNat < Nat.pow 2 63) :
    Unsigned (.unpack .binary64 bits) := by
  have high : bits.extractLsb 63 63 = 0#1 := by
    have hp : Nat.pow 2 63 = 2 ^ 63 := rfl
    apply BitVec.eq_of_toNat_eq
    rw [BitVec.extractLsb_toNat]
    simp
    omega
  have sign : UnpackedFloat.Sign.ofBitVec (@UnpackedFloat.unpackSign .binary64 bits) = .positive := by
    change UnpackedFloat.Sign.ofBitVec (bits.extractLsb 63 63) = .positive
    rw [high]
    rfl
  refine unsigned_ite (unsigned_ite sign trivial) (unsigned_ite ?_ sign)
  exact unsigned_dite (fun _ => sign) fun _ => sign

theorem unsigned_of_hasMinus {x : Float} (h : hasMinus x = false) : Unsigned x.toModel.unpack :=
  unsigned_unpack (hasMinus_eq_false_iff.mp h)

theorem hasMinus_mul {x y : Float} (hx : hasMinus x = false) (hy : hasMinus y = false) :
    hasMinus (x * y) = false :=
  hasMinus_pack (unsigned_mul (unsigned_of_hasMinus hx) (unsigned_of_hasMinus hy))

theorem hasMinus_div {x y : Float} (hx : hasMinus x = false) (hy : hasMinus y = false) :
    hasMinus (x / y) = false :=
  hasMinus_pack (unsigned_div (unsigned_of_hasMinus hx) (unsigned_of_hasMinus hy))

theorem unsigned_ofNat (n : Nat) : Unsigned (.ofNat .binary64 n) := by
  unfold UnpackedFloat.ofNat UnpackedFloat.ofInt UnpackedFloat.normalize
  split
  · rename_i h
    have := Int.compare_eq_lt.mp h
    omega
  · rfl
  · exact unsigned_roundWithAccuracy _ _ _

theorem unsigned_ofScientific (m : Nat) (e : Int) : Unsigned (.ofScientific .binary64 m e) := by
  refine unsigned_dite (fun _ => rfl) fun _ => ?_
  exact unsigned_ite rfl (unsigned_ite rfl (unsigned_ite (unsigned_mul rfl rfl) (unsigned_div rfl rfl)))

theorem hasMinus_ofBits {bits : UInt64} (h : bits.toNat < Nat.pow 2 63) :
    hasMinus (.ofBits bits) = false :=
  hasMinus_pack (unsigned_unpack h)

theorem hasMinus_powersOfTen : ∀ x ∈ Float.exactlyRepresentablePowersOfTen, hasMinus x = false := by
  simp only [Float.exactlyRepresentablePowersOfTen, List.mem_toArray, List.forall_mem_cons]
  repeat' apply And.intro
  all_goals first | exact hasMinus_ofBits (by decide) | simp

theorem hasMinus_ofScientific (m : Nat) (s : Bool) (e : Nat) :
    hasMinus (.ofScientific m s e) = false := by
  have whole (n : UInt64) : hasMinus n.toFloat = false := hasMinus_pack (unsigned_ofNat _)
  unfold Float.ofScientific
  split
  · rename_i small
    have inTable : e < Float.exactlyRepresentablePowersOfTen.size := Nat.lt_succ_of_le small.2
    have power := hasMinus_powersOfTen _ (Array.getElem_mem inTable)
    dsimp only
    split
    · exact hasMinus_div (whole _) power
    · exact hasMinus_mul (whole _) power
  · exact hasMinus_pack (unsigned_ofScientific _ _)

theorem hasMinus_toFloat (n : Numeral) : hasMinus n.toFloat = false := by
  unfold Numeral.toFloat
  dsimp only
  repeat' split
  · exact hasMinus_ofScientific _ _ _
  · exact hasMinus_div (hasMinus_ofScientific _ _ _) (hasMinus_ofScientific _ _ _)
  · exact hasMinus_ofScientific _ _ _
  · exact hasMinus_ofScientific _ _ _

theorem hasMinus_of_readMagnitude? {cs : List Char} {x : Float} (h : readMagnitude? cs = some x) :
    hasMinus x = false := by
  unfold readMagnitude? at h
  split at h
  · cases h
    exact hasMinus_div (hasMinus_ofScientific _ _ _) (hasMinus_ofScientific _ _ _)
  · cases h
    exact hasMinus_div (hasMinus_ofScientific _ _ _) (hasMinus_ofScientific _ _ _)
  · cases h
    exact hasMinus_div (hasMinus_ofScientific _ _ _) (hasMinus_ofScientific _ _ _)
  · obtain ⟨n, _, rfl⟩ := Option.map_eq_some_iff.mp h
    exact hasMinus_toFloat n

theorem exists_ofFloat?_of_isFinite {x : Float} (h : x.isFinite = true) :
    ∃ b, Binary.ofFloat? x = some b ∧ b.negative = hasMinus x := by
  unfold Binary.ofFloat?
  dsimp only
  split
  · rename_i scale
    -- an exponent of ones only is that of an infinity or of no number
    have ones : @UnpackedFloat.unpackExponent .binary64 x.toBits.toBitVec = -1#11 := by
      apply BitVec.eq_of_toNat_eq
      simp only [UnpackedFloat.unpackExponent, BitVec.toNat_cast, BitVec.extractLsb_toNat,
        Nat.shiftRight_eq_div_pow]
      exact scale
    change (UnpackedFloat.unpack .binary64 x.toBits.toBitVec).isFinite = true at h
    unfold UnpackedFloat.unpack at h
    dsimp only at h
    rw [if_pos ones] at h
    split at h <;> cases h
  · split
    · exact ⟨_, rfl, rfl⟩
    · exact ⟨_, rfl, rfl⟩
end Sign

/-! ### The text of a number -/

/-- The characters are digits. -/
def AllDigits (cs : List Char) : Prop :=
  ∀ c ∈ cs, c.isDigit = true

/-- A point with digits behind it, or nothing. -/
inductive IsFraction : List Char → Prop
  | none : IsFraction []
  | point {ds : List Char} (digits : AllDigits ds) : IsFraction ('.' :: ds)

/-- A power of ten, or nothing. -/
inductive IsExponent : List Char → Prop
  | none : IsExponent []
  | plus {d : Char} {ds : List Char} (digits : AllDigits (d :: ds)) : IsExponent ('e' :: d :: ds)
  | minus {d : Char} {ds : List Char} (digits : AllDigits (d :: ds)) :
      IsExponent ('e' :: '-' :: d :: ds)

/-- `IsNumeral whole fraction exponent`: the parts of a number's text. -/
structure IsNumeral (whole fraction exponent : List Char) : Prop where
  whole_ne_nil : whole ≠ []
  digits : AllDigits whole
  fraction : IsFraction fraction
  exponent : IsExponent exponent

theorem AllDigits.append {cs ds : List Char} (hc : AllDigits cs) (hd : AllDigits ds) :
    AllDigits (cs ++ ds) := by
  intro c h
  rcases List.mem_append.mp h with h | h
  · exact hc c h
  · exact hd c h

theorem allDigits_replicate (n : Nat) : AllDigits (List.replicate n '0') := by
  intro c h
  cases List.eq_of_mem_replicate h
  rfl

theorem allDigits_toDigits (n : Nat) : AllDigits (Nat.toDigits 10 n) :=
  fun _ h => Nat.isDigit_of_mem_toDigits (by decide) (by decide) h

theorem toList_toString (n : Nat) : (toString n).toList = Nat.toDigits 10 n :=
  Nat.toList_repr

theorem toList_pushn (c : Char) (n : Nat) : ("".pushn c n).toList = List.replicate n c := by
  rw [String.pushn_eq_repeat_push]
  induction n with
  | zero => rfl
  | succ n ih => rw [Nat.repeat, String.toList_push, ih, List.replicate_succ']

theorem isExponent_toString (k : Int) : IsExponent ('e' :: (toString k).toList) := by
  cases k with
  | ofNat n =>
    change IsExponent ('e' :: (toString n).toList)
    rw [toList_toString]
    obtain ⟨d, ds, h⟩ := List.exists_cons_of_ne_nil Nat.toDigits_ne_nil
    rw [h]
    exact .plus (h ▸ allDigits_toDigits n)
  | negSucc n =>
    change IsExponent ('e' :: ("-" ++ toString (n + 1)).toList)
    rw [String.toList_append, toList_toString]
    obtain ⟨d, ds, h⟩ := List.exists_cons_of_ne_nil Nat.toDigits_ne_nil
    rw [h]
    exact .minus (h ▸ allDigits_toDigits (n + 1))

/-- The text is that of a number with a point or a power of ten. -/
def IsFloatText (cs : List Char) : Prop :=
  ∃ whole fraction exponent, IsNumeral whole fraction exponent ∧
    cs = whole ++ (fraction ++ exponent) ∧ (fraction ≠ [] ∨ exponent ≠ [])

theorem isFloatText_placePoint (n : Nat) (point : Int) :
    IsFloatText (FloatFormat.value.placePoint (toString n) point).toList := by
  have digits := allDigits_toDigits n
  unfold FloatFormat.placePoint
  dsimp only
  split
  · refine ⟨['0'], '.' :: (List.replicate (-point).toNat '0' ++ Nat.toDigits 10 n), [],
      ⟨by simp, by simp [AllDigits], .point ((allDigits_replicate _).append digits), .none⟩, ?_,
      .inl (by simp)⟩
    simp [toList_pushn]
  split
  · refine ⟨Nat.toDigits 10 n ++ List.replicate (point.toNat - (toString n).length) '0', ['.', '0'],
      [], ⟨by simp, digits.append (allDigits_replicate _),
        .point (by simp [AllDigits]), .none⟩, ?_, .inl (by simp)⟩
    simp [toList_pushn, FloatFormat.value]
  · refine ⟨(Nat.toDigits 10 n).take point.toNat, '.' :: (Nat.toDigits 10 n).drop point.toNat, [],
      ⟨?_, fun c h => digits c (List.mem_of_mem_take h),
        .point fun c h => digits c (List.mem_of_mem_drop h), .none⟩, ?_, .inl (by simp)⟩
    · rw [ne_eq, List.take_eq_nil_iff]
      simp only [Nat.toDigits_ne_nil, or_false]
      omega
    · simp

theorem isFloatText_scientific (n : Nat) (k : Int) :
    IsFloatText (FloatFormat.scientific (toString n) k).toList := by
  have digits := allDigits_toDigits n
  unfold FloatFormat.scientific
  rw [toList_toString]
  split
  · rename_i none
    exact absurd none Nat.toDigits_ne_nil
  · rename_i d single
    rw [single] at digits
    refine ⟨[d], [], 'e' :: (toString k).toList,
      ⟨by simp, digits, .none, isExponent_toString k⟩, ?_, .inr (by simp)⟩
    simp [Char.toString]
  · rename_i d ds _ several
    rw [several] at digits
    obtain ⟨hd, hds⟩ := List.forall_mem_cons.mp digits
    refine ⟨[d], '.' :: ds, 'e' :: (toString k).toList,
      ⟨by simp, by simpa [AllDigits] using hd, .point hds, isExponent_toString k⟩, ?_,
      .inr (by simp)⟩
    simp [Char.toString]

theorem magnitude_cases (f : FloatFormat) (b : Binary) :
    (∃ point, f.magnitude b = f.placePoint (toString b.shortest.digits) point) ∨
      ∃ k, f.magnitude b = FloatFormat.scientific (toString b.shortest.digits) k := by
  unfold FloatFormat.magnitude
  extract_lets decimal digits k plain
  cases plain with
  | true => exact .inl ⟨_, rfl⟩
  | false => exact .inr ⟨_, rfl⟩

/-- The text of a finite number without a minus has a point or a power of ten. -/
theorem isFloatText_write {x : Float} (finite : x.isFinite = true) (plus : hasMinus x = false) :
    IsFloatText (FloatFormat.value.write x).toList := by
  obtain ⟨b, hb, negative⟩ := exists_ofFloat?_of_isFinite finite
  rw [FloatFormat.write, hb]
  simp only [negative, plus, Bool.false_eq_true, if_false]
  split
  · exact ⟨['0'], ['.', '0'], [], ⟨by simp, by simp [AllDigits], .point (by simp [AllDigits]),
      .none⟩, rfl, .inl (by simp)⟩
  · rcases magnitude_cases FloatFormat.value b with ⟨point, h⟩ | ⟨k, h⟩
    · exact h ▸ isFloatText_placePoint _ _
    · exact h ▸ isFloatText_scientific _ _

/-! ### Reading the text of a number -/

/-- What follows an operand in the text of an expression: nothing, a blank, a closing parenthesis or
a comma. -/
def Boundary (rest : List Char) : Prop :=
  ∀ c ∈ rest.head?, c = ' ' ∨ c = ')' ∨ c = ','

/-- A run of characters ends where it ended, if what follows does not carry it on. -/
theorem takeWhile_append_of_head? {p : Char → Bool} {run rest : List Char}
    (all : ∀ c ∈ run, p c = true) (ends : ∀ c ∈ rest.head?, p c = false) :
    (run ++ rest).takeWhile p = run ∧ (run ++ rest).dropWhile p = rest := by
  rw [List.takeWhile_append_of_pos all, List.dropWhile_append_of_pos all]
  cases rest with
  | nil => simp
  | cons c cs => simp [ends c rfl]

theorem Boundary.not_isDigit {rest : List Char} (h : Boundary rest) :
    ∀ c ∈ rest.head?, c.isDigit = false := by
  intro c hc
  rcases h c hc with rfl | rfl | rfl <;> decide

theorem IsExponent.length_append {xs rest : List Char} (h : IsExponent xs) (ends : Boundary rest) :
    exponentLength (xs ++ rest) = xs.length := by
  have behind := ends.not_isDigit
  cases h with
  | none =>
    cases rest with
    | nil => rfl
    | cons c cs => rcases ends c rfl with rfl | rfl | rfl <;> rfl
  | @plus d ds digits =>
    have hd := digits d List.mem_cons_self
    have sign := not_sign_of_isDigit hd
    have all := (takeWhile_append_of_head? digits behind).1
    simp only [List.cons_append] at all
    simp only [exponentLength, List.cons_append, sign, hd, all]
    simp [Nat.add_comm]
  | @minus d ds digits =>
    have hd := digits d List.mem_cons_self
    have all := (takeWhile_append_of_head? digits behind).1
    simp only [List.cons_append] at all
    simp only [exponentLength, List.cons_append, beginsWithDigit, hd, all]
    simp
    omega

section Decimal

variable {whole fraction exponent rest : List Char}

theorem IsExponent.not_isDigit (h : IsExponent exponent) (ends : Boundary rest) :
    ∀ c ∈ (exponent ++ rest).head?, c.isDigit = false ∧ c ≠ '.' ∧ c ≠ 'x' := by
  intro c hc
  cases h with
  | none => rcases ends c hc with rfl | rfl | rfl <;> decide
  | plus | minus => cases hc; decide

theorem IsFraction.not_isDigit (h : IsFraction fraction) (power : IsExponent exponent)
    (ends : Boundary rest) :
    ∀ c ∈ (fraction ++ (exponent ++ rest)).head?, c.isDigit = false ∧ c ≠ 'x' := by
  intro c hc
  cases h with
  | none =>
    have := power.not_isDigit ends c hc
    exact ⟨this.1, this.2.2⟩
  | point => cases hc; decide

/-- The lexer takes the whole text of a number. -/
theorem IsNumeral.decimalLength_append (h : IsNumeral whole fraction exponent)
    (ends : Boundary rest) :
    decimalLength (whole ++ (fraction ++ (exponent ++ rest))) =
      (whole.length + fraction.length + exponent.length,
        fraction.length != 0 || exponent.length != 0) := by
  have behind : ∀ c ∈ (fraction ++ (exponent ++ rest)).head?, c.isDigit = false :=
    fun c hc => (h.fraction.not_isDigit h.exponent ends c hc).1
  have digitless := h.exponent.not_isDigit ends
  have power := h.exponent.length_append ends
  unfold decimalLength
  obtain ⟨taken, left⟩ := takeWhile_append_of_head? h.digits behind
  rw [taken, left]
  cases h.fraction with
  | none =>
    rw [List.nil_append]
    generalize exponent ++ rest = r at digitless power
    rcases r with _ | ⟨c, cs⟩
    · simp [← power]
    · have point := (digitless c rfl).2.1
      simp [point, power]
  | @point ds digits =>
    obtain ⟨all, left⟩ := takeWhile_append_of_head? digits fun c hc => (digitless c hc).1
    simp [all, left, power, Nat.add_comm 1]

theorem IsNumeral.scanNumber_append (h : IsNumeral whole fraction exponent) (ends : Boundary rest)
    (start : Location) :
    scanNumber start (whole ++ (fraction ++ (exponent ++ rest))) =
      ⟨numberPiece start (decimalKind? (fraction.length != 0 || exponent.length != 0)
        (whole ++ (fraction ++ exponent))), whole ++ (fraction ++ exponent), rest⟩ := by
  have all : whole ++ (fraction ++ (exponent ++ rest)) = (whole ++ (fraction ++ exponent)) ++ rest := by
    simp
  have length : whole.length + fraction.length + exponent.length =
      (whole ++ (fraction ++ exponent)).length := by
    simp [Nat.add_assoc]
  unfold scanNumber
  split
  · -- the character behind the first digit begins no hexadecimal number
    rename_i ds hex
    exfalso
    have behind := h.fraction.not_isDigit h.exponent ends
    obtain ⟨c, cs, rfl⟩ := List.exists_cons_of_ne_nil h.whole_ne_nil
    rcases cs with _ | ⟨d, cs⟩
    · have next : fraction ++ (exponent ++ rest) = 'x' :: ds := (List.cons.inj hex).2
      rw [next] at behind
      exact (behind 'x' rfl).2 rfl
    · cases (List.cons.inj (List.cons.inj hex).2).1
      exact absurd (h.digits 'x' (by simp)) (by decide)
  · dsimp only
    rw [h.decimalLength_append ends, length, all, List.take_left, List.drop_left]

end Decimal

theorem digitValue?_of_isDigit {c : Char} (h : c.isDigit = true) :
    digitValue? 10 c = some (c.toNat - '0'.toNat) := by
  have bounds : '0' ≤ c ∧ c ≤ '9' := by simpa [Char.isDigit, Char.le_def] using h
  have small : c.toNat - '0'.toNat < 10 := by
    have := bounds.2
    simp only [Char.le_def, UInt32.le_iff_toNat_le] at this
    change c.toNat ≤ 57 at this
    change c.toNat - 48 < 10
    omega
  rw [digitValue?, if_pos bounds]
  simpa [Option.filter] using small

theorem readDigits?_of_allDigits {cs : List Char} (digits : AllDigits cs) (n : Nat) :
    readDigits? 10 n cs = some (Nat.ofDigitChars 10 cs n) := by
  induction cs generalizing n with
  | nil => rfl
  | cons c cs ih =>
    obtain ⟨hc, hcs⟩ := List.forall_mem_cons.mp digits
    rw [readDigits?, digitValue?_of_isDigit hc]
    simp only [ih hcs, Nat.ofDigitChars_cons, Nat.mul_comm]

theorem readNat?_toDigits (n : Nat) : readNat? 10 (Nat.toDigits 10 n) = some n := by
  rw [readNat?, if_neg (by simp), readDigits?_of_allDigits (allDigits_toDigits n),
    Nat.ofDigitChars_toDigits (by decide) (by decide)]

/-- A number is read without a sign if it begins with none. -/
theorem readInt?_of_allDigits {cs : List Char} (digits : AllDigits cs) :
    readInt? cs = (readNat? 10 cs).bind fun n => narrow? n := by
  unfold readInt?
  split
  · exact absurd (digits '-' List.mem_cons_self) (by decide)
  · exact absurd (digits '+' List.mem_cons_self) (by decide)
  · rfl

theorem toString_of_nonneg {i : Int} (nonneg : 0 ≤ i) :
    (toString i).toList = Nat.toDigits 10 i.toNat := by
  obtain ⟨n, rfl⟩ := Int.eq_ofNat_of_zero_le nonneg
  exact toList_toString n

theorem scanNumber_integer {i : Int64} (nonneg : 0 ≤ i.toInt) {rest : List Char}
    (ends : Boundary rest) (start : Location) :
    scanNumber start ((toString i.toInt).toList ++ rest) =
      ⟨.token (.integer i) [], (toString i.toInt).toList, rest⟩ := by
  have digits := allDigits_toDigits i.toInt.toNat
  have numeral : IsNumeral (Nat.toDigits 10 i.toInt.toNat) [] [] :=
    ⟨Nat.toDigits_ne_nil, digits, .none, .none⟩
  have value : readInt? (Nat.toDigits 10 i.toInt.toNat) = some i := by
    rw [readInt?_of_allDigits digits, readNat?_toDigits, Option.bind_some,
      Int.toNat_of_nonneg nonneg, narrow?_toInt]
  have kind : decimalKind? false (Nat.toDigits 10 i.toInt.toNat) = some (.integer i) := by
    rw [decimalKind?, if_neg Bool.false_ne_true, value, Option.map_some]
  have h := numeral.scanNumber_append ends start
  simp only [List.append_nil, List.nil_append] at h
  rw [toString_of_nonneg nonneg, h]
  exact congrArg (fun k => Reading.mk (numberPiece start k) _ rest) kind

theorem scanNumber_float {x : Float} (finite : x.isFinite = true) (plus : hasMinus x = false)
    (readsBack : readFloat? (FloatFormat.value.write x).toList = some x) {rest : List Char}
    (ends : Boundary rest) (start : Location) :
    scanNumber start ((FloatFormat.value.write x).toList ++ rest) =
      ⟨.token (.float x) [], (FloatFormat.value.write x).toList, rest⟩ := by
  obtain ⟨whole, fraction, exponent, numeral, text, pointed⟩ := isFloatText_write finite plus
  have h := numeral.scanNumber_append ends start
  have float : (fraction.length != 0 || exponent.length != 0) = true := by
    simpa using pointed
  have kind : decimalKind? true (FloatFormat.value.write x).toList = some (.float x) := by
    simp [decimalKind?, readsBack, Option.filter, finite]
  rw [float, ← text, kind, numberPiece] at h
  rw [← h, text, List.append_assoc, List.append_assoc]

end StepScript
