import Mathlib.Data.Rat.Floor
import StepScript.Command.Function

/-!
# Arithmetic on whole numbers

Whole numbers are kept in 64 bits, and their operations are made of steps in 64 bits: a quotient is
first rounded toward zero and then corrected by the signs, a number is shifted left and then back to
see whether bits were lost.  What comes out is nevertheless the exact result, or none at all.

## Main definitions

* `BinaryOp.ideal?` — the exact value of an operation, among the rational numbers.
* `Fits` — a number lies in the range of 64 bits.
* `Decides` — a result is the exact value if that fits, and an overflow otherwise.
* `ExactArithmetic`, `RareFaults` — what operations on two whole numbers give.

## Main results

* `toInt_of_floorQuotient?`, `toInt_of_remainder?` — the corrected quotient is rounded down, and the
  remainder goes with it.
* `shiftLeft?_eq_narrow?` — shifting back detects exactly the bits that are lost.
* `power?_eq_narrow?` — powers are exact.
* `integer_arithmetic_is_exact` — **arithmetic on whole numbers is exact or fails**.
* `remainders_powers_and_shifts_rarely_fail` — where remainders, powers and shifts fail although the
  exact value fits.
-/

namespace StepScript

/-! ### Exact values -/

/-- The number lies in the range of 64 bits. -/
def Fits (x : ℚ) : Prop :=
  -2 ^ 63 ≤ x ∧ x ≤ 2 ^ 63 - 1

theorem fits_intCast_iff {n : ℤ} : Fits n ↔ -2 ^ 63 ≤ n ∧ n ≤ 2 ^ 63 - 1 := by
  unfold Fits
  norm_cast

theorem fits_iff_exists_narrow? {n : ℤ} : Fits n ↔ ∃ i, narrow? n = some i := by
  have hp : Int.pow 2 63 = 2 ^ 63 := rfl
  rw [fits_intCast_iff, ← Option.isSome_iff_exists, Option.isSome_iff_ne_none, ne_eq,
    narrow?_eq_none_iff, hp]
  omega

/-- The exact value of an operation on whole numbers, for the operators that stay among them. -/
def BinaryOp.ideal? (a b : ℤ) : BinaryOp → Option ℚ
  | .add => some (a + b)
  | .subtract => some (a - b)
  | .multiply => some (a * b)
  | .floorDivide => some ⌊(a / b : ℚ)⌋
  | .modulo => some (a - b * ⌊(a / b : ℚ)⌋)
  | .power => some ((a : ℚ) ^ b)
  | .shiftLeft => some (a * (2 : ℚ) ^ b)
  | .shiftRight => some ⌊(a / (2 : ℚ) ^ b : ℚ)⌋
  | _ => none

/-- The result is the exact value `x` if that fits, and an overflow otherwise. -/
structure Decides (operation : String) (x : ℚ) (result : Option (Except Fault Value)) : Prop where
  fits : Fits x → ∃ r, result = some (.ok (.int r)) ∧ (r.toInt : ℚ) = x
  overflows : ¬Fits x → result = some (.error (.integerOverflow operation))

theorem exactly_eq_ok_iff {operation : String} {result : Option Int64} {r : Int64} :
    some (exactly operation result) = some (.ok (.int r)) ↔ result = some r := by
  cases result with
  | none => simp [exactly]
  | some i => simp [exactly]

theorem decides_exactly (operation : String) (n : ℤ) :
    Decides operation n (some (exactly operation (narrow? n))) where
  fits h := by
    obtain ⟨i, hi⟩ := fits_iff_exists_narrow?.mp h
    exact ⟨i, exactly_eq_ok_iff.mpr hi, by rw [toInt_of_narrow? hi]⟩
  overflows h := by
    rw [fits_iff_exists_narrow?, not_exists, ← Option.eq_none_iff_forall_ne_some] at h
    rw [h, exactly]

/-! ### Division -/

theorem floor_intCast_div_intCast (a b : ℤ) : ⌊(a / b : ℚ)⌋ = a.fdiv b := by
  rcases Int.le_total 0 b with hb | hb
  · obtain ⟨d, rfl⟩ := Int.eq_ofNat_of_zero_le hb
    rw [Int.fdiv_eq_ediv_of_nonneg a hb, ← Rat.floor_intCast_div_natCast, Int.cast_natCast]
  · obtain ⟨d, hd⟩ := Int.eq_ofNat_of_zero_le (Int.neg_nonneg_of_nonpos hb)
    have turned : (a / b : ℚ) = ((-a : ℤ) : ℚ) / (d : ℕ) := by
      rw [← Int.cast_natCast, ← hd]
      push_cast
      rw [neg_div_neg_eq]
    rw [turned, Rat.floor_intCast_div_natCast, ← hd, ← Int.neg_fdiv_neg,
      Int.fdiv_eq_ediv_of_nonneg _ (by omega)]

section

variable {a b q r : Int64}

theorem quotient?_eq_some_iff :
    quotient? a b = some q ↔ b ≠ 0 ∧ q.toInt = a.toInt.tdiv b.toInt := by
  unfold quotient?
  split
  · next hb => simp [hb]
  · next hb => simp [hb, narrow?_eq_some_iff]

theorem toInt_ne_zero (hb : b ≠ 0) : b.toInt ≠ 0 := by
  intro h
  exact hb (Int64.toInt_inj.mp h)

theorem opposed_iff : opposed a b = true ↔ (a.toInt < 0 ↔ 0 ≤ b.toInt) := by
  have zero : (0 : Int64).toInt = 0 := rfl
  simp only [opposed, bne_iff_ne, ne_eq, decide_eq_decide, Int64.lt_iff_toInt_lt, zero]
  omega

theorem bne_zero_iff : (a != 0) = true ↔ a.toInt ≠ 0 := by
  rw [bne_iff_ne]
  exact not_congr Int64.toInt_inj.symm

theorem roundsUp_iff :
    roundsUp a b = true ↔ a.toInt.tmod b.toInt ≠ 0 ∧ (a.toInt < 0 ↔ 0 ≤ b.toInt) := by
  rw [roundsUp, Bool.and_eq_true, bne_zero_iff, opposed_iff, Int64.toInt_mod]

/-- The sign of a remainder that is not zero is that of the dividend. -/
theorem tmod_neg_iff {x y : ℤ} (h : x.tmod y ≠ 0) : x.tmod y < 0 ↔ x < 0 := by
  rcases Int.le_total 0 x with hx | hx
  · have := Int.tmod_nonneg y hx
    omega
  · have turned := Int.tmod_nonneg y (Int.neg_nonneg_of_nonpos hx)
    rw [Int.neg_tmod] at turned
    have nonzero : x ≠ 0 := by
      rintro rfl
      exact h (Int.zero_tmod y)
    omega

theorem strays_iff :
    strays (a % b) b = true ↔ a.toInt.tmod b.toInt ≠ 0 ∧ (a.toInt < 0 ↔ 0 ≤ b.toInt) := by
  rw [strays, Bool.and_eq_true, bne_zero_iff, opposed_iff, Int64.toInt_mod]
  refine and_congr_right fun h => ?_
  rw [tmod_neg_iff h]

/-- Rounding down differs from rounding toward zero by the correction. -/
theorem fdiv_eq (x : ℤ) {y : ℤ} (hy : y ≠ 0) :
    x.fdiv y = x.tdiv y - if x.tmod y ≠ 0 ∧ (x < 0 ↔ 0 ≤ y) then 1 else 0 := by
  rw [Int.fdiv_eq_tdiv]
  by_cases divides : y ∣ x
  · simp [divides, Int.dvd_iff_tmod_eq_zero.mp divides]
  have inexact : x.tmod y ≠ 0 := mt Int.dvd_iff_tmod_eq_zero.mpr divides
  rcases Int.lt_or_gt_of_ne hy with hy | hy
  · rw [if_neg divides, Int.sign_eq_neg_one_of_neg hy]
    grind
  · rw [if_neg divides, Int.sign_eq_one_of_pos hy]
    grind

theorem fmod_eq (x : ℤ) {y : ℤ} (hy : y ≠ 0) :
    x.fmod y = x.tmod y + if x.tmod y ≠ 0 ∧ (x < 0 ↔ 0 ≤ y) then y else 0 := by
  rw [Int.fmod_def, fdiv_eq x hy, Int.tmod_def]
  split
  · rw [Int.mul_sub, Int.mul_one]
    omega
  · rw [Int.sub_zero, Int.add_zero]

/-- A quotient that is not exact is at most half as large as the dividend. -/
theorem natAbs_tdiv_le {x y : ℤ} (hy : y ≠ 0) (h : x.tmod y ≠ 0) :
    (x.tdiv y).natAbs ≤ x.natAbs / 2 := by
  have two_le : 2 ≤ y.natAbs := by
    rcases Nat.lt_or_ge 1 y.natAbs with hlt | hle
    · exact hlt
    · have one : y.natAbs = 1 := by omega
      have := Int.natAbs_tmod x y
      rw [one, Nat.mod_one] at this
      omega
  rw [Int.natAbs_tdiv]
  exact Nat.div_le_div_left two_le (by decide)

/-- The correction of the quotient does not overflow. -/
theorem toInt_sub_one (hq : quotient? a b = some q) (h : roundsUp a b = true) :
    (q - 1).toInt = q.toInt - 1 := by
  obtain ⟨hb, hq⟩ := quotient?_eq_some_iff.mp hq
  have half := natAbs_tdiv_le (toInt_ne_zero hb) (roundsUp_iff.mp h).1
  rw [← hq] at half
  have low := a.le_toInt
  have high := a.toInt_lt
  have one : (1 : Int64).toInt = 1 := rfl
  rw [Int64.toInt_sub, one]
  exact Int.bmod_eq_of_le (by omega) (by omega)

/-- The correction of the remainder does not overflow. -/
theorem toInt_mod_add (h : strays (a % b) b = true) :
    (a % b + b).toInt = (a % b).toInt + b.toInt := by
  rw [strays, Bool.and_eq_true, opposed_iff] at h
  have low := (a % b).le_toInt
  have high := (a % b).toInt_lt
  have low' := b.le_toInt
  have high' := b.toInt_lt
  rw [Int64.toInt_add]
  exact Int.bmod_eq_of_le (by omega) (by omega)

/-- **The corrected quotient is rounded down.** -/
theorem toInt_of_floorQuotient? (h : floorQuotient? a b = some r) :
    r.toInt = a.toInt.fdiv b.toInt := by
  obtain ⟨q, hq, rfl⟩ := Option.map_eq_some_iff.mp h
  obtain ⟨hb, toward⟩ := quotient?_eq_some_iff.mp hq
  rw [fdiv_eq _ (toInt_ne_zero hb), ← toward]
  by_cases up : roundsUp a b = true
  · rw [if_pos up, if_pos (roundsUp_iff.mp up), toInt_sub_one hq up]
  · rw [if_neg up, if_neg (mt roundsUp_iff.mpr up), Int.sub_zero]

/-- **The corrected remainder goes with the quotient rounded down.** -/
theorem toInt_of_remainder? (h : remainder? a b = some r) : r.toInt = a.toInt.fmod b.toInt := by
  obtain ⟨q, hq, rfl⟩ := Option.map_eq_some_iff.mp h
  obtain ⟨hb, -⟩ := quotient?_eq_some_iff.mp hq
  rw [fmod_eq _ (toInt_ne_zero hb)]
  by_cases stray : strays (a % b) b = true
  · rw [if_pos stray, if_pos (strays_iff.mp stray), toInt_mod_add stray, Int64.toInt_mod]
  · rw [if_neg stray, if_neg (mt strays_iff.mpr stray), Int.add_zero, Int64.toInt_mod]

/-- There is one quotient that does not fit. -/
theorem quotient?_eq_none_iff (hb : b ≠ 0) :
    quotient? a b = none ↔ a = Int64.minValue ∧ b = -1 := by
  have hp : Int.pow 2 63 = 2 ^ 63 := rfl
  have low := a.le_toInt
  have high := a.toInt_lt
  rw [quotient?, if_neg hb, narrow?_eq_none_iff, hp]
  constructor
  · intro h
    -- the magnitude of the quotient is out of range, but not that of the dividend
    have large : 2 ^ 63 ≤ a.toInt.natAbs / b.toInt.natAbs := by
      have := Int.natAbs_tdiv a.toInt b.toInt
      have : a.toInt.natAbs.div b.toInt.natAbs = a.toInt.natAbs / b.toInt.natAbs := rfl
      have := Int.natAbs_tdiv_le_natAbs a.toInt b.toInt
      omega
    have nonzero := toInt_ne_zero hb
    -- so the divisor is a unit, and the dividend the least number
    have one : b.toInt.natAbs = 1 := by
      by_contra other
      have two_le : 2 ≤ b.toInt.natAbs := by omega
      have := Nat.div_le_div_left two_le (by decide : 0 < 2) (a := a.toInt.natAbs)
      omega
    rw [one, Nat.div_one] at large
    have least : a.toInt = -2 ^ 63 := by omega
    refine ⟨Int64.toInt_inj.mp (least.trans Int64.toInt_minValue.symm), Int64.toInt_inj.mp ?_⟩
    have minus : (-1 : Int64).toInt = -1 := rfl
    rw [minus]
    -- the divisor is not `1`, by which the dividend would be its own quotient
    by_contra other
    have plus : b.toInt = 1 := by omega
    rw [plus, Int.tdiv_one] at h
    omega
  · rintro ⟨rfl, rfl⟩
    decide

theorem floorQuotient?_eq_none_iff : floorQuotient? a b = none ↔ quotient? a b = none :=
  Option.map_eq_none_iff

theorem remainder?_eq_none_iff : remainder? a b = none ↔ quotient? a b = none :=
  Option.map_eq_none_iff

/-- The quotient rounded down is missing only where it does not fit. -/
theorem floorQuotient?_eq_narrow? (hb : b ≠ 0) :
    floorQuotient? a b = narrow? (a.toInt.fdiv b.toInt) := by
  cases h : floorQuotient? a b with
  | some r => rw [← toInt_of_floorQuotient? h, narrow?_toInt]
  | none =>
    rw [floorQuotient?_eq_none_iff, quotient?_eq_none_iff hb] at h
    obtain ⟨rfl, rfl⟩ := h
    decide

end

/-! ### Shifts -/

section

variable {a : Int64} {n : Nat}

theorem toNat_smod_ofNat (hn : n < 64) : ((Int64.ofNat n).toBitVec.smod 64).toNat = n := by
  have all : ∀ k : Fin 64, ((Int64.ofNat k).toBitVec.smod 64).toNat = k := by decide
  exact all ⟨n, hn⟩

theorem toInt_shiftLeft (a : Int64) (hn : n < 64) :
    (a <<< Int64.ofNat n).toInt = (a.toInt * 2 ^ n).bmod (2 ^ 64) := by
  rw [← Int64.toInt_toBitVec, Int64.toBitVec_shiftLeft, BitVec.shiftLeft_eq', toNat_smod_ofNat hn,
    BitVec.toInt_shiftLeft, ← Int64.toInt_toBitVec a, BitVec.toInt_eq_toNat_bmod a.toBitVec,
    Int.bmod_mul_bmod, Nat.shiftLeft_eq]
  push_cast
  rfl

theorem toInt_shiftRight (a : Int64) (hn : n < 64) :
    (a >>> Int64.ofNat n).toInt = a.toInt / 2 ^ n := by
  rw [← Int64.toInt_toBitVec, Int64.toBitVec_shiftRight, BitVec.sshiftRight', toNat_smod_ofNat hn,
    BitVec.toInt_sshiftRight, Int.shiftRight_eq_div_pow, Int64.toInt_toBitVec]
  push_cast
  rfl

theorem two_pow_le (hn : n < 64) : (2 : ℤ) ^ n ≤ 2 ^ 63 :=
  pow_le_pow_right₀ (by decide) (by omega)

/-- What is left after a shift to the left and back is the number itself only if no bits are
lost. -/
theorem fits_of_shifted (hn : n < 64)
    (h : (a.toInt * 2 ^ n).bmod (2 ^ 64) / 2 ^ n = a.toInt) :
    (a.toInt * 2 ^ n).bmod (2 ^ 64) = a.toInt * 2 ^ n := by
  have pos : (0 : ℤ) < 2 ^ n := by positivity
  have bound := two_pow_le hn
  -- The shifted number is off by a multiple of `2 ^ 64`, and by less than `2 ^ n`.
  have off := Int.bmod_add_bdiv (a.toInt * 2 ^ n) (2 ^ 64)
  have low := Int.ediv_mul_le ((a.toInt * 2 ^ n).bmod (2 ^ 64)) (Int.ne_of_gt pos)
  have high := Int.lt_ediv_add_one_mul_self ((a.toInt * 2 ^ n).bmod (2 ^ 64)) pos
  rw [h] at low high
  rw [Int.add_mul, Int.one_mul] at high
  push_cast at off
  generalize a.toInt * 2 ^ n = exact at *
  generalize exact.bmod (2 ^ 64) = shifted at *
  generalize exact.bdiv (2 ^ 64) = k at *
  generalize (2 : ℤ) ^ n = width at *
  omega

/-- **Shifting back detects exactly the bits that are lost.** -/
theorem shiftLeft?_eq_narrow? (a : Int64) (hn : n < 64) :
    shiftLeft? a n = narrow? (a.toInt * 2 ^ n) := by
  -- shifting there wraps around, and shifting back rounds down
  have left := toInt_shiftLeft a hn
  have back := toInt_shiftRight (a <<< Int64.ofNat n) hn
  rw [left] at back
  have pos : (0 : ℤ) < 2 ^ n := by positivity
  rw [shiftLeft?, shifted?, if_pos hn]
  cases h : narrow? (a.toInt * 2 ^ n) with
  | some r =>
    -- nothing has wrapped around, so that shifting back gives the number
    have exact := toInt_of_narrow? h
    have low := r.le_toInt
    have high := r.toInt_lt
    have kept : (a.toInt * 2 ^ n).bmod (2 ^ 64) = a.toInt * 2 ^ n := by
      rw [← exact]
      exact Int.bmod_eq_of_le (by omega) (by omega)
    rw [kept] at left back
    rw [Int.mul_ediv_cancel _ (Int.ne_of_gt pos), Int64.toInt_inj] at back
    rw [← exact, Int64.toInt_inj] at left
    rw [← left, Option.filter_some, if_pos (by simp [back])]
  | none =>
    rw [Option.filter_some, if_neg]
    -- if shifting back gave the number, the product would fit
    intro same
    rw [beq_iff_eq] at same
    rw [same] at back
    have kept := fits_of_shifted hn back.symm
    rw [kept] at left
    have : narrow? (a.toInt * 2 ^ n) = some _ := narrow?_eq_some_iff.mpr left
    rw [h] at this
    cases this

/-- A shift by more than `63` leaves what a shift by `63` leaves. -/
theorem toInt_shiftRight_min (a : Int64) (n : Nat) : (shiftRight a n).toInt = a.toInt / 2 ^ n := by
  rw [shiftRight, toInt_shiftRight a (by omega)]
  rcases Nat.le_total n 63 with hn | hn
  · rw [Nat.min_eq_left hn]
  rw [Nat.min_eq_right hn]
  have low := a.le_toInt
  have high := a.toInt_lt
  have bound : (2 : ℤ) ^ 63 ≤ 2 ^ n := pow_le_pow_right₀ (by decide) hn
  rcases Int.lt_or_le a.toInt 0 with neg | nonneg
  · rw [Int.ediv_eq_neg_one_of_neg_of_le neg (by omega),
      Int.ediv_eq_neg_one_of_neg_of_le neg (by omega)]
  · rw [Int.ediv_eq_zero_of_lt nonneg (by omega), Int.ediv_eq_zero_of_lt nonneg (by omega)]

end

/-! ### Powers -/

/-- **Powers are exact.** -/
theorem power?_eq_narrow? (a : Int64) (n : Nat) : power? a n = narrow? (a.toInt ^ n) := by
  rw [power?]
  split
  · next small =>
    symm
    rw [narrow?_eq_some_iff]
    -- a base whose powers all fit: the parity of the exponent decides
    have base : a = -1 ∨ a = 0 ∨ a = 1 := by
      have minus : (-1 : Int64).toInt = -1 := rfl
      have zero : (0 : Int64).toInt = 0 := rfl
      have one : (1 : Int64).toInt = 1 := rfl
      rw [← Int64.toInt_inj, ← Int64.toInt_inj, ← Int64.toInt_inj, minus, zero, one]
      omega
    by_cases hn : n = 0
    · rw [if_pos hn, hn, pow_zero]
      rfl
    rw [if_neg hn]
    rcases base with rfl | rfl | rfl
    · change _ = (-1 : ℤ) ^ n
      rcases Nat.even_or_odd n with even | odd
      · rw [if_pos (Nat.even_iff.mp even), even.neg_one_pow]
        rfl
      · rw [if_neg (by rw [Nat.odd_iff.mp odd]; decide), odd.neg_one_pow]
        rfl
    · change _ = (0 : ℤ) ^ n
      rw [zero_pow hn]
      split <;> rfl
    · change _ = (1 : ℤ) ^ n
      rw [one_pow]
      split <;> rfl
  · next large =>
    split
    · next hn =>
      symm
      rw [narrow?_eq_none_iff]
      -- any other base at least doubles with each factor, and `64` factors are too many
      have hp : Int.pow 2 63 = 2 ^ 63 := rfl
      have wide : 2 ^ 64 ≤ (a.toInt ^ n).natAbs := by
        rw [Int.natAbs_pow]
        calc 2 ^ 64 ≤ 2 ^ n := Nat.pow_le_pow_right (by decide) hn
          _ ≤ a.toInt.natAbs ^ n := Nat.pow_le_pow_left (by omega) n
      rw [hp]
      omega
    · rfl

/-! ### Operators -/

section

variable {a b : Int64} {n : Nat}

/-- The fraction of a remainder with the sign of the divisor. -/
theorem intCast_fmod (x y : ℤ) : ((x.fmod y : ℤ) : ℚ) = x - y * ⌊(x / y : ℚ)⌋ := by
  rw [floor_intCast_div_intCast, Int.fmod_def]
  push_cast
  rfl

theorem floor_div_two_pow (x : ℤ) (n : ℕ) : ⌊(x / (2 : ℚ) ^ (n : ℤ) : ℚ)⌋ = x / 2 ^ n := by
  have h := Rat.floor_intCast_div_natCast x (2 ^ n)
  push_cast at h
  rw [zpow_natCast, h]

theorem apply_floorDivide (hb : b ≠ 0) :
    BinaryOp.floorDivide.apply (.int a) (.int b) =
      some (exactly "//" (narrow? (a.toInt.fdiv b.toInt))) := by
  rw [← floorQuotient?_eq_narrow? hb]
  exact congrArg some (if_neg hb)

theorem apply_modulo (hb : b ≠ 0) :
    BinaryOp.modulo.apply (.int a) (.int b) = some (exactly "%" (remainder? a b)) :=
  congrArg some (if_neg hb)

theorem apply_power (hb : b.toInt = n) (hn : n < 2 ^ 32) :
    BinaryOp.power.apply (.int a) (.int b) = some (exactly "**" (narrow? (a.toInt ^ n))) := by
  have hp : Int.pow 2 32 = 2 ^ 32 := rfl
  rw [← power?_eq_narrow?]
  change some (if b.toInt < 0 then _ else if b.toInt < Int.pow 2 32 then
    exactly "**" (power? a b.toInt.toNat) else _) = _
  rw [if_neg (by omega), if_pos (by omega), hb, Int.toNat_natCast]

theorem apply_shiftLeft (v w : Value) :
    BinaryOp.shiftLeft.apply v w = some (Operation.shift .shiftLeft shiftLeft? v w) := rfl

theorem apply_shiftRight (v w : Value) :
    BinaryOp.shiftRight.apply v w =
      some (Operation.shift .shiftRight (fun i n => some (shiftRight i n)) v w) := rfl

theorem apply_shift (op : BinaryOp) (move : Int64 → Nat → Option Int64) (hb : b.toInt = n)
    (hn : n < 2 ^ 32) : Operation.shift op move (.int a) (.int b) = exactly op.text (move a n) := by
  have hp : Int.pow 2 32 = 2 ^ 32 := rfl
  rw [Operation.shift, if_pos (by omega), hb, Int.toNat_natCast]

theorem apply_shift_of_outside (op : BinaryOp) (move : Int64 → Nat → Option Int64)
    (hb : b.toInt < 0 ∨ 2 ^ 32 ≤ b.toInt) :
    Operation.shift op move (.int a) (.int b) =
      .error (.invalidArgument op.text "negative shift count") := by
  have hp : Int.pow 2 32 = 2 ^ 32 := rfl
  rw [Operation.shift, if_neg (by omega)]

theorem apply_abs (a : Int64) :
    Function.abs [.int a] = exactly "abs" (narrow? a.toInt.natAbs) := by
  have only : Function.one "abs" [.int a] = pure (.int a) := rfl
  rw [Function.abs, only, pure_bind]

/-- A whole number that a power gives has a natural exponent below `2 ^ 32`. -/
theorem exponent_of_power {r : Int64}
    (h : BinaryOp.power.apply (.int a) (.int b) = some (.ok (.int r))) :
    ∃ n : ℕ, b.toInt = n ∧ n < 2 ^ 32 := by
  have hp : Int.pow 2 32 = 2 ^ 32 := rfl
  change some (if b.toInt < 0 then _ else if b.toInt < Int.pow 2 32 then _ else _) = _ at h
  split at h
  · cases h
  · split at h
    · exact ⟨b.toInt.toNat, by omega, by omega⟩
    · cases h

theorem count_of_shift {op : BinaryOp} {move : Int64 → Nat → Option Int64} {v : Value}
    (h : some (Operation.shift op move (.int a) (.int b)) = some (.ok v)) :
    ∃ n : ℕ, b.toInt = n ∧ n < 2 ^ 32 := by
  by_contra outside
  have : b.toInt < 0 ∨ 2 ^ 32 ≤ b.toInt := by
    by_contra inside
    exact outside ⟨b.toInt.toNat, by omega, by omega⟩
  rw [apply_shift_of_outside op move this] at h
  cases h

/-- **A whole number that an operator gives is the exact value.** -/
theorem eq_ideal_of_apply {op : BinaryOp} {r : Int64} {x : ℚ}
    (h : op.apply (.int a) (.int b) = some (.ok (.int r)))
    (hx : op.ideal? a.toInt b.toInt = some x) : (r.toInt : ℚ) = x := by
  -- Each operator narrows the exact value, or one that is shown to be exact.
  cases op with
  | add | subtract | multiply =>
    cases hx
    have narrowed := toInt_of_narrow? (exactly_eq_ok_iff.mp h)
    rw [narrowed]
    push_cast
    rfl
  | floorDivide =>
    cases hx
    by_cases hb : b = 0
    · subst hb
      cases h
    rw [apply_floorDivide hb] at h
    rw [toInt_of_narrow? (exactly_eq_ok_iff.mp h), floor_intCast_div_intCast]
  | modulo =>
    cases hx
    by_cases hb : b = 0
    · subst hb
      cases h
    rw [apply_modulo hb] at h
    rw [toInt_of_remainder? (exactly_eq_ok_iff.mp h), intCast_fmod]
  | power =>
    cases hx
    -- a whole number comes out only if the exponent is natural
    obtain ⟨n, hb, hn⟩ := exponent_of_power h
    rw [apply_power hb hn] at h
    rw [toInt_of_narrow? (exactly_eq_ok_iff.mp h), hb, zpow_natCast]
    push_cast
    rfl
  | shiftLeft =>
    cases hx
    rw [apply_shiftLeft] at h
    -- and only if the number of places is
    obtain ⟨n, hb, hn⟩ := count_of_shift h
    rw [apply_shift _ _ hb hn] at h
    have shifted := exactly_eq_ok_iff.mp h
    -- a shift by `64` places or more gives no number
    by_cases small : n < 64
    · rw [shiftLeft?_eq_narrow? a small] at shifted
      rw [toInt_of_narrow? shifted, hb, zpow_natCast]
      push_cast
      rfl
    · rw [shiftLeft?, shifted?, if_neg small] at shifted
      cases shifted
  | shiftRight =>
    cases hx
    rw [apply_shiftRight] at h
    obtain ⟨n, hb, hn⟩ := count_of_shift h
    rw [apply_shift _ _ hb hn] at h
    -- to the right, every bit that is lost is rounded down
    cases exactly_eq_ok_iff.mp h
    rw [toInt_shiftRight_min, hb, floor_div_two_pow]
  | and | or | compare | isIn | notIn | divide | bitAnd | bitXor | bitOr => cases hx

end

/-- What arithmetic on whole numbers gives, and what its steps in 64 bits do. -/
structure ExactArithmetic (a b : Int64) : Prop where
  /-- A whole number that an operator gives is the exact value. -/
  exact : ∀ (op : BinaryOp) (r : Int64) (x : ℚ), op.apply (.int a) (.int b) = some (.ok (.int r)) →
    op.ideal? a.toInt b.toInt = some x → (r.toInt : ℚ) = x
  /-- Sums, differences and products overflow only if they do not fit. -/
  decides : ∀ (op : BinaryOp) (x : ℚ), op = .add ∨ op = .subtract ∨ op = .multiply →
    op.ideal? a.toInt b.toInt = some x → Decides op.text x (op.apply (.int a) (.int b))
  /-- So do negation, -/
  negates : Decides UnaryOp.negate.text (-a.toInt) (some (UnaryOp.negate.apply (.int a)))
  /-- absolute values, -/
  absolute : Decides "abs" |(a.toInt : ℚ)| (some (Function.abs [.int a]))
  /-- and quotients rounded down. -/
  divides : b ≠ 0 → Decides BinaryOp.floorDivide.text ⌊(a.toInt / b.toInt : ℚ)⌋
    (BinaryOp.floorDivide.apply (.int a) (.int b))
  /-- There is no division by zero. -/
  zero : b = 0 → ∀ op : BinaryOp, op = .floorDivide ∨ op = .modulo →
    op.apply (.int a) (.int b) = some (.error .divisionByZero)
  /-- The quotient toward zero is exact, and so is its correction. -/
  quotient : ∀ q, quotient? a b = some q → b ≠ 0 ∧ q.toInt = a.toInt.tdiv b.toInt ∧
    (roundsUp a b = true → (q - 1).toInt = q.toInt - 1)
  /-- The remainder that goes with it is exact, and so is its correction. -/
  remainder : (a % b).toInt = a.toInt.tmod b.toInt ∧
    (strays (a % b) b = true → (a % b + b).toInt = (a % b).toInt + b.toInt)
  /-- A number is shifted back by fewer than `64` places, and what is lost then is a fraction. -/
  shiftBack : ∀ n shifted, shifted? a n = some shifted → n < 64 ∧
    (shifted >>> Int64.ofNat n).toInt = ⌊(shifted.toInt / 2 ^ n : ℚ)⌋

/-- **Arithmetic on whole numbers is exact or fails.**  Whatever the numbers, no operation gives a
whole number other than the exact one.  Sums, differences, products, negation, absolute values and
quotients by a number other than zero fail exactly if the exact value does not fit, and none of the
steps on the way overflows. -/
theorem integer_arithmetic_is_exact (a b : Int64) : ExactArithmetic a b := by
  constructor
  case exact =>
    intro op r x h hx
    exact eq_ideal_of_apply h hx
  case decides =>
    -- the three operators that narrow the exact value at once
    rintro op x (rfl | rfl | rfl) hx
    · cases hx
      rw [← Int.cast_add]
      exact decides_exactly "+" (a.toInt + b.toInt)
    · cases hx
      rw [← Int.cast_sub]
      exact decides_exactly "-" (a.toInt - b.toInt)
    · cases hx
      rw [← Int.cast_mul]
      exact decides_exactly "*" (a.toInt * b.toInt)
  case negates =>
    rw [← Int.cast_neg]
    exact decides_exactly "-" (-a.toInt)
  case absolute =>
    -- the absolute value that is narrowed is the exact one
    have magnitude : |(a.toInt : ℚ)| = ((a.toInt.natAbs : ℤ) : ℚ) := by
      rw [Int.natCast_natAbs, Int.cast_abs]
    rw [magnitude, apply_abs]
    exact decides_exactly "abs" a.toInt.natAbs
  case divides =>
    intro hb
    rw [floor_intCast_div_intCast, apply_floorDivide hb]
    exact decides_exactly "//" (a.toInt.fdiv b.toInt)
  case zero =>
    rintro rfl op (rfl | rfl)
    · rfl
    · rfl
  case quotient =>
    -- a quotient can be lowered by one: it is not the least number then
    intro q hq
    obtain ⟨hb, toward⟩ := quotient?_eq_some_iff.mp hq
    exact ⟨hb, toward, toInt_sub_one hq⟩
  case remainder => exact ⟨Int64.toInt_mod a b, toInt_mod_add⟩
  case shiftBack =>
    intro n shifted h
    rw [shifted?] at h
    split at h
    · next hn =>
      refine ⟨hn, ?_⟩
      rw [toInt_shiftRight shifted hn, ← floor_div_two_pow, zpow_natCast]
    · cases h

/-! ### Faults of remainders, powers and shifts -/

/-- A remainder of a quotient rounded down has the sign of the divisor. -/
theorem fmod_neg_iff {x y : ℤ} (hy : y ≠ 0) (h : x.fmod y ≠ 0) : x.fmod y < 0 ↔ y < 0 := by
  have smaller : (x.tmod y).natAbs < y.natAbs := by
    rw [Int.natAbs_tmod]
    exact Nat.mod_lt _ (by omega)
  rw [fmod_eq x hy] at h ⊢
  split at h
  · omega
  · next agree =>
    have inexact : x.tmod y ≠ 0 := by omega
    have sign := tmod_neg_iff inexact
    omega

/-- When remainders, powers and shifts give a whole number, and what they give otherwise. -/
structure RareFaults (a b : Int64) : Prop where
  /-- Remainders always fit, and have the sign of the divisor. -/
  remainder : b ≠ 0 → ¬(a = Int64.minValue ∧ b = -1) → ∃ r,
    BinaryOp.modulo.apply (.int a) (.int b) = some (.ok (.int r)) ∧
      (r.toInt : ℚ) = a.toInt - b.toInt * ⌊(a.toInt / b.toInt : ℚ)⌋ ∧
      (r.toInt ≠ 0 → (r.toInt < 0 ↔ b.toInt < 0))
  /-- One of them is refused for its quotient. -/
  quotient : a = Int64.minValue ∧ b = -1 →
    BinaryOp.modulo.apply (.int a) (.int b) = some (.error (.integerOverflow "%"))
  /-- Powers overflow only if they do not fit, -/
  power : 0 ≤ b.toInt → b.toInt < 2 ^ 32 →
    Decides "**" ((a.toInt : ℚ) ^ b.toInt) (BinaryOp.power.apply (.int a) (.int b))
  /-- or have a large exponent. -/
  exponent : 2 ^ 32 ≤ b.toInt →
    BinaryOp.power.apply (.int a) (.int b) = some (.error (.integerOverflow "**"))
  /-- Shifts to the left overflow only if they lose bits, -/
  left : 0 ≤ b.toInt → b.toInt < 2 ^ 32 → (a = 0 → b.toInt < 64) →
    Decides "<<" (a.toInt * (2 : ℚ) ^ b.toInt) (BinaryOp.shiftLeft.apply (.int a) (.int b))
  /-- or shift nothing by `64` places or more. -/
  nothing : a = 0 → 64 ≤ b.toInt → b.toInt < 2 ^ 32 →
    BinaryOp.shiftLeft.apply (.int a) (.int b) = some (.error (.integerOverflow "<<"))
  /-- Shifts to the right do not fail, -/
  right : 0 ≤ b.toInt → b.toInt < 2 ^ 32 → ∃ r,
    BinaryOp.shiftRight.apply (.int a) (.int b) = some (.ok (.int r)) ∧
      r.toInt = ⌊(a.toInt / (2 : ℚ) ^ b.toInt : ℚ)⌋
  /-- unless the number of places is negative or large. -/
  count : ∀ op : BinaryOp, op = .shiftLeft ∨ op = .shiftRight →
    (op.apply (.int a) (.int b) =
        some (.error (.invalidArgument op.text "negative shift count")) ↔
      b.toInt < 0 ∨ 2 ^ 32 ≤ b.toInt)

theorem decides_shiftLeft? {a : Int64} {n : Nat} (h : a = 0 → n < 64) :
    Decides "<<" (a.toInt * 2 ^ n : ℤ) (some (exactly "<<" (shiftLeft? a n))) := by
  by_cases hn : n < 64
  · rw [shiftLeft?_eq_narrow? a hn]
    exact decides_exactly _ _
  · have lost : shiftLeft? a n = none := by
      rw [shiftLeft?, shifted?, if_neg hn]
      rfl
    have nonzero := toInt_ne_zero (mt h hn)
    have wide : (2 : ℤ) ^ 64 ≤ 2 ^ n := pow_le_pow_right₀ (by decide) (by omega)
    refine ⟨fun fits => ?_, fun _ => by rw [lost]; rfl⟩
    rw [fits_intCast_iff] at fits
    rcases Int.lt_or_gt_of_ne nonzero with neg | pos
    · have := Int.mul_le_mul_of_nonneg_right (show a.toInt ≤ -1 by omega)
        (show (0 : ℤ) ≤ 2 ^ n by omega)
      omega
    · have := Int.mul_le_mul_of_nonneg_right (show 1 ≤ a.toInt by omega)
        (show (0 : ℤ) ≤ 2 ^ n by omega)
      omega

/-- Shifts are refused for their number of places only if that is negative or large. -/
theorem shift_refused_iff {a b : Int64} (op : BinaryOp) (move : Int64 → Nat → Option Int64) :
    some (Operation.shift op move (.int a) (.int b)) =
      some (.error (.invalidArgument op.text "negative shift count")) ↔
        b.toInt < 0 ∨ 2 ^ 32 ≤ b.toInt := by
  rw [Option.some.injEq]
  refine ⟨fun refused => ?_, apply_shift_of_outside op move⟩
  by_contra inside
  obtain ⟨n, hn⟩ := Int.eq_ofNat_of_zero_le (show 0 ≤ b.toInt by omega)
  rw [apply_shift op move hn (by omega)] at refused
  cases found : move a n with
  | none =>
    rw [found] at refused
    cases refused
  | some r =>
    rw [found] at refused
    cases refused

/-- **Remainders, powers and shifts fail at few operands.**  A remainder by a number other than zero
fails for one pair of numbers, whose quotient does not fit.  A power with a natural exponent, or a
shift by a natural number of places, fails where the exact value does not fit; beside that powers
fail for exponents from `2 ^ 32` on, shifts of zero to the left for `64` places and more, and shifts
in general for `2 ^ 32` places and more, which are then called negative. -/
theorem remainders_powers_and_shifts_rarely_fail (a b : Int64) : RareFaults a b := by
  constructor
  case remainder =>
    intro hb pair
    -- a remainder is refused only where the quotient is
    have found : quotient? a b ≠ none := mt (quotient?_eq_none_iff hb).mp pair
    obtain ⟨r, hr⟩ := Option.ne_none_iff_exists'.mp (mt remainder?_eq_none_iff.mp found)
    have exact := toInt_of_remainder? hr
    refine ⟨r, ?_, ?_, ?_⟩
    · rw [apply_modulo hb, hr]
      rfl
    · rw [exact, intCast_fmod]
    · rw [exact]
      exact fmod_neg_iff (toInt_ne_zero hb)
  case quotient =>
    rintro ⟨rfl, rfl⟩
    decide
  case power =>
    intro nonneg small
    -- exponents and places are natural numbers here
    obtain ⟨n, hn⟩ := Int.eq_ofNat_of_zero_le nonneg
    rw [apply_power hn (by omega), hn, zpow_natCast, ← Int.cast_pow]
    exact decides_exactly _ _
  case exponent =>
    intro large
    have hp : Int.pow 2 32 = 2 ^ 32 := rfl
    change some (if b.toInt < 0 then _ else if b.toInt < Int.pow 2 32 then _ else _) = _
    rw [if_neg (by omega), if_neg (by omega)]
  case left =>
    intro nonneg small zero
    obtain ⟨n, hn⟩ := Int.eq_ofNat_of_zero_le nonneg
    rw [apply_shiftLeft, apply_shift _ _ hn (by omega), hn, zpow_natCast]
    have := decides_shiftLeft? (a := a) (n := n) fun h => by have := zero h; omega
    push_cast at this
    exact this
  case nothing =>
    rintro rfl large small
    obtain ⟨n, hn⟩ := Int.eq_ofNat_of_zero_le (show 0 ≤ b.toInt by omega)
    rw [apply_shiftLeft, apply_shift _ _ hn (by omega), shiftLeft?, shifted?, if_neg (by omega)]
    rfl
  case right =>
    intro nonneg small
    obtain ⟨n, hn⟩ := Int.eq_ofNat_of_zero_le nonneg
    refine ⟨shiftRight a n, ?_, ?_⟩
    · rw [apply_shiftRight, apply_shift _ _ hn (by omega)]
      rfl
    · rw [toInt_shiftRight_min, hn, floor_div_two_pow]
  case count =>
    rintro op (rfl | rfl)
    · rw [apply_shiftLeft]
      exact shift_refused_iff _ _
    · rw [apply_shiftRight]
      exact shift_refused_iff _ _

/-- A shift by `2 ^ 32` places is refused as one by a negative number of places, and exact values
that fit are refused as overflows. -/
theorem large_counts_are_called_negative :
    (0 : Int64) ≤ 4294967296 ∧
      BinaryOp.shiftRight.apply (.int 5) (.int 4294967296) =
        some (.error (.invalidArgument ">>" "negative shift count")) ∧
      BinaryOp.modulo.apply (.int Int64.minValue) (.int (-1)) =
        some (.error (.integerOverflow "%")) ∧
      BinaryOp.power.apply (.int 1) (.int 4294967296) = some (.error (.integerOverflow "**")) ∧
      BinaryOp.shiftLeft.apply (.int 0) (.int 64) = some (.error (.integerOverflow "<<")) := by
  decide

end StepScript
