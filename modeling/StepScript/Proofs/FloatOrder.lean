import Mathlib.Algebra.Order.Ring.Int
import Mathlib.Data.Prod.Lex
import Mathlib.Order.Compare
import StepScript.Value

/-!
# The order of floating point numbers

Floating point numbers other than the ones that are not numbers lie on one line: each has a place,
made of its sign, exponent and digits, and two of them compare as their places do.  A whole number
becomes the nearest floating point number.  Several whole numbers can share a place, but none
overtakes another on the way.

## Main definitions

* `floatPlace` — where a floating point number lies among the others.
* `nearestEven` — a number counted in units, rounded half to even.
* `leadingDigits`, `carry` — the first 53 binary digits of a whole number, rounded, and whether
  rounding made them one longer.
* `IsNearest` — the floating point number that a whole number becomes.

## Main results

* `floatOrder?_eq_compare`, `floatOrder?_of_isNaN` — what the order of two numbers is.
* `isNearest_ofNat` — the digits and the exponent of a converted number.
* `floatPlace_ofInt_mono` — conversion never turns two whole numbers round.
-/

namespace StepScript

open Float.Model UnpackedFloat

/-! ### Places -/

section Places

theorem compare_toLex {α β : Type} [LinearOrder α] [LinearOrder β] (a c : α) (b d : β) :
    compare (toLex (a, b)) (toLex (c, d)) = (compare a c).then (compare b d) := by
  rw [Prod.Lex.compare_def]
  rfl

theorem compare_neg (a b : ℤ) : compare (-a) (-b) = (compare a b).swap := by
  rcases lt_trichotomy a b with h | rfl | h
  · rw [compare_lt_iff_lt.mpr h, compare_gt_iff_gt.mpr (neg_lt_neg h)]
    rfl
  · simp
  · rw [compare_gt_iff_gt.mpr h, compare_lt_iff_lt.mpr (neg_lt_neg h)]
    rfl

theorem compare_natCast (m n : ℕ) : compare (m : ℤ) n = compare m n := by
  rcases lt_trichotomy m n with h | rfl | h
  · rw [compare_lt_iff_lt.mpr h, compare_lt_iff_lt.mpr (by omega)]
  · simp
  · rw [compare_gt_iff_gt.mpr h, compare_gt_iff_gt.mpr (by omega)]

/-- Where a number, taken apart, lies among the others: by its sign, then by its exponent, then by
its digits.  The two zeros share a place. -/
def place : UnpackedFloat → ℤ ×ₗ ℤ ×ₗ ℤ
  | .infinity .negative => toLex (-2, toLex (0, 0))
  | .finite .negative m e _ => toLex (-1, toLex (-e, -(m : ℤ)))
  | .zero _ | .notANumber => toLex (0, toLex (0, 0))
  | .finite .positive m e _ => toLex (1, toLex (e, (m : ℤ)))
  | .infinity .positive => toLex (2, toLex (0, 0))

/-- Numbers compare as their places do. -/
theorem compare_eq_compare_place {a b : UnpackedFloat} (ha : a.isNaN = false)
    (hb : b.isNaN = false) : a.compare b = some (compare (place a) (place b)) := by
  cases a with
  | notANumber => cases ha
  | infinity s =>
    cases b with
    | notANumber => cases hb
    | infinity t => cases s <;> cases t <;> rfl
    | zero t => cases s <;> rfl
    | finite t n f => cases s <;> cases t <;> rfl
  | zero s =>
    cases b with
    | notANumber => cases hb
    | infinity t => cases t <;> rfl
    | zero t => rfl
    | finite t n f => cases t <;> rfl
  | finite s m e =>
    cases b with
    | notANumber => cases hb
    | infinity t => cases s <;> cases t <;> rfl
    | zero t => cases s <;> rfl
    | finite t n f =>
      cases s <;> cases t
      · -- below zero both exponents and digits compare the other way round
        have places : compare (toLex ((-1 : ℤ), toLex (-e, -(m : ℤ))))
            (toLex (-1, toLex (-f, -(n : ℤ)))) = ((compare e f).then (compare m n)).swap := by
          simp [compare_toLex, compare_neg, compare_natCast, Ordering.swap_then]
        exact congrArg some places.symm
      · rfl
      · rfl
      · -- above zero, exponents come first, and then digits
        have places : compare (toLex ((1 : ℤ), toLex (e, (m : ℤ))))
            (toLex (1, toLex (f, (n : ℤ)))) = (compare e f).then (compare m n) := by
          simp [compare_toLex, compare_natCast]
        exact congrArg some places.symm

theorem compare_of_isNaN {a : UnpackedFloat} (h : a.isNaN = true) (b : UnpackedFloat) :
    a.compare b = none ∧ b.compare a = none := by
  cases a with
  | notANumber => cases b <;> exact ⟨rfl, rfl⟩
  | infinity | zero | finite => cases h

/-- Where a floating point number lies among the others. -/
def floatPlace (x : Float) : ℤ ×ₗ ℤ ×ₗ ℤ :=
  place x.toModel.unpack

theorem lt_iff_compare {x y : Float} :
    x < y ↔ x.toModel.unpack.compare y.toModel.unpack = some .lt := by
  show decide (x.toModel.lt y.toModel = true) = true ↔ _
  rw [decide_eq_true_iff]
  show (x.toModel.unpack.compare y.toModel.unpack == some .lt) = true ↔ _
  rw [beq_iff_eq]

theorem beq_iff_compare {x y : Float} :
    (x == y) = true ↔ x.toModel.unpack.compare y.toModel.unpack = some .eq := by
  show (x.toModel.unpack.compare y.toModel.unpack == some .eq) = true ↔ _
  rw [beq_iff_eq]

theorem floatOrder?_eq_compare {x y : Float} (hx : x.isNaN = false) (hy : y.isNaN = false) :
    floatOrder? x y = some (compare (floatPlace x) (floatPlace y)) := by
  rw [floatOrder?]
  simp only [lt_iff_compare, beq_iff_compare]
  rw [compare_eq_compare_place hx hy, compare_eq_compare_place hy hx]
  change (if some (compare (floatPlace x) (floatPlace y)) = some .lt then some Ordering.lt
    else if some (compare (floatPlace y) (floatPlace x)) = some .lt then some .gt
    else if some (compare (floatPlace x) (floatPlace y)) = some .eq then some .eq else none) = _
  rcases lt_trichotomy (floatPlace x) (floatPlace y) with h | h | h
  · rw [compare_lt_iff_lt.mpr h]
    rfl
  · rw [h, compare_eq_iff_eq.mpr rfl]
    rfl
  · rw [compare_lt_iff_lt.mpr h, compare_gt_iff_gt.mpr h]
    rfl

theorem floatOrder?_of_isNaN {x : Float} (h : x.isNaN = true) (y : Float) :
    floatOrder? x y = none ∧ floatOrder? y x = none := by
  obtain ⟨left, right⟩ := compare_of_isNaN (a := x.toModel.unpack) h y.toModel.unpack
  simp [floatOrder?, lt_iff_compare, beq_iff_compare, left, right]

end Places

/-! ### Rounding -/

section Rounding

/-- The number of units nearest to `n`; of two equally near ones the even one. -/
def nearestEven (n unit : Nat) : Nat :=
  if 2 * (n % unit) < unit then n / unit
  else if unit < 2 * (n % unit) then n / unit + 1
  else n / unit + n / unit % 2

theorem le_nearestEven (n unit : Nat) : n / unit ≤ nearestEven n unit := by
  unfold nearestEven
  split
  · exact le_refl _
  split <;> omega

theorem nearestEven_le (n unit : Nat) : nearestEven n unit ≤ n / unit + 1 := by
  unfold nearestEven
  split
  · omega
  split <;> omega

theorem nearestEven_mono {a b unit : Nat} (h : a ≤ b) :
    nearestEven a unit ≤ nearestEven b unit := by
  rcases (Nat.div_le_div_right h : a / unit ≤ b / unit).lt_or_eq with less | same
  · calc nearestEven a unit ≤ a / unit + 1 := nearestEven_le a unit
      _ ≤ b / unit := less
      _ ≤ nearestEven b unit := le_nearestEven b unit
  · have ha := Nat.div_add_mod a unit
    have hb := Nat.div_add_mod b unit
    rw [same] at ha
    have remainders : a % unit ≤ b % unit := by omega
    unfold nearestEven
    rw [same]
    split <;> split <;> try split
    all_goals try omega
    all_goals split <;> omega

/-- The extended mantissa holds `n` shifted right by `k` digits.  Its two bits tell how the digits
that were dropped compare with half a unit. -/
structure Shifted (em : ExtendedMantissa) (n k : Nat) : Prop where
  mantissa : em.mantissa = n / 2 ^ k
  roundBit : em.roundBit = true ↔ 2 ^ k ≤ 2 * (n % 2 ^ k)
  stickyBit : em.stickyBit = true ↔ 2 * (n % 2 ^ k) ≠ 0 ∧ 2 * (n % 2 ^ k) ≠ 2 ^ k

theorem shifted_zero (n : Nat) : Shifted (.ofMantissaAndAccuracy n .exact) n 0 := by
  constructor <;> simp [ExtendedMantissa.ofMantissaAndAccuracy, Nat.mod_one]

theorem Shifted.shiftRightOne {em : ExtendedMantissa} {n k : Nat} (h : Shifted em n k) :
    Shifted em.shiftRightOne n (k + 1) := by
  have hpow : 2 ^ (k + 1) = 2 * 2 ^ k := by rw [Nat.pow_succ, Nat.mul_comm]
  have hdiv : n / 2 ^ (k + 1) = n / 2 ^ k / 2 := by rw [Nat.pow_succ, Nat.div_div_eq_div_mul]
  have hmod : n % 2 ^ (k + 1) = n % 2 ^ k + 2 ^ k * (n / 2 ^ k % 2) := by
    rw [Nat.pow_succ, Nat.mod_mul]
  have hlt : n % 2 ^ k < 2 ^ k := Nat.mod_lt _ (Nat.two_pow_pos k)
  have hbit : n / 2 ^ k % 2 = 0 ∨ n / 2 ^ k % 2 = 1 := by omega
  have hround := h.roundBit
  have hsticky := h.stickyBit
  refine ⟨?_, ?_, ?_⟩
  · rw [ExtendedMantissa.shiftRightOne, h.mantissa, hdiv]
  · rw [hmod, hpow, ExtendedMantissa.shiftRightOne, h.mantissa, bne_iff_ne]
    rcases hbit with hbit | hbit <;> rw [hbit] <;> omega
  · rw [hmod, hpow, ExtendedMantissa.shiftRightOne, Bool.or_eq_true, hround, hsticky]
    rcases hbit with hbit | hbit <;> rw [hbit] <;> omega

theorem shifted (n k : Nat) :
    Shifted (ExtendedMantissa.ofMantissaAndAccuracy n .exact >>> k) n k := by
  induction k with
  | zero => exact shifted_zero n
  | succ k ih => exact ih.shiftRightOne

theorem Shifted.roundedMantissa {em : ExtendedMantissa} {n k : Nat} (h : Shifted em n k) :
    em.roundedMantissa = nearestEven n (2 ^ k) := by
  obtain ⟨hm, hr, hs⟩ := h
  rcases em with ⟨m, r, s⟩
  have hpos := Nat.two_pow_pos k
  simp only at hm hr hs
  subst hm
  unfold nearestEven
  cases r <;> cases s <;> simp only [Bool.false_eq_true, false_iff, true_iff] at hr hs <;>
    simp only [ExtendedMantissa.roundedMantissa, ExtendedMantissa.accuracy,
      Accuracy.roundToNearestEven]
  · rw [if_pos (by omega)]
  · rw [if_pos (by omega)]
  · rw [if_neg (by omega), if_neg (by omega)]
  · rw [if_neg (by omega), if_pos (by omega)]

theorem targetExponent_eq (t : Int) : Format.binary64.targetExponent t = max (t - 53) (-1074) := rfl

theorem shiftToTargetExponent_eq {m k : Nat} {e : Int} (length : m.log2 = 52 + k)
    (normal : -1074 ≤ e + k) :
    shiftToTargetExponent .binary64 m e .exact =
      (ExtendedMantissa.ofMantissaAndAccuracy m .exact >>> k, e + k) := by
  have amount : (Format.binary64.targetExponent (totalExponent m e) - e).toNat = k := by
    rw [targetExponent_eq, totalExponent, length]
    omega
  rw [shiftToTargetExponent, shiftToExponent, amount]

theorem roundWithAccuracy_of_shifts (s : Sign) {m q : Nat} {e : Int} {accuracy : Accuracy}
    {first second : ExtendedMantissa × Int}
    (h : shiftToTargetExponent .binary64 m e accuracy = first)
    (h' : shiftToTargetExponent .binary64 first.1.roundedMantissa first.2 .exact = second)
    (hq : second.1.mantissa = q) (pos : 0 < q) :
    roundWithAccuracy .binary64 s m e accuracy = .finite s q second.2 pos := by
  subst h h' hq
  exact dif_neg (Nat.ne_of_gt pos)

/-- By how many binary digits a number is longer than 53. -/
def excess (m : Nat) : Nat :=
  m.log2 - 52

theorem log2_eq_of_bounds {m k : Nat} (low : 2 ^ k ≤ m) (high : m < 2 ^ (k + 1)) : m.log2 = k := by
  have pos := Nat.two_pow_pos k
  rw [Nat.log2_eq_iff (by omega)]
  exact ⟨low, high⟩

theorem div_two_pow_bounds {m k : Nat} (length : m.log2 = 52 + k) :
    2 ^ 52 ≤ m / 2 ^ k ∧ m / 2 ^ k < 2 ^ 53 := by
  have hm : m ≠ 0 := by
    rintro rfl
    simp at length
    omega
  rw [Nat.le_div_iff_mul_le (Nat.two_pow_pos k), Nat.div_lt_iff_lt_mul (Nat.two_pow_pos k),
    ← Nat.pow_add, ← Nat.pow_add, ← length, show 53 + k = m.log2 + 1 by omega]
  exact ⟨Nat.log2_self_le hm, Nat.lt_log2_self⟩

theorem nearestEven_bounds {m k : Nat} (length : m.log2 = 52 + k) :
    2 ^ 52 ≤ nearestEven m (2 ^ k) ∧ nearestEven m (2 ^ k) ≤ 2 ^ 53 := by
  obtain ⟨low, high⟩ := div_two_pow_bounds length
  have := le_nearestEven m (2 ^ k)
  have := nearestEven_le m (2 ^ k)
  omega

theorem log2_eq_add_excess {m : Nat} (low : 2 ^ 52 ≤ m) : m.log2 = 52 + excess m := by
  have := (Nat.le_log2 (by omega)).mpr low
  unfold excess
  omega

theorem excess_eq_zero {m : Nat} (small : m < 2 ^ 53) : excess m = 0 := by
  unfold excess
  by_cases h : m = 0
  · rw [h]
    rfl
  · have := (Nat.log2_lt h).mpr small
    omega

theorem finite_congr {s t : Sign} {m n : Nat} {e f : Int} {hm : 0 < m} {hn : 0 < n} (hs : s = t)
    (hmn : m = n) (hef : e = f) : UnpackedFloat.finite s m e hm = .finite t n f hn := by
  subst hs hmn hef
  rfl

/-- Rounding a number that is long enough keeps its first 53 digits, of which a carry leaves one
more. -/
theorem roundWithAccuracy_exact (s : Sign) {m k r : Nat} {e : Int} (length : m.log2 = 52 + k)
    (normal : -1074 ≤ e + k) (hr : nearestEven m (2 ^ k) = r) :
    ∃ pos, roundWithAccuracy .binary64 s m e .exact =
      .finite s (r / 2 ^ excess r) (e + k + excess r) pos := by
  have bounds := nearestEven_bounds length
  rw [hr] at bounds
  have length' := log2_eq_add_excess bounds.1
  have quotient := div_two_pow_bounds length'
  have rounded : (ExtendedMantissa.ofMantissaAndAccuracy m .exact >>> k).roundedMantissa = r :=
    (shifted m k).roundedMantissa.trans hr
  have second : shiftToTargetExponent .binary64
      (ExtendedMantissa.ofMantissaAndAccuracy m .exact >>> k).roundedMantissa (e + k) .exact =
        (ExtendedMantissa.ofMantissaAndAccuracy r .exact >>> excess r, e + k + excess r) := by
    rw [rounded]
    exact shiftToTargetExponent_eq length' (by omega)
  exact ⟨by omega, roundWithAccuracy_of_shifts s (shiftToTargetExponent_eq length normal) second
    (shifted r (excess r)).mantissa _⟩

theorem nearestEven_mul_self (n : Nat) {unit : Nat} (pos : 0 < unit) :
    nearestEven (n * unit) unit = n := by
  unfold nearestEven
  rw [Nat.mul_mod_left, Nat.mul_div_cancel n pos, if_pos (by omega)]

theorem log2_mul_two_pow {n : Nat} (pos : 0 < n) (k : Nat) : (n * 2 ^ k).log2 = n.log2 + k := by
  have low := Nat.log2_self_le (Nat.ne_of_gt pos)
  have high := @Nat.lt_log2_self n
  apply log2_eq_of_bounds
  · rw [Nat.pow_add]
    exact Nat.mul_le_mul_right _ low
  · rw [Nat.add_right_comm, Nat.pow_add]
    exact Nat.mul_lt_mul_of_pos_right high (Nat.two_pow_pos k)

/-- Rounding keeps a number of 53 digits, whatever zeros follow them. -/
theorem roundWithAccuracy_mul (s : Sign) {m : Nat} {e : Int} (low : 2 ^ 52 ≤ m) (high : m < 2 ^ 53)
    (k : Nat) (normal : -1074 ≤ e + k) :
    ∃ pos, roundWithAccuracy .binary64 s (m * 2 ^ k) e .exact = .finite s m (e + k) pos := by
  have length : (m * 2 ^ k).log2 = 52 + k := by
    rw [log2_mul_two_pow (by omega), log2_eq_of_bounds low high]
  obtain ⟨h, rounded⟩ := roundWithAccuracy_exact s length normal
    (nearestEven_mul_self m (Nat.two_pow_pos k))
  have fits := excess_eq_zero high
  refine ⟨by omega, rounded.trans (finite_congr rfl ?_ ?_)⟩
  · rw [fits, Nat.pow_zero, Nat.div_one]
  · rw [fits]
    simp

end Rounding

/-! ### Packing -/

section Packing

theorem ofBitVec_unpackSign (s : Sign) (e : BitVec 11) (m : BitVec 52) :
    Sign.ofBitVec (@unpackSign .binary64 (packComponents .binary64 s e m)) = s := by
  have same : @unpackSign .binary64 (packComponents .binary64 s e m) = s.toBitVec := by
    show ((s.toBitVec ++ e) ++ m).extractLsb' 63 1 = s.toBitVec
    rw [BitVec.extractLsb'_append_eq_of_le (by omega),
      BitVec.extractLsb'_append_eq_of_le (by omega)]
    exact BitVec.extractLsb'_eq_self
  rw [same]
  cases s <;> rfl

theorem toNat_implicit_append {m : Nat} (low : 2 ^ 52 ≤ m) (high : m < 2 ^ 53) :
    (1#1 ++ BitVec.ofNat 52 m).toNat = m := by
  rw [BitVec.toNat_append, ← Nat.shiftLeft_add_eq_or_of_lt (BitVec.ofNat 52 m).isLt,
    BitVec.toNat_ofNat, BitVec.toNat_ofNat, Nat.shiftLeft_eq]
  omega

/-- Packing a number of 53 digits keeps it. -/
theorem unpack_pack_finite (s : Sign) {m : Nat} {e : Int} (pos : 0 < m) (low : 2 ^ 52 ≤ m)
    (high : m < 2 ^ 53) (least : -1074 ≤ e) (greatest : e ≤ 971) :
    (Float.Model.pack (.finite s m e pos)).unpack = .finite s m e pos := by
  have length : m.log2 = 52 := log2_eq_of_bounds low high
  have biased : (e + 1023 + 52).toNat + 1 < 2 ^ 11 := by omega
  -- the exponent is neither too large nor the digits too few, so that the parts are packed
  have packed : UnpackedFloat.pack .binary64 (.finite s m e pos) =
      packComponents .binary64 s (BitVec.ofNat 11 (e + 1023 + 52).toNat) (BitVec.ofNat 52 m) := by
    unfold UnpackedFloat.pack
    dsimp only
    rw [if_neg, if_pos]
    · rfl
    · rw [length]
      rfl
    · exact Nat.not_le_of_lt biased
  show UnpackedFloat.unpack .binary64 (UnpackedFloat.pack .binary64 (.finite s m e pos)) = _
  rw [packed]
  have exponent : (BitVec.ofNat 11 (e + 1023 + 52).toNat).toNat = (e + 1023 + 52).toNat := by
    rw [BitVec.toNat_ofNat, Nat.mod_eq_of_lt (by omega)]
  -- the biased exponent is not that of the infinities
  have finite : BitVec.ofNat 11 (e + 1023 + 52).toNat ≠ -1#11 := by
    intro h
    have := congrArg BitVec.toNat h
    rw [exponent] at this
    have ones : (-1#11).toNat = 2047 := rfl
    omega
  -- nor that of the subnormal numbers
  have normal : BitVec.ofNat 11 (e + 1023 + 52).toNat ≠ 0#11 := by
    intro h
    have := congrArg BitVec.toNat h
    rw [exponent] at this
    have zeros : (0#11).toNat = 0 := rfl
    omega
  unfold UnpackedFloat.unpack
  dsimp only
  rw [unpackExponent_packComponents, if_neg finite, if_neg normal]
  -- so that the leading digit, which is not packed, is put back
  refine finite_congr (ofBitVec_unpackSign s _ _) ?_ ?_
  · rw [unpackMantissa_packComponents]
    exact toNat_implicit_append low high
  · show ((BitVec.ofNat 11 (e + 1023 + 52).toNat).toNat : ℤ) - (1023 + 52) = e
    omega

end Packing

/-! ### Whole numbers -/

section WholeNumbers

/-- The first 53 binary digits of a whole number, rounded. -/
def leadingDigits (n : Nat) : Nat :=
  nearestEven (n * 2 ^ 53) (2 ^ (n.log2 + 1))

theorem leadingDigits_bounds {n : Nat} (pos : 0 < n) :
    2 ^ 52 ≤ leadingDigits n ∧ leadingDigits n ≤ 2 ^ 53 := by
  apply nearestEven_bounds
  rw [log2_mul_two_pow pos]
  omega

/-- Whether rounding made the digits one longer. -/
def carry (n : Nat) : Nat :=
  excess (leadingDigits n)

theorem carry_cases {n : Nat} (pos : 0 < n) :
    (2 ^ 52 ≤ leadingDigits n ∧ leadingDigits n < 2 ^ 53 ∧ carry n = 0) ∨
      (leadingDigits n = 2 ^ 53 ∧ carry n = 1) := by
  obtain ⟨low, high⟩ := leadingDigits_bounds pos
  rcases Nat.lt_or_eq_of_le high with less | same
  · exact .inl ⟨low, less, excess_eq_zero less⟩
  · refine .inr ⟨same, ?_⟩
    rw [carry, same]
    decide

/-- The floating point number of a sign nearest to a whole number. -/
def IsNearest (s : Sign) (n : Nat) (u : UnpackedFloat) : Prop :=
  ∃ h, u = .finite s (leadingDigits n / 2 ^ carry n) (n.log2 - 52 + carry n) h

/-- The nearest number can be packed. -/
theorem IsNearest.unpack_pack {s : Sign} {n : Nat} {u : UnpackedFloat} (h : IsNearest s n u)
    (pos : 0 < n) (small : n < 2 ^ 64) : IsNearest s n (Float.Model.pack u).unpack := by
  obtain ⟨hpos, rfl⟩ := h
  have length : n.log2 < 64 := (Nat.log2_lt (by omega)).mpr small
  refine ⟨hpos, ?_⟩
  rcases carry_cases pos with ⟨low, high, kept⟩ | ⟨full, one⟩
  · exact unpack_pack_finite s hpos (by rw [kept]; omega) (by rw [kept]; omega) (by omega)
      (by omega)
  · exact unpack_pack_finite s hpos (by rw [full, one]; decide) (by rw [full, one]; decide)
      (by omega) (by omega)

/-- Conversion through scaled integers. -/
theorem isNearest_ofScientific {n : Nat} (pos : 0 < n) :
    IsNearest .positive n (.ofScientific .binary64 n 0) := by
  have length : (n * 2 ^ 53).log2 = 52 + (n.log2 + 1) := by
    rw [log2_mul_two_pow pos]
    omega
  obtain ⟨h, rounded⟩ := roundWithAccuracy_exact .positive (e := -53) length (by omega) rfl
  have scaled : UnpackedFloat.ofScientific .binary64 n 0 =
      roundWithAccuracy .binary64 .positive (n * 2 ^ 53) (-53) .exact := by
    unfold UnpackedFloat.ofScientific
    have inRange : ¬(0 : ℤ) < -(2 ^ 11 + (n.log2 : ℤ)) := by omega
    rw [dif_neg (by omega), if_neg (by decide), if_neg inRange, if_pos (le_refl 0)]
    show roundWithAccuracy .binary64 .positive (n <<< 53 * 1) (-53) .exact = _
    rw [Nat.mul_one, Nat.shiftLeft_eq]
  refine ⟨h, scaled.trans (rounded.trans (finite_congr rfl rfl ?_))⟩
  show (-53 : ℤ) + (n.log2 + 1 : ℕ) + carry n = _
  omega

section Small

variable {n : Nat} (small : n < 2 ^ 53) (pos : 0 < n)

include small pos

theorem leadingDigits_of_lt : leadingDigits n = n * 2 ^ (52 - n.log2) := by
  have : n.log2 < 53 := (Nat.log2_lt (by omega)).mpr small
  have scaled : n * 2 ^ 53 = n * 2 ^ (52 - n.log2) * 2 ^ (n.log2 + 1) := by
    rw [Nat.mul_assoc, ← Nat.pow_add, show 52 - n.log2 + (n.log2 + 1) = 53 by omega]
  rw [leadingDigits, scaled, nearestEven_mul_self _ (Nat.two_pow_pos _)]

theorem leadingDigits_lt : leadingDigits n < 2 ^ 53 := by
  have length : n.log2 < 53 := (Nat.log2_lt (by omega)).mpr small
  calc leadingDigits n = n * 2 ^ (52 - n.log2) := leadingDigits_of_lt small pos
    _ < 2 ^ (n.log2 + 1) * 2 ^ (52 - n.log2) :=
      Nat.mul_lt_mul_of_pos_right Nat.lt_log2_self (Nat.two_pow_pos _)
    _ = 2 ^ 53 := by rw [← Nat.pow_add, show n.log2 + 1 + (52 - n.log2) = 53 by omega]

theorem isNearest_of_eq_finite {s : Sign} {u : UnpackedFloat} {m : Nat} {e : Int} {h : 0 < m}
    (hu : u = .finite s m e h) (hm : m = leadingDigits n) (he : e = n.log2 - 52) :
    IsNearest s n u := by
  have kept : carry n = 0 := excess_eq_zero (leadingDigits_lt small pos)
  have whole : m = leadingDigits n / 2 ^ carry n := by rw [kept, Nat.pow_zero, Nat.div_one, hm]
  refine ⟨whole ▸ h, hu.trans (finite_congr rfl whole ?_)⟩
  rw [he, kept]
  omega

theorem isNearest_ofNat_of_lt :
    IsNearest .positive n (UnpackedFloat.ofNat .binary64 n) := by
  have length : n.log2 < 53 := (Nat.log2_lt (by omega)).mpr small
  have positive : compare (n : ℤ) 0 = .gt := compare_gt_iff_gt.mpr (by omega)
  have started : UnpackedFloat.ofNat .binary64 n = UnpackedFloat.round .binary64 .positive n 0 := by
    unfold UnpackedFloat.ofNat UnpackedFloat.ofInt UnpackedFloat.normalize
    rw [positive]
    rfl
  have amount : (0 - Format.binary64.targetExponent (totalExponent n 0)).toNat = 52 - n.log2 := by
    rw [targetExponent_eq, totalExponent]
    omega
  have scaled : decreaseExponent n 0 (Format.binary64.targetExponent (totalExponent n 0)) =
      (leadingDigits n, (n.log2 : ℤ) - 52) := by
    rw [decreaseExponent, amount, Nat.shiftLeft_eq, leadingDigits_of_lt small pos]
    refine Prod.ext rfl ?_
    show (0 : ℤ) - (52 - n.log2 : ℕ) = _
    omega
  have rounded : UnpackedFloat.round .binary64 .positive n 0 =
      roundWithAccuracy .binary64 .positive (leadingDigits n) (n.log2 - 52) .exact := by
    unfold UnpackedFloat.round
    dsimp only
    rw [scaled]
  obtain ⟨h, kept⟩ := roundWithAccuracy_mul .positive (e := n.log2 - 52)
    (leadingDigits_bounds pos).1 (leadingDigits_lt small pos) 0 (by omega)
  rw [Nat.pow_zero, Nat.mul_one] at kept
  rw [started, rounded]
  exact isNearest_of_eq_finite small pos kept rfl (by simp)

/-- Conversion through machine words, followed by a multiplication by one. -/
theorem isNearest_mul_one :
    IsNearest .positive n (n.toUInt64.toFloat * .ofBits 0x3FF0000000000000).toModel.unpack := by
  have one : (Float.ofBits 0x3FF0000000000000).toModel.unpack =
      .finite .positive (2 ^ 52) (-52) (by decide) := rfl
  have length : n.log2 < 53 := (Nat.log2_lt (by omega)).mpr small
  have carryless : carry n = 0 := excess_eq_zero (leadingDigits_lt small pos)
  have word : n.toUInt64.toNat = n := UInt64.toNat_ofNat_of_lt' (by rw [UInt64.size]; omega)
  have packed : n.toUInt64.toFloat.toModel = .pack (UnpackedFloat.ofNat .binary64 n) := by
    show Float.Model.pack (UnpackedFloat.ofNat .binary64 n.toUInt64.toNat) = _
    rw [word]
  obtain ⟨h, factor⟩ := (isNearest_ofNat_of_lt small pos).unpack_pack pos (by omega)
  obtain ⟨h', kept⟩ := roundWithAccuracy_mul .positive (e := n.log2 - 52 + -52)
    (leadingDigits_bounds pos).1 (leadingDigits_lt small pos) 52 (by omega)
  have product : (n.toUInt64.toFloat * .ofBits 0x3FF0000000000000).toModel =
      .pack (roundWithAccuracy .binary64 .positive (leadingDigits n * 2 ^ 52) (n.log2 - 52 + -52)
        .exact) := by
    show Float.Model.pack (UnpackedFloat.mul .binary64 n.toUInt64.toFloat.toModel.unpack
      (Float.ofBits 0x3FF0000000000000).toModel.unpack) = _
    rw [packed, factor, one]
    show Float.Model.pack (roundWithAccuracy .binary64 .positive
      (leadingDigits n / 2 ^ carry n * 2 ^ 52) (n.log2 - 52 + carry n + -52) .exact) = _
    rw [carryless, Nat.pow_zero, Nat.div_one, Int.natCast_zero, Int.add_zero]
  rw [product]
  refine IsNearest.unpack_pack ?_ pos (by omega)
  exact isNearest_of_eq_finite small pos kept rfl (by push_cast; omega)

end Small

/-- A positive whole number becomes the nearest floating point number. -/
theorem isNearest_ofNat {n : Nat} (pos : 0 < n) (small : n < 2 ^ 64) :
    IsNearest .positive n (Float.ofNat n).toModel.unpack := by
  by_cases short : n < 2 ^ 53
  · have fast : Float.ofNat n = n.toUInt64.toFloat * .ofBits 0x3FF0000000000000 :=
      dif_pos ⟨short, by decide⟩
    rw [fast]
    exact isNearest_mul_one short pos
  · have slow : Float.ofNat n = .ofModel (.pack (.ofScientific .binary64 n 0)) :=
      dif_neg fun h => short h.1
    rw [slow]
    exact (isNearest_ofScientific pos).unpack_pack pos small

theorem IsNearest.neg {n : Nat} {x : Float} (h : IsNearest .positive n x.toModel.unpack)
    (pos : 0 < n) (small : n < 2 ^ 64) : IsNearest .negative n (-x).toModel.unpack := by
  obtain ⟨hpos, hx⟩ := h
  show IsNearest .negative n (Float.Model.pack x.toModel.unpack.neg).unpack
  rw [hx]
  exact IsNearest.unpack_pack ⟨hpos, rfl⟩ pos small

/-- The exponent and the digits of a positive whole number are in order. -/
theorem toLex_nearest_mono {a b : Nat} (pos : 0 < a) (h : a ≤ b) :
    toLex ((a.log2 : ℤ) - 52 + carry a, ((leadingDigits a / 2 ^ carry a : ℕ) : ℤ)) ≤
      toLex ((b.log2 : ℤ) - 52 + carry b, ((leadingDigits b / 2 ^ carry b : ℕ) : ℤ)) := by
  have lengths : a.log2 ≤ b.log2 :=
    (Nat.le_log2 (by omega)).mpr (le_trans (Nat.log2_self_le (by omega)) h)
  -- with as many digits the rounded ones are in order; with fewer, at most a carry catches up
  have digits : a.log2 = b.log2 → leadingDigits a ≤ leadingDigits b := by
    intro same
    rw [leadingDigits, leadingDigits, same]
    exact nearestEven_mono (Nat.mul_le_mul_right _ h)
  rw [Prod.Lex.toLex_le_toLex]
  rcases carry_cases pos with ⟨_, _, ha⟩ | ⟨_, ha⟩ <;>
    rcases carry_cases (Nat.lt_of_lt_of_le pos h) with ⟨_, _, hb⟩ | ⟨_, hb⟩ <;>
      simp only [ha, hb] <;> omega

theorem isNearest_ofInt_of_pos {i : Int} (pos : 0 < i) (high : i < 2 ^ 63) :
    IsNearest .positive i.natAbs (Float.ofInt i).toModel.unpack := by
  cases i with
  | ofNat n => exact isNearest_ofNat (by omega) (by omega)
  | negSucc n => omega

theorem isNearest_ofInt_of_neg {i : Int} (neg : i < 0) (low : -2 ^ 63 ≤ i) :
    IsNearest .negative i.natAbs (Float.ofInt i).toModel.unpack := by
  cases i with
  | ofNat n => exact absurd neg (Int.not_lt.mpr (Int.natCast_nonneg n))
  | negSucc n => exact (isNearest_ofNat (by omega) (by omega)).neg (by omega) (by omega)

theorem unpack_ofInt_zero : (Float.ofInt 0).toModel.unpack = .zero .positive := by
  rfl

theorem place_ofInt_zero : place (Float.ofInt 0).toModel.unpack = toLex (0, toLex (0, 0)) := by
  rw [unpack_ofInt_zero]
  rfl

theorem IsNearest.isNaN {s : Sign} {n : Nat} {u : UnpackedFloat} (h : IsNearest s n u) :
    u.isNaN = false := by
  obtain ⟨_, rfl⟩ := h
  rfl

theorem isNaN_ofInt {i : Int} (low : -2 ^ 63 ≤ i) (high : i < 2 ^ 63) :
    (Float.ofInt i).isNaN = false := by
  show (Float.ofInt i).toModel.unpack.isNaN = false
  rcases lt_trichotomy i 0 with neg | rfl | pos
  · exact (isNearest_ofInt_of_neg neg low).isNaN
  · rw [unpack_ofInt_zero]
    rfl
  · exact (isNearest_ofInt_of_pos pos high).isNaN

theorem IsNearest.place_pos {n : Nat} {u : UnpackedFloat} (h : IsNearest .positive n u) :
    place u = toLex (1, toLex ((n.log2 : ℤ) - 52 + carry n,
      ((leadingDigits n / 2 ^ carry n : ℕ) : ℤ))) := by
  obtain ⟨_, rfl⟩ := h
  rfl

theorem IsNearest.place_neg {n : Nat} {u : UnpackedFloat} (h : IsNearest .negative n u) :
    place u = toLex (-1, toLex (-((n.log2 : ℤ) - 52 + carry n),
      -((leadingDigits n / 2 ^ carry n : ℕ) : ℤ))) := by
  obtain ⟨_, rfl⟩ := h
  rfl

theorem toLex_neg_le_toLex_neg {a b c d : ℤ} (h : toLex (a, b) ≤ toLex (c, d)) :
    toLex (-c, -d) ≤ toLex (-a, -b) := by
  rw [Prod.Lex.toLex_le_toLex] at h ⊢
  simp only at h ⊢
  omega

/-- Conversion keeps whole numbers in order. -/
theorem floatPlace_ofInt_mono {a b : Int} (low : -2 ^ 63 ≤ a) (h : a ≤ b) (high : b < 2 ^ 63) :
    floatPlace (Float.ofInt a) ≤ floatPlace (Float.ofInt b) := by
  unfold floatPlace
  rcases lt_trichotomy a 0 with ha | rfl | ha
  · rw [(isNearest_ofInt_of_neg ha low).place_neg]
    rcases lt_trichotomy b 0 with hb | rfl | hb
    · rw [(isNearest_ofInt_of_neg hb (by omega)).place_neg, Prod.Lex.toLex_le_toLex]
      exact .inr ⟨rfl, toLex_neg_le_toLex_neg (toLex_nearest_mono (by omega) (by omega))⟩
    · rw [place_ofInt_zero, Prod.Lex.toLex_le_toLex]
      exact .inl (show (-1 : ℤ) < 0 by decide)
    · rw [(isNearest_ofInt_of_pos hb high).place_pos, Prod.Lex.toLex_le_toLex]
      exact .inl (show (-1 : ℤ) < 1 by decide)
  · rcases h.lt_or_eq with hb | rfl
    · rw [place_ofInt_zero, (isNearest_ofInt_of_pos hb high).place_pos, Prod.Lex.toLex_le_toLex]
      exact .inl (show (0 : ℤ) < 1 by decide)
    · exact le_refl _
  · have hb : 0 < b := lt_of_lt_of_le ha h
    rw [(isNearest_ofInt_of_pos ha (by omega)).place_pos,
      (isNearest_ofInt_of_pos hb high).place_pos, Prod.Lex.toLex_le_toLex]
    exact .inr ⟨rfl, toLex_nearest_mono (by omega) (by omega)⟩

end WholeNumbers

end StepScript
