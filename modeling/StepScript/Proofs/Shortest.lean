import Mathlib.Algebra.Order.Field.Power
import Mathlib.Tactic.Linarith
import Mathlib.Tactic.NormNum
import Mathlib.Tactic.Positivity
import Mathlib.Tactic.Ring
import StepScript.Number.Shortest

/-!
# The shortest decimal form is rounded to its number

The numbers that are rounded to a floating point number fill an interval around it, and the
intervals of two floating point numbers have no number in common.  The search for the shortest
decimal form tests, on one grid after the other, whether the interval has a grid point.  The grid of
seventeen digits is finer than any interval, so the search ends with a decimal in the interval, from
which the floating point number can be told.

## Main definitions

* `Binary.lower`, `Binary.upper`, `Binary.Covers` — the interval of a number.
* `Binary.Canonical` — the mantissas and exponents of floating point numbers.

## Main results

* `Binary.has_interval_iff` — what the test of a grid point finds out.
* `Binary.covers_shortest` — the shortest decimal form lies in the interval.
* `Binary.eq_of_covers` — intervals of different numbers are disjoint.
* `Binary.ofFloat?_unique` — a floating point number is told by its parts.
-/

namespace StepScript

/-! ### Decimals -/

/-- The number that a decimal is. -/
def Decimal.value (d : Decimal) : ℚ :=
  d.digits * 10 ^ d.exponent

theorem Decimal.value_strip (n : ℕ) (d : Decimal) : (d.strip n).value = d.value := by
  fun_induction Decimal.strip n d with
  | case1 => rfl
  | case2 n d zeros ih =>
    obtain ⟨m, hm⟩ := Nat.dvd_of_mod_eq_zero zeros.1
    have ten : (10 : ℚ) ≠ 0 := by norm_num
    rw [ih, value, value, hm, Nat.mul_div_cancel_left m (by decide), zpow_add_one₀ ten]
    push_cast
    ring
  | case3 => rfl

namespace Binary

variable {b b' : Binary} {q : ℚ}

/-- The magnitude of a number. -/
def value (b : Binary) : ℚ :=
  b.mantissa * 2 ^ b.exponent

/-- A quarter of the distance to the next larger number. -/
def quarter (b : Binary) : ℚ :=
  2 ^ (b.exponent - 2)

/-- The lower end of what is rounded to a number. -/
def lower (b : Binary) : ℚ :=
  (4 * b.mantissa - if b.isNarrowBelow then 1 else 2) * b.quarter

/-- The upper end of what is rounded to a number. -/
def upper (b : Binary) : ℚ :=
  (4 * b.mantissa + 2) * b.quarter

/-- What is rounded to a number lies between the ends, which are included for even mantissas. -/
def Covers (b : Binary) (q : ℚ) : Prop :=
  if b.mantissa % 2 = 0 then b.lower ≤ q ∧ q ≤ b.upper else b.lower < q ∧ q < b.upper

theorem quarter_pos (b : Binary) : 0 < b.quarter := by
  unfold quarter
  positivity

theorem value_eq (b : Binary) : b.value = 4 * b.mantissa * b.quarter := by
  rw [value, quarter, zpow_sub₀ (by norm_num)]
  norm_num
  ring

theorem lower_lt_value (b : Binary) : b.lower < b.value := by
  have := b.quarter_pos
  rw [lower, value_eq]
  split <;> nlinarith

theorem value_lt_upper (b : Binary) : b.value < b.upper := by
  have := b.quarter_pos
  rw [upper, value_eq]
  nlinarith

theorem Covers.le (h : b.Covers q) : b.lower ≤ q ∧ q ≤ b.upper := by
  unfold Covers at h
  split at h
  · exact h
  · exact ⟨h.1.le, h.2.le⟩

theorem Covers.lt (h : b.Covers q) (odd : b.mantissa % 2 = 1) : b.lower < q ∧ q < b.upper := by
  rwa [Covers, if_neg (by omega)] at h

theorem covers_of_lt (h : b.lower < q) (h' : q < b.upper) : b.Covers q := by
  unfold Covers
  split
  · exact ⟨h.le, h'.le⟩
  · exact ⟨h, h'⟩

/-! ### Grids -/

theorem zpow_mul_toNat {x : ℚ} (hx : x ≠ 0) (s : ℤ) : x ^ s * x ^ (-s).toNat = x ^ s.toNat := by
  have exponents : s + ((-s).toNat : ℤ) = s.toNat := by omega
  rw [← zpow_natCast x (-s).toNat, ← zpow_add₀ hx, exponents, zpow_natCast]

/-- The ends of the interval, the number and the distance of two grid points, all measured in the
same unit. -/
theorem interval_values (pos : 0 < b.mantissa) (t : ℤ) :
    ∃ p : ℚ, 0 < p ∧ ((b.interval t).low : ℚ) = b.lower * p ∧
      ((b.interval t).middle : ℚ) = b.value * p ∧ ((b.interval t).high : ℚ) = b.upper * p ∧
      ((b.interval t).unit : ℚ) = 10 ^ t * p := by
  have two := zpow_mul_toNat (x := 2) (by norm_num) (b.exponent - 2)
  have ten := zpow_mul_toNat (x := 10) (by norm_num) t
  -- the mantissa is positive, so that natural subtraction is the true one
  have gap : (((4 * b.mantissa - if b.isNarrowBelow then 1 else 2 : ℕ)) : ℚ) =
      4 * b.mantissa - if b.isNarrowBelow then 1 else 2 := by
    split
    · rw [Nat.cast_sub (by omega)]
      push_cast
      rfl
    · rw [Nat.cast_sub (by omega)]
      push_cast
      rfl
  -- the unit clears the denominators of both powers
  refine ⟨2 ^ (-(b.exponent - 2)).toNat * 10 ^ (-t).toNat, by positivity, ?_, ?_, ?_, ?_⟩
  · rw [interval, lower, quarter, ← gap]
    simp only [Nat.pow_eq, Nat.cast_mul, Nat.cast_pow, Nat.cast_ofNat, ← two]
    ring
  · rw [interval, value_eq, quarter]
    simp only [Nat.pow_eq, Nat.cast_mul, Nat.cast_pow, Nat.cast_ofNat, ← two]
    ring
  · rw [interval, upper, quarter]
    simp only [Nat.pow_eq, Nat.cast_mul, Nat.cast_pow, Nat.cast_ofNat, Nat.cast_add, ← two]
    ring
  · rw [interval]
    simp only [Nat.pow_eq, Nat.cast_mul, Nat.cast_pow, Nat.cast_ofNat, ← ten]
    ring

/-- A grid point is in the interval if and only if it is rounded to the number. -/
theorem has_interval_iff (pos : 0 < b.mantissa) (t : ℤ) (d : ℕ) :
    (b.interval t).has d = true ↔ b.Covers (d * 10 ^ t) := by
  obtain ⟨p, hp, low, _, high, unit⟩ := interval_values pos t
  have point : ((d * (b.interval t).unit : ℕ) : ℚ) = d * 10 ^ t * p := by
    rw [Nat.cast_mul, unit]
    ring
  have closed : (b.interval t).closed = (b.mantissa % 2 == 0) := rfl
  have le_low : (b.interval t).low ≤ d * (b.interval t).unit ↔ b.lower ≤ d * 10 ^ t := by
    rw [← Nat.cast_le (α := ℚ), low, point, mul_le_mul_iff_of_pos_right hp]
  have lt_low : (b.interval t).low < d * (b.interval t).unit ↔ b.lower < d * 10 ^ t := by
    rw [← Nat.cast_lt (α := ℚ), low, point, mul_lt_mul_iff_of_pos_right hp]
  have le_high : d * (b.interval t).unit ≤ (b.interval t).high ↔ d * 10 ^ t ≤ b.upper := by
    rw [← Nat.cast_le (α := ℚ), high, point, mul_le_mul_iff_of_pos_right hp]
  have lt_high : d * (b.interval t).unit < (b.interval t).high ↔ d * 10 ^ t < b.upper := by
    rw [← Nat.cast_lt (α := ℚ), high, point, mul_lt_mul_iff_of_pos_right hp]
  unfold Interval.has Covers
  rw [closed]
  by_cases even : b.mantissa % 2 = 0
  · simp [even, le_low, le_high]
  · simp [even, lt_low, lt_high]

theorem Interval.has_of_point? {i : Interval} {d : ℕ} (h : i.point? = some d) : i.has d = true := by
  unfold Interval.point? at h
  grind

theorem Interval.isSome_point? {i : Interval}
    (h : i.has (i.middle / i.unit) = true ∨ i.has (i.middle / i.unit + 1) = true) :
    i.point?.isSome = true := by
  unfold Interval.point?
  grind

/-- What the search finds is rounded to the number. -/
theorem covers_of_search (pos : 0 < b.mantissa) {k : ℤ} {fuel n : ℕ} {d : Decimal}
    (h : b.search k fuel n = some d) : b.Covers d.value := by
  fun_induction search b k fuel n with
  | case1 => cases h
  | case2 fuel n t d' hit =>
    cases h
    exact (has_interval_iff pos t d').mp (Interval.has_of_point? hit)
  | case3 _ _ _ _ ih => exact ih h

/-- The search ends by the grid that has a point in the interval. -/
theorem exists_search {k : ℤ} {fuel n j : ℕ} (low : n ≤ j) (high : j < n + fuel)
    (hit : ((b.interval (k + 1 - j)).point?).isSome = true) : ∃ d, b.search k fuel n = some d := by
  fun_induction search b k fuel n with
  | case1 => omega
  | case2 fuel n t d => exact ⟨_, rfl⟩
  | case3 fuel n t miss ih =>
    refine ih ?_ (by omega)
    rcases Nat.lt_or_eq_of_le low with h | rfl
    · exact h
    · rw [show (b.interval (k + 1 - n)).point? = none from miss] at hit
      cases hit

/-- A grid that is finer than the interval meets it next to the number. -/
theorem isSome_point?_of_fine (pos : 0 < b.mantissa) {t : ℤ}
    (fine : (10 : ℚ) ^ t < b.upper - b.lower) : ((b.interval t).point?).isSome = true := by
  obtain ⟨p, hp, _, middle, _, unit⟩ := interval_values pos t
  have hunit : 0 < (b.interval t).unit := by
    rw [← Nat.cast_pos (α := ℚ), unit]
    positivity
  -- the number lies between two grid points
  let d := (b.interval t).middle / (b.interval t).unit
  have below : (d : ℚ) * 10 ^ t ≤ b.value := by
    have h : d * (b.interval t).unit ≤ (b.interval t).middle := Nat.div_mul_le_self _ _
    rw [← Nat.cast_le (α := ℚ), Nat.cast_mul, middle, unit, ← mul_assoc] at h
    exact le_of_mul_le_mul_right h hp
  have above : b.value < (d + 1) * 10 ^ t := by
    have h : (b.interval t).middle < (d + 1) * (b.interval t).unit :=
      Nat.lt_mul_of_div_lt (Nat.lt_succ_self _) hunit
    rw [← Nat.cast_lt (α := ℚ), Nat.cast_mul, middle, unit, ← mul_assoc] at h
    push_cast at h
    exact lt_of_mul_lt_mul_right h hp.le
  have hit : (b.interval t).has d = true ∨ (b.interval t).has (d + 1) = true := by
    rw [has_interval_iff pos, has_interval_iff pos]
    by_cases h : b.lower < d * 10 ^ t
    · exact .inl (covers_of_lt h (below.trans_lt b.value_lt_upper))
    · refine .inr (covers_of_lt ?_ ?_)
      · push_cast
        exact b.lower_lt_value.trans above
      · push_cast
        linarith
  exact Interval.isSome_point? hit

/-! ### The leading digit -/

theorem reaches_iff {k : ℤ} : b.reaches k = true ↔ (10 : ℚ) ^ k ≤ b.value := by
  have two := zpow_mul_toNat (x := 2) (by norm_num) b.exponent
  have ten := zpow_mul_toNat (x := 10) (by norm_num) k
  have hp : (0 : ℚ) < 2 ^ (-b.exponent).toNat * 10 ^ (-k).toNat := by positivity
  have power : ((Nat.pow 10 k.toNat * Nat.pow 2 (-b.exponent).toNat : ℕ) : ℚ) =
      10 ^ k * (2 ^ (-b.exponent).toNat * 10 ^ (-k).toNat) := by
    simp only [Nat.pow_eq, Nat.cast_mul, Nat.cast_pow, Nat.cast_ofNat, ← ten]
    ring
  have number : ((b.mantissa * Nat.pow 2 b.exponent.toNat * Nat.pow 10 (-k).toNat : ℕ) : ℚ) =
      b.value * (2 ^ (-b.exponent).toNat * 10 ^ (-k).toNat) := by
    simp only [value, Nat.pow_eq, Nat.cast_mul, Nat.cast_pow, Nat.cast_ofNat, ← two]
    ring
  rw [reaches, decide_eq_true_eq, ← Nat.cast_le (α := ℚ), power, number,
    mul_le_mul_iff_of_pos_right hp]

theorem zpow_pow_comm (x : ℚ) (l : ℤ) (n : ℕ) : (x ^ n) ^ l = (x ^ l) ^ n := by
  rw [← zpow_natCast, ← zpow_natCast, ← zpow_mul, ← zpow_mul, mul_comm]

/-- An estimate of powers of two by powers of ten, which rests on `10 ^ 59 ≤ 2 ^ 196` and
`2 ^ 93 ≤ 10 ^ 28`. -/
theorem ten_zpow_le_two_zpow {k l : ℤ} (low : -2000 ≤ l) (high : l ≤ 2000)
    (estimate : 100000 * k ≤ 30103 * l) : (10 : ℚ) ^ (k - 1) ≤ 2 ^ l := by
  have ten (n : ℕ) : ((10 : ℚ) ^ (k - 1)) ^ n = 10 ^ ((k - 1) * n) := by
    rw [← zpow_natCast, ← zpow_mul]
  -- the estimate of the logarithm has to err downwards, on either side of zero
  rcases le_total 0 l with nonneg | nonpos
  · have powers : ((10 : ℚ) ^ (k - 1)) ^ 196 ≤ (2 ^ l) ^ 196 := by
      calc ((10 : ℚ) ^ (k - 1)) ^ 196 = 10 ^ ((k - 1) * 196) := ten 196
        _ ≤ 10 ^ (59 * l) := zpow_le_zpow_right₀ (by norm_num) (by omega)
        _ = (10 ^ 59) ^ l := zpow_mul 10 59 l
        _ ≤ (2 ^ 196) ^ l := zpow_le_zpow_left₀ nonneg (by norm_num) (by norm_num)
        _ = (2 ^ l) ^ 196 := zpow_pow_comm 2 l 196
    exact le_of_pow_le_pow_left₀ (by norm_num) (by positivity) powers
  · have powers : ((10 : ℚ) ^ (k - 1)) ^ 93 ≤ (2 ^ l) ^ 93 := by
      calc ((10 : ℚ) ^ (k - 1)) ^ 93 = 10 ^ ((k - 1) * 93) := ten 93
        _ ≤ 10 ^ (28 * l) := zpow_le_zpow_right₀ (by norm_num) (by omega)
        _ = (10 ^ 28) ^ l := zpow_mul 10 28 l
        _ ≤ (2 ^ 93) ^ l := by
            obtain ⟨n, rfl⟩ := Int.exists_eq_neg_ofNat nonpos
            rw [zpow_neg, zpow_neg, zpow_natCast, zpow_natCast]
            exact inv_anti₀ (by positivity) (pow_le_pow_left₀ (by norm_num) (by norm_num) n)
        _ = (2 ^ l) ^ 93 := zpow_pow_comm 2 l 93
    exact le_of_pow_le_pow_left₀ (by norm_num) (by positivity) powers

/-- The mantissa and exponent are those of a floating point number: only the least exponent has
mantissas of fewer digits. -/
structure Canonical (b : Binary) : Prop where
  mantissa_lt : b.mantissa < 2 ^ 53
  exponent_ge : -1074 ≤ b.exponent
  exponent_le : b.exponent ≤ 971
  mantissa_ge : b.exponent = -1074 ∨ 2 ^ 52 ≤ b.mantissa

/-- The estimated exponent is not beyond that of the leading digit. -/
theorem ten_zpow_leading_le (canonical : b.Canonical) (pos : 0 < b.mantissa) :
    (10 : ℚ) ^ b.leading ≤ b.value := by
  unfold leading
  extract_lets k
  split
  · exact reaches_iff.mp ‹_›
  split
  · exact reaches_iff.mp ‹_›
  -- the last guess is one below the estimate, which is off by less than that
  have digits : b.mantissa.log2 < 53 := (Nat.log2_lt pos.ne').mpr canonical.mantissa_lt
  have first : 2 ^ b.mantissa.log2 ≤ b.mantissa := Nat.log2_self_le pos.ne'
  have := canonical.exponent_ge
  have := canonical.exponent_le
  have estimate : 100000 * k ≤ 30103 * (b.mantissa.log2 + b.exponent) := by
    have : k = ((b.mantissa.log2 + b.exponent) * 30103) / 100000 :=
      Int.fdiv_eq_ediv_of_nonneg _ (by decide)
    omega
  calc (10 : ℚ) ^ (k - 1) ≤ 2 ^ ((b.mantissa.log2 : ℤ) + b.exponent) :=
        ten_zpow_le_two_zpow (by omega) (by omega) estimate
    _ = (2 ^ b.mantissa.log2 : ℕ) * 2 ^ b.exponent := by
        rw [zpow_add₀ (by norm_num), zpow_natCast]
        push_cast
        rfl
    _ ≤ b.value := by
        rw [value]
        gcongr

/-- Seventeen digits suffice: their grid is finer than the interval. -/
theorem seventeen_digits_fine (canonical : b.Canonical) (pos : 0 < b.mantissa) :
    (10 : ℚ) ^ (b.leading + 1 - (17 : ℕ)) < b.upper - b.lower := by
  have leading := ten_zpow_leading_le canonical pos
  have unit := b.quarter_pos
  have shift : (10 : ℚ) ^ (b.leading + 1 - (17 : ℕ)) * 10 ^ 16 = 10 ^ b.leading := by
    rw [← zpow_natCast, ← zpow_add₀ (by norm_num)]
    congr 1
    omega
  rw [← shift, value_eq] at leading
  rw [upper, lower]
  split
  · rename_i narrow
    have mantissa : b.mantissa = 2 ^ 52 := by
      simp only [isNarrowBelow, Bool.and_eq_true, beq_iff_eq] at narrow
      exact narrow.1
    rw [mantissa] at leading ⊢
    push_cast at leading ⊢
    nlinarith
  · have mantissa : (b.mantissa : ℚ) < 2 ^ 53 := by exact_mod_cast canonical.mantissa_lt
    nlinarith

/-- **The shortest decimal form of a positive number is rounded to the number.** -/
theorem covers_shortest (canonical : b.Canonical) (pos : 0 < b.mantissa) :
    b.Covers b.shortest.value := by
  obtain ⟨d, found⟩ : ∃ d, b.search b.leading 17 1 = some d :=
    exists_search (j := 17) (by decide) (by decide)
      (isSome_point?_of_fine pos (seventeen_digits_fine canonical pos))
  rw [shortest, found, Option.getD_some, Decimal.value_strip]
  exact covers_of_search pos found

/-! ### Neighbours -/

theorem lower_pos (pos : 0 < b.mantissa) : 0 < b.lower := by
  have := b.quarter_pos
  have : (1 : ℚ) ≤ b.mantissa := by exact_mod_cast pos
  rw [lower]
  split <;> nlinarith

theorem le_lower (b : Binary) : (4 * b.mantissa - 2) * b.quarter ≤ b.lower := by
  have := b.quarter_pos
  rw [lower]
  split <;> nlinarith

/-- Numbers with the same exponent share no decimal: where two neighbours meet, one of them has an
odd mantissa. -/
theorem not_covers_of_mantissa_lt (same : b.exponent = b'.exponent)
    (lt : b.mantissa < b'.mantissa) (h : b.Covers q) : ¬b'.Covers q := by
  intro h'
  have unit := b.quarter_pos
  have units : b'.quarter = b.quarter := by rw [quarter, quarter, same]
  have bottom := b'.le_lower
  have top : b.upper = (4 * b.mantissa + 2) * b.quarter := rfl
  rw [units] at bottom
  rcases Nat.lt_or_eq_of_le (Nat.succ_le_of_lt lt) with apart | next
  · have apart : (b.mantissa : ℚ) + 2 ≤ b'.mantissa := by exact_mod_cast apart
    have := h.le.2
    have := h'.le.1
    nlinarith
  · have next : (b'.mantissa : ℚ) = b.mantissa + 1 := by exact_mod_cast next.symm
    rw [next] at bottom
    rcases Nat.mod_two_eq_zero_or_one b.mantissa with even | odd
    · have := h.le.2
      have := (h'.lt (by omega)).1
      nlinarith
    · have := (h.lt odd).2
      have := h'.le.1
      nlinarith

/-- What is rounded to a number lies below what is rounded to those with a larger exponent. -/
theorem Covers.lt_top (canonical : b.Canonical) (h : b.Covers q) :
    q < (2 ^ 55 - 2) * b.quarter := by
  have unit := b.quarter_pos
  have top : b.upper = (4 * b.mantissa + 2) * b.quarter := rfl
  have digits := canonical.mantissa_lt
  rcases Nat.mod_two_eq_zero_or_one b.mantissa with even | odd
  · have mantissa : (b.mantissa : ℚ) ≤ 2 ^ 53 - 2 := by
      have : b.mantissa + 2 ≤ 2 ^ 53 := by omega
      have : ((b.mantissa + 2 : ℕ) : ℚ) ≤ (2 ^ 53 : ℕ) := Nat.cast_le.mpr this
      push_cast at this
      linarith
    have := h.le.2
    nlinarith
  · have mantissa : (b.mantissa : ℚ) ≤ 2 ^ 53 - 1 := by
      have : ((b.mantissa + 1 : ℕ) : ℚ) ≤ (2 ^ 53 : ℕ) := Nat.cast_le.mpr digits
      push_cast at this
      linarith
    have := (h.lt odd).2
    nlinarith

theorem bottom_le_lower (large : -1074 < b.exponent) (digits : 2 ^ 52 ≤ b.mantissa) :
    (2 ^ 54 - 1) * b.quarter ≤ b.lower := by
  have unit := b.quarter_pos
  by_cases least : b.mantissa = 2 ^ 52
  · have narrow : b.isNarrowBelow = true := by simp [isNarrowBelow, least, large]
    rw [lower, narrow, least]
    norm_num
  · have mantissa : (2 ^ 52 + 1 : ℚ) ≤ b.mantissa := by
      have : 2 ^ 52 + 1 ≤ b.mantissa := by omega
      exact_mod_cast this
    have := b.le_lower
    nlinarith

/-- Numbers with different exponents share no decimal. -/
theorem not_covers_of_exponent_lt (canonical : b.Canonical) (canonical' : b'.Canonical)
    (lt : b.exponent < b'.exponent) (h : b.Covers q) : ¬b'.Covers q := by
  intro h'
  have large : -1074 < b'.exponent := canonical.exponent_ge.trans_lt lt
  have digits : 2 ^ 52 ≤ b'.mantissa := canonical'.mantissa_ge.resolve_left (by omega)
  have units : 2 * b.quarter ≤ b'.quarter := by
    calc 2 * b.quarter = 2 ^ (b.exponent - 2 + 1) := by
          rw [zpow_add_one₀ (by norm_num), quarter, mul_comm]
      _ ≤ b'.quarter := zpow_le_zpow_right₀ (by norm_num) (by omega)
  have := h.lt_top canonical
  have := bottom_le_lower large digits
  have := h'.le.1
  linarith

theorem eq_of_covers (canonical : b.Canonical) (canonical' : b'.Canonical) (h : b.Covers q)
    (h' : b'.Covers q) : b.mantissa = b'.mantissa ∧ b.exponent = b'.exponent := by
  rcases lt_trichotomy b.exponent b'.exponent with lt | same | gt
  · exact absurd h' (not_covers_of_exponent_lt canonical canonical' lt h)
  · rcases lt_trichotomy b.mantissa b'.mantissa with lt | mantissa | gt
    · exact absurd h' (not_covers_of_mantissa_lt same lt h)
    · exact ⟨mantissa, same⟩
    · exact absurd h (not_covers_of_mantissa_lt same.symm gt h')
  · exact absurd h (not_covers_of_exponent_lt canonical' canonical gt h')

end Binary

/-! ### Floating point numbers -/

theorem eq_of_toBits {x y : Float} (h : x.toBits = y.toBits) : x = y := by
  obtain ⟨⟨bits, valid⟩⟩ := x
  obtain ⟨⟨bits', valid'⟩⟩ := y
  have : bits = bits' := h
  subst this
  rfl

namespace Binary

/-- The bits of a number are its sign, its exponent counted from the least one, and its mantissa. -/
theorem parts_of_ofFloat? {x : Float} {b : Binary} (h : ofFloat? x = some b) :
    b.Canonical ∧ x.toBits.toNat =
      (if b.negative then 2 ^ 63 else 0) + (b.exponent + 1074).toNat * 2 ^ 52 + b.mantissa := by
  have size := x.toBits.toNat_lt
  have sign : hasMinus x = (x.toBits.toNat / 2 ^ 63 == 1) := rfl
  have two : Nat.pow 2 52 = 2 ^ 52 ∧ Nat.pow 2 11 = 2 ^ 11 := ⟨rfl, rfl⟩
  unfold ofFloat? at h
  dsimp only at h
  rw [two.1, two.2, sign] at h
  split at h
  · cases h
  split at h
  · cases h
    refine ⟨⟨by dsimp only; omega, by simp, by simp, .inl rfl⟩, ?_⟩
    simp only [beq_iff_eq]
    split <;> omega
  · cases h
    refine ⟨⟨by dsimp only; omega, by dsimp only; omega, by dsimp only; omega,
      .inr (Nat.le_add_right _ _)⟩, ?_⟩
    simp only [beq_iff_eq]
    split <;> omega

theorem ofFloat?_unique {x y : Float} {b : Binary} (hx : ofFloat? x = some b)
    (hy : ofFloat? y = some b) : x = y :=
  eq_of_toBits
    (UInt64.toNat_inj.mp ((parts_of_ofFloat? hx).2.trans (parts_of_ofFloat? hy).2.symm))

end Binary

end StepScript
