/-!
# Floating point numbers as integers

A finite floating point number is `± m * 2 ^ q` for a natural number `m` and an integer `q`.  What
has to be exact about such numbers (their shortest decimal form, their rounding to whole numbers)
is computed on `m` and `q`.

## Main definitions

* `Binary` — the sign, `m` and `q` of a floating point number.
* `Binary.ofFloat?` — the parts of a finite number.
* `truncate?`, `roundEven` — rounding to a whole number, toward zero and to the nearest.
-/

namespace StepScript

/-- A finite floating point number `± mantissa * 2 ^ exponent`. -/
structure Binary where
  /-- Whether the number carries a minus sign; zero may carry one. -/
  negative : Bool
  /-- The whole number that is scaled. -/
  mantissa : Nat
  /-- The power of two that it is scaled by. -/
  exponent : Int
  deriving DecidableEq, Repr, Inhabited

/-- Whether the number carries a minus sign. -/
def hasMinus (x : Float) : Bool :=
  x.toBits.toNat / Nat.pow 2 63 == 1

namespace Binary

/-- The parts of a finite number; `none` for an infinity or a number that is none. -/
def ofFloat? (x : Float) : Option Binary :=
  let bits := x.toBits.toNat
  let fraction : Nat := bits % Nat.pow 2 52
  let scale : Nat := bits / Nat.pow 2 52 % Nat.pow 2 11
  if scale = Nat.pow 2 11 - 1 then none
  else if scale = 0 then some ⟨hasMinus x, fraction, -1074⟩
  else some ⟨hasMinus x, Nat.pow 2 52 + fraction, (scale : Int) - 1075⟩

/-- Whether the next smaller number lies at half the distance of the next larger one. -/
def isNarrowBelow (b : Binary) : Bool :=
  b.mantissa == Nat.pow 2 52 && -1074 < b.exponent

/-- The whole part and twice the rest over `2 ^ (-exponent)`: the magnitude is
`whole + half / (2 * unit)`. -/
def split (b : Binary) : Nat × Nat × Nat :=
  let unit := Nat.pow 2 (-b.exponent).toNat
  let whole := b.mantissa * Nat.pow 2 b.exponent.toNat
  (whole / unit, 2 * (whole % unit), unit)

/-- The magnitude without its fraction. -/
def whole (b : Binary) : Nat :=
  b.split.1

/-- The whole number nearest to the magnitude; of two, the even one. -/
def nearest (b : Binary) : Nat :=
  let (whole, half, unit) := b.split
  if half < unit then whole
  else if unit < half then whole + 1
  else if whole % 2 = 0 then whole else whole + 1

/-- A natural number with the sign of `b`. -/
def signed (b : Binary) (n : Nat) : Int :=
  if b.negative then -n else n

end Binary

/-- The number without its fraction; `none` unless it is finite. -/
def truncate? (x : Float) : Option Int :=
  (Binary.ofFloat? x).map fun b => b.signed b.whole

/-- The nearest whole number, the even one of two; `none` unless the number is finite. -/
def nearest? (x : Float) : Option Int :=
  (Binary.ofFloat? x).map fun b => b.signed b.nearest

/-- The number rounded to the nearest whole number, the even one of two.  The sign is kept, also
that of a zero, and a number without a fraction stays as it is. -/
def roundEven (x : Float) : Float :=
  match Binary.ofFloat? x with
  | none => x
  | some b =>
    if 0 ≤ b.exponent then x
    else if b.negative then -Float.ofNat b.nearest else Float.ofNat b.nearest

/-- Powers by repeated squaring: `accumulated * base ^ n`, multiplying from the lowest bit of `n`
up.  The order of the multiplications decides how the result is rounded. -/
def powerFrom (base accumulated : Float) (n : Nat) : Float :=
  let next := if n % 2 = 1 then accumulated * base else accumulated
  if h : n / 2 = 0 then next else powerFrom (base * base) next (n / 2)
termination_by n
decreasing_by omega

/-- A power of ten, as the reciprocal of the opposite power where the exponent is negative. -/
def powerOfTen (d : Int) : Float :=
  let power := powerFrom 10 1 d.natAbs
  if d < 0 then 1 / power else power

end StepScript
