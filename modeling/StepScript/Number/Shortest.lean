import StepScript.Number.Binary

/-!
# The shortest decimal form of a number

Among the decimals that read back as a given floating point number, those with the fewest digits
are kept, and of them the one nearest to the number.  All comparisons are between natural numbers.

The decimals that read back fill the interval between the midpoints to the neighbouring numbers;
its ends belong to it when the mantissa is even.  A grid of decimals meets the interval only if one
of the two grid points next to the number lies in it, so each number of digits takes two tests.

## Main definitions

* `Decimal` — a whole number scaled by a power of ten.
* `Binary.shortest` — the shortest decimal form of a positive number.
-/

namespace StepScript

/-- The decimal `digits * 10 ^ exponent`. -/
structure Decimal where
  /-- The significant digits, as a number. -/
  digits : Nat
  /-- The power of ten that they are scaled by. -/
  exponent : Int
  deriving DecidableEq, Repr, Inhabited

/-- The digits without trailing zeros, of which at most `n` are taken off. -/
def Decimal.strip : Nat → Decimal → Decimal
  | 0, d => d
  | n + 1, d =>
    if d.digits % 10 = 0 ∧ d.digits ≠ 0 then strip n ⟨d.digits / 10, d.exponent + 1⟩ else d

namespace Binary

/-- The interval of a number, measured on the grid of multiples of `10 ^ exponent`: the number lies
at `middle / unit`, and what reads back lies between `low / unit` and `high / unit`. -/
structure Interval where
  /-- The lower end. -/
  low : Nat
  /-- The number itself. -/
  middle : Nat
  /-- The upper end. -/
  high : Nat
  /-- The distance of two grid points. -/
  unit : Nat
  /-- Whether the ends belong to the interval. -/
  closed : Bool

/-- The interval of `b` on the grid of multiples of `10 ^ t`. -/
def interval (b : Binary) (t : Int) : Interval :=
  let s := b.exponent - 2
  let scale := Nat.pow 2 s.toNat * Nat.pow 10 (-t).toNat
  { low := (4 * b.mantissa - if b.isNarrowBelow then 1 else 2) * scale
    middle := 4 * b.mantissa * scale
    high := (4 * b.mantissa + 2) * scale
    unit := Nat.pow 10 t.toNat * Nat.pow 2 (-s).toNat
    closed := b.mantissa % 2 == 0 }

/-- Whether the grid point `d` lies in the interval. -/
def Interval.has (i : Interval) (d : Nat) : Bool :=
  if i.closed then i.low ≤ d * i.unit && d * i.unit ≤ i.high
  else i.low < d * i.unit && d * i.unit < i.high

/-- The grid point in the interval that is nearest to the number, the larger one of two. -/
def Interval.point? (i : Interval) : Option Nat :=
  let d := i.middle / i.unit
  match i.has d, i.has (d + 1) with
  | true, true => if i.middle - d * i.unit < (d + 1) * i.unit - i.middle then some d else some (d + 1)
  | true, false => some d
  | false, true => some (d + 1)
  | false, false => none

/-- Whether `10 ^ k` is at most the magnitude. -/
def reaches (b : Binary) (k : Int) : Bool :=
  Nat.pow 10 k.toNat * Nat.pow 2 (-b.exponent).toNat ≤
    b.mantissa * Nat.pow 2 b.exponent.toNat * Nat.pow 10 (-k).toNat

/-- The exponent of the leading decimal digit.  It is estimated from that of the leading binary
digit, which is off by one at most. -/
def leading (b : Binary) : Int :=
  let k := ((b.mantissa.log2 + b.exponent) * 30103).fdiv 100000
  if b.reaches (k + 1) then k + 1 else if b.reaches k then k else k - 1

/-- The first hit on the grids of `n`, `n + 1`, … digits, over `fuel` grids. -/
def search (b : Binary) (k : Int) : Nat → Nat → Option Decimal
  | 0, _ => none
  | fuel + 1, n =>
    let t := k + 1 - n
    match (b.interval t).point? with
    | some d => some ⟨d, t⟩
    | none => search b k fuel (n + 1)

/-- The shortest decimal form of a positive magnitude.  Seventeen digits always suffice. -/
def shortest (b : Binary) : Decimal :=
  ((b.search b.leading 17 1).getD ⟨0, 0⟩).strip 17

end Binary

end StepScript
