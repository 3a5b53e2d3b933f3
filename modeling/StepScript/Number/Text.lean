import StepScript.Number.Shortest

/-!
# The text of a number

A floating point number is written with the fewest digits that read back, either with the point in
its place or with a power of ten.  A `FloatFormat` says which of the two, and whether a number
without a fraction keeps its point.

## Main definitions

* `FloatFormat` — the decisions of a format.
* `FloatFormat.write` — the text of a number.
-/

namespace StepScript

/-- How floating point numbers are written. -/
structure FloatFormat where
  /-- The least and the greatest exponent of the leading digit for which the number is written
  without a power of ten; `none` if all are. -/
  plainExponents : Option (Int × Int)
  /-- Whether a whole number is written with `.0`. -/
  keepsPoint : Bool
  deriving DecidableEq, Repr

namespace FloatFormat

/-- Values show a point, and switch to a power of ten below `0.0001` and from `10 ^ 16` on. -/
def value : FloatFormat := ⟨some (-4, 15), true⟩

/-- The plain format has no power of ten, and no point in whole numbers. -/
def plain : FloatFormat := ⟨none, false⟩

/-- The digits with the point after the first `point` of them, padded with zeros where the point
lies outside. -/
def placePoint (f : FloatFormat) (digits : String) (point : Int) : String :=
  let n := digits.length
  if point ≤ 0 then "0." ++ "".pushn '0' (-point).toNat ++ digits
  else if n ≤ point.toNat then
    digits ++ "".pushn '0' (point.toNat - n) ++ if f.keepsPoint then ".0" else ""
  else
    String.ofList (digits.toList.take point.toNat) ++ "." ++
      String.ofList (digits.toList.drop point.toNat)

/-- The digits in the form `d.ddde±k`. -/
def scientific (digits : String) (k : Int) : String :=
  match digits.toList with
  | [] => ""
  | [d] => d.toString ++ "e" ++ toString k
  | d :: ds => d.toString ++ "." ++ String.ofList ds ++ "e" ++ toString k

/-- The text of a positive number. -/
def magnitude (f : FloatFormat) (b : Binary) : String :=
  let decimal := b.shortest
  let digits := toString decimal.digits
  let k := decimal.exponent + digits.length - 1
  let plain := match f.plainExponents with
    | some (least, greatest) => decide (least ≤ k ∧ k ≤ greatest)
    | none => true
  if plain then f.placePoint digits (k + 1) else scientific digits k

/-- The text of a number. -/
def write (f : FloatFormat) (x : Float) : String :=
  match Binary.ofFloat? x with
  | some b =>
    let text :=
      if b.mantissa = 0 then if f.keepsPoint then "0.0" else "0" else f.magnitude b
    if b.negative then "-" ++ text else text
  | none => if x.isNaN then "NaN" else if hasMinus x then "-inf" else "inf"

end FloatFormat

end StepScript
