import StepScript.Number.Word

/-!
# Reading floating point numerals

A numeral is an optional sign followed by digits with at most one point among or around them and an
optional power of ten, or one of the words `inf`, `infinity` and `nan` in any case.  It stands for
the floating point number nearest to it.

## Main definitions

* `Numeral` — the digits and the power of ten of an unsigned numeral.
* `Numeral.toFloat` — the nearest floating point number.
* `readFloat?` — the number that a text denotes.
-/

namespace StepScript

/-- The unsigned numeral `digits * 10 ^ exponent`. -/
structure Numeral where
  /-- The digits before and after the point. -/
  digits : List Char
  /-- The written exponent less the number of digits after the point. -/
  exponent : Int
  deriving DecidableEq, Repr

namespace Numeral

/-- The nearest floating point number.  Numerals beyond the range of exponents are settled by their
size, so that no huge power of ten is computed. -/
def toFloat (n : Numeral) : Float :=
  let significant := n.digits.dropWhile (· == '0')
  let size := significant.length + n.exponent
  match readNat? 10 significant with
  | none => 0.0
  | some m =>
    if size > 400 then 1.0 / 0.0
    else if size < -400 then 0.0
    else Float.ofScientific m (n.exponent < 0) n.exponent.natAbs

/-- The exponent that follows the digits, if the text holds one and nothing else. -/
def exponent? : List Char → Option Int
  | [] => some 0
  | c :: cs =>
    if c == 'e' || c == 'E' then
      match cs with
      | '-' :: ds => (readNat? 10 ds).map fun n => -(n : Int)
      | '+' :: ds => (readNat? 10 ds).map fun n => (n : Int)
      | ds => (readNat? 10 ds).map fun n => (n : Int)
    else none

/-- The numeral that a text without sign spells. -/
def read? (cs : List Char) : Option Numeral :=
  let whole := cs.takeWhile Char.isDigit
  let rest := cs.dropWhile Char.isDigit
  let (fraction, rest) := match rest with
    | '.' :: ds => (ds.takeWhile Char.isDigit, ds.dropWhile Char.isDigit)
    | _ => ([], rest)
  if whole.isEmpty && fraction.isEmpty then none
  else (exponent? rest).map fun e => ⟨whole ++ fraction, e - fraction.length⟩

end Numeral

/-- The number that an unsigned numeral or word denotes. -/
def readMagnitude? (cs : List Char) : Option Float :=
  match String.ofList (cs.map Char.toLower) with
  | "inf" | "infinity" => some (1.0 / 0.0)
  | "nan" => some (0.0 / 0.0)
  | _ => (Numeral.read? cs).map Numeral.toFloat

/-- The number that a numeral or word with an optional sign denotes. -/
def readFloat? : List Char → Option Float
  | '-' :: cs => (readMagnitude? cs).map fun x => -x
  | '+' :: cs => readMagnitude? cs
  | cs => readMagnitude? cs

end StepScript
