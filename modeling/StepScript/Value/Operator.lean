import StepScript.Fault
import StepScript.Number.Word

/-!
# The meaning of operators

Both operands of an operator are values already, so `and` and `or` only choose one of them.
Arithmetic on whole numbers is exact or fails; with a floating point number on either side it is
that of floating point numbers.

An operation either fails or has a value, with one exception: a text that is repeated needs room for
the whole result before it is begun, and asking for more room than can be addressed brings down the
program that asks.  There is no result then.

## Main definitions

* `Numbers` — two operands as numbers of one kind.
* `UnaryOp.apply`, `BinaryOp.apply` — the value of an operation.
-/

namespace StepScript

/-- Two numbers of the same kind. -/
inductive Numbers
  /-- Two whole numbers. -/
  | ints (a b : Int64)
  /-- Two floating point numbers. -/
  | floats (x y : Float)
  deriving DecidableEq, Repr

/-- Two values as numbers of one kind; a whole number beside a floating point number is converted.
`none` if one of them is no number. -/
def Numbers.ofValues? : Value → Value → Option Numbers
  | .int a, .int b => some (.ints a b)
  | a, b =>
    match a.asFloat?, b.asFloat? with
    | some x, some y => some (.floats x y)
    | _, _ => none

/-! ### Whole numbers -/

/-- A power with a natural exponent, if it is a 64-bit integer.  Beyond the exponent `63` only the
powers of `-1`, `0` and `1` are. -/
def power? (base : Int64) (n : Nat) : Option Int64 :=
  if base.toInt.natAbs ≤ 1 then
    some (if n = 0 then 1 else if n % 2 = 0 then base * base else base)
  else if 64 ≤ n then none
  else narrow? (base.toInt.pow n)

/-- A quotient rounded toward zero, if there is one that is a 64-bit integer. -/
def quotient? (a b : Int64) : Option Int64 :=
  if b = 0 then none else narrow? (a.toInt.tdiv b.toInt)

/-- Whether one of two numbers is negative and the other is not. -/
def opposed (a b : Int64) : Bool :=
  decide (a < 0) != decide (b < 0)

/-- Whether rounding the quotient toward zero rounds it up. -/
def roundsUp (a b : Int64) : Bool :=
  a % b != 0 && opposed a b

/-- A quotient rounded down: one less than the quotient toward zero where that is rounded up. -/
def floorQuotient? (a b : Int64) : Option Int64 :=
  (quotient? a b).map fun q => if roundsUp a b then q - 1 else q

/-- Whether the remainder that goes with the quotient toward zero lacks the sign of the divisor. -/
def strays (remainder b : Int64) : Bool :=
  remainder != 0 && opposed remainder b

/-- The remainder with the sign of the divisor.  It is found by dividing, so there is none where
the quotient is no 64-bit integer. -/
def remainder? (a b : Int64) : Option Int64 :=
  (quotient? a b).map fun _ => if strays (a % b) b then a % b + b else a % b

/-- The number shifted left, whatever bits that loses.  It cannot be shifted by more than `63`. -/
def shifted? (a : Int64) (n : Nat) : Option Int64 :=
  if n < 64 then some (a <<< Int64.ofNat n) else none

/-- The number shifted left, if shifting back gives the number again. -/
def shiftLeft? (a : Int64) (n : Nat) : Option Int64 :=
  (shifted? a n).filter fun shifted => shifted >>> Int64.ofNat n == a

/-- The number shifted right, rounding down.  Shifting by more than `63` changes nothing more. -/
def shiftRight (a : Int64) (n : Nat) : Int64 :=
  a >>> Int64.ofNat (min n 63)

/-! ### Strings -/

/-- Whether the second text contains the first. -/
def hasInfix (part : List Char) : List Char → Bool
  | [] => part.isEmpty
  | c :: cs => part.isPrefixOf (c :: cs) || hasInfix part cs

/-- The number of bytes that no text can have. -/
def textLimit : Nat := Nat.pow 2 63

/-- The text repeated, unless that would be too long for a text. -/
def repeatText? (n : Nat) (s : String) : Option String :=
  if textLimit ≤ n * s.utf8ByteSize then none
  else some (if s.isEmpty then "" else n.repeat (· ++ s) "")

/-! ### Operators -/

/-- The value of an exact operation on whole numbers, or an overflow. -/
def exactly (operation : String) (result : Option Int64) : Except Fault Value :=
  match result with
  | some i => .ok (.int i)
  | none => .error (.integerOverflow operation)

/-- The value of a unary operation. -/
def UnaryOp.apply (op : UnaryOp) (v : Value) : Except Fault Value :=
  match op, v with
  | .not, v => .ok (.bool !v.isTruthy)
  | .plus, .int i => .ok (.int i)
  | .plus, .float x => .ok (.float x)
  | .negate, .int i => exactly op.text (narrow? (-i.toInt))
  | .negate, .float x => .ok (.float (-x))
  | .complement, .int i => .ok (.int (~~~i))
  | op, v => .error (.unaryTypeMismatch op.text v.typeName)

/-- The fault of an operator between values of the wrong types. -/
def BinaryOp.mismatch (op : BinaryOp) (a b : Value) : Fault :=
  .typeMismatch op.text a.typeName b.typeName

namespace Operation

/-- The value of an arithmetic operation, by the rules for whole and floating point numbers. -/
def arithmetic (op : BinaryOp) (ints : Int64 → Int64 → Except Fault Value)
    (floats : Float → Float → Except Fault Value) (a b : Value) : Except Fault Value :=
  match Numbers.ofValues? a b with
  | some (.ints a b) => ints a b
  | some (.floats x y) => floats x y
  | none => .error (op.mismatch a b)

/-- A sum, or two strings put together. -/
def add (a b : Value) : Except Fault Value :=
  match a, b with
  | .str s, .str t => .ok (.str (s ++ t))
  | a, b =>
    arithmetic .add (fun i j => exactly "+" (narrow? (i.toInt + j.toInt)))
      (fun x y => .ok (.float (x + y))) a b

/-- A difference. -/
def subtract : Value → Value → Except Fault Value :=
  arithmetic .subtract (fun i j => exactly "-" (narrow? (i.toInt - j.toInt)))
    (fun x y => .ok (.float (x - y)))

/-- A product of numbers. -/
def product : Value → Value → Except Fault Value :=
  arithmetic .multiply (fun i j => exactly "*" (narrow? (i.toInt * j.toInt)))
    (fun x y => .ok (.float (x * y)))

/-- A product, or a string repeated; a negative number of times is none. -/
def multiply (a b : Value) : Option (Except Fault Value) :=
  match a, b with
  | .str s, .int n => (repeatText? n.toInt.toNat s).map fun text => .ok (.str text)
  | .int n, .str s => (repeatText? n.toInt.toNat s).map fun text => .ok (.str text)
  | a, b => some (product a b)

/-- A quotient, which is always a floating point number. -/
def divide (a b : Value) : Except Fault Value :=
  match a.asFloat?, b.asFloat? with
  | some x, some y => if y == 0.0 then .error .divisionByZero else .ok (.float (x / y))
  | _, _ => .error (BinaryOp.divide.mismatch a b)

/-- A quotient rounded down. -/
def floorDivide : Value → Value → Except Fault Value :=
  arithmetic .floorDivide
    (fun i j =>
      if j = 0 then .error .divisionByZero
      else exactly "//" (floorQuotient? i j))
    (fun x y => if y == 0.0 then .error .divisionByZero else .ok (.float (x / y).floor))

/-- A remainder, with the sign of the divisor. -/
def modulo : Value → Value → Except Fault Value :=
  arithmetic .modulo
    (fun i j => if j = 0 then .error .divisionByZero else exactly "%" (remainder? i j))
    (fun x y =>
      if y == 0.0 then .error .divisionByZero else .ok (.float (x - y * (x / y).floor)))

/-- A power.  A negative exponent gives a floating point number, and a natural one must be below
`2 ^ 32`. -/
def power : Value → Value → Except Fault Value :=
  arithmetic .power
    (fun i j =>
      if j.toInt < 0 then .ok (.float ((floatOfInt i).pow (floatOfInt j)))
      else if j.toInt < Int.pow 2 32 then exactly "**" (power? i j.toInt.toNat)
      else .error (.integerOverflow "**"))
    (fun x y => .ok (.float (x.pow y)))

/-- A shift, by the rule for the number of places.  That number is at most `2 ^ 32 - 1`. -/
def shift (op : BinaryOp) (move : Int64 → Nat → Option Int64) (a b : Value) :
    Except Fault Value :=
  match a, b with
  | .int i, .int n =>
    if 0 ≤ n.toInt ∧ n.toInt < Int.pow 2 32 then exactly op.text (move i n.toInt.toNat)
    else .error (.invalidArgument op.text "negative shift count")
  | a, b => .error (op.mismatch a b)

/-- A bitwise operation on whole numbers, or the same on truth values. -/
def bitwise (op : BinaryOp) (ints : Int64 → Int64 → Int64) (bools : Bool → Bool → Bool)
    (a b : Value) : Except Fault Value :=
  match a, b with
  | .int i, .int j => .ok (.int (ints i j))
  | .bool p, .bool q => .ok (.bool (bools p q))
  | a, b => .error (op.mismatch a b)

/-- Whether the second of two strings contains the first. -/
def contains (op : BinaryOp) (a b : Value) : Except Fault Bool :=
  match a, b with
  | .str part, .str whole => .ok (hasInfix part.toList whole.toList)
  | a, b => .error (op.mismatch a b)

end Operation

/-- The value of a binary operation.  Nothing is given if the program is brought down. -/
def BinaryOp.apply (op : BinaryOp) (a b : Value) : Option (Except Fault Value) :=
  match op with
  | .and => some (.ok (if a.isTruthy then b else a))
  | .or => some (.ok (if a.isTruthy then a else b))
  | .compare c => some (.ok (.bool (Value.compare c a b)))
  | .isIn => some ((Operation.contains op a b).map .bool)
  | .notIn => some ((Operation.contains op a b).map fun found => .bool !found)
  | .add => some (Operation.add a b)
  | .subtract => some (Operation.subtract a b)
  | .multiply => Operation.multiply a b
  | .divide => some (Operation.divide a b)
  | .floorDivide => some (Operation.floorDivide a b)
  | .modulo => some (Operation.modulo a b)
  | .power => some (Operation.power a b)
  | .shiftLeft => some (Operation.shift op shiftLeft? a b)
  | .shiftRight => some (Operation.shift op (fun i n => some (StepScript.shiftRight i n)) a b)
  | .bitAnd => some (Operation.bitwise op (· &&& ·) (· && ·) a b)
  | .bitXor => some (Operation.bitwise op (· ^^^ ·) xor a b)
  | .bitOr => some (Operation.bitwise op (· ||| ·) (· || ·) a b)

end StepScript
