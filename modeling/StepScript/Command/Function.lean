import StepScript.Command.Template
import StepScript.Number.Binary
import StepScript.Number.Numeral
import StepScript.Text.Blank
import StepScript.Text.Case
import StepScript.Value.Operator

/-!
# Built-in functions

Functions of their arguments alone: arithmetic, conversions, and the handling of strings.  Each
checks the number and the types of its arguments.

## Main definitions

* `Function.extreme` — the least or the greatest argument.
* `Function.round`, `Function.toInt`, `Function.toFloat` — conversions of numbers.
* `Function.format` — templates.
-/

namespace StepScript

namespace Function

/-- Refuses the arguments of a command. -/
def refuse {α : Type} (command message : String) : Except Fault α :=
  .error (.invalidArgument command message)

/-- The message for a wrong number of arguments. -/
def countMessage (expected got : Nat) : String :=
  "expected " ++ toString expected ++ " argument(s), got " ++ toString got

/-- The only argument. -/
def one (command : String) : List Value → Except Fault Value
  | [v] => .ok v
  | vs => refuse command (countMessage 1 vs.length)

/-- The two arguments. -/
def two (command : String) : List Value → Except Fault (Value × Value)
  | [a, b] => .ok (a, b)
  | vs => refuse command (countMessage 2 vs.length)

/-- The text of the only argument. -/
def text (command : String) (arguments : List Value) : Except Fault String := do
  match ← one command arguments with
  | .str s => .ok s
  | v => refuse command ("expected a string, got " ++ v.typeName)

/-- An operator as a function, which gives nothing where the operator gives nothing. -/
def operator (command : String) (op : BinaryOp) (arguments : List Value) :
    Option (Except Fault Value) :=
  match two command arguments with
  | .error fault => some (.error fault)
  | .ok (a, b) => op.apply a b

/-- The absolute value of a number. -/
def abs (arguments : List Value) : Except Fault Value := do
  match ← one "abs" arguments with
  | .int i => exactly "abs" (narrow? i.toInt.natAbs)
  | .float x => .ok (.float x.abs)
  | v => refuse "abs" ("expected a number, got " ++ v.typeName)

/-- The better of the best argument so far and the next one; the earlier one, if neither is. -/
def better (wanted : Ordering) (best candidate : Value) : Except Fault Value :=
  match candidate.order? best with
  | some order => .ok (if order = wanted then candidate else best)
  | none =>
    .error (.typeMismatch (if wanted = .lt then "<" else ">") candidate.typeName best.typeName)

/-- The least or the greatest argument. -/
def extreme (command : String) (wanted : Ordering) : List Value → Except Fault Value
  | [] => refuse command "expected at least one argument"
  | v :: vs => vs.foldlM (better wanted) v

/-- A whole number as a value, which must be smaller than `2 ^ 63` in magnitude. -/
def wholeValue (operation : String) (n : Option Int) : Except Fault Value :=
  match n with
  | some n => exactly operation (if n.natAbs < Nat.pow 2 63 then narrow? n else none)
  | none => .error (.integerOverflow operation)

/-- The decimal places that numbers are rounded to lie between `-308` and `308`. -/
def clampPlaces (d : Int) : Int :=
  max (-308) (min 308 d)

/-- A number rounded to some decimal places. -/
def roundTo (x : Float) (places : Int) : Float :=
  let factor := powerOfTen (clampPlaces places)
  roundEven (x * factor) / factor

/-- A number rounded to a whole number, or to some decimal places. -/
def roundValue : Value → Option Value → Except Fault Value
  | .int i, none => .ok (.int i)
  | .int i, some .null => .ok (.int i)
  | .float x, none => wholeValue "round" (nearest? x)
  | .float x, some .null => wholeValue "round" (nearest? x)
  | v, some (.int places) =>
    match v.asFloat? with
    | some x => .ok (.float (roundTo x places.toInt))
    | none => refuse "round" ("expected a number, got " ++ v.typeName)
  | v, places =>
    refuse "round" ("expected a number and an optional integer, got " ++ v.typeName ++ " and " ++
      (places.map Value.typeName).getD "nothing")

/-- Rounds its first argument. -/
def round : List Value → Except Fault Value
  | [v] => roundValue v none
  | arguments => do
    let (v, places) ← two "round" arguments
    roundValue v (some places)

/-- A number, truth value or numeral as a whole number. -/
def toInt (arguments : List Value) : Except Fault Value := do
  match ← one "int" arguments with
  | .int i => .ok (.int i)
  | .float x => wholeValue "int" (truncate? x)
  | .bool b => .ok (.int (if b then 1 else 0))
  | .str s =>
    match readInt? (trimBlanks s.toList) with
    | some i => .ok (.int i)
    | none => refuse "int" ("`" ++ s ++ "` is not an integer")
  | v => refuse "int" ("cannot convert " ++ v.typeName ++ " to an integer")

/-- A number, truth value or numeral as a floating point number. -/
def toFloat (arguments : List Value) : Except Fault Value := do
  match ← one "float" arguments with
  | .int i => .ok (.float (floatOfInt i))
  | .float x => .ok (.float x)
  | .bool b => .ok (.float (if b then 1 else 0))
  | .str s =>
    match readFloat? (trimBlanks s.toList) with
    | some x => .ok (.float x)
    | none => refuse "float" ("`" ++ s ++ "` is not a number")
  | v => refuse "float" ("cannot convert " ++ v.typeName ++ " to a float")

/-- The text of a value. -/
def toText (arguments : List Value) : Except Fault Value := do
  return .str (← one "str" arguments).display

/-- Whether a value counts as true. -/
def toBool (arguments : List Value) : Except Fault Value := do
  return .bool (← one "bool" arguments).isTruthy

/-- The number of characters of a string. -/
def length (arguments : List Value) : Except Fault Value := do
  return .int (Int64.ofNat (← text "len" arguments).length)

/-- A string with its characters changed. -/
def mapText (command : String) (f : List Char → List Char) (arguments : List Value) :
    Except Fault Value := do
  return .str (String.ofList (f (← text command arguments).toList))

/-- A template, its first argument, filled in with the others. -/
def format : List Value → Except Fault Value
  | .str template :: arguments =>
    match fill template arguments with
    | .ok s => .ok (.str s)
    | .error e => refuse "format" e.message
  | v :: _ => refuse "format" ("expected a template string, got " ++ v.typeName)
  | [] => refuse "format" "expected a template string"

/-- The two ends of a range of whole numbers. -/
def range (arguments : List Value) : Except Fault (Int64 × Int64) := do
  match ← two "randint" arguments with
  | (.int low, .int high) =>
    if high.toInt < low.toInt then
      refuse "randint" ("empty range " ++ toString low.toInt ++ "..=" ++ toString high.toInt)
    else .ok (low, high)
  | _ => refuse "randint" "expected two integers"

/-- The arguments as a line of text. -/
def line (arguments : List Value) : String :=
  " ".intercalate (arguments.map Value.display) ++ "\n"

end Function

end StepScript
