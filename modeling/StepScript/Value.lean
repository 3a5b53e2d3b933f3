import StepScript.Number.Text

/-!
# Values

The values of the language: nothing, truth values, numbers, strings, the wildcard, and objects of
the host program, which scripts can only pass around and compare.

## Main definitions

* `Value` — the values.
* `Value.isTruthy` — which values count as true.
* `Value.equals`, `Value.order?` — equality and the partial order.
* `Comparison`, `Value.compare` — the comparison operators.
* `Value.display` — the text of a value.
-/

namespace StepScript

/-- An object of the host program.  It is told from others by its identity alone. -/
structure HostValue where
  /-- What the host calls its type. -/
  typeName : String
  /-- What distinguishes it. -/
  identity : String
  deriving DecidableEq, Repr

/-- A value of the language. -/
inductive Value
  /-- The absence of a value. -/
  | null
  /-- A truth value. -/
  | bool (b : Bool)
  /-- A whole number. -/
  | int (i : Int64)
  /-- A floating point number. -/
  | float (x : Float)
  /-- A string. -/
  | str (s : String)
  /-- Equal to every value, and never less or greater than one. -/
  | wildcard
  /-- An object of the host. -/
  | host (h : HostValue)
  deriving DecidableEq, Repr

instance : Inhabited Value := ⟨.null⟩

/-- The floating point number nearest to a whole number. -/
def floatOfInt (i : Int64) : Float :=
  Float.ofInt i.toInt

/-- How two floating point numbers compare, if they do. -/
def floatOrder? (x y : Float) : Option Ordering :=
  if x < y then some .lt else if y < x then some .gt else if x == y then some .eq else none

namespace Value

/-- Whether the value counts as true.  Nothing, zero and the empty string do not. -/
def isTruthy : Value → Bool
  | null => false
  | bool b => b
  | int i => i != 0
  | float x => x != 0.0
  | str s => !s.isEmpty
  | wildcard => true
  | host _ => true

/-- What the type of the value is called. -/
def typeName : Value → String
  | null => "null"
  | bool _ => "bool"
  | int _ => "int"
  | float _ => "float"
  | str _ => "str"
  | wildcard => "wildcard"
  | host h => h.typeName

/-- The text of a string. -/
def asString? : Value → Option String
  | str s => some s
  | _ => none

/-- A number as a floating point number. -/
def asFloat? : Value → Option Float
  | int i => some (floatOfInt i)
  | float x => some x
  | _ => none

/-- Whether the value is nothing. -/
def isNull : Value → Bool
  | null => true
  | _ => false

/-- Whether two values are equal.  Numbers of the two kinds are compared as floating point numbers,
host objects by identity, and the wildcard equals everything. -/
def equals : Value → Value → Bool
  | wildcard, _ => true
  | _, wildcard => true
  | null, null => true
  | bool a, bool b => a == b
  | int a, int b => a == b
  | int a, float y => floatOfInt a == y
  | float x, int b => x == floatOfInt b
  | float x, float y => x == y
  | str s, str t => s == t
  | host g, host h => g.identity == h.identity
  | _, _ => false

/-- How two values compare, if they do: truth values, numbers and strings among themselves, and
nothing with itself.  Strings go by code points. -/
def order? : Value → Value → Option Ordering
  | null, null => some .eq
  | bool a, bool b => some (compare a b)
  | int a, int b => some (compare a.toInt b.toInt)
  | int a, float y => floatOrder? (floatOfInt a) y
  | float x, int b => floatOrder? x (floatOfInt b)
  | float x, float y => floatOrder? x y
  | str s, str t => some (compare s t)
  | _, _ => none

/-- The text of a value. -/
def display : Value → String
  | null => "null"
  | bool false => "false"
  | bool true => "true"
  | int i => toString i.toInt
  | float x => FloatFormat.value.write x
  | str s => s
  | wildcard => "_"
  | host h => "<host " ++ h.typeName ++ ">"

@[simp] theorem equals_wildcard_left (v : Value) : wildcard.equals v = true := by
  cases v <;> rfl

@[simp] theorem equals_wildcard_right (v : Value) : v.equals wildcard = true := by
  cases v <;> rfl

end Value

/-- A comparison operator. -/
inductive Comparison
  /-- `==` -/
  | equal
  /-- `!=` -/
  | notEqual
  /-- `<` -/
  | less
  /-- `<=` -/
  | lessEqual
  /-- `>` -/
  | greater
  /-- `>=` -/
  | greaterEqual
  deriving DecidableEq, Repr

/-- The sign of the operator. -/
def Comparison.text : Comparison → String
  | equal => "=="
  | notEqual => "!="
  | less => "<"
  | lessEqual => "<="
  | greater => ">"
  | greaterEqual => ">="

/-- Whether two values compare as the operator says.  Values without an order satisfy none of the
four order operators. -/
def Value.compare (c : Comparison) (a b : Value) : Bool :=
  match c with
  | .equal => a.equals b
  | .notEqual => !a.equals b
  | .less => a.order? b == some .lt
  | .lessEqual => a.order? b == some .lt || a.order? b == some .eq
  | .greater => a.order? b == some .gt
  | .greaterEqual => a.order? b == some .gt || a.order? b == some .eq

end StepScript
