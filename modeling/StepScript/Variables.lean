import StepScript.Value

/-!
# Variables

The variables of a program.  A new program has one, named `_`, which holds the wildcard.  A name
without a variable stands for itself, so that scripts can hand bare names to commands.

## Main definitions

* `Variables` — names and their values.
* `Variables.get?`, `Variables.set`, `Variables.erase` — look-up and update.
* `Variables.resolve` — what a name stands for.
-/

namespace StepScript

/-- The variables of a program, each name at most once. -/
structure Variables where
  /-- Names and values, the oldest first. -/
  entries : List (String × Value)
  deriving DecidableEq, Repr

namespace Variables

/-- The name of the variable that holds the wildcard. -/
def wildcardName : String := "_"

/-- The variables of a new program. -/
def initial : Variables := ⟨[(wildcardName, .wildcard)]⟩

/-- The value of a variable. -/
def get? (vars : Variables) (name : String) : Option Value :=
  vars.entries.lookup name

/-- Whether there is a variable of this name. -/
def has (vars : Variables) (name : String) : Bool :=
  (vars.get? name).isSome

/-- What a name stands for: the value of the variable, or else the name itself. -/
def resolve (vars : Variables) (name : String) : Value :=
  (vars.get? name).getD (.str name)

/-- The entries with one value replaced, or added at the end. -/
def setEntry (name : String) (value : Value) : List (String × Value) → List (String × Value)
  | [] => [(name, value)]
  | (n, v) :: rest =>
    if n == name then (n, value) :: rest else (n, v) :: setEntry name value rest

/-- Gives a variable a value. -/
def set (vars : Variables) (name : String) (value : Value) : Variables :=
  ⟨setEntry name value vars.entries⟩

/-- Gives several variables their values, in order. -/
def setAll (vars : Variables) (pairs : List (String × Value)) : Variables :=
  pairs.foldl (fun vars (name, value) => vars.set name value) vars

/-- Takes a variable away. -/
def erase (vars : Variables) (name : String) : Variables :=
  ⟨vars.entries.filter (·.1 != name)⟩

/-- The number of variables. -/
def size (vars : Variables) : Nat :=
  vars.entries.length

/-- Names and values in the order of the names. -/
def sorted (vars : Variables) : List (String × Value) :=
  vars.entries.mergeSort fun a b => decide (a.1 ≤ b.1)

theorem lookup_setEntry_self (name : String) (value : Value) (entries : List (String × Value)) :
    (setEntry name value entries).lookup name = some value := by
  induction entries with
  | nil => simp [setEntry]
  | cons e rest ih => grind [setEntry]

theorem lookup_setEntry_of_ne {name other : String} (h : other ≠ name) (value : Value)
    (entries : List (String × Value)) :
    (setEntry name value entries).lookup other = entries.lookup other := by
  induction entries with
  | nil => simp [setEntry, List.lookup_cons, beq_false_of_ne h]
  | cons e rest ih => grind [setEntry]

@[simp] theorem get?_set_self (vars : Variables) (name : String) (value : Value) :
    (vars.set name value).get? name = some value :=
  lookup_setEntry_self name value vars.entries

theorem get?_set_of_ne (vars : Variables) {name other : String} (h : other ≠ name)
    (value : Value) : (vars.set name value).get? other = vars.get? other :=
  lookup_setEntry_of_ne h value vars.entries

end Variables

end StepScript
