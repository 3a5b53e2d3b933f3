import StepScript.Toml.Parser
import StepScript.Value

/-!
# Configuration

A TOML document next to a script says how the script is run: whether everything is logged, how long
the pause between two cycles is, what the program is called, and which variables it starts with.

## Main definitions

* `Config` — the settings.
* `Config.parse?` — the settings that a document describes.
* `Config.startVariables` — the variables that a program starts with.
-/

namespace StepScript

/-- The settings of a run. -/
structure Config where
  /-- Whether everything is logged. -/
  debug : Bool
  /-- The pause between two cycles, in milliseconds. -/
  stepDelay : Nat
  /-- What the program is called, if not by its path. -/
  name : Option String
  /-- The variables that the program starts with, in the order of their names. -/
  vars : Toml.Entries

namespace Config

/-- The settings without a document. -/
def standard : Config where
  debug := false
  stepDelay := 16
  name := none
  vars := []

/-- The name of the document next to a script. -/
def fileName : String := "snek.toml"

/-- The key that stands for a date or a time where a table is expected. -/
def momentKey : String := "$__toml_private_datetime"

/-- The entries of a table.  A date or a time counts as a table with its text. -/
def entries? : Toml → Option Toml.Entries
  | .table _ entries => some entries
  | .moment text => some [(momentKey, .string text)]
  | _ => none

/-- The entries of a section with the given keys.  An array gives the keys their values in order. -/
def sectionEntries? (keys : List String) : Toml → Option Toml.Entries
  | .array items => some (keys.zip items)
  | .series tables => some (keys.zip (tables.map (.table .header)))
  | v => entries? v

/-- A truth value. -/
def boolean? : Toml → Option Bool
  | .boolean b => some b
  | _ => none

/-- A whole number that is not negative. -/
def count? : Toml → Option Nat
  | .integer i => i.toInt.toNat?
  | _ => none

/-- A string. -/
def string? : Toml → Option String
  | .string s => some s
  | _ => none

/-- The value of a key, as `read` takes it, or another one if the key is missing. -/
def fieldOr {α : Type} (read : Toml → Option α) (key : String) (missing : α)
    (entries : Toml.Entries) : Option α :=
  match entries.lookup key with
  | some v => read v
  | none => some missing

/-- The settings that a document describes; `none` if it is not valid, or if a value has the wrong
type.  Keys that say nothing are left aside. -/
def parse? (text : String) : Option Config := do
  let root ← Toml.parse? text
  let log ← fieldOr (sectionEntries? ["debug"]) "log" [] root
  let run ← fieldOr (sectionEntries? ["step-delay-ms", "name"]) "run" [] root
  let vars ← fieldOr entries? "variables" [] root
  return {
    debug := ← fieldOr boolean? "debug" standard.debug log
    stepDelay := ← fieldOr count? "step-delay-ms" standard.stepDelay run
    name := ← fieldOr (fun v => (string? v).map some) "name" standard.name run
    vars := vars.mergeSort fun a b => decide (a.1 ≤ b.1) }

/-- The value of a variable; dates, arrays and tables are not allowed. -/
def value? : Toml → Option Value
  | .string s => some (.str s)
  | .integer i => some (.int i)
  | .float x => some (.float x)
  | .boolean b => some (.bool b)
  | _ => none

/-- Names and values from settings; the first name whose value is not allowed is an error. -/
def valuesOf : Toml.Entries → Except String (List (String × Value))
  | [] => .ok []
  | (name, v) :: rest =>
    match value? v with
    | none => .error name
    | some v => (valuesOf rest).map ((name, v) :: ·)

/-- The message for a variable whose value is not allowed. -/
def unsupportedMessage (name : String) : String :=
  "unsupported value for variable `" ++ name ++
    "`, only strings, integers, floats and booleans are allowed"

/-- The variables that a program starts with, or the first one whose value is not allowed. -/
def startVariables (c : Config) : Except String (List (String × Value)) :=
  valuesOf c.vars

end Config

end StepScript
