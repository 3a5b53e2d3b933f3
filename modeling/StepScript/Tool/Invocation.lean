import StepScript.Number.Word

/-!
# Command lines

What the tool is asked to do.  Options may stand anywhere, and take their value as the next word or
behind an equals sign.

## Main definitions

* `Request` — what is to be done.
* `Invocation` — a request and how talkative the tool is.
* `Invocation.parse?` — the invocation that a command line stands for.
-/

namespace StepScript

/-- What the tool is asked to do. -/
inductive Request
  /-- Runs a script until it is done, with a pause in milliseconds and a configuration. -/
  | run (file : String) (delay : Option Nat) (config : Option String)
  /-- Parses a script without running it. -/
  | check (file : String)
  /-- Prints the tokens of a script. -/
  | tokens (file : String)
  /-- Lists the keywords and built-in commands. -/
  | builtins
  /-- Prints the version. -/
  | version
  deriving DecidableEq, Repr

/-- A request, and whether everything is logged. -/
structure Invocation where
  /-- What is to be done. -/
  request : Request
  /-- Whether everything is logged. -/
  verbose : Bool
  deriving DecidableEq, Repr

/-- The words of a command line, sorted. -/
structure Words where
  /-- The words that are no options, reversed. -/
  plain : List String
  /-- Whether everything is logged. -/
  verbose : Bool
  /-- Whether the version is asked for. -/
  version : Bool
  /-- The pause. -/
  delay : Option Nat
  /-- The configuration. -/
  config : Option String

namespace Words

/-- A number of milliseconds. -/
def delay? (word : String) : Option Nat :=
  let digits := match word.toList with
    | '+' :: cs => cs
    | cs => cs
  (readNat? 10 digits).filter (· < Nat.pow 2 64)

/-- Takes in an option with its value, which may be given only once. -/
def option (w : Words) (name value : String) : Option Words :=
  if name = "--step-delay-ms" ∧ w.delay.isNone then
    (delay? value).map fun n => { w with delay := some n }
  else if name = "--config" ∧ w.config.isNone then some { w with config := some value }
  else none

/-- An option and its value, separated by an equals sign. -/
def assignment? (word : String) : Option (String × String) :=
  match word.toList.span (· != '=') with
  | (name, _ :: value) => some (String.ofList name, String.ofList value)
  | _ => none

/-- Sorts the words. -/
def sort (w : Words) : List String → Option Words
  | [] => some w
  | word :: rest =>
    if word = "-v" ∨ word = "--verbose" then
      if w.verbose then none else sort { w with verbose := true } rest
    else if word = "-V" ∨ word = "--version" then some { w with version := true }
    else if word = "--" then some { w with plain := rest.reverse ++ w.plain }
    else if word.startsWith "-" then
      match assignment? word with
      | some (name, value) => (w.option name value).bind fun w => sort w rest
      | none =>
        match rest with
        | [] => none
        | value :: rest => (w.option word value).bind fun w => sort w rest
    else sort { w with plain := word :: w.plain } rest

/-- What the words ask for. -/
def request? (w : Words) : Option Request :=
  if w.version then some .version
  else
    match w.plain.reverse, w.delay, w.config with
    | ["run", file], delay, config => some (.run file delay config)
    | ["check", file], none, none => some (.check file)
    | ["tokens", file], none, none => some (.tokens file)
    | ["builtins"], none, none => some .builtins
    | _, _, _ => none

end Words

/-- The invocation that a command line stands for. -/
def Invocation.parse? (arguments : List String) : Option Invocation := do
  let w ← Words.sort ⟨[], false, false, none, none⟩ arguments
  return ⟨← w.request?, w.verbose⟩

end StepScript
