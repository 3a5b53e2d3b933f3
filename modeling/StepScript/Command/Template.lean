import StepScript.Number.Word
import StepScript.Value

/-!
# Templates

A template is a text with placeholders in braces.  An empty placeholder takes the next argument
that no empty placeholder has taken, a number the argument with that index, and a doubled brace
stands for itself.

## Main definitions

* `TemplateError` — what is wrong with a template or its arguments.
* `fill` — a template with its placeholders filled in.
-/

namespace StepScript

/-- Why a template cannot be filled in. -/
inductive TemplateError
  /-- A placeholder that does not end, or holds something else than digits. -/
  | invalidPlaceholder
  /-- An index that is too large to be one. -/
  | hugeIndex
  /-- A placeholder without an argument. -/
  | noArgument (index : Nat)
  /-- A closing brace that closes nothing. -/
  | unmatchedBrace
  deriving DecidableEq, Repr

/-- The message for an error. -/
def TemplateError.message : TemplateError → String
  | invalidPlaceholder => "unterminated or invalid placeholder"
  | hugeIndex => "placeholder index is too large"
  | noArgument i => "no argument for placeholder " ++ toString i
  | unmatchedBrace => "unmatched `\x7d` in template"

/-- Where the filling of a template stands. -/
structure Filling where
  /-- How many empty placeholders there were. -/
  automatic : Nat
  /-- The text so far, reversed. -/
  text : List Char

namespace Filling

/-- Adds one character. -/
def push (f : Filling) (c : Char) : Filling :=
  { f with text := c :: f.text }

/-- Adds the text of the argument with the given index. -/
def select (f : Filling) (arguments : List Value) (index : Nat) : Except TemplateError Filling :=
  match arguments[index]? with
  | some v => .ok { f with text := v.display.toList.reverse ++ f.text }
  | none => .error (.noArgument index)

/-- Fills in a placeholder, given its digits. -/
def place (f : Filling) (arguments : List Value) (digits : List Char) :
    Except TemplateError Filling :=
  match readNat? 10 digits with
  | none => select { f with automatic := f.automatic + 1 } arguments f.automatic
  | some index => if index < Nat.pow 2 64 then f.select arguments index else .error .hugeIndex

end Filling

/-- Goes on with a template, outside of placeholders or (with the digits so far, reversed) inside
of one. -/
def fillFrom (arguments : List Value) :
    Filling → Option (List Char) → List Char → Except TemplateError (List Char)
  | f, none, [] => .ok f.text.reverse
  | f, none, '{' :: '{' :: cs => fillFrom arguments (f.push '{') none cs
  | f, none, '}' :: '}' :: cs => fillFrom arguments (f.push '}') none cs
  | f, none, c :: cs =>
    if c = '{' then fillFrom arguments f (some []) cs
    else if c = '}' then .error .unmatchedBrace
    else fillFrom arguments (f.push c) none cs
  | _, some _, [] => .error .invalidPlaceholder
  | f, some digits, c :: cs =>
    if c = '}' then
      match f.place arguments digits.reverse with
      | .ok f => fillFrom arguments f none cs
      | .error e => .error e
    else if c.isDigit then fillFrom arguments f (some (c :: digits)) cs
    else .error .invalidPlaceholder

/-- A template with its placeholders filled in. -/
def fill (template : String) (arguments : List Value) : Except TemplateError String :=
  (fillFrom arguments ⟨0, []⟩ none template.toList).map String.ofList

end StepScript
