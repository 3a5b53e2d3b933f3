import StepScript.Fault
import StepScript.Text.Lines
import StepScript.Text.Style

/-!
# Diagnostics

An error is shown with the line that it is about, the lines around it, and an arrow below the place.

## Main definitions

* `Diagnostic` — a message about a place in a source text.
* `Diagnostic.render` — the text that shows it.
* `errorLabel` — the word that error messages begin with.
-/

namespace StepScript

/-- The word that error messages begin with. -/
def errorLabel (paint : Painter) : String :=
  paint (.vivid .red) "error"

/-- A message about a place in a source text. -/
structure Diagnostic where
  /-- Where the source text is from. -/
  path : String
  /-- The source text. -/
  source : String
  /-- The place. -/
  span : Span
  /-- The message. -/
  message : String
  deriving DecidableEq, Repr

namespace Diagnostic

/-- The diagnostic for a text that cannot be parsed. -/
def ofParseError (path source : String) (e : ParseError) : Diagnostic :=
  ⟨path, source, .empty e.location, e.message⟩

/-- The diagnostic for a flaw in a text. -/
def ofLexError (path source : String) (e : LexError) : Diagnostic :=
  ⟨path, source, .empty e.location, e.flaw.message⟩

/-- The diagnostic for a program that has failed. -/
def ofProgramError (path source : String) (e : ProgramError) : Diagnostic :=
  ⟨path, source, e.span, e.fault.message⟩

/-- The number of the line, counted from one. -/
def lineNumber (d : Diagnostic) : String :=
  toString (d.span.start.line + 1)

/-- The margin to the left of a line, which has the line's number only for the line in question. -/
def margin (d : Diagnostic) (paint : Painter) (primary : Bool) : String :=
  let number :=
    if primary then paint (.vivid .blue) d.lineNumber else "".pushn ' ' d.lineNumber.length
  number ++ " " ++ paint (.vivid .blue) " | "

/-- The arrow below the place. -/
def arrow (d : Diagnostic) (paint : Painter) : String :=
  "".pushn ' ' d.span.start.column ++ paint (.vivid .red) "^" ++
    paint (.tinted .red) ("".pushn '~' (d.span.size - 1))

/-- The lines to show, each with whether it is the one in question: that one, the one before unless
it is blank, and the one behind. -/
def window (d : Diagnostic) : List (Bool × String) :=
  let line := d.span.start.line
  let shown := ((lines d.source).zipIdx.drop (line - 1)).take 3
  let shown := shown.filter fun (text, i) => !(i < line && (trimBlanks text.toList).isEmpty)
  shown.map fun (text, i) => (i == line, text)

/-- One line of the source text, with the arrow if it is the one in question. -/
def renderLine (d : Diagnostic) (paint : Painter) (primary : Bool) (text : String) : String :=
  d.margin paint primary ++ text ++ "\n" ++
    if primary then d.margin paint false ++ d.arrow paint ++ "\n" else ""

/-- The text that shows a diagnostic. -/
def render (d : Diagnostic) (paint : Painter) : String :=
  errorLabel paint ++ ": " ++ paint .strong d.message ++ "\n\n" ++
    String.join (d.window.map fun (primary, text) => d.renderLine paint primary text) ++
    "\nIn " ++ d.path ++ ":" ++ d.lineNumber ++ ":" ++ toString (d.span.start.column + 1) ++ "\n\n"

end Diagnostic

end StepScript
