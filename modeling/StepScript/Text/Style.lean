/-!
# Styled text

What is written says in which style each piece of text is to be shown, and a painter does so.  On a
terminal, text is coloured or set bold by control sequences before and after it.

## Main definitions

* `Style` — a colour and a weight.
* `Painter` — how texts in some style are written.
* `Painter.terminal` — control sequences.
* `padLeft`, `padRight` — a text filled up to a width.
-/

namespace StepScript

/-- A colour of the terminal. -/
inductive Colour
  /-- Errors. -/
  | red
  /-- Names. -/
  | green
  /-- Places. -/
  | blue
  deriving DecidableEq, Repr

/-- The number of a colour in a control sequence. -/
def Colour.code : Colour → String
  | .red => "31"
  | .green => "32"
  | .blue => "34"

/-- How a piece of text is shown. -/
structure Style where
  /-- Whether it is bold. -/
  bold : Bool
  /-- Its colour, if not the usual one. -/
  colour : Option Colour
  deriving DecidableEq, Repr

namespace Style

/-- Bold text in the usual colour. -/
def strong : Style := ⟨true, none⟩

/-- Text in a colour. -/
def tinted (c : Colour) : Style := ⟨false, some c⟩

/-- Bold text in a colour. -/
def vivid (c : Colour) : Style := ⟨true, some c⟩

/-- The sequence that switches the style on. -/
def opening (s : Style) : String :=
  let codes := (if s.bold then ["1"] else []) ++ (s.colour.map Colour.code).toList
  "\x1b[" ++ String.intercalate ";" codes ++ "m"

/-- The sequence that switches every style off. -/
def closing : String := "\x1b[0m"

end Style

/-- How a text in a style is written. -/
abbrev Painter :=
  Style → String → String

/-- Painting for a terminal, where `coloured` says whether styles are shown at all.  A text that
itself switches styles off takes up its style again. -/
def Painter.terminal (coloured : Bool) : Painter :=
  fun s text =>
    if coloured then
      s.opening ++ text.replace Style.closing (Style.closing ++ s.opening) ++ Style.closing
    else text

/-- The text with blanks in front up to a width. -/
def padLeft (width : Nat) (text : String) : String :=
  "".pushn ' ' (width - text.length) ++ text

/-- The text with blanks behind up to a width. -/
def padRight (width : Nat) (text : String) : String :=
  text.pushn ' ' (width - text.length)

end StepScript
