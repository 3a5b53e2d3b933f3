/-!
# Places in a source text

A location counts bytes from the start of the text, lines, and code points from the start of the
line, all from zero.  It is shown as line and column, counted from one.

## Main definitions

* `Location` — a place in a text.
* `Location.next`, `Location.after` — the place behind a character and behind a text.
* `Span` — the stretch between two places.
-/

namespace StepScript

/-- A place in a source text. -/
structure Location where
  /-- Bytes of the text before the place. -/
  offset : Nat
  /-- Line breaks before the place. -/
  line : Nat
  /-- Code points between the last line break and the place. -/
  column : Nat
  deriving DecidableEq, Repr, Inhabited

namespace Location

/-- The start of every text. -/
def origin : Location := ⟨0, 0, 0⟩

/-- The place behind a character. -/
def next (l : Location) (c : Char) : Location :=
  if c = '\n' then ⟨l.offset + c.utf8Size, l.line + 1, 0⟩
  else ⟨l.offset + c.utf8Size, l.line, l.column + 1⟩

/-- The place behind a text. -/
def after (l : Location) (cs : List Char) : Location :=
  cs.foldl next l

@[simp] theorem after_nil (l : Location) : l.after [] = l := rfl

@[simp] theorem after_cons (l : Location) (c : Char) (cs : List Char) :
    l.after (c :: cs) = (l.next c).after cs := rfl

theorem after_append (l : Location) (cs ds : List Char) :
    l.after (cs ++ ds) = (l.after cs).after ds := by
  simp [after, List.foldl_append]

/-- Line and column, counted from one. -/
def display (l : Location) : String :=
  toString (l.line + 1) ++ ":" ++ toString (l.column + 1)

end Location

/-- The stretch of a source text between two places. -/
structure Span where
  /-- Where it begins. -/
  start : Location
  /-- Where it ends. -/
  stop : Location
  deriving DecidableEq, Repr, Inhabited

namespace Span

/-- The empty stretch at a place. -/
def empty (l : Location) : Span := ⟨l, l⟩

/-- The number of bytes. -/
def size (s : Span) : Nat :=
  s.stop.offset - s.start.offset

/-- A stretch is shown by where it begins. -/
def display (s : Span) : String :=
  s.start.display

end Span

end StepScript
