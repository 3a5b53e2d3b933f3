import StepScript.Text.CodeSet

/-!
# Blank characters

The characters with the property `White_Space`: what separates tokens, and what is trimmed off a
numeral before it is read.
-/

namespace StepScript

/-- The characters with the property `White_Space`. -/
def CodeSet.blanks : CodeSet where
  ranges := [
    (0x0009, 0x000d), (0x0020, 0x0020), (0x0085, 0x0085), (0x00a0, 0x00a0), (0x1680, 0x1680),
    (0x2000, 0x200a), (0x2028, 0x2029), (0x202f, 0x202f), (0x205f, 0x205f), (0x3000, 0x3000)]

/-- Whether a character is blank. -/
def isBlank (c : Char) : Bool :=
  CodeSet.blanks.has c

/-- A line break is blank. -/
theorem isBlank_newline : isBlank '\n' = true := by decide

/-- The text without the blanks at its two ends. -/
def trimBlanks (cs : List Char) : List Char :=
  ((cs.dropWhile isBlank).reverse.dropWhile isBlank).reverse

end StepScript
