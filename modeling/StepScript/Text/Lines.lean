/-!
# The lines of a text

Lines end at a line feed, and a carriage return right before it belongs to the line's end.  A text
that ends with a line feed has no further, empty line.

## Main definitions

* `lines` — the lines of a text without their ends.
-/

namespace StepScript

/-- The lines that follow `finished`, the first of which begins with `line`; both are reversed. -/
def linesFrom (finished : List (List Char)) (line : List Char) : List Char → List (List Char)
  | [] => (if line.isEmpty then finished else line.reverse :: finished).reverse
  | c :: cs =>
    if c = '\n' then
      let ended := match line with
        | '\r' :: rest => rest
        | rest => rest
      linesFrom (ended.reverse :: finished) [] cs
    else linesFrom finished (c :: line) cs

/-- The lines of a text without their ends. -/
def lines (text : String) : List String :=
  (linesFrom [] [] text.toList).map String.ofList

end StepScript
