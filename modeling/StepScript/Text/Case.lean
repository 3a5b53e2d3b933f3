import StepScript.Text.Case.Cased
import StepScript.Text.Case.Lower
import StepScript.Text.Case.Upper
import StepScript.Text.Letter

/-!
# Changing the case of a text

Upper case works character by character.  Lower case does too, but for the capital sigma, which
becomes the final sigma at the end of a word: after a cased character and not before one, where
ignorable characters are looked through.

## Main definitions

* `upperCase`, `lowerCase` — a whole text in one case.
* `titleCase` — each word with a capital letter in front.
* `capitalize` — a capital letter in front and the rest in lower case.
-/

namespace StepScript

/-- The text in upper case. -/
def upperCase (cs : List Char) : List Char :=
  cs.flatMap CaseMapping.upper.apply

/-- Whether the first character that is not ignorable is cased. -/
def meetsCased (cs : List Char) : Bool :=
  (cs.dropWhile isCaseIgnorable).head?.any isCased

/-- The lower case of a character that stands after `before` (nearest character first) and in front
of `after`. -/
def lowerAt (before : List Char) (c : Char) (after : List Char) : List Char :=
  if c = 'Σ' then if meetsCased before && !meetsCased after then ['ς'] else ['σ']
  else CaseMapping.lower.apply c

/-- The lower case of a text that stands after `before`, put behind `done`; both are reversed. -/
def lowerFrom (done before : List Char) : List Char → List Char
  | [] => done.reverse
  | c :: after => lowerFrom ((lowerAt before c after).reverse ++ done) (c :: before) after

/-- The text in lower case. -/
def lowerCase (cs : List Char) : List Char :=
  lowerFrom [] [] cs

/-- The title case of a text, put behind `done`, which is reversed: a character is raised unless a
letter stands before it. -/
def titleFrom (done : List Char) : Bool → List Char → List Char
  | _, [] => done.reverse
  | inWord, c :: cs =>
    let mapping := if inWord then CaseMapping.lower else CaseMapping.upper
    titleFrom ((mapping.apply c).reverse ++ done) (isLetter c) cs

/-- The text with every word in title case.  Characters are mapped one by one. -/
def titleCase (cs : List Char) : List Char :=
  titleFrom [] false cs

/-- The text with its first character in upper case and the rest, taken alone, in lower case. -/
def capitalize : List Char → List Char
  | [] => []
  | c :: cs => CaseMapping.upper.apply c ++ lowerCase cs

end StepScript
