import StepScript.Text.Extender
import StepScript.Text.Printable

/-!
# Quoted text

A text is shown between double quotes.  Quotes, backslashes and the common control characters are
escaped by a letter, and what cannot be shown as itself by its code point.

## Main definitions

* `escape` — how one character is written inside the quotes.
* `quote` — the quoted form of a text.
-/

namespace StepScript

/-- A character by its code point, as in `\u{301}`. -/
def escapeCode (c : Char) : List Char :=
  ['\\', 'u', '{'] ++ Nat.toDigits 16 c.toNat ++ ['}']

/-- How a character is written between quotes. -/
def escape (c : Char) : List Char :=
  if c = '"' then ['\\', '"']
  else if c = '\\' then ['\\', '\\']
  else if c = '\n' then ['\\', 'n']
  else if c = '\r' then ['\\', 'r']
  else if c = '\t' then ['\\', 't']
  else if c = '\x00' then ['\\', '0']
  else if ' ' ≤ c ∧ c ≤ '~' then [c]
  else if isExtender c then escapeCode c
  else if isPrintable c then [c]
  else escapeCode c

/-- The text between double quotes. -/
def quote (text : String) : String :=
  String.ofList ('"' :: text.toList.flatMap escape ++ ['"'])

end StepScript
