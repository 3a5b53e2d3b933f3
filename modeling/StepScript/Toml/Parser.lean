import StepScript.Toml.Scalar
import StepScript.Toml.Text

/-!
# Reading TOML

A document is read line by line: a header names the table that the following lines add to, and
every other line sets a key.  Arrays may run over several lines, inline tables may not.  Nesting is
limited.

## Main definitions

* `Toml.readKey?` — a key, which may have dots.
* `Toml.readValue?` — a value.
* `Toml.parse?` — the table that a document describes.
-/

namespace StepScript

namespace Toml

/-- How deep arrays and inline tables may be nested, and how many parts a key may have: fewer than
this. -/
def nestingLimit : Nat := 80

/-- Leaves out blanks. -/
def skipBlanks (cs : List Char) : List Char :=
  cs.dropWhile fun c => c == ' ' || c == '\t'

/-- Leaves out blanks, line ends and comments; within a comment up to the end of the line. -/
def skipGap (comment : Bool) : List Char → Option (List Char)
  | [] => some []
  | '\n' :: cs => skipGap false cs
  | '\r' :: '\n' :: cs => skipGap false cs
  | c :: cs =>
    if comment then if isPlain c then skipGap true cs else none
    else if c == ' ' || c == '\t' then skipGap false cs
    else if c == '#' then skipGap true cs
    else some (c :: cs)

/-- Takes away the rest of a line, which holds nothing but blanks and a comment. -/
def endLine? (cs : List Char) : Option (List Char) :=
  let rest := match skipBlanks cs with
    | '#' :: comment => comment.dropWhile isPlain
    | rest => rest
  if rest.isEmpty then some [] else afterLineEnd? rest

/-- Whether a character can stand in a key without quotes. -/
def isKeyChar (c : Char) : Bool :=
  c.isAlphanum || c == '_' || c == '-'

/-- One part of a key. -/
def readKeyPart? (cs : List Char) : Option (String × List Char) :=
  match readString? cs with
  | some found => some found
  | none =>
    let (name, rest) := cs.span isKeyChar
    if name.isEmpty then none else some (String.ofList name, rest)

/-- The parts of a key, separated by dots, of which there are at most the given number. -/
def readKeyParts? : Nat → List Char → Option (List String × List Char)
  | 0, _ => none
  | n + 1, cs => do
    let (part, rest) ← readKeyPart? (skipBlanks cs)
    match skipBlanks rest with
    | '.' :: rest =>
      let (parts, rest) ← readKeyParts? n rest
      return (part :: parts, rest)
    | rest => return ([part], rest)

/-- A key, which may have dots: the parts before the last one, and the last one. -/
def readKey? (cs : List Char) : Option ((List String × String) × List Char) := do
  let (parts, rest) ← readKeyParts? (nestingLimit - 1) cs
  return ((parts.dropLast, ← parts.getLast?), rest)

mutual

/-- A value, where `fuel` is at least the length of the text and `depth` the number of brackets that
may still be opened. -/
def readValue? (fuel depth : Nat) (cs : List Char) : Option (Toml × List Char) :=
  match fuel, cs with
  | 0, _ => none
  | fuel + 1, '[' :: cs => if depth = 0 then none else readItems? fuel (depth - 1) [] cs
  | fuel + 1, '{' :: cs =>
    if depth = 0 then none
    else
      match skipBlanks cs with
      | '}' :: rest => some (table .inline [], rest)
      | cs => readPairs? fuel (depth - 1) [] cs
  | _, cs =>
    match readAnyString? cs with
    | some (s, rest) => some (string s, rest)
    | none => readBare? cs

/-- The items of an array from the next one on, after those in `items`, which are reversed. -/
def readItems? (fuel depth : Nat) (items : List Toml) (cs : List Char) :
    Option (Toml × List Char) :=
  match fuel with
  | 0 => none
  | fuel + 1 => do
    match ← skipGap false cs with
    | ']' :: rest => return (array items.reverse, rest)
    | cs =>
      let (v, rest) ← readValue? fuel depth cs
      match ← skipGap false rest with
      | ',' :: rest => readItems? fuel depth (v :: items) rest
      | ']' :: rest => return (array (v :: items).reverse, rest)
      | _ => none

/-- The pairs of an inline table from the next one on, after those in `entries`. -/
def readPairs? (fuel depth : Nat) (entries : Entries) (cs : List Char) :
    Option (Toml × List Char) :=
  match fuel with
  | 0 => none
  | fuel + 1 => do
    match ← readKey? cs with
    | ((path, key), '=' :: rest) =>
      let (v, rest) ← readValue? fuel depth (skipBlanks rest)
      let entries ← assign path key v entries
      match skipBlanks rest with
      | ',' :: rest => readPairs? fuel depth entries rest
      | '}' :: rest => return (table .inline entries, rest)
      | _ => none
    | _ => none

end

/-- A header: whether it is for a table of a series, its path, and the text behind its line. -/
def readHeader? : List Char → Option ((Bool × List String) × List Char)
  | '[' :: '[' :: cs => do
    match ← readKey? cs with
    | ((path, key), ']' :: ']' :: rest) => return ((true, path ++ [key]), ← endLine? rest)
    | _ => none
  | '[' :: cs => do
    match ← readKey? cs with
    | ((path, key), ']' :: rest) => return ((false, path ++ [key]), ← endLine? rest)
    | _ => none
  | _ => none

/-- Goes on with a document, where `fuel` is more than the length of the text, `current` the path of
the last header, and `entries` the table so far. -/
def readLines? (fuel : Nat) (current : List String) (entries : Entries) (cs : List Char) :
    Option Entries :=
  match fuel with
  | 0 => none
  | fuel + 1 => do
    match ← skipGap false cs with
    | [] => return entries
    | '[' :: cs =>
      let ((repeated, path), rest) ← readHeader? ('[' :: cs)
      let entries ← if repeated then append path entries else define path entries
      readLines? fuel path entries rest
    | cs =>
      match ← readKey? cs with
      | ((path, key), '=' :: rest) =>
        let (v, rest) ← readValue? rest.length (nestingLimit - 1) (skipBlanks rest)
        let entries ← within (assign path key v) current entries
        readLines? fuel current entries (← endLine? rest)
      | _ => none

/-- The table that a document describes, which may begin with a byte order mark. -/
def parse? (text : String) : Option Entries :=
  let cs := match text.toList with
    | '\ufeff' :: cs => cs
    | cs => cs
  readLines? (cs.length + 1) [] [] cs

end Toml

end StepScript
