import StepScript.Toml

/-!
# Strings in TOML

Strings stand in double quotes, where a backslash begins an escape, or in single quotes, where it
does not.  Between three quotes they may run over several lines.

## Main definitions

* `Toml.readString?` — a string on one line.
* `Toml.readAnyString?` — a string that may run over several lines.
-/

namespace StepScript

namespace Toml

/-- Whether a character may stand in a comment or a string as it is. -/
def isPlain (c : Char) : Bool :=
  c == '\t' || (' ' ≤ c && c ≤ '~') || '\x80' ≤ c

/-- How a string is written. -/
structure StringForm where
  /-- The quote, which also decides whether there are escapes. -/
  quote : Char
  /-- Whether there are three quotes on both sides. -/
  multiline : Bool

/-- Whether there are escapes. -/
def StringForm.escapes (form : StringForm) : Bool :=
  form.quote == '"'

/-- What the next character of a string belongs to. -/
inductive StringPhase
  /-- The text. -/
  | plain
  /-- An escape that has just begun. -/
  | escaped
  /-- The digits of a code point, with the number of those to come and the value so far. -/
  | code (left value : Nat)
  /-- Blanks behind a backslash, before the end of the line. -/
  | leaving
  /-- Blanks and line ends behind a backslash, after the end of the line. -/
  | joining

/-- The character that a short escape stands for. -/
def shortEscape? : Char → Option Char
  | 'b' => some '\x08'
  | 't' => some '\t'
  | 'n' => some '\n'
  | 'f' => some '\x0c'
  | 'r' => some '\r'
  | '"' => some '"'
  | '\\' => some '\\'
  | _ => none

/-- The character with the given code. -/
def charOfCode? (n : Nat) : Option Char :=
  if n.isValidChar then some (Char.ofNat n) else none

/-- What a line feed, alone or behind a carriage return, leaves of the text. -/
def afterLineEnd? : List Char → Option (List Char)
  | '\n' :: cs => some cs
  | '\r' :: '\n' :: cs => some cs
  | _ => none

/-- Goes on with a string whose text so far is `text`, reversed. -/
def readText (form : StringForm) :
    StringPhase → List Char → List Char → Option (String × List Char)
  | _, _, [] => none
  | .code left value, text, c :: cs =>
    -- hexadecimal digits, as many as the escape announces
    match digitValue? 16 c with
    | none => none
    | some d =>
      if left ≤ 1 then
        match charOfCode? (value * 16 + d) with
        | some e => readText form .plain (e :: text) cs
        | none => none
      else readText form (.code (left - 1) (value * 16 + d)) text cs
  | .escaped, text, c :: cs =>
    match shortEscape? c with
    | some e => readText form .plain (e :: text) cs
    | none =>
      if c = 'u' then readText form (.code 4 0) text cs
      else if c = 'U' then readText form (.code 8 0) text cs
      -- a backslash before the end of a line joins it with the next
      else if !form.multiline then none
      else if c = ' ' ∨ c = '\t' then readText form .leaving text cs
      else if c = '\n' then readText form .joining text cs
      else
        match c, cs with
        | '\r', '\n' :: cs => readText form .joining text cs
        | _, _ => none
  | .leaving, text, c :: cs =>
    if c = ' ' ∨ c = '\t' then readText form .leaving text cs
    else if c = '\n' then readText form .joining text cs
    else
      match c, cs with
      | '\r', '\n' :: cs => readText form .joining text cs
      | _, _ => none
  | phase, text, c :: cs =>
    let joining := match phase with
      | .joining => true
      | _ => false
    -- the phases `plain` and `joining`
    if c = form.quote then
      if form.multiline then
        match cs with
        | c₂ :: c₃ :: cs =>
          if c₂ = c ∧ c₃ = c then some (closeText form text cs)
          else readText form .plain (c :: text) (c₂ :: c₃ :: cs)
        | cs => readText form .plain (c :: text) cs
      else some (String.ofList text.reverse, cs)
    else if form.escapes && c = '\\' then readText form .escaped text cs
    -- what is joined loses the blanks at its front
    else if joining && (c = ' ' || c = '\t' || c = '\n') then readText form .joining text cs
    else if isPlain c then readText form .plain (c :: text) cs
    else if !form.multiline then none
    else if c = '\n' then readText form .plain ('\n' :: text) cs
    else
      match c, cs with
      | '\r', '\n' :: cs =>
        if joining then readText form .joining text cs
        else readText form .plain ('\n' :: text) cs
      | _, _ => none
where
  /-- The end of a string at three quotes: up to two more belong to the text. -/
  closeText (form : StringForm) (text : List Char) (cs : List Char) : String × List Char :=
    let extra := ((cs.take 2).takeWhile (· == form.quote)).length
    (String.ofList (text.reverse ++ List.replicate extra form.quote), cs.drop extra)

/-- A string on one line. -/
def readString? : List Char → Option (String × List Char)
  | '"' :: cs => readText ⟨'"', false⟩ .plain [] cs
  | '\'' :: cs => readText ⟨'\'', false⟩ .plain [] cs
  | _ => none

/-- A string that may run over several lines.  A line end right behind the opening quotes does not
count. -/
def readAnyString? : List Char → Option (String × List Char)
  | '"' :: '"' :: '"' :: cs => readText ⟨'"', true⟩ .plain [] ((afterLineEnd? cs).getD cs)
  | '\'' :: '\'' :: '\'' :: cs => readText ⟨'\'', true⟩ .plain [] ((afterLineEnd? cs).getD cs)
  | cs => readString? cs

end Toml

end StepScript
