import StepScript.Number.Numeral
import StepScript.Toml

/-!
# Numbers, dates and times in TOML

A value that is neither quoted nor bracketed is a run of letters, digits and a few signs, and the
run as a whole is a truth value, a number, a date or a time.

## Main definitions

* `Toml.ofBare?` — the value of a run.
-/

namespace StepScript

namespace Toml

/-- Whether a character can stand in a value without quotes. -/
def isBare (c : Char) : Bool :=
  c.isAlphanum || "_+-.:".toList.contains c

/-! ### Numbers -/

/-- The parts of a list between underscores. -/
def underscored : List Char → List (List Char)
  | [] => [[]]
  | c :: cs =>
    match c, underscored cs with
    | '_', parts => [] :: parts
    | c, part :: parts => (c :: part) :: parts
    | c, [] => [[c]]

/-- Digits of a base without the underscores, which stand only between digits. -/
def digits? (base : Nat) (cs : List Char) : Option (List Char) :=
  let parts := underscored cs
  if parts.all fun part => !part.isEmpty && part.all fun c => (digitValue? base c).isSome then
    some parts.flatten
  else none

/-- A sign, if there is one, and what follows it. -/
def signed : List Char → List Char × List Char
  | '+' :: cs => (['+'], cs)
  | '-' :: cs => (['-'], cs)
  | cs => ([], cs)

/-- Decimal digits that begin with zero only if there are no others. -/
def decimal? (cs : List Char) : Option (List Char) :=
  match cs with
  | '0' :: _ :: _ => none
  | _ => digits? 10 cs

/-- A whole number. -/
def integer? : List Char → Option Toml
  | '0' :: 'x' :: cs => based 16 cs
  | '0' :: 'o' :: cs => based 8 cs
  | '0' :: 'b' :: cs => based 2 cs
  | cs => do
    let (sign, cs) := signed cs
    return .integer (← readInt? (sign ++ (← decimal? cs)))
where
  /-- A number without sign in another base than ten. -/
  based (base : Nat) (cs : List Char) : Option Toml := do
    return .integer (← narrow? (← readNat? base (← digits? base cs)))

/-- The part of a number behind the point: none, or at least one digit. -/
def fraction? : List Char → Option (List Char)
  | [] => some []
  | '.' :: cs => (digits? 10 cs).map ('.' :: ·)
  | _ => none

/-- The exponent of a number: none, or at least one digit with an optional sign. -/
def exponent? : List Char → Option (List Char)
  | [] => some []
  | _ :: cs =>
    let (sign, cs) := signed cs
    (digits? 10 cs).map fun ds => 'e' :: sign ++ ds

/-- A number with a fraction or an exponent, or one of the words for infinity and for what is no
number.  A number must not be too large. -/
def float? (cs : List Char) : Option Toml := do
  let (sign, magnitude) := signed cs
  if magnitude = "inf".toList ∨ magnitude = "nan".toList then
    return .float (← readFloat? cs)
  let (mantissa, exponent) := magnitude.span fun c => c != 'e' && c != 'E'
  let (whole, fraction) := mantissa.span (· != '.')
  if fraction.isEmpty && exponent.isEmpty then none
  let text := sign ++ (← decimal? whole) ++ (← fraction? fraction) ++ (← exponent? exponent)
  let x ← readFloat? text
  if x == 1.0 / 0.0 then none else return .float x

/-! ### Dates and times -/

/-- The number that two digits denote, which must lie between two ends. -/
def twoDigits? (low high : Nat) (a b : Char) : Option Nat :=
  (readNat? 10 [a, b]).filter fun n => low ≤ n && n ≤ high

/-- The number of days of a month. -/
def monthDays (year month : Nat) : Nat :=
  if month == 2 then
    if year % 4 == 0 && (year % 100 != 0 || year % 400 == 0) then 29 else 28
  else if [4, 6, 9, 11].contains month then 30
  else 31

/-- A date, and what follows it. -/
def date? : List Char → Option (List Char × List Char)
  | y₁ :: y₂ :: y₃ :: y₄ :: '-' :: m₁ :: m₂ :: '-' :: d₁ :: d₂ :: rest => do
    let year ← readNat? 10 [y₁, y₂, y₃, y₄]
    let month ← twoDigits? 1 12 m₁ m₂
    let _ ← twoDigits? 1 (monthDays year month) d₁ d₂
    return ([y₁, y₂, y₃, y₄, '-', m₁, m₂, '-', d₁, d₂], rest)
  | _ => none

/-- The fraction of a second, which is kept up to the ninth digit and without trailing zeros, and
what follows it. -/
def secondFraction? : List Char → Option (List Char × List Char)
  | '.' :: cs =>
    let (ds, rest) := cs.span Char.isDigit
    let kept := ((ds.take 9).reverse.dropWhile (· == '0')).reverse
    if ds.isEmpty then none else some (if kept.isEmpty then [] else '.' :: kept, rest)
  | cs => some ([], cs)

/-- A time of day, and what follows it. -/
def time? : List Char → Option (List Char × List Char)
  | h₁ :: h₂ :: ':' :: m₁ :: m₂ :: ':' :: s₁ :: s₂ :: rest => do
    let _ ← twoDigits? 0 23 h₁ h₂
    let _ ← twoDigits? 0 59 m₁ m₂
    let _ ← twoDigits? 0 60 s₁ s₂
    let (fraction, rest) ← secondFraction? rest
    return ([h₁, h₂, ':', m₁, m₂, ':', s₁, s₂] ++ fraction, rest)
  | _ => none

/-- The distance to universal time, or nothing. -/
def offset? : List Char → Option (List Char)
  | [] => some []
  | ['Z'] => some ['Z']
  | ['z'] => some ['Z']
  | [sign, h₁, h₂, ':', m₁, m₂] => do
    let hours ← twoDigits? 0 23 h₁ h₂
    let minutes ← twoDigits? 0 59 m₁ m₂
    if sign = '+' ∨ sign = '-' then
      let sign := if hours == 0 && minutes == 0 then '+' else sign
      return [sign, h₁, h₂, ':', m₁, m₂]
    else none
  | _ => none

/-- A date, a time of day, or both with a letter between them. -/
def moment? (cs : List Char) : Option Toml :=
  match date? cs with
  | some (date, []) => some (.moment (String.ofList date))
  | some (date, delimiter :: rest) => do
    if delimiter != 'T' && delimiter != 't' then none
    let (time, rest) ← time? rest
    return .moment (String.ofList (date ++ 'T' :: time ++ (← offset? rest)))
  | none =>
    match time? cs with
    | some (time, []) => some (.moment (String.ofList time))
    | _ => none

/-- The value that a run of characters denotes. -/
def ofBare? (cs : List Char) : Option Toml :=
  if cs = "true".toList then some (.boolean true)
  else if cs = "false".toList then some (.boolean false)
  else (moment? cs <|> integer? cs <|> float? cs)

/-- The value at the beginning of a text, which runs up to the first character that cannot belong
to it.  A blank may stand between a date and a time. -/
def readBare? (cs : List Char) : Option (Toml × List Char) := do
  let (run, rest) := cs.span isBare
  match rest with
  | ' ' :: c :: more =>
    if c.isDigit && (date? run).any (·.2.isEmpty) then
      let (time, rest) := (c :: more).span isBare
      return (← moment? (run ++ 'T' :: time), rest)
    return (← ofBare? run, rest)
  | _ => return (← ofBare? run, rest)

end Toml

end StepScript
