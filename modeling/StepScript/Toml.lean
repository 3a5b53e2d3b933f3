import StepScript.Number.Word

/-!
# TOML documents

The values of a TOML document, and how its tables grow line by line.  A table knows what has
brought it about, since that decides what may still be added: a header may define a table once, keys
with dots may add only to tables that such keys have made, and nothing adds to an inline table.

## Main definitions

* `Toml` — a value.
* `Toml.assign` — sets a key, which may have dots.
* `Toml.define`, `Toml.append` — the tables that headers define.
* `Toml.within` — changes the table at a path.
-/

namespace StepScript

/-- What has brought a table about. -/
inductive TableOrigin
  /-- Braces within a line. -/
  | inline
  /-- A header. -/
  | header
  /-- A header of a table further inside. -/
  | passing
  /-- A key with dots. -/
  | dotted
  deriving DecidableEq, Repr

/-- A value of a TOML document. -/
inductive Toml
  /-- A string. -/
  | string (s : String)
  /-- A whole number. -/
  | integer (i : Int64)
  /-- A floating point number. -/
  | float (x : Float)
  /-- A truth value. -/
  | boolean (b : Bool)
  /-- A date, a time, or both. -/
  | moment (text : String)
  /-- An array. -/
  | array (items : List Toml)
  /-- A table. -/
  | table (origin : TableOrigin) (entries : List (String × Toml))
  /-- An array of tables, each with a header of its own. -/
  | series (tables : List (List (String × Toml)))

namespace Toml

/-- The keys of a table with their values, in the order in which they were set. -/
abbrev Entries := List (String × Toml)

/-- The entries with another value for a key that has one. -/
def replace (key : String) (v : Toml) (entries : Entries) : Entries :=
  entries.map fun (k, old) => if k == key then (k, v) else (k, old)

/-- Changes the last table of a series. -/
def updateLast (f : Entries → Option Entries) (tables : List Entries) : Option (List Entries) :=
  match tables.getLast? with
  | some last => (f last).map fun last => tables.dropLast ++ [last]
  | none => none

/-- Sets a key in the table that the path leads to.  Tables on the path are made as needed, but the
last one must have been made by such a path. -/
def assign (path : List String) (key : String) (v : Toml) (entries : Entries) : Option Entries :=
  match path with
  | [] => if (entries.lookup key).isSome then none else some (entries ++ [(key, v)])
  | k :: path =>
    match entries.lookup k with
    | none => (assign path key v []).map fun t => entries ++ [(k, table .dotted t)]
    | some (table .dotted t) =>
      (assign path key v t).map fun t => replace k (table .dotted t) entries
    | some (table .passing t) =>
      if path.isEmpty then none
      else (assign path key v t).map fun t => replace k (table .passing t) entries
    | some (series tables) =>
      if path.isEmpty then none
      else (updateLast (assign path key v) tables).map fun ts => replace k (series ts) entries
    | some _ => none

/-- Changes the table that a path of headers leads to.  Tables on the path are made as needed, and
`last` changes the entries that hold the end of the path. -/
def descend (last : String → Entries → Option Entries) :
    List String → Entries → Option Entries
  | [], _ => none
  | [key], entries => last key entries
  | k :: path, entries =>
    match entries.lookup k with
    | none => (descend last path []).map fun t => entries ++ [(k, table .passing t)]
    | some (table .inline _) => none
    | some (table origin t) =>
      (descend last path t).map fun t => replace k (table origin t) entries
    | some (series tables) =>
      (updateLast (descend last path) tables).map fun ts => replace k (series ts) entries
    | some _ => none

/-- The table that a header defines, which may have been passed through before. -/
def define : List String → Entries → Option Entries :=
  descend fun key entries =>
    match entries.lookup key with
    | none => some (entries ++ [(key, table .header [])])
    | some (table .passing t) => some (replace key (table .header t) entries)
    | some _ => none

/-- A new table at the end of a series. -/
def append : List String → Entries → Option Entries :=
  descend fun key entries =>
    match entries.lookup key with
    | none => some (entries ++ [(key, series [[]])])
    | some (series tables) => some (replace key (series (tables ++ [[]])) entries)
    | some _ => none

/-- Changes the table whose header has the given path. -/
def within (f : Entries → Option Entries) : List String → Entries → Option Entries
  | [], entries => f entries
  | k :: path, entries =>
    match entries.lookup k with
    | some (table origin t) => (within f path t).map fun t => replace k (table origin t) entries
    | some (series tables) =>
      (updateLast (within f path) tables).map fun ts => replace k (series ts) entries
    | _ => none

end Toml

end StepScript
