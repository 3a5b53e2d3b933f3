import StepScript.Script.Parser

/-!
# Parsed texts

A cache keeps what has been parsed, scripts and expressions apart, under the text that it was
parsed from.  Errors are not kept.  What is parsed is numbered, so that a kept result can be told
from one that was parsed anew.

## Main definitions

* `Shared` — a parsed text and its number.
* `Cache` — the texts parsed so far.
* `Cache.script`, `Cache.expression` — parse a text, or find it.
-/

namespace StepScript

/-- Something that was parsed once, with a number that tells it from other parses. -/
structure Shared (α : Type) where
  /-- The number of the parse. -/
  serial : Nat
  /-- What was parsed. -/
  value : α
  deriving Repr

/-- The scripts and expressions parsed so far. -/
structure Cache where
  /-- Scripts by their text. -/
  scripts : List (String × Shared Script)
  /-- Expressions by their text. -/
  expressions : List (String × Shared Expr)
  /-- The number of the next parse. -/
  fresh : Nat
  deriving Repr

namespace Cache

/-- A cache without texts. -/
def empty : Cache := ⟨[], [], 0⟩

/-- The number of texts. -/
def size (c : Cache) : Nat :=
  c.scripts.length + c.expressions.length

/-- The cache without its texts. -/
def clear (c : Cache) : Cache :=
  ⟨[], [], c.fresh⟩

/-- The script of a text, parsed now unless the cache holds it. -/
def script (c : Cache) (source : String) : Except ParseError (Shared Script) × Cache :=
  match c.scripts.lookup source with
  | some s => (.ok s, c)
  | none =>
    match parseScript source with
    | .error e => (.error e, c)
    | .ok s =>
      let shared := ⟨c.fresh, s⟩
      (.ok shared, { c with scripts := (source, shared) :: c.scripts, fresh := c.fresh + 1 })

/-- The expression of a text, parsed now unless the cache holds it. -/
def expression (c : Cache) (source : String) : Except ParseError (Shared Expr) × Cache :=
  match c.expressions.lookup source with
  | some e => (.ok e, c)
  | none =>
    match parseExpr source with
    | .error e => (.error e, c)
    | .ok e =>
      let shared := ⟨c.fresh, e⟩
      (.ok shared, { c with expressions := (source, shared) :: c.expressions, fresh := c.fresh + 1 })

/-- A summary of the cache. -/
def describe (c : Cache) : String :=
  "ScriptCache \x7b scripts: " ++ toString c.scripts.length ++
    ", expressions: " ++ toString c.expressions.length ++ " \x7d"

end Cache

end StepScript
