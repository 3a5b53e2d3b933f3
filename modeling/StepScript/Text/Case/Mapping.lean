/-!
# Case mappings

A mapping from characters to texts that leaves most characters as they are.  The regular part is a
list of runs, each of which shifts every code point, or every second one, of a range by the same
amount; the rest are characters that become several.

## Main definitions

* `CaseRun` — a run of code points with a common shift.
* `CaseMapping` — the runs and the expansions of one mapping.
* `CaseMapping.apply` — the text that a character becomes.
-/

namespace StepScript

/-- A run of code points that a mapping shifts by one amount. -/
structure CaseRun where
  /-- The first code point of the run. -/
  first : Nat
  /-- The last code point of the run. -/
  last : Nat
  /-- The distance between two members: `1` or `2`. -/
  step : Nat
  /-- What is added to each member. -/
  shift : Int

namespace CaseRun

/-- Whether the code point is a member of the run. -/
def has (r : CaseRun) (n : Nat) : Bool :=
  r.first ≤ n && n ≤ r.last && (n - r.first) % r.step == 0

/-- The code point that a member becomes. -/
def shifted (r : CaseRun) (n : Nat) : Nat :=
  ((n : Int) + r.shift).toNat

end CaseRun

/-- A mapping of single characters, identical outside its runs and expansions. -/
structure CaseMapping where
  /-- The characters that become one other character. -/
  runs : List CaseRun
  /-- The characters that become several. -/
  expansions : List (Nat × List Nat)

namespace CaseMapping

/-- The characters that one character becomes. -/
def apply (m : CaseMapping) (c : Char) : List Char :=
  match m.expansions.lookup c.toNat with
  | some ns => ns.map Char.ofNat
  | none =>
    match m.runs.find? (·.has c.toNat) with
    | some r => [Char.ofNat (r.shifted c.toNat)]
    | none => [c]

end CaseMapping

end StepScript
