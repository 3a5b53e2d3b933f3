/-!
# Sets of characters

The character properties of the Unicode standard are sets of code points that fall into a few
hundred ranges.  A `CodeSet` lists those ranges, and each property has a module of its own.

## Main definitions

* `CodeSet` — a set of code points given by its ranges.
* `CodeSet.has` — membership of a character.
-/

namespace StepScript

/-- A set of code points, given by its ranges (both ends included) in increasing order. -/
structure CodeSet where
  /-- The first and the last code point of each range. -/
  ranges : List (Nat × Nat)

namespace CodeSet

/-- Whether the character lies in one of the ranges. -/
def has (s : CodeSet) (c : Char) : Bool :=
  s.ranges.any fun (first, last) => first ≤ c.toNat && c.toNat ≤ last

theorem has_eq_true_iff {s : CodeSet} {c : Char} :
    s.has c = true ↔ ∃ r ∈ s.ranges, r.1 ≤ c.toNat ∧ c.toNat ≤ r.2 := by
  simp [has]

end CodeSet

end StepScript
