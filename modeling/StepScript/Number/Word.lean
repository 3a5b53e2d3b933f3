/-!
# Whole numbers of 64 bits

The integers of the language are the whole numbers from `-2 ^ 63` to `2 ^ 63 - 1`.  Arithmetic on
them is done in `Int` and then narrowed, so that a result is either the exact one or none.

## Main definitions

* `narrow?` — the 64-bit integer of a given value, if there is one.
* `readNat?`, `readInt?` — numerals of a given base, and decimal numerals with a sign.
-/

namespace StepScript

/-- The 64-bit integer with the value `n`, if there is one. -/
def narrow? (n : Int) : Option Int64 :=
  if -Int.pow 2 63 ≤ n ∧ n < Int.pow 2 63 then some (Int64.ofInt n) else none

/-- Narrowing is exact. -/
theorem toInt_of_narrow? {n : Int} {i : Int64} (h : narrow? n = some i) : i.toInt = n := by
  unfold narrow? at h
  split at h
  · next hn =>
    cases h
    rw [Int64.toInt_ofInt]
    have hs : (Int64.size : Int) = 2 ^ 64 := by decide
    have hp : Int.pow 2 63 = 2 ^ 63 := rfl
    rw [hp] at hn
    exact Int.bmod_eq_of_le (by omega) (by omega)
  · cases h

/-- Narrowing fails exactly outside the 64-bit range. -/
theorem narrow?_eq_none_iff {n : Int} :
    narrow? n = none ↔ n < -Int.pow 2 63 ∨ Int.pow 2 63 ≤ n := by
  unfold narrow?
  split
  · simp only [reduceCtorEq, false_iff]
    omega
  · simp only [true_iff]
    omega

theorem narrow?_toInt (i : Int64) : narrow? i.toInt = some i := by
  have low := i.le_toInt
  have high := i.toInt_lt
  have hp : Int.pow 2 63 = 2 ^ 63 := rfl
  rw [narrow?, hp, if_pos ⟨low, high⟩, Int64.ofInt_toInt]

theorem narrow?_eq_some_iff {n : Int} {i : Int64} : narrow? n = some i ↔ i.toInt = n := by
  constructor
  · exact toInt_of_narrow?
  · rintro rfl
    exact narrow?_toInt i

/-- The value of a digit in a base of at most sixteen. -/
def digitValue? (base : Nat) (c : Char) : Option Nat :=
  let v :=
    if '0' ≤ c ∧ c ≤ '9' then some (c.toNat - '0'.toNat)
    else if 'a' ≤ c ∧ c ≤ 'f' then some (c.toNat - 'a'.toNat + 10)
    else if 'A' ≤ c ∧ c ≤ 'F' then some (c.toNat - 'A'.toNat + 10)
    else none
  v.filter (· < base)

/-- The number that a run of digits denotes after the digits read so far; `none` if some character
is no digit of the base. -/
def readDigits? (base : Nat) : Nat → List Char → Option Nat
  | n, [] => some n
  | n, c :: cs =>
    match digitValue? base c with
    | some d => readDigits? base (n * base + d) cs
    | none => none

/-- The number that a numeral without sign denotes.  A numeral has at least one digit. -/
def readNat? (base : Nat) (cs : List Char) : Option Nat :=
  if cs.isEmpty then none else readDigits? base 0 cs

/-- The 64-bit integer that a decimal numeral with an optional sign denotes. -/
def readInt? : List Char → Option Int64
  | '-' :: cs => (readNat? 10 cs).bind fun n => narrow? (-n)
  | '+' :: cs => (readNat? 10 cs).bind fun n => narrow? n
  | cs => (readNat? 10 cs).bind fun n => narrow? n

end StepScript
