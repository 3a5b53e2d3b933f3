import StepScript.Command.Standard
import StepScript.Proofs.FloatOrder

/-!
# The least and the greatest argument

The order of values is not transitive in all respects: whole numbers compare exactly with each
other, but as floating point numbers with floating point numbers, so two different whole numbers can
both be equal to a third number.  Being strictly less is transitive all the same, and that is what
one pass over the arguments from left to right needs to find one that no other beats.

## Main definitions

* `Scale`, `Value.scale?` — the kinds of values that compare with each other.
* `Chosen` — one of some values that none of them beats.

## Main results

* `Value.order?_isSome_iff`, `Value.order?_swap` — which values compare, and in both directions.
* `Value.order?_trans` — beating is transitive.
* `Chosen.better`, `Chosen.foldlM` — what a step and what a pass keep.
* `extreme_is_unbeaten_unless_single_nan` — **the least and the greatest argument**: when there is
  one, and that it does not depend on the order of the arguments.
-/

namespace StepScript

/-! ### Scales -/

/-- A kind of values that compare with each other. -/
inductive Scale
  /-- Nothing. -/
  | nothing
  /-- Truth values. -/
  | truth
  /-- Numbers of both kinds. -/
  | number
  /-- Strings. -/
  | text
  deriving DecidableEq, Repr

/-- The kind of values that a value compares with.  What is not a number, the wildcard and host
objects compare with nothing, not even with themselves. -/
def Value.scale? : Value → Option Scale
  | null => some .nothing
  | bool _ => some .truth
  | int _ => some .number
  | float x => if x.isNaN then none else some .number
  | str _ => some .text
  | wildcard | host _ => none

theorem floatOrder?_isSome_iff {x y : Float} :
    (floatOrder? x y).isSome ↔ x.isNaN = false ∧ y.isNaN = false := by
  cases hx : x.isNaN with
  | true => simp [(floatOrder?_of_isNaN hx y).1]
  | false =>
    cases hy : y.isNaN with
    | true => simp [(floatOrder?_of_isNaN hy x).2]
    | false => simp [floatOrder?_eq_compare hx hy]

theorem floatOrder?_swap (x y : Float) : floatOrder? y x = (floatOrder? x y).map Ordering.swap := by
  cases hx : x.isNaN with
  | true => rw [(floatOrder?_of_isNaN hx y).1, (floatOrder?_of_isNaN hx y).2, Option.map_none]
  | false =>
    cases hy : y.isNaN with
    | true => rw [(floatOrder?_of_isNaN hy x).1, (floatOrder?_of_isNaN hy x).2, Option.map_none]
    | false =>
      rw [floatOrder?_eq_compare hx hy, floatOrder?_eq_compare hy hx, Option.map_some]
      exact congrArg some Std.OrientedCmp.eq_swap

theorem floatOrder?_eq_lt_iff {x y : Float} :
    floatOrder? x y = some .lt ↔
      x.isNaN = false ∧ y.isNaN = false ∧ floatPlace x < floatPlace y := by
  constructor
  · intro h
    obtain ⟨hx, hy⟩ := floatOrder?_isSome_iff.mp (Option.isSome_of_eq_some h)
    rw [floatOrder?_eq_compare hx hy, Option.some_inj, compare_lt_iff_lt] at h
    exact ⟨hx, hy, h⟩
  · rintro ⟨hx, hy, h⟩
    rw [floatOrder?_eq_compare hx hy, compare_lt_iff_lt.mpr h]

theorem beq_of_floatOrder? {x y : Float} (h : floatOrder? x y = some .eq) : (x == y) = true := by
  unfold floatOrder? at h
  split at h
  · cases h
  split at h
  · cases h
  split at h
  · assumption
  · cases h

theorem isNaN_floatOfInt (i : Int64) : (floatOfInt i).isNaN = false :=
  isNaN_ofInt i.le_toInt i.toInt_lt

theorem floatPlace_floatOfInt_mono {i j : Int64} (h : i.toInt ≤ j.toInt) :
    floatPlace (floatOfInt i) ≤ floatPlace (floatOfInt j) :=
  floatPlace_ofInt_mono i.le_toInt h j.toInt_lt

namespace Value

theorem scale?_float_eq_some_iff {x : Float} {s : Scale} :
    (float x).scale? = some s ↔ x.isNaN = false ∧ .number = s := by
  cases hx : x.isNaN with
  | true =>
    rw [scale?, if_pos hx]
    simp
  | false =>
    rw [scale?, if_neg (ne_true_of_eq_false hx)]
    simp

/-- Just the values of one kind compare. -/
theorem order?_isSome_iff {a b : Value} :
    (a.order? b).isSome ↔ ∃ s, a.scale? = some s ∧ b.scale? = some s := by
  cases a <;> cases b
  case int.float i y =>
    simp only [order?, floatOrder?_isSome_iff, isNaN_floatOfInt, scale?_float_eq_some_iff]
    exact ⟨fun h => ⟨.number, rfl, h.2, rfl⟩, fun ⟨_, _, h, _⟩ => ⟨trivial, h⟩⟩
  case float.int x j =>
    simp only [order?, floatOrder?_isSome_iff, isNaN_floatOfInt, scale?_float_eq_some_iff]
    exact ⟨fun h => ⟨.number, ⟨h.1, rfl⟩, rfl⟩, fun ⟨_, ⟨h, _⟩, _⟩ => ⟨h, trivial⟩⟩
  case float.float x y =>
    simp only [order?, floatOrder?_isSome_iff, scale?_float_eq_some_iff]
    exact ⟨fun h => ⟨.number, ⟨h.1, rfl⟩, h.2, rfl⟩, fun ⟨_, ⟨hx, _⟩, hy, _⟩ => ⟨hx, hy⟩⟩
  all_goals simp [order?, scale?]

theorem order?_swap (a b : Value) : b.order? a = (a.order? b).map Ordering.swap := by
  cases a with
  | null => cases b <;> rfl
  | bool p =>
    cases b with
    | bool q => cases p <;> cases q <;> rfl
    | _ => rfl
  | int i =>
    cases b with
    | int j => exact congrArg some Std.OrientedCmp.eq_swap
    | float y => exact floatOrder?_swap _ _
    | _ => rfl
  | float x =>
    cases b with
    | int j => exact floatOrder?_swap _ _
    | float y => exact floatOrder?_swap _ _
    | _ => rfl
  | str s =>
    cases b with
    | str t => exact congrArg some Std.OrientedCmp.eq_swap
    | _ => rfl
  | wildcard => cases b <;> rfl
  | host g => cases b <;> rfl

/-- Two numbers compare as floating point numbers, unless both are whole. -/
theorem order?_eq_lt_iff {a b : Value} {x y : Float} (ha : a.asFloat? = some x)
    (hb : b.asFloat? = some y) :
    a.order? b = some .lt ↔
      (x.isNaN = false ∧ y.isNaN = false ∧ floatPlace x < floatPlace y) ∨
        ∃ i j, a = int i ∧ b = int j ∧ i.toInt < j.toInt := by
  cases a <;> cases ha <;> cases b <;> cases hb
  case int.refl.int.refl i j =>
    have exactly : (int i).order? (int j) = some .lt ↔ i.toInt < j.toInt := by
      rw [order?, Option.some_inj, compare_lt_iff_lt]
    rw [exactly]
    constructor
    · intro h
      exact .inr ⟨i, j, rfl, rfl, h⟩
    · rintro (⟨_, _, h⟩ | ⟨_, _, ⟨⟩, ⟨⟩, h⟩)
      · by_contra reversed
        exact absurd h (not_lt.mpr (floatPlace_floatOfInt_mono (not_lt.mp reversed)))
      · exact h
  all_goals simp [order?, floatOrder?_eq_lt_iff]

theorem lt_trans_of_numbers {a b c : Value} {x y z : Float} (ha : a.asFloat? = some x)
    (hb : b.asFloat? = some y) (hc : c.asFloat? = some z) (hab : a.order? b = some .lt)
    (hbc : b.order? c = some .lt) : a.order? c = some .lt := by
  rw [order?_eq_lt_iff ha hc]
  rcases (order?_eq_lt_iff ha hb).mp hab with ⟨hx, hy, hxy⟩ | ⟨i, j, rfl, rfl, hij⟩
  · rcases (order?_eq_lt_iff hb hc).mp hbc with ⟨_, hz, hyz⟩ | ⟨j, k, rfl, rfl, hjk⟩
    · exact .inl ⟨hx, hz, hxy.trans hyz⟩
    · -- the second step may be too small to show among floating point numbers
      cases hb
      cases hc
      exact .inl ⟨hx, isNaN_floatOfInt k, hxy.trans_le (floatPlace_floatOfInt_mono hjk.le)⟩
  · rcases (order?_eq_lt_iff hb hc).mp hbc with ⟨_, hz, hyz⟩ | ⟨_, k, ⟨⟩, rfl, hjk⟩
    · cases ha
      cases hb
      exact .inl ⟨isNaN_floatOfInt i, hz, (floatPlace_floatOfInt_mono hij.le).trans_lt hyz⟩
    · exact .inr ⟨i, k, rfl, rfl, hij.trans hjk⟩

theorem lt_trans {a b c : Value} (hab : a.order? b = some .lt) (hbc : b.order? c = some .lt) :
    a.order? c = some .lt := by
  -- Values compare only within their kind, and integers and floats are of one.
  cases a with
  | int i =>
    cases b with
    | int j | float y =>
      cases c with
      | int k | float z => exact lt_trans_of_numbers rfl rfl rfl hab hbc
      | _ => cases hbc
    | _ => cases hab
  | float x =>
    cases b with
    | int j | float y =>
      cases c with
      | int k | float z => exact lt_trans_of_numbers rfl rfl rfl hab hbc
      | _ => cases hbc
    | _ => cases hab
  | bool p =>
    cases b with
    | bool q =>
      cases c with
      | bool r => revert hab hbc; cases p <;> cases q <;> cases r <;> decide
      | _ => cases hbc
    | _ => cases hab
  | str s =>
    cases b with
    | str t =>
      cases c with
      | str u =>
        rw [order?, Option.some_inj] at hab hbc ⊢
        exact Std.TransCmp.lt_trans hab hbc
      | _ => cases hbc
    | _ => cases hab
  | null => cases b <;> cases hab
  | wildcard => cases b <;> cases hab
  | host g => cases b <;> cases hab

theorem order?_eq_gt_iff {a b : Value} : a.order? b = some .gt ↔ b.order? a = some .lt := by
  rw [order?_swap a b, Option.map_eq_some_iff]
  constructor
  · intro h
    exact ⟨.gt, h, rfl⟩
  · rintro ⟨order, h, swapped⟩
    rw [h, ← Ordering.swap_swap (o := order), swapped]
    rfl

/-- Beating is transitive, in either direction. -/
theorem order?_trans {wanted : Ordering} (strict : wanted ≠ .eq) {a b c : Value}
    (hab : a.order? b = some wanted) (hbc : b.order? c = some wanted) :
    a.order? c = some wanted := by
  cases wanted with
  | lt => exact lt_trans hab hbc
  | eq => exact absurd rfl strict
  | gt =>
    rw [order?_eq_gt_iff] at hab hbc ⊢
    exact lt_trans hbc hab

theorem order?_self_ne {wanted : Ordering} (strict : wanted ≠ .eq) (a : Value) :
    a.order? a ≠ some wanted := by
  intro h
  have swapped := order?_swap a a
  rw [h, Option.map_some, Option.some_inj] at swapped
  cases wanted with
  | eq => exact strict rfl
  | lt | gt => cases swapped

/-- Values of which neither comes first are equal. -/
theorem equals_of_order? {a b : Value} (h : a.order? b = some .eq) : a.equals b = true := by
  cases a with
  | null => cases b <;> first | rfl | cases h
  | bool p =>
    cases b with
    | bool q => revert h; cases p <;> cases q <;> decide
    | _ => cases h
  | int i =>
    cases b with
    | int j =>
      have same := Int64.toInt_inj.mp (compare_eq_iff_eq.mp (Option.some_inj.mp h))
      exact beq_iff_eq.mpr same
    | float y => exact beq_of_floatOrder? h
    | _ => cases h
  | float x =>
    cases b with
    | int j => exact beq_of_floatOrder? h
    | float y => exact beq_of_floatOrder? h
    | _ => cases h
  | str s =>
    cases b with
    | str t => exact beq_iff_eq.mpr (Std.LawfulEqCmp.eq_of_compare (Option.some_inj.mp h))
    | _ => cases h
  | wildcard => cases b <;> cases h
  | host g => cases b <;> cases h

/-- What is not a number is the only value that does not equal itself. -/
theorem equals_self_iff {v : Value} :
    v.equals v = true ↔ ¬∃ x : Float, x.isNaN = true ∧ v = .float x := by
  cases v with
  | float x =>
    cases hx : x.isNaN with
    | true =>
      have unequal : ¬(x == x) = true := by
        rw [beq_iff_compare, (compare_of_isNaN hx _).1]
        decide
      refine ⟨fun h => absurd h unequal, fun h => absurd ⟨x, hx, rfl⟩ h⟩
    | false =>
      refine ⟨?_, fun _ => beq_of_floatOrder? ?_⟩
      · rintro _ ⟨_, hy, ⟨⟩⟩
        rw [hx] at hy
        cases hy
      · rw [floatOrder?_eq_compare hx hx, compare_eq_iff_eq.mpr rfl]
  | _ => simp [equals]

end Value

/-! ### One pass -/

namespace Function

variable {wanted : Ordering} {seen vs : List Value} {best candidate r : Value}

/-- One of the values seen, which none of them beats. -/
structure Chosen (wanted : Ordering) (seen : List Value) (best : Value) : Prop where
  mem : best ∈ seen
  unbeaten : ∀ v ∈ seen, v.order? best ≠ some wanted

theorem Chosen.singleton (strict : wanted ≠ .eq) (v : Value) : Chosen wanted [v] v := by
  refine ⟨List.mem_singleton_self v, ?_⟩
  intro u hu
  rw [List.mem_singleton.mp hu]
  exact v.order?_self_ne strict

theorem better_of_order? {order : Ordering} (h : candidate.order? best = some order) :
    better wanted best candidate = .ok (if order = wanted then candidate else best) := by
  rw [better, h]

theorem better_of_none (h : candidate.order? best = none) :
    better wanted best candidate = .error
      (.typeMismatch (if wanted = .lt then "<" else ">") candidate.typeName best.typeName) := by
  rw [better, h]

/-- A step keeps a value that no value seen beats: one that beat the new best value would have
beaten the old one too. -/
theorem Chosen.better (strict : wanted ≠ .eq) (h : Chosen wanted seen best)
    (step : better wanted best candidate = .ok r) : Chosen wanted (seen ++ [candidate]) r := by
  cases ho : candidate.order? best with
  | none =>
    -- values that do not compare end the pass
    rw [better_of_none ho] at step
    cases step
  | some order =>
    rw [better_of_order? ho] at step
    by_cases beats : order = wanted
    · -- the new value is taken; what beat it would have beaten the old one as well
      rw [if_pos beats] at step
      cases step
      subst beats
      refine ⟨by simp, ?_⟩
      intro v hv
      rcases List.mem_append.mp hv with old | new
      · intro hv
        exact h.unbeaten v old (Value.order?_trans strict hv ho)
      · rw [List.mem_singleton.mp new]
        exact candidate.order?_self_ne strict
    · -- the old value is kept, as the new one does not beat it
      rw [if_neg beats] at step
      cases step
      refine ⟨List.mem_append_left _ h.mem, ?_⟩
      intro v hv
      rcases List.mem_append.mp hv with old | new
      · exact h.unbeaten v old
      · rw [List.mem_singleton.mp new, ho]
        intro same
        exact beats (Option.some_inj.mp same)

/-- A pass keeps a value that no value seen beats. -/
theorem Chosen.foldlM (strict : wanted ≠ .eq) (h : Chosen wanted seen best)
    (pass : vs.foldlM (Function.better wanted) best = .ok r) : Chosen wanted (seen ++ vs) r := by
  induction vs generalizing seen best with
  | nil =>
    cases pass
    rwa [List.append_nil]
  | cons v vs ih =>
    rw [List.foldlM_cons] at pass
    cases step : Function.better wanted best v with
    | error fault =>
      rw [step] at pass
      cases pass
    | ok next =>
      rw [step] at pass
      rw [List.append_cons]
      exact ih (h.better strict step) pass

/-- The values are all of one kind, and so compare with each other. -/
def OneScale (vs : List Value) : Prop :=
  ∃ s, ∀ v ∈ vs, v.scale? = some s

/-- What a step says about the kinds of values. -/
theorem better_cases (wanted : Ordering) (best candidate : Value) :
    (∃ s r, better wanted best candidate = .ok r ∧ best.scale? = some s ∧
      candidate.scale? = some s ∧ r.scale? = some s ∧ (r = best ∨ r = candidate)) ∨
    ((∀ s, best.scale? = some s → candidate.scale? ≠ some s) ∧
      better wanted best candidate = .error
        (.typeMismatch (if wanted = .lt then "<" else ">") candidate.typeName best.typeName)) := by
  cases ho : candidate.order? best with
  | none =>
    refine .inr ⟨?_, better_of_none ho⟩
    intro s hb hc
    have related : (candidate.order? best).isSome := Value.order?_isSome_iff.mpr ⟨s, hc, hb⟩
    rw [ho] at related
    cases related
  | some order =>
    obtain ⟨s, hc, hb⟩ := Value.order?_isSome_iff.mp (Option.isSome_of_eq_some ho)
    refine .inl ⟨s, _, better_of_order? ho, hb, hc, ?_⟩
    by_cases beats : order = wanted
    · rw [if_pos beats]
      exact ⟨hc, .inr rfl⟩
    · rw [if_neg beats]
      exact ⟨hb, .inl rfl⟩

/-- A pass over values of one kind succeeds. -/
theorem foldlM_better_of_scale {s : Scale} (hbest : best.scale? = some s)
    (hvs : ∀ v ∈ vs, v.scale? = some s) : ∃ r, vs.foldlM (better wanted) best = .ok r := by
  induction vs generalizing best with
  | nil => exact ⟨best, rfl⟩
  | cons v vs ih =>
    obtain ⟨hv, hvs⟩ := List.forall_mem_cons.mp hvs
    rcases better_cases wanted best v with ⟨t, next, step, hb, _, hnext, _⟩ | ⟨apart, _⟩
    · have same : t = s := Option.some_inj.mp (hb.symm.trans hbest)
      rw [List.foldlM_cons, step]
      exact ih (same ▸ hnext) hvs
    · exact absurd hv (apart s hbest)

/-- A pass over values of several kinds fails for two of them. -/
theorem foldlM_better_of_not_oneScale (wanted : Ordering) (many : vs ≠ [])
    (apart : ¬OneScale (best :: vs)) :
    ∃ a ∈ best :: vs, ∃ b ∈ best :: vs, vs.foldlM (better wanted) best =
      .error (.typeMismatch (if wanted = .lt then "<" else ">") a.typeName b.typeName) := by
  induction vs generalizing best with
  | nil => exact absurd rfl many
  | cons v vs ih =>
    rw [List.foldlM_cons]
    rcases better_cases wanted best v with ⟨s, next, step, hb, hv, hnext, from_⟩ | ⟨_, step⟩
    · rw [step]
      -- the best value so far is of the kind of the two it was chosen from
      have apart' : ¬OneScale (next :: vs) := by
        rintro ⟨t, ht⟩
        obtain ⟨hnext', hvs⟩ := List.forall_mem_cons.mp ht
        have same : t = s := Option.some_inj.mp (hnext'.symm.trans hnext)
        subst same
        exact apart ⟨t, List.forall_mem_cons.mpr ⟨hb, List.forall_mem_cons.mpr ⟨hv, hvs⟩⟩⟩
      have many' : vs ≠ [] := by
        rintro rfl
        exact apart' ⟨s, by simpa using hnext⟩
      have subset : ∀ u ∈ next :: vs, u ∈ best :: v :: vs := by
        intro u hu
        rcases List.mem_cons.mp hu with rfl | hu
        · rcases from_ with rfl | rfl <;> simp
        · simp [hu]
      obtain ⟨a, ha, b, hb, failed⟩ := ih many' apart'
      exact ⟨a, subset a ha, b, subset b hb, failed⟩
    · rw [step]
      exact ⟨v, by simp, best, by simp, rfl⟩

/-! ### The results -/

theorem extreme_chosen (strict : wanted ≠ .eq) {command : String} {arguments : List Value}
    (h : extreme command wanted arguments = .ok r) : Chosen wanted arguments r := by
  cases arguments with
  | nil => cases h
  | cons v vs => exact (Chosen.singleton strict v).foldlM strict h

theorem extreme_ok_iff (command : String) (wanted : Ordering) {arguments : List Value}
    (nonempty : arguments ≠ []) :
    (∃ r, extreme command wanted arguments = .ok r) ↔
      arguments.length = 1 ∨ OneScale arguments := by
  cases arguments with
  | nil => exact absurd rfl nonempty
  | cons v vs =>
    constructor
    · rintro ⟨r, h⟩
      by_contra neither
      obtain ⟨alone, apart⟩ := not_or.mp neither
      have many : vs ≠ [] := by
        rintro rfl
        exact alone rfl
      obtain ⟨_, _, _, _, failed⟩ := foldlM_better_of_not_oneScale wanted many apart
      rw [extreme, failed] at h
      cases h
    · rintro (alone | ⟨s, hs⟩)
      · rw [List.length_eq_one_iff] at alone
        obtain ⟨u, ⟨⟩⟩ := alone
        exact ⟨v, rfl⟩
      · obtain ⟨hv, hvs⟩ := List.forall_mem_cons.mp hs
        exact foldlM_better_of_scale hv hvs

/-- Two values chosen from the same ones are equal. -/
theorem Chosen.equals (strict : wanted ≠ .eq) (scale : OneScale seen) (h : Chosen wanted seen best)
    (h' : Chosen wanted seen r) : r.equals best = true := by
  obtain ⟨s, hs⟩ := scale
  obtain ⟨order, ho⟩ := Option.isSome_iff_exists.mp
    (Value.order?_isSome_iff.mpr ⟨s, hs r h'.mem, hs best h.mem⟩)
  have forth := h.unbeaten r h'.mem
  have back := h'.unbeaten best h.mem
  rw [Value.order?_swap r best] at back
  rw [ho] at forth back
  have tied : order = .eq := by
    cases order <;> cases wanted <;> simp at forth back strict ⊢
  exact Value.equals_of_order? (tied ▸ ho)

/-- Values of one kind have an extreme in every order, and all of these are equal. -/
theorem exists_extreme_of_perm (name : String) {wanted : Ordering} (strict : wanted ≠ .eq)
    {arguments reordered : List Value} (perm : reordered.Perm arguments)
    (nonempty : arguments ≠ []) (scale : OneScale arguments) {r : Value}
    (h : extreme name wanted arguments = .ok r) :
    ∃ r', extreme name wanted reordered = .ok r' ∧ r'.equals r = true := by
  have scale' : OneScale reordered := scale.imp fun s hs v hv => hs v (perm.mem_iff.mp hv)
  have nonempty' : reordered ≠ [] := by
    rintro rfl
    exact nonempty (List.nil_perm.mp perm)
  obtain ⟨r', h'⟩ := (extreme_ok_iff name wanted nonempty').mpr (.inr scale')
  have chosen := extreme_chosen strict h
  have chosen' := extreme_chosen strict h'
  refine ⟨r', h', chosen.equals strict scale ?_⟩
  exact ⟨perm.mem_iff.mp chosen'.mem, fun v hv => chosen'.unbeaten v (perm.mem_iff.mpr hv)⟩

/-- **The least and the greatest argument.**  There is one just if there is a single argument or
all of them are of one kind.  It is one of the arguments and no other beats it.  The arguments in
any other order give an equal result, but for a single argument that is not a number, which is its
own result and does not equal itself. -/
theorem extreme_is_unbeaten_unless_single_nan {δ : Type} (devices : Devices δ) (name : String)
    (wanted : Ordering) (chooser : (name, wanted) ∈ [("min", Ordering.lt), ("max", Ordering.gt)])
    (arguments : List Value) (nonempty : arguments ≠ []) :
    (∃ documentation,
      Builtin.pure name documentation (extreme name wanted) ∈ builtinFunctions devices) ∧
    ((∃ r, extreme name wanted arguments = .ok r) ↔
      arguments.length = 1 ∨ OneScale arguments) ∧
    (¬(arguments.length = 1 ∨ OneScale arguments) →
      ∃ a ∈ arguments, ∃ b ∈ arguments, extreme name wanted arguments =
        .error (.typeMismatch (if wanted = .lt then "<" else ">") a.typeName b.typeName)) ∧
    ∀ r, extreme name wanted arguments = .ok r →
      r ∈ arguments ∧ (∀ v ∈ arguments, v.order? r ≠ wanted) ∧
      ∀ reordered : List Value, reordered.Perm arguments →
        ∃ r', extreme name wanted reordered = .ok r' ∧
          (r'.equals r = true ↔ ¬∃ x : Float, x.isNaN = true ∧ arguments = [.float x]) := by
  have strict : wanted ≠ .eq := by
    rintro rfl
    simp at chooser
  refine ⟨?_, extreme_ok_iff name wanted nonempty, ?_, ?_⟩
  · simp only [List.mem_cons, Prod.mk.injEq, List.not_mem_nil, or_false] at chooser
    rcases chooser with ⟨rfl, rfl⟩ | ⟨rfl, rfl⟩
    · exact ⟨"The smallest of the arguments", by simp [builtinFunctions]⟩
    · exact ⟨"The largest of the arguments", by simp [builtinFunctions]⟩
  · -- two arguments that do not compare: the pass stops at the first of them
    intro neither
    obtain ⟨alone, apart⟩ := not_or.mp neither
    cases arguments with
    | nil => exact absurd rfl nonempty
    | cons v vs =>
      refine foldlM_better_of_not_oneScale wanted ?_ apart
      rintro rfl
      exact alone rfl
  · intro r h
    -- the pass keeps a value that is unbeaten so far
    have chosen := extreme_chosen strict h
    refine ⟨chosen.mem, chosen.unbeaten, ?_⟩
    intro reordered perm
    by_cases alone : arguments.length = 1
    · -- a single argument is never compared, so that it may not equal itself
      obtain ⟨v, rfl⟩ := List.length_eq_one_iff.mp alone
      obtain rfl := List.perm_singleton.mp perm
      obtain rfl : v = r := Except.ok.inj h
      refine ⟨v, rfl, ?_⟩
      simpa using Value.equals_self_iff
    · -- of several, each has been compared, and is a number if it is a float
      have scale : OneScale arguments :=
        ((extreme_ok_iff name wanted nonempty).mp ⟨r, h⟩).resolve_left alone
      obtain ⟨r', h', equal⟩ := exists_extreme_of_perm name strict perm nonempty scale h
      refine ⟨r', h', fun _ => ?_, fun _ => equal⟩
      rintro ⟨x, _, rfl⟩
      exact alone rfl

/-- Three numbers, the middle one equal to both others, which differ. -/
theorem extreme_is_unbeaten_unless_single_nan_tie :
    extreme "min" .lt [.int 9007199254740993, .float 9007199254740992.0, .int 9007199254740992] =
        .ok (.int 9007199254740992) ∧
      ∃ r, extreme "min" .lt
          [.float 9007199254740992.0, .int 9007199254740993, .int 9007199254740992] = .ok r ∧
        r.equals (.int 9007199254740992) = true := by
  have least : extreme "min" .lt
      [.int 9007199254740993, .float 9007199254740992.0, .int 9007199254740992] =
        .ok (.int 9007199254740992) := by decide +kernel
  obtain ⟨_, _, _, results⟩ := extreme_is_unbeaten_unless_single_nan Simulation.devices
    "min" .lt (by simp) [.int 9007199254740993, .float 9007199254740992.0, .int 9007199254740992] (by simp)
  obtain ⟨_, _, reorder⟩ := results _ least
  obtain ⟨r, h, equal⟩ := reorder
    [.float 9007199254740992.0, .int 9007199254740993, .int 9007199254740992] (.swap _ _ _)
  exact ⟨least, r, h, equal.mpr (by simp)⟩

/-- The least of one argument that is not a number does not equal itself. -/
theorem least_of_single_nan_is_not_equal_to_itself :
    ∃ r, extreme "min" .lt [.float (0.0 / 0.0)] = .ok r ∧ r.equals r = false := by
  exact ⟨.float (0.0 / 0.0), rfl, by decide +kernel⟩

end Function

end StepScript
