import StepScript.Proofs.Requests
import StepScript.Proofs.RoundTrip

/-!
# Programs that share a cache

Any number of programs are created over one store and take their cycles in any order, while scripts
and expressions are parsed for others through the same cache, and the cache is cleared.  None of it
matters to a program: it goes through the same states, with the same results and signals, as if it
were alone with a cache of its own.

Of what happens when a program is created, only the program counts.  Whether its script was parsed
or found is written to the log of the cache, and is not a matter of the program.

## Main definitions

* `Happening` — what may happen around programs that share a store.
* `Common` — the store, and the programs over it.
* `Sight` — what can be seen of a happening.
* `happen` — one happening after the other.

## Main results

* `happen_alone` — what can be seen of one program among others, can be seen of it alone.
* `cache_of_happen` — the cache after some happenings.
* `programs_sharing_a_cache_do_not_interfere`
-/

namespace StepScript

variable {κ ι ω : Type}

/-- What may happen around programs that share a store, where `κ` are the names of the programs. -/
inductive Happening (κ : Type)
  /-- A program is created from a text, under some name and with some variables set. -/
  | load (k : κ) (source name : String) (vars : List (String × Value))
  /-- A program takes a cycle. -/
  | cycle (k : κ)
  /-- The host writes the variables of a program. -/
  | write (k : κ) (vars : Variables)
  /-- The cache is asked for a script. -/
  | script (source : String)
  /-- The cache is asked for an expression. -/
  | expression (source : String)
  /-- The cache is cleared. -/
  | clear

/-- Whether a happening concerns a certain program. -/
def Happening.concerns [DecidableEq κ] (k : κ) : Happening κ → Bool
  | load j _ _ _ | cycle j | write j _ => decide (j = k)
  | script _ | expression _ | clear => false

/-- The store, and the programs over it. -/
structure Common (κ ι ω : Type) where
  /-- The store. -/
  store : Store ω
  /-- The programs that have been created. -/
  programs : κ → Option (Program ι)

/-- Before anything happens. -/
def Common.initial (host : ω) : Common κ ι ω :=
  ⟨⟨.empty, host⟩, fun _ => none⟩

/-- What can be seen of a happening. -/
inductive Sight (ι : Type)
  /-- A program was created, or its script could not be parsed. -/
  | loaded (result : Except ParseError (Program ι))
  /-- The program after a cycle, what the cycle gave and sent, and the expressions that commands
  asked for in it. -/
  | cycled (program : Program ι) (result : Except ProgramError Unit) (signals : List Signal)
    (requests : List String)
  /-- The cache gave a script. -/
  | script (result : Except ParseError (Shared Script))
  /-- The cache gave an expression. -/
  | expression (result : Except ParseError (Shared Expr))
  /-- Nothing. -/
  | nothing

section

variable [DecidableEq κ]

/-- A program in place of the one of this name, and another store. -/
def Common.put (c : Common κ ι ω) (k : κ) (p : Program ι) (store : Store ω) : Common κ ι ω :=
  ⟨store, fun j => if j = k then some p else c.programs j⟩

/-- The same with another cache. -/
def Common.withCache (c : Common κ ι ω) (cache : Cache) : Common κ ι ω :=
  { c with store := ⟨cache, c.store.host⟩ }

/-- Lets something happen.  Each program has commands of its own. -/
def perform (commands : κ → Commands ι ω) (c : Common κ ι ω) :
    Happening κ → Option (Sight ι × Common κ ι ω)
  | .load k source name vars =>
    let effect : Effect ω (Except ParseError (Program ι)) := Program.load source vars c.store
    match effect.value with
    | .ok p => some (.loaded (.ok (p.named name)), c.put k (p.named name) effect.store)
    | .error e => some (.loaded (.error e), { c with store := effect.store })
  | .cycle k =>
    match c.programs k with
    | none => some (.nothing, c)
    | some p =>
      (p.cycle (commands k) c.store).map fun effect =>
        (.cycled effect.value.1 effect.value.2 effect.signals (p.requests (commands k) c.store),
          c.put k effect.value.1 effect.store)
  | .write k vars =>
    match c.programs k with
    | none => some (.nothing, c)
    | some p => some (.nothing, c.put k { p with vars } c.store)
  | .script source =>
    some (.script (c.store.cache.script source).1, c.withCache (c.store.cache.script source).2)
  | .expression source =>
    some (.expression (c.store.cache.expression source).1,
      c.withCache (c.store.cache.expression source).2)
  | .clear => some (.nothing, c.withCache c.store.cache.clear)

/-- Lets one thing happen after the other.  All that can be seen is kept in order.  Nothing is given
if one of the cycles never ends. -/
def happen (commands : κ → Commands ι ω) :
    List (Happening κ) → Common κ ι ω → Option (List (Happening κ × Sight ι) × Common κ ι ω)
  | [], c => some ([], c)
  | h :: hs, c => do
    let (sight, c) ← perform commands c h
    let (trace, c) ← happen commands hs c
    return ((h, sight) :: trace, c)

/-- The calls that a happening makes on the cache. -/
def cacheCalls : Happening κ × Sight ι → List CacheCall
  | (.load _ source _ _, _) | (.script source, _) => [.script source]
  | (.expression source, _) => [.expression source]
  | (.clear, _) => [.clear]
  | (.cycle _, .cycled _ _ _ requests) => requests.map .expression
  | _ => []

/-- If the cache was asked for a text, it has given what parsing gives. -/
def Honest : Happening κ × Sight ι → Prop
  | (.script source, sight) =>
    ∃ result, sight = .script result ∧ result.map Shared.value = parseScript source
  | (.expression source, sight) =>
    ∃ result, sight = .expression result ∧ result.map Shared.value = parseExpr source
  | _ => True

/-! ### One happening -/

variable {commands : κ → Commands ι ω} {c c' d : Common κ ι ω} {h : Happening κ} {sight : Sight ι}
  {k : κ}

theorem Program.load_apply (source : String) (vars : List (String × Value)) (s : Store ω) :
    ∃ signals, (Program.load source vars : Action ω (Except ParseError (Program ι))) s =
      ⟨(s.cache.script source).1.map fun script =>
        ofScript script.value (Variables.initial.setAll vars),
        ⟨(s.cache.script source).2, s.host⟩, signals⟩ := by
  have hscript : ∃ signals, Action.script source s =
      ⟨(s.cache.script source).1, ⟨(s.cache.script source).2, s.host⟩, signals⟩ := ⟨_, rfl⟩
  obtain ⟨signals, hscript⟩ := hscript
  rw [load, Action.bind_apply, hscript]
  cases (s.cache.script source).1 <;> exact ⟨_, rfl⟩

/-- The program that is created from a text, if it can be parsed. -/
def loaded (source name : String) (vars : List (String × Value)) :
    Except ParseError (Program ι) :=
  (parseScript source).map fun script =>
    (Program.ofScript script (Variables.initial.setAll vars)).named name

/-- What is created does not depend on the cache. -/
theorem perform_load (sound : c.store.cache.Sound) (source name : String)
    (vars : List (String × Value)) :
    perform commands c (.load k source name vars) =
      some (.loaded (loaded source name vars),
        match loaded source name vars with
        | .ok p => (c.withCache (c.store.cache.script source).2).put k p
            ⟨(c.store.cache.script source).2, c.store.host⟩
        | .error _ => c.withCache (c.store.cache.script source).2) := by
  obtain ⟨signals, hload⟩ := Program.load_apply (ι := ι) source vars c.store
  rw [perform, hload, loaded, ← sound.script_value source]
  cases (c.store.cache.script source).1 <;> rfl

/-- A cycle of a program that exists. -/
theorem perform_cycle {p : Program ι} (hp : c.programs k = some p) :
    perform commands c (.cycle k) =
      (p.cycle (commands k) c.store).map fun effect =>
        (.cycled effect.value.1 effect.value.2 effect.signals (p.requests (commands k) c.store),
          c.put k effect.value.1 effect.store) := by
  rw [perform, hp]

theorem perform_of_cycle {p : Program ι} {outcome : Program ι × Except ProgramError Unit}
    {t : Store ω} {signals : List Signal} (hp : c.programs k = some p)
    (hcycle : p.cycle (commands k) c.store = some ⟨outcome, t, signals⟩) :
    perform commands c (.cycle k) =
      some (.cycled outcome.1 outcome.2 signals (p.requests (commands k) c.store),
        c.put k outcome.1 t) := by
  rw [perform_cycle hp, hcycle]
  rfl

/-- **The cache after a happening** has been called as the happening says, and its answers are
honest. -/
theorem cache_of_perform (sound : c.store.cache.Sound)
    (given : perform commands c h = some (sight, d)) :
    d.store.cache = c.store.cache.after (cacheCalls (h, sight)) ∧ Honest (h, sight) := by
  -- Only loading, cycling and asking call the cache, and in the way that is seen.
  cases h with
  | load k source name vars =>
    rw [perform_load sound] at given
    cases given
    refine ⟨?_, trivial⟩
    cases loaded (ι := ι) source name vars <;> rfl
  | cycle k =>
    cases hp : c.programs k with
    | none =>
      rw [perform, hp] at given
      cases given
      exact ⟨rfl, trivial⟩
    | some p =>
      rw [perform_cycle hp] at given
      obtain ⟨effect, hcycle, heq⟩ := Option.map_eq_some_iff.mp given
      cases heq
      exact ⟨Program.cache_of_cycle hcycle, trivial⟩
  | write k vars =>
    cases hp : c.programs k with
    | none =>
      rw [perform, hp] at given
      cases given
      exact ⟨rfl, trivial⟩
    | some p =>
      rw [perform, hp] at given
      cases given
      exact ⟨rfl, trivial⟩
  | script source =>
    cases given
    exact ⟨rfl, _, rfl, sound.script_value source⟩
  | expression source =>
    cases given
    exact ⟨rfl, _, rfl, sound.expression_value source⟩
  | clear =>
    cases given
    exact ⟨rfl, trivial⟩

/-- A happening keeps the cache sound. -/
theorem sound_of_perform (sound : c.store.cache.Sound)
    (given : perform commands c h = some (sight, d)) : d.store.cache.Sound := by
  rw [(cache_of_perform sound given).1]
  exact sound.after _

/-! ### One program among others -/

/-- A program is in the same state on both sides, and the caches are sound. -/
structure SameView (k : κ) (c c' : Common κ ι ω) : Prop where
  sound : c.store.cache.Sound
  sound' : c'.store.cache.Sound
  program : c.programs k = c'.programs k

omit [DecidableEq κ] in
theorem SameView.symm (same : SameView k c c') : SameView k c' c :=
  ⟨same.sound', same.sound, same.program.symm⟩

/-- What concerns a program has the same consequences for it on both sides. -/
theorem SameView.perform_of_concerns (selfContained : ∀ k, (commands k).SelfContained)
    (same : SameView k c c') (concerned : h.concerns k = true)
    (given : perform commands c h = some (sight, d)) :
    ∃ d', perform commands c' h = some (sight, d') ∧ SameView k d d' := by
  have sound := sound_of_perform same.sound given
  -- it is enough to perform on the other side, with the same program as the result
  have ends : ∀ d', perform commands c' h = some (sight, d') → d.programs k = d'.programs k →
      ∃ d', perform commands c' h = some (sight, d') ∧ SameView k d d' :=
    fun d' given' program => ⟨d', given', sound, sound_of_perform same.sound' given', program⟩
  cases h with
  | load j source name vars =>
    obtain rfl : j = k := of_decide_eq_true concerned
    -- a sound cache loads what parsing gives
    rw [perform_load same.sound] at given
    cases given
    refine ends _ (perform_load same.sound' source name vars) ?_
    cases loaded (ι := ι) source name vars with
    | ok p => simp [Common.put]
    | error e => exact same.program
  | cycle j =>
    obtain rfl : j = k := of_decide_eq_true concerned
    cases hp : c.programs j with
    | none =>
      rw [perform, hp] at given
      cases given
      refine ends c' ?_ same.program
      rw [perform, ← same.program, hp]
    | some p =>
      have hp' : c'.programs j = some p := same.program.symm.trans hp
      rw [perform_cycle hp] at given
      obtain ⟨effect, hcycle, heq⟩ := Option.map_eq_some_iff.mp given
      cases heq
      -- the commands regard neither host nor cache, so that the cycle is the same
      obtain ⟨t', hcycle', hrequests⟩ := Program.cycle_of_selfContained (selfContained j)
        same.sound same.sound' hcycle
      refine ends (c'.put j effect.value.1 t') ?_ (by simp [Common.put])
      rw [perform_of_cycle hp' hcycle', hrequests]
  | write j vars =>
    obtain rfl : j = k := of_decide_eq_true concerned
    cases hp : c.programs j with
    | none =>
      rw [perform, hp] at given
      cases given
      refine ends c' ?_ same.program
      rw [perform, ← same.program, hp]
    | some p =>
      rw [perform, hp] at given
      cases given
      refine ends (c'.put j { p with vars } c'.store) ?_ (by simp [Common.put])
      rw [perform, ← same.program, hp]
  | script | expression | clear => cases concerned

/-- What does not concern a program leaves it alone. -/
theorem SameView.perform_of_not_concerns (same : SameView k c c')
    (unconcerned : h.concerns k = false) (given : perform commands c h = some (sight, d)) :
    SameView k d c' := by
  refine ⟨sound_of_perform same.sound given, same.sound', Eq.trans ?_ same.program⟩
  -- Whatever happens is put under another key.
  cases h with
  | load j source name vars =>
    have hne : ¬ k = j := fun heq => of_decide_eq_false unconcerned heq.symm
    rw [perform_load same.sound] at given
    cases given
    cases loaded (ι := ι) source name vars with
    | ok p => simp [Common.put, Common.withCache, hne]
    | error e => rfl
  | cycle j =>
    have hne : ¬ k = j := fun heq => of_decide_eq_false unconcerned heq.symm
    cases hp : c.programs j with
    | none =>
      rw [perform, hp] at given
      cases given
      rfl
    | some p =>
      rw [perform_cycle hp] at given
      obtain ⟨effect, hcycle, heq⟩ := Option.map_eq_some_iff.mp given
      cases heq
      simp [Common.put, hne]
  | write j vars =>
    have hne : ¬ k = j := fun heq => of_decide_eq_false unconcerned heq.symm
    cases hp : c.programs j with
    | none =>
      rw [perform, hp] at given
      cases given
      rfl
    | some p =>
      rw [perform, hp] at given
      cases given
      simp [Common.put, hne]
  | script | expression | clear =>
    cases given
    rfl

/-! ### One happening after the other -/

theorem happen_cons_eq_some_iff {hs : List (Happening κ)} {trace : List (Happening κ × Sight ι)} :
    happen commands (h :: hs) c = some (trace, d) ↔
      ∃ sight c₁ rest, perform commands c h = some (sight, c₁) ∧
        happen commands hs c₁ = some (rest, d) ∧ trace = (h, sight) :: rest := by
  rw [happen]
  constructor
  · intro given
    obtain ⟨⟨sight, c₁⟩, hperform, given⟩ := Option.bind_eq_some_iff.mp given
    obtain ⟨⟨rest, d'⟩, hrest, given⟩ := Option.bind_eq_some_iff.mp given
    cases given
    exact ⟨sight, c₁, rest, hperform, hrest, rfl⟩
  · rintro ⟨sight, c₁, rest, hperform, hrest, rfl⟩
    refine Option.bind_eq_some_iff.mpr ⟨_, hperform, ?_⟩
    exact Option.bind_eq_some_iff.mpr ⟨_, hrest, rfl⟩

theorem isSome_happen_cons {hs : List (Happening κ)}
    (given : perform commands c h = some (sight, d))
    (rest : (happen commands hs d).isSome = true) :
    (happen commands (h :: hs) c).isSome = true := by
  obtain ⟨⟨trace, e⟩, hrest⟩ := Option.isSome_iff_exists.mp rest
  exact Option.isSome_iff_exists.mpr
    ⟨_, happen_cons_eq_some_iff.mpr ⟨sight, d, trace, given, hrest, rfl⟩⟩

variable {schedule : List (Happening κ)} {trace : List (Happening κ × Sight ι)}

/-- The cache after some happenings. -/
theorem cache_of_happen (sound : c.store.cache.Sound)
    (given : happen commands schedule c = some (trace, d)) :
    d.store.cache = c.store.cache.after (trace.flatMap cacheCalls) ∧
      ∀ entry ∈ trace, Honest entry := by
  induction schedule generalizing c trace with
  | nil =>
    cases given
    exact ⟨rfl, by simp⟩
  | cons h hs ih =>
    obtain ⟨sight, c₁, rest, hperform, hrest, rfl⟩ := happen_cons_eq_some_iff.mp given
    obtain ⟨hcache, honest⟩ := cache_of_perform sound hperform
    obtain ⟨hcache', honest'⟩ := ih (sound_of_perform sound hperform) hrest
    refine ⟨?_, List.forall_mem_cons.mpr ⟨honest, honest'⟩⟩
    rw [hcache', hcache, List.flatMap_cons, Cache.after_append]

/-- **What can be seen of one program among others, can be seen of it alone.** -/
theorem SameView.happen_alone (selfContained : ∀ k, (commands k).SelfContained)
    (same : SameView k c c') (given : happen commands schedule c = some (trace, d)) :
    ∃ d', happen commands (schedule.filter (·.concerns k)) c' =
      some (trace.filter (·.1.concerns k), d') ∧ SameView k d d' := by
  induction schedule generalizing c c' trace with
  | nil =>
    cases given
    exact ⟨c', rfl, same⟩
  | cons h hs ih =>
    obtain ⟨sight, c₁, rest, hperform, hrest, rfl⟩ := happen_cons_eq_some_iff.mp given
    cases concerned : h.concerns k with
    | true =>
      obtain ⟨c₁', hperform', same'⟩ := same.perform_of_concerns selfContained concerned hperform
      obtain ⟨d', hrest', hsame⟩ := ih same' hrest
      simp only [List.filter_cons, concerned, if_true]
      exact ⟨d', happen_cons_eq_some_iff.mpr ⟨sight, c₁', _, hperform', hrest', rfl⟩, hsame⟩
    | false =>
      obtain ⟨d', hrest', hsame⟩ := ih (same.perform_of_not_concerns concerned hperform) hrest
      simp only [List.filter_cons, concerned, Bool.false_eq_true, if_false]
      exact ⟨d', hrest', hsame⟩

/-- Something happens if it happens wherever one program is alone. -/
theorem exists_perform (selfContained : ∀ k, (commands k).SelfContained)
    (alone : ∀ k, h.concerns k = true →
      ∃ c' sight d', SameView k c c' ∧ perform commands c' h = some (sight, d')) :
    ∃ sight d, perform commands c h = some (sight, d) := by
  have here : ∀ k, h.concerns k = true → ∃ sight d, perform commands c h = some (sight, d) := by
    intro k concerned
    obtain ⟨c', sight, d', same, given⟩ := alone k concerned
    obtain ⟨d, given, -⟩ := same.symm.perform_of_concerns selfContained concerned given
    exact ⟨sight, d, given⟩
  cases h with
  | load k | cycle k | write k => exact here k (decide_eq_true rfl)
  | script | expression | clear => exact ⟨_, _, rfl⟩

/-- If every program comes to an end alone, all of them do together. -/
theorem exists_happen (selfContained : ∀ k, (commands k).SelfContained)
    (alone : ∀ k, ∃ c' trace d', SameView k c c' ∧
      happen commands (schedule.filter (·.concerns k)) c' = some (trace, d')) :
    ∃ trace d, happen commands schedule c = some (trace, d) := by
  induction schedule generalizing c with
  | nil => exact ⟨[], c, rfl⟩
  | cons h hs ih =>
    -- whoever is concerned has let it happen alone
    have first : ∀ k, h.concerns k = true → ∃ c' sight c₁' trace d', SameView k c c' ∧
        perform commands c' h = some (sight, c₁') ∧
        happen commands (hs.filter (·.concerns k)) c₁' = some (trace, d') := by
      intro k concerned
      obtain ⟨c', trace, d', same, given⟩ := alone k
      simp only [List.filter_cons, concerned, if_true] at given
      obtain ⟨sight, c₁', rest, hperform, hrest, -⟩ := happen_cons_eq_some_iff.mp given
      exact ⟨c', sight, c₁', rest, d', same, hperform, hrest⟩
    obtain ⟨sight, c₁, hperform⟩ : ∃ sight c₁, perform commands c h = some (sight, c₁) := by
      refine exists_perform selfContained fun k concerned => ?_
      obtain ⟨c', sight, c₁', -, -, same, given, -⟩ := first k concerned
      exact ⟨c', sight, c₁', same, given⟩
    obtain ⟨trace, d, hrest⟩ : ∃ trace d, happen commands hs c₁ = some (trace, d) := by
      refine ih fun k => ?_
      cases concerned : h.concerns k with
      | true =>
        obtain ⟨c', sight', c₁', trace, d', same, given, hrest⟩ := first k concerned
        obtain ⟨c₁'', given', same'⟩ := same.perform_of_concerns selfContained concerned hperform
        rw [given] at given'
        cases given'
        exact ⟨c₁', trace, d', same', hrest⟩
      | false =>
        obtain ⟨c', trace, d', same, given⟩ := alone k
        simp only [List.filter_cons, concerned, Bool.false_eq_true, if_false] at given
        exact ⟨c', trace, d', same.perform_of_not_concerns concerned hperform, given⟩
    exact ⟨_, d, happen_cons_eq_some_iff.mpr ⟨sight, c₁, trace, hperform, hrest, rfl⟩⟩

/-- **Programs that share a cache do not interfere.**  Over commands that do not regard the host, and
whatever else happens in between, all programs come to the end of a schedule together if and only if
each of them does alone, with a cache of its own that is empty at first; and each goes through the
same states then, with the same results and signals.  The cache gives what parsing gives, keeps
nothing of a text that cannot be parsed, and holds as many texts as have been parsed, as scripts and
as expressions, since it was last cleared. -/
theorem programs_sharing_a_cache_do_not_interfere (commands : κ → Commands ι ω)
    (selfContained : ∀ k, (commands k).SelfContained) (schedule : List (Happening κ)) (host : ω)
    (hosts : κ → ω) :
    ((happen commands schedule (.initial host)).isSome = true ↔ ∀ k,
      (happen commands (schedule.filter (·.concerns k)) (.initial (hosts k))).isSome = true) ∧
    ∀ trace c, happen commands schedule (.initial host) = some (trace, c) →
      (∀ k, ∃ c', happen commands (schedule.filter (·.concerns k)) (.initial (hosts k)) =
        some (trace.filter (·.1.concerns k), c') ∧ c.programs k = c'.programs k) ∧
      (∀ entry ∈ trace, Honest entry) ∧
      (∀ source e, parseScript source = .error e →
        c.store.cache.script source = (.error e, c.store.cache)) ∧
      (∀ source e, parseExpr source = .error e →
        c.store.cache.expression source = (.error e, c.store.cache)) ∧
      c.store.cache.size =
        (textsRead parseScript CacheCall.script? (trace.flatMap cacheCalls)).dedup.length +
          (textsRead parseExpr CacheCall.expression? (trace.flatMap cacheCalls)).dedup.length := by
  have same : ∀ k, SameView k (.initial host : Common κ ι ω) (.initial (hosts k)) :=
    fun k => ⟨Cache.sound_empty, Cache.sound_empty, rfl⟩
  refine ⟨⟨fun given k => ?_, fun alone => ?_⟩, fun trace c given => ?_⟩
  · obtain ⟨⟨trace, c⟩, given⟩ := Option.isSome_iff_exists.mp given
    obtain ⟨c', given', -⟩ := (same k).happen_alone selfContained given
    exact Option.isSome_iff_exists.mpr ⟨_, given'⟩
  · -- if none gets stuck alone, none gets stuck together: by induction on the schedule
    obtain ⟨trace, c, given⟩ := exists_happen selfContained fun k => by
      obtain ⟨⟨trace, c⟩, given⟩ := Option.isSome_iff_exists.mp (alone k)
      exact ⟨_, trace, c, same k, given⟩
    exact Option.isSome_iff_exists.mpr ⟨_, given⟩
  · obtain ⟨hcache, honest⟩ := cache_of_happen Cache.sound_empty given
    have sound : c.store.cache.Sound := hcache ▸ Cache.sound_after _
    refine ⟨fun k => ?_, honest, fun source e => sound.script_of_error,
      fun source e => sound.expression_of_error, ?_⟩
    · obtain ⟨c', given', view⟩ := (same k).happen_alone selfContained given
      exact ⟨c', given', view.program⟩
    · rw [hcache]
      exact Cache.size_after _

end

/-! ### Two programs that wait -/

theorem parseScript_ask :
    ∃ span, parseScript "ask();" = .ok ⟨[⟨.expression (.call "ask" []), span⟩]⟩ := by
  have kinds : (lex "ask();").tokens.map Token.kind = [.identifier "ask", .punctuator .leftParen,
      .punctuator .rightParen, .punctuator .semicolon] := by
    decide +kernel
  simp only [List.map_eq_cons_iff, List.map_eq_nil_iff] at kinds
  obtain ⟨ask, _, whole, named, opening, _, rfl, opens, closing, _, rfl, closes, semicolon, _, rfl,
    ends, rfl⟩ := kinds
  have call := Derives.call named opens .noArguments closes
  have statement : DerivesKind ([ask, opening, closing] ++ [semicolon])
      (.expression (.call "ask" [])) := .expression call.to_disjunction ends
  let span : Span := ⟨ask.span.start, semicolon.span.stop⟩
  have script : DerivesScript ([ask, opening, closing, semicolon] ++ [])
      [⟨.expression (.call "ask" []), span⟩] :=
    .cons ⟨statement, ask, rfl, semicolon, rfl, rfl⟩ .nil
  exact ⟨span, parseScript_eq_ok_iff.mpr ⟨_, tokens_eq_ok_iff.mpr ⟨by decide +kernel, whole⟩,
    parseStatements_eq_ok_iff.mpr script⟩⟩

/-- The program of the text `ask();`. -/
def asker (span : Span) (name : String) : Program Nat :=
  (Program.ofScript ⟨[⟨.expression (.call "ask" []), span⟩]⟩ (Variables.initial.setAll [])).named
    name

/-- The program while it waits for the value of `hold()`. -/
def waitingAsker (span : Span) (name : String) : Program Nat :=
  { asker span name with
    evaluation := some (.asking "ask" 2 "hold()" (.call "hold" []) (.calling "hold" 0)) }

theorem exists_cycle_asker {v : Value} {span : Span} {name : String} {s : Store ω}
    (sound : s.cache.Sound) : ∃ t signals, (asker span name).cycle (.deferring v) s =
      some ⟨(waitingAsker span name, .ok ()), t, signals⟩ := by
  have step : ∃ cache signals, resume ⟨.deferring v, (asker span name).vars⟩ .fresh
      (.call "ask" []) s = some ⟨.suspended (.asking "ask" 2 "hold()" (.call "hold" [])
        (.calling "hold" 0)), ⟨cache, s.host⟩, signals⟩ := exists_resume_ask sound
  obtain ⟨cache, signals, hresume⟩ := step
  obtain ⟨signals', hcycle, -⟩ :=
    Program.cycle_of_resume (p := asker span name) rfl rfl rfl hresume
  exact ⟨_, signals', hcycle⟩

theorem exists_cycle_waitingAsker {v : Value} {span : Span} {name : String} {s : Store ω} :
    ∃ effect, (waitingAsker span name).cycle (.deferring v) s = some effect := by
  have step : ∃ signals, resume ⟨.deferring v, (asker span name).vars⟩ (.asking "ask" 2 "hold()"
      (.call "hold" []) (.calling "hold" 0)) (.call "ask" []) s =
        some ⟨.complete v, s, signals⟩ := exists_resume_asking
  obtain ⟨signals, hresume⟩ := step
  obtain ⟨signals', hcycle, -⟩ :=
    Program.cycle_of_resume (p := waitingAsker span name) rfl rfl rfl hresume
  exact ⟨_, hcycle⟩

/-- Alone, the program `ask();` comes to its end in two cycles. -/
theorem isSome_happen_ask [DecidableEq κ] {commands : κ → Commands Nat ω} {v : Value} {k : κ}
    (hcommands : commands k = .deferring v) (name : String) (host : ω) :
    (happen commands [.load k "ask();" name [], .cycle k, .cycle k] (.initial host)).isSome =
      true := by
  obtain ⟨span, hparse⟩ := parseScript_ask
  have hloaded : loaded "ask();" name [] = .ok (asker span name) := by
    rw [loaded, hparse]
    rfl
  let cache : Cache := (Cache.empty.script "ask();").2
  let c : Common κ Nat ω := (Common.withCache (.initial host) cache).put k (asker span name)
    ⟨cache, host⟩
  have hload : perform commands (.initial host) (.load k "ask();" name []) =
      some (.loaded (.ok (asker span name)), c) := by
    rw [perform_load Cache.sound_empty, hloaded]
    rfl
  have sound : c.store.cache.Sound := Cache.sound_empty.script "ask();"
  obtain ⟨t, signals, hcycle⟩ : ∃ t signals, (asker span name).cycle (commands k) c.store =
      some ⟨(waitingAsker span name, .ok ()), t, signals⟩ := hcommands ▸ exists_cycle_asker sound
  have first := perform_of_cycle (if_pos rfl) hcycle
  obtain ⟨effect, hcycle'⟩ : ∃ effect, (waitingAsker span name).cycle (commands k) t =
      some effect := hcommands ▸ exists_cycle_waitingAsker
  have second := perform_of_cycle (c := c.put k (waitingAsker span name) t) (if_pos rfl) hcycle'
  exact isSome_happen_cons hload (isSome_happen_cons first (isSome_happen_cons second rfl))

/-- Two programs ask for the same expression.  While they wait for it, the cache is cleared, and the
expression is parsed for another. -/
theorem programs_sharing_a_cache_do_not_interfere_ask :
    let commands : Bool → Commands Nat Unit := fun _ => .deferring (.bool true)
    let schedule : List (Happening Bool) := [.load true "ask();" "first" [],
      .load false "ask();" "second" [], .cycle true, .cycle false, .clear, .cycle true,
      .expression "hold()", .cycle false]
    (∀ k, (commands k).SelfContained) ∧
    ∃ trace c, happen commands schedule (.initial ()) = some (trace, c) ∧
      (∃ c', happen commands [.load true "ask();" "first" [], .cycle true, .cycle true]
        (.initial ()) = some (trace.filter (·.1.concerns true), c')) ∧
      ∃ c', happen commands [.load false "ask();" "second" [], .cycle false, .cycle false]
        (.initial ()) = some (trace.filter (·.1.concerns false), c') := by
  intro commands schedule
  have selfContained : ∀ k, (commands k).SelfContained :=
    fun _ => Commands.selfContained_deferring _
  obtain ⟨together, alone⟩ := programs_sharing_a_cache_do_not_interfere commands selfContained
    schedule () fun _ => ()
  have ends : (happen commands schedule (.initial ())).isSome = true := by
    have hcommands : ∀ k, commands k = .deferring (.bool true) := fun _ => rfl
    refine together.mpr fun k => ?_
    cases k with
    | true => exact isSome_happen_ask (hcommands true) "first" ()
    | false => exact isSome_happen_ask (hcommands false) "second" ()
  obtain ⟨⟨trace, c⟩, given⟩ := Option.isSome_iff_exists.mp ends
  obtain ⟨views, -⟩ := alone trace c given
  obtain ⟨c', first, -⟩ := views true
  obtain ⟨c'', second, -⟩ := views false
  exact ⟨selfContained, trace, c, given, ⟨c', first⟩, ⟨c'', second⟩⟩

end StepScript
