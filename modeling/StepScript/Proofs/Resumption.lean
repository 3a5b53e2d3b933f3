import StepScript.Proofs.Generator

/-!
# Resuming is direct evaluation

An evaluation that is stepped again and again does what direct evaluation does at once.  The bridge
is `finishing`, which reads a place in an evaluation as the computation that is still to be done.  A
step then does a part of that computation: if it completes, it has done all of it, and if it
suspends, what remains is a pause and the computation that its new place stands for.

That a step does its part is shown in two halves, since neither side need end.  Whenever a step
gives something, direct evaluation goes the same way; and whenever direct evaluation ends, the step
gives something.  `Lockstep` has both halves, so that every way to put steps together is treated
once.

## Main definitions

* `Progress.follow` — what remains to be done after a step.
* `finishing` — the computation that a place in an evaluation stands for.
* `Lockstep` — a step does its part of a computation.
* `stepAll` — one evaluation, stepped with one moment after the other.

## Main results

* `lockstep_drive`, `lockstep_resume` — every step does its part.
* `stepAll_eq_finishing` — stepping an evaluation to its end is direct evaluation.
-/

namespace StepScript

variable {ι ω : Type}

section

variable (commands : Commands ι ω) (pause : Generator ω Fault Unit)

/-- Evaluates an expression whose operands are known. -/
def combine (talk : Talk ι ω) : Expr → List Value → Generator ω Fault Value
  | .literal v, _ => pure v
  | .reference name, _ => do
    let vars ← .vars
    return vars.resolve name
  | .unary op _, values => .ofExcept (op.apply (values.getD 0 .null))
  | .binary op _ _, values => do
    let result ← .perform (.ofOption (op.apply (values.getD 0 .null) (values.getD 1 .null)))
    .ofExcept result
  | .call name _, values => summon commands talk name values

theorem evaluateAll_cons_bind {α : Type} (talk : Talk ι ω) (e : Expr) (es : List Expr)
    (f : List Value → Generator ω Fault α) :
    (evaluateAll commands talk (e :: es) >>= f) = (do
      let v ← evaluate commands talk e
      let vs ← evaluateAll commands talk es
      f (v :: vs)) := by
  rw [evaluateAll]
  simp only [bind_assoc, pure_bind]

theorem evaluateAll_nil_bind {α : Type} (talk : Talk ι ω) (f : List Value → Generator ω Fault α) :
    (evaluateAll commands talk [] >>= f) = f [] := by
  rw [evaluateAll]
  exact pure_bind [] f

/-- One equation for every form of expression: all operands, then the expression itself. -/
theorem evaluate_eq_combine (talk : Talk ι ω) (e : Expr) :
    evaluate commands talk e =
      evaluateAll commands talk e.operands >>= combine commands talk e := by
  cases e with
  | literal | reference | unary | binary =>
    simp [evaluate, Expr.operands, evaluateAll_cons_bind, evaluateAll_nil_bind, combine]
  | call name arguments => rw [evaluate]; rfl

/-- The computation that is still to be done when the evaluation of an expression stands at a
certain place. -/
def finishing : Evaluation ι → Expr → Generator ω Fault Value
  | .fresh, e => generate commands pause e
  | .operand known inner, e =>
    match e.operands.drop known.length with
    | [] => combine commands (converse commands pause) e known
    | x :: rest => do
      let v ← finishing inner x
      let vs ← evaluateAll commands (converse commands pause) rest
      combine commands (converse commands pause) e (known ++ v :: vs)
  | .calling name command, _ => converse commands pause name command
  | .asking name command source request inner, _ => do
    let v ← finishing inner request
    oblige commands (converse commands pause) name command source v

/-- What remains to be done after a step, if `k` says what its new place stands for. -/
def Progress.follow (k : Evaluation ι → Generator ω Fault Value) :
    Progress ι → Generator ω Fault Value
  | complete v => pure v
  | failed fault _ => .fail fault
  | suspended rest => do
    pause
    k rest

end

/-! ### Steps that do their part -/

/-- A step of an evaluation in which the variables are `vars` does its part of the computation
`whole`: whenever the step gives something, what remains is what follows from it, and it gives
something whenever the computation `part`, which is all that is known to end, ends. -/
structure Lockstep (pause : Generator ω Fault Unit) (vars : Variables)
    (k : Evaluation ι → Generator ω Fault Value) (x : Activity ω (Progress ι))
    (part whole : Generator ω Fault Value) : Prop where
  /-- What the step gives is a part of the whole. -/
  follows : ∀ store later effect, x store = some effect →
    whole ⟨vars, store, later⟩ =
      (effect.value.follow pause k ⟨vars, effect.store, later⟩).map
        (Report.after (effect.signals.map .signal))
  /-- The step gives something. -/
  ends : ∀ store later r, part ⟨vars, store, later⟩ = some r → (x store).isSome
  /-- The part belongs to the whole. -/
  below : Below part whole

namespace Lockstep

variable {pause : Generator ω Fault Unit} {vars : Variables}
  {k k₁ : Evaluation ι → Generator ω Fault Value}

theorem complete (v : Value) : Lockstep pause vars k (pure (.complete v)) (pure v) (pure v) where
  follows := by
    rintro store later _ ⟨⟩
    rfl
  ends _ _ _ _ := rfl
  below := .refl _

theorem failed (fault : Fault) (rest : Evaluation ι) :
    Lockstep pause vars k (pure (.failed fault rest)) (.fail fault) (.fail fault) where
  follows := by
    rintro store later _ ⟨⟩
    rfl
  ends _ _ _ _ := rfl
  below := .refl _

theorem ofResult (result : Except Fault Value) :
    Lockstep pause vars k (pure (.ofResult result)) (.ofExcept result) (.ofExcept result) := by
  cases result with
  | ok v => exact complete v
  | error fault => exact failed fault .fresh

theorem resolve (name : String) :
    Lockstep pause vars k (pure (.complete (vars.resolve name)))
      (do let vars ← Generator.vars; return vars.resolve name)
      (do let vars ← Generator.vars; return vars.resolve name) where
  follows := by
    rintro store later _ ⟨⟩
    rfl
  ends _ _ _ _ := rfl
  below := .refl _

theorem suspended (rest : Evaluation ι) {part : Generator ω Fault Value}
    (below : Below part (pause >>= fun _ => k rest)) :
    Lockstep pause vars k (pure (.suspended rest)) part (pause >>= fun _ => k rest) where
  follows := by
    rintro store later _ ⟨⟩
    exact (congrFun Option.map_id _).symm
  ends _ _ _ _ := rfl
  below := below

/-- Something done with the store, and then something that does its part. -/
theorem perform {α : Type} (activity : Activity ω α) {x : α → Activity ω (Progress ι)}
    {part whole : α → Generator ω Fault Value}
    (h : ∀ a, Lockstep pause vars k (x a) (part a) (whole a)) :
    Lockstep pause vars k (activity >>= x) (.perform activity >>= part)
      (.perform activity >>= whole) where
  follows := by
    intro store later effect given
    obtain ⟨first, second, hfirst, hsecond, rfl⟩ := Activity.bind_eq_some_iff.mp given
    rw [Generator.perform_bind_of_eq (s := ⟨vars, store, later⟩) hfirst,
      (h _).follows _ later second hsecond, Option.map_map, List.map_append]
    congr 1
    funext r
    exact Report.after_after _ _ r
  ends := by
    intro store later r given
    cases hfirst : activity store with
    | none =>
      rw [Generator.perform_bind_of_eq_none (s := ⟨vars, store, later⟩) hfirst] at given
      cases given
    | some first =>
      rw [Generator.perform_bind_of_eq (s := ⟨vars, store, later⟩) hfirst] at given
      obtain ⟨r', hr', -⟩ := Option.map_eq_some_iff.mp given
      obtain ⟨effect, he⟩ := Option.isSome_iff_exists.mp ((h _).ends _ later r' hr')
      exact Option.isSome_iff_exists.mpr
        ⟨_, Activity.bind_eq_some_iff.mpr ⟨first, effect, hfirst, he, rfl⟩⟩
  below := Generator.bind_below (.refl _) fun a => (h a).below

/-- Something that does its part, and then something that goes on with its value.  If the first is
suspended, so is the whole, at the place given by `wrap`, and likewise if it fails. -/
theorem andThen {x : Activity ω (Progress ι)} {part whole : Generator ω Fault Value}
    {f : Progress ι → Activity ω (Progress ι)} {part' whole' : Value → Generator ω Fault Value}
    (wrap wrap' : Evaluation ι → Evaluation ι) (hx : Lockstep pause vars k₁ x part whole)
    (hf : ∀ v, Lockstep pause vars k (f (.complete v)) (part' v) (whole' v))
    (hsuspended : ∀ inner, f (.suspended inner) = pure (.suspended (wrap inner)))
    (hfailed : ∀ fault inner, f (.failed fault inner) = pure (.failed fault (wrap' inner)))
    (hk : ∀ inner, k (wrap inner) = k₁ inner >>= whole') :
    Lockstep pause vars k (x >>= f) (part >>= part') (whole >>= whole') where
  follows := by
    intro store later effect given
    obtain ⟨⟨progress, store', signals⟩, second, hfirst, hsecond, rfl⟩ :=
      Activity.bind_eq_some_iff.mp given
    have hwhole := Generator.bind_of_eq_after (hx.follows store later _ hfirst) whole'
    rw [hwhole]
    cases progress with
    | complete v =>
      have hrest : (pure v >>= whole') = whole' v := pure_bind v whole'
      show ((pure v >>= whole') _).map _ = _
      rw [hrest, (hf v).follows store' later second hsecond, Option.map_map, List.map_append]
      congr 1
      funext r
      exact Report.after_after _ _ r
    | suspended inner =>
      rw [hsuspended, Activity.pure_apply, Option.some.injEq] at hsecond
      subst hsecond
      simp only [Progress.follow, bind_assoc, hk, List.append_nil]
    | failed fault inner =>
      rw [hfailed, Activity.pure_apply, Option.some.injEq] at hsecond
      subst hsecond
      simp only [List.append_nil]
      rfl
  ends := by
    intro store later r given
    rw [Generator.bind_apply, Option.bind_eq_some_iff] at given
    obtain ⟨r₁, hr₁, hr⟩ := given
    obtain ⟨effect, he⟩ := Option.isSome_iff_exists.mp (hx.ends store later r₁ hr₁)
    -- What the part has given is what follows from the step.
    have hsame := hx.follows store later effect he
    rw [hx.below _ _ hr₁] at hsame
    obtain ⟨second, hsecond⟩ : ∃ second, f effect.value effect.store = some second := by
      cases hvalue : effect.value with
      | complete v =>
        rw [hvalue] at hsame
        cases hsame
        obtain ⟨r₂, hr₂, -⟩ := Option.map_eq_some_iff.mp hr
        exact Option.isSome_iff_exists.mp ((hf v).ends _ later r₂ hr₂)
      | suspended inner => exact ⟨_, congrFun (hsuspended inner) _⟩
      | failed fault inner => exact ⟨_, congrFun (hfailed fault inner) _⟩
    exact Option.isSome_iff_exists.mpr
      ⟨_, Activity.bind_eq_some_iff.mpr ⟨effect, second, he, hsecond, rfl⟩⟩
  below := Generator.bind_below hx.below fun v => (hf v).below

end Lockstep

section

variable {commands : Commands ι ω} {pause : Generator ω Fault Unit} {vars : Variables}

section

variable {run : Stepper ι ω} {talk : Talk ι ω}

theorem lockstep_conclude
    (steps : ∀ e name command, Lockstep pause vars (finishing commands pause · e) (run name command)
      (talk name command) (converse commands pause name command))
    (e : Expr) (values : List Value) :
    Lockstep pause vars (finishing commands pause · e) (conclude ⟨commands, vars⟩ run e values)
      (combine commands talk e values)
      (combine commands (converse commands pause) e values) := by
  cases e with
  | literal v => exact .complete v
  | reference name => exact .resolve name
  | unary op operand => exact .ofResult _
  | binary op l r =>
    rw [conclude, map_eq_pure_bind]
    exact .perform _ fun result => .ofResult result
  | call name arguments =>
    refine .perform _ fun _ => .perform _ fun created => ?_
    cases created with
    | error fault => exact .failed fault .fresh
    | ok command =>
      simp only [Generator.ofExcept, pure_bind]
      exact steps _ name command

theorem lockstep_settle
    (steps : ∀ e name command, Lockstep pause vars (finishing commands pause · e) (run name command)
      (talk name command) (converse commands pause name command))
    (e : Expr) {es : List Expr}
    (operands : ∀ x ∈ es, Lockstep pause vars (finishing commands pause · x)
      (start ⟨commands, vars⟩ run x) (evaluate commands talk x) (generate commands pause x))
    {known : List Value} (hes : e.operands.drop known.length = es) :
    Lockstep pause vars (finishing commands pause · e)
      (settle ⟨commands, vars⟩ run e known (es.map (start ⟨commands, vars⟩ run)))
      (do
        let vs ← evaluateAll commands talk es
        combine commands talk e (known ++ vs))
      (do
        let vs ← evaluateAll commands (converse commands pause) es
        combine commands (converse commands pause) e (known ++ vs)) := by
  induction es generalizing known with
  | nil =>
    rw [evaluateAll_nil_bind, evaluateAll_nil_bind, List.append_nil]
    exact lockstep_conclude steps e known
  | cons x es ih =>
    rw [evaluateAll_cons_bind, evaluateAll_cons_bind]
    refine .andThen (.operand known) (.operand known)
      (operands x List.mem_cons_self) (fun v => ?_) (fun _ => rfl) (fun _ _ => rfl) fun inner => ?_
    · have hrest : e.operands.drop (known ++ [v]).length = es := by
        rw [List.length_append, List.length_singleton, ← List.tail_drop, hes, List.tail_cons]
      have h := ih (fun y hy => operands y (List.mem_cons_of_mem x hy)) hrest
      simpa only [List.append_assoc, List.singleton_append] using h
    · rw [finishing, hes]

theorem lockstep_start
    (steps : ∀ e name command, Lockstep pause vars (finishing commands pause · e) (run name command)
      (talk name command) (converse commands pause name command)) (e : Expr) :
    Lockstep pause vars (finishing commands pause · e) (start ⟨commands, vars⟩ run e)
      (evaluate commands talk e) (generate commands pause e) := by
  induction e using Expr.operands_induction with
  | step e ih =>
    rw [start_eq_settle, generate, evaluate_eq_combine, evaluate_eq_combine]
    exact lockstep_settle steps e ih rfl

theorem lockstep_answer
    (steps : ∀ e name command, Lockstep pause vars (finishing commands pause · e) (run name command)
      (talk name command) (converse commands pause name command))
    (name : String) (command : ι) (source : String) (v : Value) (request e : Expr) :
    Lockstep pause vars (finishing commands pause · e)
      (answer ⟨commands, vars⟩ run name command source request (.complete v))
      (oblige commands talk name command source v)
      (oblige commands (converse commands pause) name command source v) :=
  .perform _ fun _ => .perform _ fun command => steps e name command

/-- One message does its part of a conversation, if whatever goes on with the conversation does. -/
theorem lockstep_exchange
    (steps : ∀ e name command, Lockstep pause vars (finishing commands pause · e) (run name command)
      (talk name command) (converse commands pause name command))
    (e : Expr) (name : String) (command : ι) :
    Lockstep pause vars (finishing commands pause · e) (exchange ⟨commands, vars⟩ run name command)
      (converseOnce commands pause talk name command) (converse commands pause name command) := by
  rw [converse_eq_once]
  refine .perform _ fun (reply, command) => ?_
  rcases reply with fault | v | _ | source | message
  · exact .failed fault .fresh
  · exact .perform _ fun _ => .perform _ fun _ => .complete v
  · refine .suspended (.calling name command) ?_
    exact Generator.bind_below (.refl _) fun _ => (steps e name command).below
  · refine .perform _ fun found => ?_
    cases found with
    | error e => exact .failed _ .fresh
    | ok request =>
      exact .andThen (.asking name command source request.value) (fun _ => .fresh)
        (lockstep_start steps request.value)
        (fun v => lockstep_answer steps name command source v request.value e)
        (fun _ => rfl) (fun _ _ => rfl) fun _ => rfl
  · exact .perform _ fun _ => .perform _ fun _ => steps e name command

end

/-! ### Steps to the end -/

/-- Whatever driving a command gives, is a part of the conversation with it. -/
theorem follows_of_drive (e : Expr) {name : String} {command : ι} {store : Store ω}
    {effect : Effect ω (Progress ι)}
    (given : drive ⟨commands, vars⟩ name command store = some effect)
    (later : List (Moment ω)) :
    converse commands pause name command ⟨vars, store, later⟩ =
      (effect.value.follow pause (finishing commands pause · e) ⟨vars, effect.store, later⟩).map
        (Report.after (effect.signals.map .signal)) := by
  refine drive_induction _ (motive := fun name command store effect => ∀ e later,
    converse commands pause name command ⟨vars, store, later⟩ =
      (effect.value.follow pause (finishing commands pause · e) ⟨vars, effect.store, later⟩).map
        (Report.after (effect.signals.map .signal))) ?_ given e later
  intro run follows name command store effect given e later
  -- Nothing need be known to end, so that the part is a computation that never does.
  have steps : ∀ e name command, Lockstep pause vars (finishing commands pause · e)
      (run name command) (fun _ => none) (converse commands pause name command) :=
    fun e name command =>
      { follows := fun store later effect given => follows name command store effect given e later
        ends := fun _ _ _ given => nomatch given
        below := fun _ _ given => nomatch given }
  exact (lockstep_exchange steps e name command).follows
    store later effect given

/-- Whenever a conversation ends, driving the command gives something. -/
theorem drive_isSome_of_converse {name : String} {command : ι} {s : Session ω}
    {r : Report ω Fault Value} (given : converse commands pause name command s = some r) :
    (drive ⟨commands, s.vars⟩ name command s.store).isSome := by
  refine (converse_induction commands pause (motive := fun name command s r =>
    (drive ⟨commands, s.vars⟩ name command s.store).isSome ∧
      converse commands pause name command s = some r) ?_ given).1
  intro talk known name command s r given
  have steps : ∀ e name command, Lockstep pause s.vars (finishing commands pause · e)
      (drive ⟨commands, s.vars⟩ name command) (talk name command)
      (converse commands pause name command) :=
    fun e name command =>
      { follows := fun store later effect given => follows_of_drive e given later
        ends := fun store later r given => (known name command ⟨s.vars, store, later⟩ r given).1
        below := fun t r given => (known name command t r given).2 }
  have h := lockstep_exchange steps (.literal .null) name command
  rw [← drive_eq_exchange] at h
  exact ⟨h.ends s.store s.later r given, h.below s r given⟩

/-- **Driving a command does its part of the conversation with it.** -/
theorem lockstep_drive (e : Expr) (name : String) (command : ι) :
    Lockstep pause vars (finishing commands pause · e) (drive ⟨commands, vars⟩ name command)
      (converse commands pause name command) (converse commands pause name command) where
  follows _ later _ given := follows_of_drive e given later
  ends _ _ _ given := drive_isSome_of_converse given
  below := .refl _

/-- **Resuming an evaluation does its part of what is still to be done.** -/
theorem lockstep_resume (evaluation : Evaluation ι) (e : Expr) :
    Lockstep pause vars (finishing commands pause · e) (resume ⟨commands, vars⟩ evaluation e)
      (finishing commands pause evaluation e) (finishing commands pause evaluation e) := by
  have steps : ∀ e name command, Lockstep pause vars (finishing commands pause · e)
      (drive ⟨commands, vars⟩ name command) (converse commands pause name command)
      (converse commands pause name command) := lockstep_drive
  induction evaluation generalizing e with
  | fresh =>
    rw [finishing, resume]
    exact lockstep_start steps e
  | operand known inner ih =>
    rw [finishing, resume]
    cases hes : e.operands.drop known.length with
    | nil => exact lockstep_conclude steps e known
    | cons x rest =>
      refine .andThen (.operand known) (.operand known) (ih x) (fun v => ?_) (fun _ => rfl)
        (fun _ _ => rfl) fun inner => ?_
      · have hrest : e.operands.drop (known ++ [v]).length = rest := by
          rw [List.length_append, List.length_singleton, ← List.tail_drop, hes, List.tail_cons]
        have h := lockstep_settle steps e (fun y _ => lockstep_start steps y) hrest
        simpa only [List.append_assoc, List.singleton_append] using h
      · rw [finishing, hes]
  | calling name command =>
    rw [finishing, resume]
    exact steps e name command
  | asking name command source request inner ih =>
    rw [finishing, resume]
    exact .andThen (.asking name command source request) (fun _ => .fresh) (ih request)
      (fun v => lockstep_answer steps name command source v request e)
      (fun _ => rfl) (fun _ _ => rfl) fun _ => rfl

/-- What is still to be done is a step, and then what remains after it. -/
theorem finishing_eq_resume (evaluation : Evaluation ι) (e : Expr) (s : Session ω) :
    finishing commands pause evaluation e s =
      (resume ⟨commands, s.vars⟩ evaluation e s.store).bind fun effect =>
        (effect.value.follow pause (finishing commands pause · e)
          ⟨s.vars, effect.store, s.later⟩).map (Report.after (effect.signals.map .signal)) := by
  have step : Lockstep pause s.vars (finishing commands pause · e)
      (resume ⟨commands, s.vars⟩ evaluation e) (finishing commands pause evaluation e)
      (finishing commands pause evaluation e) := lockstep_resume evaluation e
  cases hx : resume ⟨commands, s.vars⟩ evaluation e s.store with
  | some effect => exact step.follows s.store s.later effect hx
  | none =>
    cases hr : finishing commands pause evaluation e s with
    | none => rfl
    | some r =>
      have := step.ends s.store s.later r hr
      rw [hx] at this
      exact nomatch this

end

/-! ### One step after the other -/

/-- Steps one evaluation with one moment after the other, up to the first step that does not
suspend it. -/
def stepAll (commands : Commands ι ω) (e : Expr) :
    Evaluation ι → Variables → Store ω → List (Moment ω) → Option (Report ω Fault Value)
  | evaluation, vars, store, later => do
    let effect ← resume ⟨commands, vars⟩ evaluation e store
    let marks := effect.signals.map Mark.signal
    match effect.value with
    | .complete v => some ⟨.value v, ⟨vars, effect.store, later⟩, marks⟩
    | .failed fault _ => some ⟨.fault fault, ⟨vars, effect.store, later⟩, marks⟩
    | .suspended rest =>
      match later with
      | [] => some ⟨.waiting, ⟨vars, effect.store, []⟩, marks ++ [.suspended]⟩
      | moment :: later =>
        (stepAll commands e rest moment.vars (moment.change effect.store) later).map
          (Report.after (marks ++ [.suspended]))

section

variable {commands : Commands ι ω} {e : Expr} {evaluation rest : Evaluation ι} {vars : Variables}
  {store store' : Store ω} {signals : List Signal}

theorem stepAll_of_complete {v : Value} (later : List (Moment ω))
    (h : resume ⟨commands, vars⟩ evaluation e store = some ⟨.complete v, store', signals⟩) :
    stepAll commands e evaluation vars store later =
      some ⟨.value v, ⟨vars, store', later⟩, signals.map .signal⟩ := by
  rw [stepAll, h]
  rfl

theorem stepAll_of_failed {fault : Fault} (later : List (Moment ω))
    (h : resume ⟨commands, vars⟩ evaluation e store = some ⟨.failed fault rest, store', signals⟩) :
    stepAll commands e evaluation vars store later =
      some ⟨.fault fault, ⟨vars, store', later⟩, signals.map .signal⟩ := by
  rw [stepAll, h]
  rfl

theorem stepAll_of_suspended_nil
    (h : resume ⟨commands, vars⟩ evaluation e store = some ⟨.suspended rest, store', signals⟩) :
    stepAll commands e evaluation vars store [] =
      some ⟨.waiting, ⟨vars, store', []⟩, signals.map .signal ++ [.suspended]⟩ := by
  rw [stepAll, h]
  rfl

theorem stepAll_of_suspended_cons (moment : Moment ω) (later : List (Moment ω))
    (h : resume ⟨commands, vars⟩ evaluation e store = some ⟨.suspended rest, store', signals⟩) :
    stepAll commands e evaluation vars store (moment :: later) =
      (stepAll commands e rest moment.vars (moment.change store') later).map
        (Report.after (signals.map .signal ++ [.suspended])) := by
  rw [stepAll, h]
  rfl

theorem stepAll_eq_none {later : List (Moment ω)}
    (h : resume ⟨commands, vars⟩ evaluation e store = none) :
    stepAll commands e evaluation vars store later = none := by
  rw [stepAll, h]
  rfl

/-- Stepping that ends has a first step. -/
theorem exists_resume_of_stepAll {later : List (Moment ω)} {report : Report ω Fault Value}
    (h : stepAll commands e evaluation vars store later = some report) :
    ∃ progress store' signals,
      resume ⟨commands, vars⟩ evaluation e store = some ⟨progress, store', signals⟩ := by
  cases hresume : resume ⟨commands, vars⟩ evaluation e store with
  | none =>
    rw [stepAll_eq_none hresume] at h
    cases h
  | some effect => exact ⟨effect.value, effect.store, effect.signals, rfl⟩

end

/-- Stepping an evaluation from any place is doing directly what is still to be done. -/
theorem stepAll_eq_finishing (commands : Commands ι ω) (e : Expr) (evaluation : Evaluation ι)
    (vars : Variables) (store : Store ω) (later : List (Moment ω)) :
    stepAll commands e evaluation vars store later =
      finishing commands .yield evaluation e ⟨vars, store, later⟩ := by
  induction later generalizing evaluation vars store with
  | nil =>
    rw [stepAll, finishing_eq_resume]
    congr 1
    funext effect
    rcases effect with ⟨_ | rest | _, store', signals⟩
    · simp [Progress.follow, Generator.pure_apply, Report.after]
    · rfl
    · simp [Progress.follow, Generator.fail, Report.after]
  | cons moment later ih =>
    rw [stepAll, finishing_eq_resume]
    congr 1
    funext effect
    rcases effect with ⟨_ | rest | _, store', signals⟩
    · simp [Progress.follow, Generator.pure_apply, Report.after]
    · -- The pause turns to the next moment, where the induction hypothesis takes over.
      simp only [ih]
      show _ = ((finishing commands .yield rest e _).map (Report.after [.suspended])).map _
      rw [Option.map_map]
      congr 1
      funext r
      exact (Report.after_after _ _ r).symm
    · simp [Progress.follow, Generator.fail, Report.after]

end StepScript
