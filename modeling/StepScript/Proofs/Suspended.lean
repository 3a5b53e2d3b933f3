import StepScript.Proofs.Cycle
import StepScript.Proofs.Rules

/-!
# Suspended evaluations

Not everything that has the form of an evaluation can be come by.  One that has been suspended knows
some of the operands of its expression and waits in the next, or it waits in a call.  It is only
ever resumed with the same expression, so the other forms are never met.

## Main definitions

* `Suspended` — the states in which the evaluation of an expression can be suspended.
* `Task.Fits`, `Task.Leaves` — what a piece of work may start from, and what it may leave behind.
* `Program.EvaluatesIn` — which states the evaluation of the current statement can be in.

## Main results

* `suspended_of_does` — what is suspended by the rules, is so in one of these states.
* `Program.suspended_of_reachable` — **a program that is suspended is so in the expression of its
  current statement**.
-/

namespace StepScript

variable {ι ω : Type}

/-- The states in which the evaluation of an expression can be suspended. -/
inductive Suspended : Expr → Evaluation ι → Prop
  /-- The next operand is suspended. -/
  | operand {e x : Expr} {known : List Value} {inner : Evaluation ι}
    (hx : e.operands[known.length]? = some x) (h : Suspended x inner) :
    Suspended e (.operand known inner)
  /-- A command needs more time. -/
  | calling (name : String) (arguments : List Expr) (command : ι) :
    Suspended (.call name arguments) (.calling name command)
  /-- An expression that a command has asked for is suspended. -/
  | asking (name : String) (arguments : List Expr) (command : ι) (source : String) {request : Expr}
    {inner : Evaluation ι} (h : Suspended request inner) :
    Suspended (.call name arguments) (.asking name command source request inner)

/-- Whatever is suspended waits for a command. -/
theorem Suspended.isWaiting {e : Expr} {evaluation : Evaluation ι} (h : Suspended e evaluation) :
    evaluation.isWaiting = true := by
  induction h with
  | operand hx h ih => exact ih
  | calling | asking => rfl

/-! ### What pieces of work suspend -/

/-- What a piece of work may start from: the operands that remain are those that are not known, and
what is gone on with is suspended in its own expression. -/
def Task.Fits : Task ι → Prop
  | settle e known rest => e.operands.drop known.length = rest
  | proceed e known rest progress =>
    ∃ x, e.operands.drop known.length = x :: rest ∧
      ∀ inner, progress = .suspended inner → Suspended x inner
  | drive _ _ => True
  | answer _ _ _ request progress => ∀ inner, progress = .suspended inner → Suspended request inner
  | resume evaluation e => evaluation = .fresh ∨ Suspended e evaluation

/-- What a piece of work may leave behind when it is suspended. -/
def Task.Leaves : Task ι → Evaluation ι → Prop
  | settle e _ _, rest | proceed e _ _ _, rest | resume _ e, rest => Suspended e rest
  | drive name _, rest | answer name _ _ _ _, rest =>
    ∀ arguments, Suspended (.call name arguments) rest

theorem Task.fits_start (e : Expr) : (Task.start e : Task ι).Fits := rfl

/-- The operand that an evaluation is suspended in is the next one. -/
theorem Suspended.of_operand {e x : Expr} {known : List Value} {rest : List Expr}
    {inner : Evaluation ι} (h : Suspended e (.operand known inner))
    (hes : e.operands.drop known.length = x :: rest) : Suspended x inner := by
  cases h with
  | operand hx h =>
    rw [← List.head?_drop, hes] at hx
    cases hx
    exact h

/-- An evaluation that is suspended does not have all operands. -/
theorem Suspended.drop_ne_nil {e : Expr} {known : List Value} {inner : Evaluation ι}
    (h : Suspended e (.operand known inner)) : e.operands.drop known.length ≠ [] := by
  intro hes
  cases h with
  | operand hx h =>
    rw [← List.head?_drop, hes] at hx
    cases hx

theorem Task.Fits.known {e : Expr} {known : List Value} {rest : List Expr} {v : Value}
    (h : (Task.proceed e known rest (.complete v) : Task ι).Fits) :
    (Task.settle e (known ++ [v]) rest : Task ι).Fits := by
  obtain ⟨x, hes, -⟩ := h
  have htail := congrArg List.tail hes
  rw [List.tail_drop, List.tail_cons] at htail
  rwa [Fits, List.length_append, List.length_singleton]

/-- **What is suspended by the rules** is so in a state of its own expression. -/
theorem suspended_of_does {ctx : Context ι ω} {task : Task ι} {s s' : Store ω}
    {progress : Progress ι} {signals : List Signal} (h : Does ctx task s progress s' signals)
    (fits : task.Fits) {left : Evaluation ι} (hleft : progress = .suspended left) :
    task.Leaves left := by
  -- Induction on the rules: what is left of a piece of work is left of its last part.
  induction h generalizing left with
  | @applied e known s result h => cases result <;> cases hleft
  | refused | broken | failed | finished | unreadable | denied => cases hleft
  | @called name arguments known s s' command host notes progress signals hcreate h ih =>
    exact ih trivial hleft arguments
  | @operand e x known rest s s' s'' inner progress first second hx h ihx ih =>
    exact ih ⟨x, fits, fun inner hinner => ihx (Task.fits_start x) hinner⟩ hleft
  | known h ih => exact ih fits.known hleft
  | held =>
    -- the operand is suspended, in a state of its own expression
    cases hleft
    obtain ⟨x, hes, hinner⟩ := fits
    exact .operand (by rw [← List.head?_drop, hes]; rfl) (hinner _ rfl)
  | suspended =>
    cases hleft
    exact fun arguments => .calling _ arguments _
  | warned hnext h ih => exact ih trivial hleft
  | requested hnext hparse hx h ihx ih =>
    exact ih (fun inner hinner => ihx (Task.fits_start _) hinner) hleft
  | supplied hsupply h ih => exact ih trivial hleft
  | pending =>
    cases hleft
    exact fun arguments => .asking _ arguments _ _ (fits _ rfl)
  | begin h ih => exact ih (Task.fits_start _) hleft
  | exhausted hes h ih => exact ih hes hleft
  | @resumed e x known rest evaluation s s' s'' inner progress first second hes hx h ihx ih =>
    -- the operand was suspended before, and is so in the same expression again
    have hsuspended : Suspended x evaluation := by
      rcases fits with fits | fits
      · cases fits
      · exact fits.of_operand hes
    exact ih ⟨x, hes, fun inner hinner => ihx (.inr hsuspended) hinner⟩ hleft
  | calling h ih =>
    rcases fits with fits | fits
    · cases fits
    · cases fits with
      | calling name arguments command => exact ih trivial hleft arguments
  | asking hx h ihx ih =>
    rcases fits with fits | fits
    · cases fits
    · cases fits with
      | asking name arguments command source hrequest =>
        exact ih (fun inner hinner => ihx (.inr hrequest) hinner) hleft arguments

/-! ### Programs -/

namespace Program

variable {commands : Commands ι ω} {p : Program ι} {store : Store ω}

/-- The evaluation of the current statement is in one of some states of the statement's
expression. -/
def EvaluatesIn (P : Expr → Evaluation ι → Prop) (p : Program ι) : Prop :=
  ∀ evaluation, p.evaluation = some evaluation →
    ∃ s e, p.current? = some s ∧ s.kind.value? = some e ∧ P e evaluation

/-- The evaluation of the current statement is suspended in the statement's expression. -/
def Poised (p : Program ι) : Prop :=
  p.EvaluatesIn Suspended

section

variable {P : Expr → Evaluation ι → Prop}

/-- The evaluation that a cycle goes on with. -/
theorem EvaluatesIn.next {s : Statement} {e : Expr} (h : p.EvaluatesIn P)
    (hs : p.current? = some s) (he : s.kind.value? = some e) :
    p.evaluation.getD .fresh = .fresh ∨ P e (p.evaluation.getD .fresh) := by
  cases hevaluation : p.evaluation with
  | none => exact .inl rfl
  | some evaluation =>
    obtain ⟨s', e', hs', he', h⟩ := h evaluation hevaluation
    cases hs.symm.trans hs'
    cases he.symm.trans he'
    exact .inr h

theorem evaluatesIn_of_evaluation_eq_none (h : p.evaluation = none) : p.EvaluatesIn P := by
  intro evaluation hevaluation
  rw [h] at hevaluation
  cases hevaluation

theorem evaluatesIn_afterProgress {s : Statement} {e : Expr} {progress : Progress ι}
    (hs : p.current? = some s) (he : s.kind.value? = some e)
    (h : ∀ rest, progress = .suspended rest → P e rest) :
    (p.afterProgress s progress).1.EvaluatesIn P := by
  cases progress with
  | complete v =>
    rw [afterProgress]
    cases hcompleted : completed { p with evaluation := none } s.kind v with
    | ok p' =>
      exact evaluatesIn_of_evaluation_eq_none (moved_of_completed hcompleted).evaluation_settled
    | error fault => exact evaluatesIn_of_evaluation_eq_none rfl
  | suspended rest =>
    have hsettled : settled { p with evaluation := some rest } =
        { p with evaluation := some rest } :=
      settled_eq_self (counter_lt_of_current hs)
    rw [afterProgress, outcome, hsettled]
    intro evaluation hevaluation
    cases hevaluation
    exact ⟨s, e, hs, he, h rest rfl⟩
  | failed fault rest => exact evaluatesIn_of_evaluation_eq_none rfl

/-- What every resumption leads to, from a state of that kind or from the beginning, is met in
every program. -/
theorem evaluatesIn_of_reachable
    (step : ∀ vars e evaluation s effect, evaluation = .fresh ∨ P e evaluation →
      resume ⟨commands, vars⟩ evaluation e s = some effect →
      ∀ rest, effect.value = .suspended rest → P e rest)
    (reachable : Reachable commands p store) : p.EvaluatesIn P := by
  induction reachable with
  | start => exact evaluatesIn_of_evaluation_eq_none rfl
  | write before vars store' ih => exact ih
  | @cycle p store effect before hcycle ih =>
    rcases resume_of_cycle hcycle with
      ⟨hnone, -, -⟩ | ⟨s, e, effect', running, hs, he, hresume, hvalue, -, -⟩
    · intro evaluation hevaluation
      -- a program that is suspended has an expression to go on with
      have hsuspended : effect.value.1.isSuspended := by rw [isSuspended, hevaluation]; rfl
      obtain ⟨running, s, e, hs, he⟩ := current_of_suspended (before.cycle hcycle) hsuspended
      rw [cycle_of_suspended before hcycle hsuspended] at running hs
      rw [hnone s running hs] at he
      cases he
    · rw [hvalue]
      exact evaluatesIn_afterProgress hs he (step _ _ _ _ _ (ih.next hs he) hresume)

end

theorem Poised.fits {s : Statement} {e : Expr} (poised : p.Poised) (hs : p.current? = some s)
    (he : s.kind.value? = some e) : (Task.resume (p.evaluation.getD .fresh) e).Fits :=
  EvaluatesIn.next poised hs he

/-- **A program that is suspended is so in the expression of its current statement.** -/
theorem suspended_of_reachable (reachable : Reachable commands p store) : p.Poised := by
  refine evaluatesIn_of_reachable ?_ reachable
  intro vars e evaluation s effect fits hresume rest hrest
  exact suspended_of_does (does_of_resume hresume) fits hrest

end Program

end StepScript
