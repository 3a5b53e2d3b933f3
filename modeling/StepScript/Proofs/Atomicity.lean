import StepScript.Proofs.Nesting

/-!
# Cycles are all or nothing

A cycle fails, waits or completes exactly one statement.  If it fails or waits, then the variables,
the stack and the counter are what they were before, however deep in an expression, in a command or
in a block's header it came to that.  A program that is done or has failed stays so.

## Main definitions

* `linesOf` — the statements that some signals say are started.
* `Program.Placed` — the counter agrees with the status.
* `Program.Leads` — what cycles and writes of the host make of a program.
* `Program.Completes` — a cycle completes a statement.
* `Program.AllOrNothing` — what a cycle may do.

## Main results

* `Program.placed_of_reachable` — the counter agrees with the status in all that cycles lead to.
* `Program.cycle_of_leads` — programs that are done or have failed stay so.
* `Program.cycle_cases` — what a cycle of a program that can go on does.
* `Program.cycle_is_all_or_nothing` — a cycle fails, waits or completes one statement.
-/

namespace StepScript

/-! ### Lines -/

/-- The statement that a signal says is started, with its index. -/
def Signal.line? : Signal → Option (Nat × Statement)
  | line i s => some (i, s)
  | _ => none

/-- The statements that some signals say are started, in order. -/
def linesOf (signals : List Signal) : List (Nat × Statement) :=
  signals.filterMap Signal.line?

theorem linesOf_append (first second : List Signal) :
    linesOf (first ++ second) = linesOf first ++ linesOf second :=
  List.filterMap_append

theorem linesOf_events (signals : List Signal) : linesOf (events signals) = linesOf signals := by
  rw [linesOf, events, List.filterMap_filter]
  refine List.filterMap_congr fun signal _ => ?_
  cases signal <;> rfl

/-- Commands start no statements. -/
theorem linesOf_eq_nil_of_commands {signals : List Signal}
    (h : ∀ signal ∈ signals, signal.isOfCommands = true) : linesOf signals = [] := by
  rw [linesOf, List.filterMap_eq_nil_iff]
  intro signal hsignal
  have := h signal hsignal
  cases signal <;> first | rfl | cases this

/-- What a cycle gives if the program can do nothing but keep its status. -/
def Status.result : Status → Except ProgramError Unit
  | failed error => .error error
  | _ => .ok ()

namespace Script

theorem bounds_of_closingFrom? {depth i stop : Nat} {rest : List Statement}
    (h : closingFrom? depth i rest = some stop) : i ≤ stop ∧ stop < i + rest.length := by
  fun_induction closingFrom? depth i rest with
  | case1 | case3 => cases h
  | case4 i s rest =>
    cases h
    exact ⟨Nat.le_refl _, Nat.lt_add_of_pos_right (Nat.succ_pos _)⟩
  | case2 depth i s rest _ _ _ ih | case5 i s rest _ _ ih | case6 depth i s rest _ _ ih =>
    have := ih h
    rw [List.length_cons]
    omega

theorem lt_size_of_closing? {script : Script} {i stop : Nat} (h : script.closing? i = some stop) :
    stop < script.size := by
  have bounds := bounds_of_closingFrom? h
  rw [List.length_drop] at bounds
  rw [size]
  omega

end Script

namespace Program

variable {ι ω : Type} {commands : Commands ι ω} {p p' : Program ι} {store : Store ω}

/-! ### Counters -/

/-- The counter agrees with the status: a program that can go on has a statement to go on with, one
that is done has none left, and one that has failed stands at the statement that failed. -/
def Placed (p : Program ι) : Prop :=
  match p.status with
  | .running => p.counter < p.script.size
  | .done => p.counter = p.script.size
  | .failed error => ∃ s, p.current? = some s ∧ error.span = s.span

/-- A header opens its block or skips it, and does nothing else. -/
theorem opened_or_skipped {block : BlockKind} {v : Value} (h : p.entered block v = .ok p') :
    (∃ stack frame, p' = opened { p with stack } frame) ∨
      ∃ stop, p.script.closing? p.counter = some stop ∧ p' = { p with counter := stop + 1 } := by
  -- skipping is the same for all blocks
  have skip (h : p.skipped block = .ok p') :
      ∃ stop, p.script.closing? p.counter = some stop ∧ p' = { p with counter := stop + 1 } := by
    rw [skipped] at h
    split at h
    · cases h
    · next stop hstop =>
      cases h
      exact ⟨stop, hstop, rfl⟩
  cases block with
  | condition | repetition =>
    rw [entered] at h
    split at h
    · cases h
      exact .inl ⟨_, _, rfl⟩
    · exact .inr (skip h)
  | selection =>
    cases h
    exact .inl ⟨_, _, rfl⟩
  | alternative =>
    -- a case looks for its selection, and marks it if it is entered
    rw [entered] at h
    split at h
    · cases h
    · cases h
      exact .inl ⟨_, _, rfl⟩
    · exact .inr (skip h)

/-- A repetition goes back, and all else goes on by one. -/
theorem counter_le_of_closed (hlt : p.counter < p.script.size) (nested : p.Nested)
    (h : p.closed = .ok p') : p'.counter ≤ p'.script.size := by
  obtain ⟨opens, hopens, hstack⟩ := nested
  obtain ⟨name, script, vars, stack, counter, evaluation, status⟩ := p
  cases hstack with
  | nil => cases h
  | @cons i frame opens stack hframe hstack =>
    cases h
    cases frame with
    | repetition header =>
      obtain rfl := hframe.2 header rfl
      exact Nat.le_of_lt (Nat.lt_trans (Script.openHeaders_of_cons hopens).1 hlt)
    | condition | selection | alternative => exact hlt

theorem counter_le_of_completed {s : Statement} {v : Value} (hs : p.current? = some s)
    (nested : p.Nested) (h : p.completed s.kind v = .ok p') : p'.counter ≤ p'.script.size := by
  have hlt := counter_lt_of_current hs
  cases hkind : s.kind with
  | assignment | expression =>
    rw [hkind] at h
    cases h
    exact hlt
  | header block e =>
    rw [hkind] at h
    obtain ⟨stack, frame, rfl⟩ | ⟨stop, hstop, rfl⟩ := opened_or_skipped h
    · exact hlt
    · exact Script.lt_size_of_closing? hstop
  | blockEnd =>
    rw [hkind] at h
    exact counter_le_of_closed hlt nested h

theorem placed_settled (running : p.status = .running) (h : p.counter ≤ p.script.size) :
    p.settled.Placed := by
  unfold settled
  split
  · next hsize => exact Nat.le_antisymm h hsize
  · next hsize =>
    rw [Placed, running]
    exact Nat.lt_of_not_le hsize

theorem Moved.status_eq (h : p.Moved p') : p'.status = p.status := by
  obtain ⟨vars, stack, counter, rfl⟩ := h
  rfl

/-- **The counter agrees with the status** in all that cycles lead to. -/
theorem placed_of_reachable (reachable : Reachable commands p store) : p.Placed := by
  induction reachable with
  | start script vars name store =>
    -- an empty script is done at once
    cases hempty : script.statements.isEmpty with
    | false =>
      have hsize : script.statements ≠ [] := by simpa using hempty
      rw [Placed, named, ofScript, hempty]
      exact List.length_pos_iff.mpr hsize
    | true =>
      have hsize : script.statements = [] := by simpa using hempty
      rw [Placed, named, ofScript, hempty]
      exact (congrArg List.length hsize).symm
  | write before vars store' ih => exact ih
  | @cycle p store effect before hcycle ih =>
    have nested := nested_of_reachable before
    have changes := changes_of_cycle hcycle
    generalize effect.value = value at changes ⊢
    cases changes with
    | done | failed => exact ih
    | exhausted running hs =>
      -- a running program does not stand behind the last statement
      rw [Placed, running] at ih
      exact absurd (List.getElem?_eq_none_iff.mp hs) (Nat.not_le_of_gt ih)
    | waits running => exact ih
    | @fails s running hs fault => exact ⟨s, hs, rfl⟩
    | completes running hs he h =>
      -- where a statement leads, settling decides between running and done
      have hle := counter_le_of_completed (p := { p with evaluation := none }) hs nested h
      exact placed_settled ((moved_of_completed h).status_eq.trans running) hle
    | closes running hs hkind h =>
      have hle := counter_le_of_closed (counter_lt_of_current hs) nested h
      exact placed_settled ((moved_of_closed h).status_eq.trans running) hle

/-! ### Terminal programs -/

/-- What cycles and writes of the host make of a program. -/
inductive Leads (commands : Commands ι ω) (p : Program ι) : Program ι → Prop
  /-- Nothing has happened yet. -/
  | refl : Leads commands p p
  /-- After a cycle. -/
  | cycle {q : Program ι} {store : Store ω}
    {effect : Effect ω (Program ι × Except ProgramError Unit)} (before : Leads commands p q)
    (h : q.cycle commands store = some effect) : Leads commands p effect.value.1
  /-- After the host has written. -/
  | write {q : Program ι} (before : Leads commands p q) (vars : Variables) :
    Leads commands p { q with vars }

theorem cycle_of_ended (commands : Commands ι ω) (ended : p.status ≠ .running) (store : Store ω) :
    p.cycle commands store = some ⟨(p, p.status.result), store, []⟩ := by
  unfold cycle
  cases h : p.status with
  | running => exact absurd h ended
  | done | failed => rfl

/-- **Programs that are done or have failed stay so.** -/
theorem cycle_of_leads {q : Program ι} (ended : p.status ≠ .running) (leads : Leads commands p q) :
    q.status = p.status ∧
      ∀ store, q.cycle commands store = some ⟨(q, p.status.result), store, []⟩ := by
  have same : q.status = p.status := by
    induction leads with
    | refl => rfl
    | @cycle q store effect before h ih =>
      rw [cycle_of_ended commands (ih ▸ ended)] at h
      cases h
      exact ih
    | write before vars ih => exact ih
  exact ⟨same, fun store => same ▸ cycle_of_ended commands (same ▸ ended) store⟩

/-! ### Cycles -/

/-- The variables, the stack and the counter are the same. -/
structure SamePlace (p p' : Program ι) : Prop where
  vars : p'.vars = p.vars
  stack : p'.stack = p.stack
  counter : p'.counter = p.counter

/-- The statement is completed in one cycle: its expression, if there is one, gets a value, and the
program becomes what the statement makes of it with this value. -/
def Completes (commands : Commands ι ω) (p : Program ι) (store : Store ω) (s : Statement)
    (p' : Program ι) : Prop :=
  ∃ v q, completed { p with evaluation := none } s.kind v = .ok q ∧ p' = q.settled ∧
    ∀ e, s.kind.value? = some e → ∃ step,
      resume ⟨commands, p.vars⟩ (p.evaluation.getD .fresh) e store = some step ∧
        step.value = .complete v

/-- What a cycle does to a program, by the way in which it ends. -/
structure AllOrNothing (commands : Commands ι ω) (p : Program ι) (store : Store ω)
    (effect : Effect ω (Program ι × Except ProgramError Unit)) : Prop where
  /-- A cycle with an error moves nothing, and it is the last that does anything. -/
  failed : ∀ error, effect.value.2 = .error error →
    p.SamePlace effect.value.1 ∧ effect.value.1.isSuspended = false ∧
      ∀ q, Leads commands effect.value.1 q →
        ∀ store, q.cycle commands store = some ⟨(q, .error error), store, []⟩
  /-- A cycle that waits moves nothing. -/
  suspended : effect.value.1.isSuspended = true →
    p.SamePlace effect.value.1 ∧ effect.value.2 = .ok ()
  /-- Any other cycle completes the current statement, and sets at most the variable that this
  assigns. -/
  completed : p.status = .running → effect.value.2 = .ok () → effect.value.1.isSuspended = false →
    ∃ s, p.current? = some s ∧ Completes commands p store s effect.value.1 ∧
      ∀ name, (∀ e, s.kind ≠ .assignment name e) →
        effect.value.1.vars.get? name = p.vars.get? name
  /-- A statement that is started is announced once. -/
  started : p.status = .running → p.isSuspended = false →
    ∃ s, p.current? = some s ∧ linesOf effect.signals = [(p.counter, s)]
  /-- A statement that is resumed is not announced again. -/
  resumed : p.isSuspended = true → linesOf effect.signals = []

variable {effect : Effect ω (Program ι × Except ProgramError Unit)}

theorem vars_settled (p : Program ι) : p.settled.vars = p.vars := by
  unfold settled
  split <;> rfl

theorem status_eq_failed_of_cycle (h : p.cycle commands store = some effect) {error : ProgramError}
    (herror : effect.value.2 = .error error) : effect.value.1.status = .failed error := by
  have changes := changes_of_cycle h
  generalize effect.value = value at changes herror ⊢
  cases changes with
  | failed hstatus =>
    cases herror
    exact hstatus
  | fails =>
    cases herror
    rfl
  | done | exhausted | waits | completes | closes => cases herror

/-- **A cycle with an error moves nothing.**  A statement that fails gives back the program that it
was given, without its evaluation: a block that cannot be entered, skipped or closed is left before
anything is written (`quiet_enter`, `quiet_skip`, `quiet_close`). -/
theorem samePlace_of_cycle (h : p.cycle commands store = some effect) {error : ProgramError}
    (herror : effect.value.2 = .error error) : p.SamePlace effect.value.1 := by
  have changes := changes_of_cycle h
  generalize effect.value = value at changes herror ⊢
  cases changes with
  | failed | fails => exact ⟨rfl, rfl, rfl⟩
  | done | exhausted | waits | completes | closes => cases herror

theorem get?_vars_of_completed {kind : StatementKind} {v : Value} {name : String}
    (h : p.completed kind v = .ok p') (other : ∀ e, kind ≠ .assignment name e) :
    p'.vars.get? name = p.vars.get? name := by
  cases kind with
  | assignment target e =>
    cases h
    have different : name ≠ target := by
      rintro rfl
      exact other e rfl
    exact p.vars.get?_set_of_ne different v
  | expression e =>
    cases h
    rfl
  | header block e => obtain ⟨stack, frame, rfl⟩ | ⟨stop, -, rfl⟩ := opened_or_skipped h <;> rfl
  | blockEnd =>
    rw [completed, closed] at h
    split at h
    · cases h
    · cases h
      rfl

theorem linesOf_announced (p : Program ι) (s : Statement) :
    linesOf (p.announced s) = if p.isSuspended then [] else [(p.counter, s)] := by
  unfold announced isSuspended
  cases p.evaluation <;> rfl

/-- What a cycle of a program that can go on does: it closes a block, or goes on with the expression
of the current statement. -/
theorem cycle_cases {s : Statement} (running : p.status = .running) (hs : p.current? = some s)
    (h : p.cycle commands store = some effect) :
    (s.kind = .blockEnd ∧ effect.value = p.outcome s p.closed ∧
      events effect.signals = p.announced s) ∨
    ∃ e step, s.kind.value? = some e ∧
      resume ⟨commands, p.vars⟩ (p.evaluation.getD .fresh) e store = some step ∧
      effect.value = p.afterProgress s step.value ∧
      events effect.signals = p.announced s ++ events step.signals := by
  cases he : s.kind.value? with
  | none =>
    have hkind := StatementKind.eq_blockEnd_of_value? he
    obtain ⟨signals, hcycle, hevents⟩ := cycle_of_blockEnd commands running hs hkind store
    cases h.symm.trans hcycle
    exact .inl ⟨hkind, rfl, hevents⟩
  | some e =>
    cases hresume : resume ⟨commands, p.vars⟩ (p.evaluation.getD .fresh) e store with
    | none => cases h.symm.trans (cycle_eq_none_of_resume running hs he hresume)
    | some step =>
      obtain ⟨signals, hcycle, hevents⟩ := cycle_of_resume running hs he hresume
      cases h.symm.trans hcycle
      exact .inr ⟨e, step, rfl, hresume, rfl, hevents⟩

theorem exists_current (reachable : Reachable commands p store) (running : p.status = .running) :
    ∃ s, p.current? = some s := by
  have placed := placed_of_reachable reachable
  rw [Placed, running] at placed
  exact ⟨_, List.getElem?_eq_getElem placed⟩

theorem linesOf_of_cycle {s : Statement} (running : p.status = .running) (hs : p.current? = some s)
    (h : p.cycle commands store = some effect) :
    linesOf effect.signals = if p.isSuspended then [] else [(p.counter, s)] := by
  rw [← linesOf_announced, ← linesOf_events effect.signals]
  rcases cycle_cases running hs h with ⟨-, -, hevents⟩ | ⟨e, step, -, hresume, -, hevents⟩
  · rw [hevents]
  · have quiet := linesOf_eq_nil_of_commands (speaks_resume _ _ _ _ hresume)
    rw [hevents, linesOf_append, linesOf_events, quiet, List.append_nil]

/-- A cycle that neither fails nor waits completes the current statement. -/
theorem completes_of_cycle {s : Statement} (reachable : Reachable commands p store)
    (running : p.status = .running) (hs : p.current? = some s)
    (h : p.cycle commands store = some effect) (ok : effect.value.2 = .ok ())
    (moves : effect.value.1.isSuspended = false) :
    Completes commands p store s effect.value.1 := by
  rcases cycle_cases running hs h with ⟨hkind, hvalue, -⟩ | ⟨e, step, he, hresume, hvalue, -⟩
  · -- a brace has no expression, so that nothing is suspended at it
    have idle : p.evaluation = none := by
      rw [← Option.not_isSome_iff_eq_none]
      intro suspended
      obtain ⟨-, s', e, hs', he⟩ := current_of_suspended reachable suspended
      cases hs.symm.trans hs'
      rw [hkind] at he
      cases he
    rw [hvalue] at ok ⊢
    cases hclosed : p.closed with
    | error fault =>
      rw [hclosed] at ok
      cases ok
    | ok q =>
      have hcompleted : Program.completed { p with evaluation := none } s.kind .null = .ok q := by
        rw [hkind, ← hclosed, ← idle, completed]
      refine ⟨.null, q, hcompleted, rfl, fun e he => ?_⟩
      rw [hkind] at he
      cases he
  · -- a statement with an expression: it has a value, since the cycle neither waits nor fails
    rw [hvalue] at ok moves ⊢
    cases hprogress : step.value with
    | complete v =>
      rw [hprogress] at ok
      cases hcompleted : Program.completed { p with evaluation := none } s.kind v with
      | error fault =>
        rw [afterProgress, hcompleted] at ok
        cases ok
      | ok q =>
        refine ⟨v, q, hcompleted, ?_, fun e' he' => ?_⟩
        · rw [afterProgress, hcompleted, outcome]
        · cases he.symm.trans he'
          exact ⟨step, hresume, hprogress⟩
    | suspended rest =>
      have still := settled_eq_self (p := { p with evaluation := some rest })
        (counter_lt_of_current hs)
      rw [hprogress, afterProgress, outcome, still] at moves
      cases moves
    | failed fault rest =>
      rw [hprogress] at ok
      cases ok

/-- **Cycles are all or nothing.**  Whatever the script, the commands and the host, the counter
agrees with the status, and a program that is done or has failed stays so without a sound.  A cycle
that gives an error leaves the variables, the stack and the counter as they were and nothing
suspended, and the error comes again for ever; a cycle that waits leaves them as they were as well;
any other completes exactly the statement at the counter.  A statement is announced once, when it is
started. -/
theorem cycle_is_all_or_nothing (reachable : Reachable commands p store) :
    p.Placed ∧
      (p.status ≠ .running → ∀ q, Leads commands p q → q.status = p.status ∧
        ∀ store, q.cycle commands store = some ⟨(q, p.status.result), store, []⟩) ∧
      ∀ effect, p.cycle commands store = some effect → AllOrNothing commands p store effect := by
  refine ⟨placed_of_reachable reachable, fun ended q leads => cycle_of_leads ended leads,
    fun effect h => ?_⟩
  constructor
  case failed =>
    intro error herror
    -- the program has failed with the error, and stays so
    have hstatus := status_eq_failed_of_cycle h herror
    have ended : effect.value.1.status ≠ .running := by
      rw [hstatus]
      rintro ⟨⟩
    refine ⟨samePlace_of_cycle h herror, ?_, fun q leads store => ?_⟩
    · rw [Bool.eq_false_iff]
      intro suspended
      exact ended (current_of_suspended (reachable.cycle h) suspended).1
    · have absorbed := (cycle_of_leads ended leads).2 store
      rwa [hstatus] at absorbed
  case suspended =>
    intro suspended
    rw [cycle_of_suspended reachable h suspended]
    exact ⟨⟨rfl, rfl, rfl⟩, rfl⟩
  case completed =>
    intro running ok moves
    obtain ⟨s, hs⟩ := exists_current reachable running
    have completes := completes_of_cycle reachable running hs h ok moves
    refine ⟨s, hs, completes, fun name other => ?_⟩
    -- only an assignment writes, and only its own variable
    obtain ⟨v, q, hcompleted, hq, -⟩ := completes
    rw [hq, vars_settled, get?_vars_of_completed hcompleted other]
  case started =>
    intro running fresh
    obtain ⟨s, hs⟩ := exists_current reachable running
    refine ⟨s, hs, ?_⟩
    rw [linesOf_of_cycle running hs h, fresh]
    rfl
  case resumed =>
    intro suspended
    obtain ⟨running, s, e, hs, -⟩ := current_of_suspended reachable suspended
    rw [linesOf_of_cycle running hs h, if_pos suspended]

/-- A case outside of any selection fails after its value is known, and leaves the block around it
open. -/
theorem cycle_is_all_or_nothing_stray :
    ∃ p : Program Empty, ∃ effect, Reachable .none p ⟨.empty, ()⟩ ∧ p.stack = [.condition] ∧
      p.cycle .none ⟨.empty, ()⟩ = some effect ∧
      effect.value.2 = .error ⟨"stray", default, .caseWithoutSwitch⟩ ∧
      AllOrNothing .none p ⟨.empty, ()⟩ effect := by
  have reachable : Reachable .none _ _ :=
    .cycle (.start ⟨[⟨.header .condition (.literal (.bool true)), default⟩,
      ⟨.header .alternative (.literal .null), default⟩]⟩ .initial "stray" ⟨.empty, ()⟩) rfl
  exact ⟨_, _, reachable, rfl, rfl, rfl, (cycle_is_all_or_nothing reachable).2.2 _ rfl⟩

end Program

end StepScript
