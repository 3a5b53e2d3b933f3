import StepScript.Program

/-!
# What a cycle does

A cycle is described by what it makes of the program, apart from the messages that it writes on the
way.  `Program.completed` says what a statement does once its expression has a value, and
`Program.cycle_of_resume` and its companions say that a cycle does just this, with an account of the
events that can be seen.

## Main definitions

* `events` — the signals that tell of statements and commands.
* `Quiet` — an action that neither touches the store nor sends events.
* `Speaks` — an activity that sends only what comes from commands.
* `Program.completed` — what a statement does once it has its value.
* `Program.attempted` — what a step gives that moves nothing when it fails.
* `Program.Changes` — everything that a cycle may make of a program.
* `Program.Reachable` — what cycles and writes of the host lead to.

## Main results

* `Program.quiet_skip`, `Program.quiet_enter`, `Program.quiet_close` — blocks that cannot be
  skipped, entered or closed leave the program as it was.
* `Program.cycle_of_resume`, `Program.cycle_of_blockEnd`, `Program.cycle_of_current_eq_none` — the
  cycles of a running program.
* `Program.changes_of_cycle` — **inversion**: a cycle changes a program in one of seven ways.
* `Program.resume_of_cycle` — what a cycle does beyond the program.
* `Program.cycle_of_suspended`, `Program.line_not_mem_of_suspended` — what cycles that wait for a
  command do.
-/

namespace StepScript

/-! ### Events -/

/-- Whether a signal tells of a statement that starts or of a command. -/
def Signal.isEvent : Signal → Bool
  | line _ _ | entered _ _ | left _ _ | warned _ _ | note _ => true
  | pushed _ | popped _ | failed _ | log _ => false

/-- The events among some signals. -/
def events (signals : List Signal) : List Signal :=
  signals.filter Signal.isEvent

@[simp] theorem events_nil : events [] = [] := rfl

@[simp] theorem events_append (first second : List Signal) :
    events (first ++ second) = events first ++ events second :=
  List.filter_append ..

/-- An action that gives a certain result, does not touch the store and sends no events. -/
def Quiet {ω α : Type} (x : Action ω α) (a : α) : Prop :=
  ∀ store, ∃ signals, x store = ⟨a, store, signals⟩ ∧ events signals = []

namespace Quiet

variable {ω α β : Type}

theorem pure (a : α) : Quiet (pure a : Action ω α) a :=
  fun _ => ⟨[], rfl, rfl⟩

theorem bind {x : Action ω α} {f : α → Action ω β} {a : α} {b : β} (hx : Quiet x a)
    (hf : Quiet (f a) b) : Quiet (x >>= f) b := by
  intro store
  obtain ⟨signals, hx, hsignals⟩ := hx store
  obtain ⟨signals', hf, hsignals'⟩ := hf store
  refine ⟨signals ++ signals', ?_, by rw [events_append, hsignals, hsignals']; rfl⟩
  simp only [Action.bind_apply, hx, hf]

theorem map {x : Action ω α} {a : α} (f : α → β) (hx : Quiet x a) : Quiet (f <$> x) (f a) := by
  rw [map_eq_pure_bind]
  exact hx.bind (pure (f a))

theorem log (level : LogLevel) (origin : LogOrigin) (message : String) :
    Quiet (.log level origin message : Action ω Unit) () :=
  fun _ => ⟨_, rfl, rfl⟩

theorem emit {signal : Signal} (h : signal.isEvent = false) :
    Quiet (.emit signal : Action ω Unit) () :=
  fun _ => ⟨[signal], rfl, by simp [events, h]⟩

end Quiet

/-! ### What evaluations send -/

/-- Whether a signal is one of those that come from commands, or from the log. -/
def Signal.isOfCommands : Signal → Bool
  | entered _ _ | left _ _ | warned _ _ | note _ | log _ => true
  | line _ _ | pushed _ | popped _ | failed _ => false

/-- An activity that sends only what comes from commands. -/
def Speaks {ω α : Type} (x : Activity ω α) : Prop :=
  ∀ store effect, x store = some effect → ∀ signal ∈ effect.signals, signal.isOfCommands = true

namespace Speaks

variable {ω α β : Type}

theorem pure (a : α) : Speaks (pure a : Activity ω α) := by
  rintro store effect ⟨⟩ signal hsignal
  cases hsignal

theorem bind {x : Activity ω α} {f : α → Activity ω β} (hx : Speaks x) (hf : ∀ a, Speaks (f a)) :
    Speaks (x >>= f) := by
  intro store effect given signal hsignal
  obtain ⟨first, second, hfirst, hsecond, rfl⟩ := Activity.bind_eq_some_iff.mp given
  rcases List.mem_append.mp hsignal with hsignal | hsignal
  · exact hx store first hfirst signal hsignal
  · exact hf _ _ second hsecond signal hsignal

theorem emit {signal : Signal} (h : signal.isOfCommands = true) :
    Speaks (.emit signal : Activity ω Unit) := by
  rintro store effect ⟨⟩ signal' hsignal
  rwa [List.mem_singleton.mp hsignal]

theorem ask (f : ω → Turn ω α) : Speaks (.ask f) := by
  rintro store effect ⟨⟩ signal hsignal
  obtain ⟨note, -, rfl⟩ := List.mem_map.mp hsignal
  rfl

theorem await (f : ω → Option (Turn ω α)) : Speaks (.await f) := by
  intro store effect given signal hsignal
  obtain ⟨turn, -, rfl⟩ := Option.map_eq_some_iff.mp given
  obtain ⟨note, -, rfl⟩ := List.mem_map.mp hsignal
  rfl

theorem map_ofOption (f : α → β) (a : Option α) : Speaks (f <$> .ofOption a : Activity ω β) := by
  cases a with
  | none =>
    intro store effect given
    cases given
  | some a =>
    rw [Activity.ofOption_some, map_pure]
    exact pure (f a)

theorem expression (source : String) :
    Speaks (.expression source : Activity ω (Except ParseError (Shared Expr))) := by
  rintro store effect ⟨⟩ signal hsignal
  cases hsignal

end Speaks

section

variable {ι ω : Type} {ctx : Context ι ω} {run : Stepper ι ω}

theorem speaks_conclude (speaks : ∀ name command, Speaks (run name command)) (e : Expr)
    (values : List Value) : Speaks (conclude ctx run e values) := by
  cases e with
  | literal | reference | unary => exact .pure _
  | binary => exact .map_ofOption _ _
  | call name arguments =>
    refine .bind (.emit rfl) fun _ => .bind (.ask _) fun created => ?_
    cases created with
    | error fault => exact .pure _
    | ok command => exact speaks name command

theorem speaks_settle (speaks : ∀ name command, Speaks (run name command)) (e : Expr)
    (known : List Value) {operands : List (Activity ω (Progress ι))}
    (h : ∀ x ∈ operands, Speaks x) : Speaks (settle ctx run e known operands) := by
  induction operands generalizing known with
  | nil => exact speaks_conclude speaks e known
  | cons x operands ih =>
    refine .bind (h x List.mem_cons_self) fun progress => ?_
    cases progress with
    | complete v => exact ih _ fun y hy => h y (List.mem_cons_of_mem x hy)
    | suspended | failed => exact .pure _

theorem speaks_start (speaks : ∀ name command, Speaks (run name command)) (e : Expr) :
    Speaks (start ctx run e) := by
  induction e using Expr.operands_induction with
  | step e ih =>
    rw [start_eq_settle]
    refine speaks_settle speaks e [] fun x hx => ?_
    obtain ⟨operand, hoperand, rfl⟩ := List.mem_map.mp hx
    exact ih operand hoperand

theorem speaks_answer (speaks : ∀ name command, Speaks (run name command)) (name : String)
    (command : ι) (source : String) (request : Expr) (progress : Progress ι) :
    Speaks (answer ctx run name command source request progress) := by
  cases progress with
  | suspended | failed => exact .pure _
  | complete v => exact .bind (.emit rfl) fun _ => .bind (.ask _) fun command => speaks name command

theorem speaks_exchange (speaks : ∀ name command, Speaks (run name command)) (name : String)
    (command : ι) : Speaks (exchange ctx run name command) := by
  refine .bind (.await _) fun (reply, command) => ?_
  rcases reply with fault | v | _ | source | message
  · exact .pure _
  · exact .bind (.emit rfl) fun _ => .bind (.emit rfl) fun _ => .pure _
  · exact .pure _
  · refine .bind (.expression source) fun found => ?_
    cases found with
    | error e => exact .pure _
    | ok request =>
      exact .bind (speaks_start speaks _) fun progress => speaks_answer speaks _ _ _ _ progress
  · exact .bind (.emit rfl) fun _ => .bind (.emit rfl) fun _ => speaks name command

theorem speaks_drive (name : String) (command : ι) : Speaks (drive ctx name command) := by
  intro store effect given
  refine drive_induction ctx (motive := fun _ _ _ effect =>
    ∀ signal ∈ effect.signals, signal.isOfCommands = true) ?_ given
  intro run speaks name command store effect given
  exact speaks_exchange speaks name command store effect given

/-- **Evaluations start no statements and open no blocks**: they send only what comes from
commands. -/
theorem speaks_resume (evaluation : Evaluation ι) (e : Expr) :
    Speaks (resume ctx evaluation e) := by
  induction evaluation generalizing e with
  | fresh => exact speaks_start speaks_drive e
  | calling name command => exact speaks_drive name command
  | operand known inner ih =>
    rw [resume]
    split
    · exact speaks_conclude speaks_drive e known
    · next x rest _ =>
      refine .bind (ih x) fun progress => ?_
      cases progress with
      | suspended | failed => exact .pure _
      | complete v =>
        refine speaks_settle speaks_drive e _ fun y hy => ?_
        obtain ⟨operand, -, rfl⟩ := List.mem_map.mp hy
        exact speaks_start speaks_drive operand
  | asking name command source request inner ih =>
    rw [resume]
    exact .bind (ih request) fun progress =>
      speaks_answer speaks_drive name command source request progress

end

/-! ### Statements -/

/-- The commands of a host that has none. -/
def Commands.none {ω : Type} : Commands Empty ω where
  create name _ host := .still (.error (.unknownCommand name)) host
  next := nofun
  supply := nofun

/-- The expression of a statement. -/
def StatementKind.value? : StatementKind → Option Expr
  | assignment _ e | expression e | header _ e => some e
  | blockEnd => none

theorem StatementKind.eq_blockEnd_of_value? {kind : StatementKind} (h : kind.value? = none) :
    kind = .blockEnd := by
  cases kind with
  | blockEnd => rfl
  | assignment | expression | header => cases h

/-- The statement after a closing brace: a repetition goes back to its header. -/
def Frame.exit : Frame → Nat → Nat
  | repetition header, _ => header
  | _, brace => brace + 1

namespace Program

variable {ι ω : Type}

/-- The program after a block has been opened. -/
def opened (p : Program ι) (frame : Frame) : Program ι :=
  { p with stack := frame :: p.stack, counter := p.counter + 1 }

/-- The program after a block has been skipped. -/
def skipped (p : Program ι) (block : BlockKind) : Except Fault (Program ι) :=
  match p.script.closing? p.counter with
  | none => .error (.unterminatedBlock block)
  | some stop => .ok { p with counter := stop + 1 }

/-- The program after a header with the given value. -/
def entered (p : Program ι) (block : BlockKind) (v : Value) : Except Fault (Program ι) :=
  match block with
  | .condition => if v.isTruthy then .ok (p.opened .condition) else p.skipped block
  | .repetition =>
    if v.isTruthy then .ok (p.opened (.repetition p.counter)) else p.skipped block
  | .selection => .ok (p.opened (.selection v false))
  | .alternative =>
    match matchCase v p.stack with
    | none => .error .caseWithoutSwitch
    | some (true, stack) => .ok (opened { p with stack } .alternative)
    | some (false, _) => p.skipped block

/-- The program after a closing brace. -/
def closed (p : Program ι) : Except Fault (Program ι) :=
  match p.stack with
  | [] => .error .unmatchedBlockEnd
  | frame :: stack => .ok { p with stack, counter := frame.exit p.counter }

/-- The program after a statement whose expression, if there is one, has the given value. -/
def completed (p : Program ι) : StatementKind → Value → Except Fault (Program ι)
  | .assignment name _, v => .ok { p with vars := p.vars.set name v, counter := p.counter + 1 }
  | .expression _, _ => .ok { p with counter := p.counter + 1 }
  | .header block _, v => p.entered block v
  | .blockEnd, _ => p.closed

/-- The program with its status brought up to date. -/
def settled (p : Program ι) : Program ι :=
  if p.script.size ≤ p.counter then { p with status := .done } else p

theorem settled_eq_self {p : Program ι} (h : p.counter < p.script.size) : p.settled = p :=
  if_neg (Nat.not_le_of_gt h)

theorem counter_lt_of_current {p : Program ι} {s : Statement} (hs : p.current? = some s) :
    p.counter < p.script.size :=
  (List.getElem?_eq_some_iff.mp hs).1

/-- The program after a fault in the given statement. -/
def failedAt (p : Program ι) (s : Statement) (fault : Fault) : Program ι :=
  { p with evaluation := none, status := .failed ⟨p.name, s.span, fault⟩ }

/-- What a step gives that fails without having changed the program. -/
def attempted (p : Program ι) : Except Fault (Program ι) → Program ι × Except Fault Unit
  | .ok p' => (p', .ok ())
  | .error fault => (p, .error fault)

/-- What a cycle gives, according to what has become of the statement. -/
def outcome (p : Program ι) (s : Statement) :
    Except Fault (Program ι) → Program ι × Except ProgramError Unit
  | .ok p' => (p'.settled, .ok ())
  | .error fault => (p.failedAt s fault, .error ⟨p.name, s.span, fault⟩)

theorem quiet_push (p : Program ι) (frame : Frame) :
    Quiet (p.push frame : Action ω _) (p.opened frame) :=
  (Quiet.log _ _ _).bind ((Quiet.emit rfl).bind (.pure _))

/-- A block that cannot be skipped leaves the program as it was. -/
theorem quiet_skip (p : Program ι) (block : BlockKind) :
    Quiet (p.skip block : Action ω _) (p.attempted (p.skipped block)) := by
  unfold skip skipped
  cases p.script.closing? p.counter with
  | none => exact .pure _
  | some stop => exact (Quiet.log _ _ _).bind (.pure _)

/-- A case that is not entered marks no selection. -/
theorem eq_of_matchCase {v : Value} {stack stack' : List Frame}
    (h : matchCase v stack = some (false, stack')) : stack' = stack := by
  induction stack generalizing stack' with
  | nil => cases h
  | cons frame stack ih =>
    cases frame with
    | selection scrutinee hit =>
      rw [matchCase] at h
      split at h
      · cases h
      · cases h
        rfl
    | condition | alternative | repetition =>
      obtain ⟨⟨_, rest⟩, hrest, heq⟩ := Option.map_eq_some_iff.mp h
      cases heq
      rw [ih hrest]

/-- A block that can be neither entered nor skipped leaves the program as it was. -/
theorem quiet_enter (p : Program ι) (block : BlockKind) (v : Value) :
    Quiet (p.enter block v : Action ω _) (p.attempted (p.entered block v)) := by
  unfold enter entered
  cases block with
  | condition | repetition =>
    dsimp only
    split
    · exact (quiet_push p _).map _
    · exact quiet_skip p _
  | selection => exact (quiet_push p _).map _
  | alternative =>
    dsimp only
    rcases hmatch : matchCase v p.stack with _ | ⟨_ | _, stack⟩
    · exact .pure _
    · cases eq_of_matchCase hmatch
      exact quiet_skip p _
    · exact (quiet_push _ _).map _

/-- A brace that closes nothing leaves the program as it was. -/
theorem quiet_close (p : Program ι) : Quiet (p.close : Action ω _) (p.attempted p.closed) := by
  unfold close closed
  cases p.stack with
  | nil => exact .pure _
  | cons frame stack =>
    refine (Quiet.log _ _ _).bind ((Quiet.emit rfl).bind ?_)
    cases frame <;> exact .pure _

theorem quiet_fail {p : Program ι} {s : Statement} (hs : p.current? = some s) (fault : Fault) :
    Quiet (p.fail fault : Action ω _) (p.outcome s (.error fault)) := by
  rw [fail, hs]
  exact (Quiet.log _ _ _).bind ((Quiet.emit rfl).bind (.pure _))

theorem quiet_advance (p : Program ι) : Quiet (p.advance : Action ω _) (p.settled, .ok ()) := by
  by_cases h : p.script.size ≤ p.counter
  · simp only [advance, settled, if_pos h]
    exact (Quiet.log _ _ _).bind (.pure _)
  · simp only [advance, settled, if_neg h]
    exact .pure _

/-! ### Cycles -/

/-- What can be seen of a statement when it is started. -/
def announced (p : Program ι) (s : Statement) : List Signal :=
  if p.evaluation.isNone then [.line p.counter s] else []

theorem announce_apply (p : Program ι) (s : Statement) (store : Store ω) :
    ∃ signals, p.announce s store = ⟨(), store, signals⟩ ∧ events signals = p.announced s := by
  unfold announce announced
  split
  · exact ⟨_, rfl, rfl⟩
  · exact ⟨[], rfl, rfl⟩

/-- What a cycle gives, according to how far the expression of the statement has come. -/
def afterProgress (p : Program ι) (s : Statement) :
    Progress ι → Program ι × Except ProgramError Unit
  | .complete v => p.outcome s (completed { p with evaluation := none } s.kind v)
  | .suspended rest => p.outcome s (.ok { p with evaluation := some rest })
  | .failed fault _ => p.outcome s (.error fault)

variable {commands : Commands ι ω} {p : Program ι} {s : Statement} {store : Store ω}

/-- How a cycle ends, once the statement has been executed as far as it gets. -/
theorem quiet_ending (hs : p.current? = some s) (result : Except Fault (Program ι)) :
    Quiet (match p.attempted result with
      | (p, .error fault) => p.fail fault
      | (p, .ok ()) => p.advance : Action ω _) (p.outcome s result) := by
  cases result with
  | error fault => exact quiet_fail hs fault
  | ok p' => exact quiet_advance p'

/-- A cycle announces its statement, executes it, and brings the status up to date.  The statement
may drop the evaluation or put another in its place, whether it fails or not. -/
theorem cycle_of_execute (running : p.status = .running) (hs : p.current? = some s)
    {evaluation : Option (Evaluation ι)} {result : Except Fault (Program ι)} {store' : Store ω}
    {signals : List Signal}
    (h : p.execute commands s store =
      some ⟨attempted { p with evaluation } result, store', signals⟩) :
    ∃ signals', p.cycle commands store = some ⟨p.outcome s result, store', signals'⟩ ∧
      events signals' = p.announced s ++ events signals := by
  obtain ⟨first, hfirst, hannounced⟩ := announce_apply p s store
  have hending : outcome { p with evaluation } s result = p.outcome s result := by
    cases result <;> rfl
  obtain ⟨last, hlast, hquiet⟩ := quiet_ending (p := { p with evaluation }) hs result store'
  rw [hending] at hlast
  refine ⟨first ++ (signals ++ last), ?_, ?_⟩
  · simp only [cycle, running, hs]
    refine Activity.bind_eq_some_iff.mpr ⟨⟨(), store, first⟩,
      ⟨p.outcome s result, store', signals ++ last⟩, congrArg some hfirst, ?_, rfl⟩
    refine Activity.bind_eq_some_iff.mpr ⟨⟨attempted { p with evaluation } result, store', signals⟩,
      ⟨p.outcome s result, store', last⟩, h, ?_, rfl⟩
    cases result <;> exact congrArg some hlast
  · rw [events_append, events_append, hannounced, hquiet, List.append_nil]

theorem cycle_eq_none_of_execute (running : p.status = .running) (hs : p.current? = some s)
    (h : p.execute commands s store = none) : p.cycle commands store = none := by
  obtain ⟨first, hfirst, -⟩ := announce_apply p s store
  simp only [cycle, running, hs, Activity.bind_apply, Activity.ofAction_apply, hfirst, h,
    Option.bind_some, Option.bind_none]

/-- A closing brace takes one cycle. -/
theorem cycle_of_blockEnd (commands : Commands ι ω) (running : p.status = .running)
    (hs : p.current? = some s) (hkind : s.kind = .blockEnd) (store : Store ω) :
    ∃ signals, p.cycle commands store = some ⟨p.outcome s p.closed, store, signals⟩ ∧
      events signals = p.announced s := by
  obtain ⟨signals, hclose, hquiet⟩ := quiet_close p store
  have h : p.execute commands s store = some ⟨p.attempted p.closed, store, signals⟩ := by
    simp only [execute, hkind, Activity.ofAction_apply, hclose]
  obtain ⟨signals', hcycle, hevents⟩ := cycle_of_execute running hs h
  exact ⟨signals', hcycle, by rw [hevents, hquiet, List.append_nil]⟩

/-- What is done with the value of a statement's expression. -/
theorem execute_eq_evaluate (commands : Commands ι ω) (p : Program ι) {e : Expr}
    (he : s.kind.value? = some e) :
    ∃ andThen : Program ι → Value → Action ω (Program ι × Except Fault Unit),
      p.execute commands s = p.evaluate commands e andThen ∧
      ∀ p v, Quiet (andThen p v) (p.attempted (p.completed s.kind v)) := by
  unfold execute
  obtain ⟨kind, span⟩ := s
  cases kind with
  | assignment | expression =>
    cases he
    exact ⟨_, rfl, fun p v => .pure _⟩
  | header block =>
    cases he
    exact ⟨_, rfl, fun p v => quiet_enter p block v⟩
  | blockEnd => cases he

/-- **A cycle with an expression** goes on with its evaluation, and once it has a value, with the
statement. -/
theorem cycle_of_resume (running : p.status = .running) (hs : p.current? = some s) {e : Expr}
    (he : s.kind.value? = some e) {effect : Effect ω (Progress ι)}
    (h : resume ⟨commands, p.vars⟩ (p.evaluation.getD .fresh) e store = some effect) :
    ∃ signals,
      p.cycle commands store = some ⟨p.afterProgress s effect.value, effect.store, signals⟩ ∧
      events signals = p.announced s ++ events effect.signals := by
  obtain ⟨andThen, hexecute, hquiet⟩ := execute_eq_evaluate commands p he
  obtain ⟨progress, store', signals⟩ := effect
  cases progress with
  | complete v =>
    obtain ⟨signals', hdone, hnone⟩ := hquiet { p with evaluation := none } v store'
    have hx : p.execute commands s store =
        some ⟨attempted { p with evaluation := none }
          (completed { p with evaluation := none } s.kind v), store', signals ++ signals'⟩ := by
      rw [hexecute]
      exact Activity.bind_eq_some_iff.mpr ⟨_, ⟨_, store', signals'⟩, h, congrArg some hdone, rfl⟩
    obtain ⟨signals'', hcycle, hevents⟩ := cycle_of_execute running hs hx
    exact ⟨signals'', hcycle, by rw [hevents, events_append, hnone, List.append_nil]⟩
  | suspended rest =>
    have hx : p.execute commands s store =
        some ⟨attempted { p with evaluation := none } (.ok { p with evaluation := some rest }),
          store', signals ++ []⟩ := by
      rw [hexecute]
      exact Activity.bind_eq_some_iff.mpr ⟨_, ⟨_, store', []⟩, h, rfl, rfl⟩
    obtain ⟨signals'', hcycle, hevents⟩ := cycle_of_execute running hs hx
    exact ⟨signals'', hcycle, by rw [hevents, List.append_nil]⟩
  | failed fault rest =>
    -- The evaluation is gone with the fault, and nothing else.
    have hx : p.execute commands s store =
        some ⟨attempted { p with evaluation := none } (.error fault), store', signals ++ []⟩ := by
      rw [hexecute]
      exact Activity.bind_eq_some_iff.mpr ⟨_, ⟨_, store', []⟩, h, rfl, rfl⟩
    obtain ⟨signals'', hcycle, hevents⟩ := cycle_of_execute running hs hx
    exact ⟨signals'', hcycle, by rw [hevents, List.append_nil]⟩

theorem cycle_eq_none_of_resume (running : p.status = .running) (hs : p.current? = some s)
    {e : Expr} (he : s.kind.value? = some e)
    (h : resume ⟨commands, p.vars⟩ (p.evaluation.getD .fresh) e store = none) :
    p.cycle commands store = none := by
  obtain ⟨andThen, hexecute, -⟩ := execute_eq_evaluate commands p he
  refine cycle_eq_none_of_execute running hs ?_
  rw [hexecute, evaluate, Activity.bind_apply, h, Option.bind_none]

/-- A program without a statement left is done after one cycle. -/
theorem cycle_of_current_eq_none (commands : Commands ι ω) (running : p.status = .running)
    (hs : p.current? = none) (store : Store ω) :
    ∃ signals,
      p.cycle commands store = some ⟨({ p with status := .done }, .ok ()), store, signals⟩ ∧
      events signals = [] := by
  have hsize : p.script.size ≤ p.counter := List.getElem?_eq_none_iff.mp hs
  obtain ⟨signals, hadvance, hquiet⟩ := quiet_advance p store
  refine ⟨signals, ?_, hquiet⟩
  simp only [cycle, running, hs, Activity.ofAction_apply, hadvance, settled, if_pos hsize]

/-- What a cycle may make of a program, and what it gives. -/
inductive Changes (p : Program ι) : Program ι × Except ProgramError Unit → Prop
  /-- The program is done. -/
  | done (h : p.status = .done) : Changes p (p, .ok ())
  /-- The program has failed. -/
  | failed {error : ProgramError} (h : p.status = .failed error) : Changes p (p, .error error)
  /-- There is no statement left. -/
  | exhausted (running : p.status = .running) (hs : p.current? = none) :
    Changes p ({ p with status := .done }, .ok ())
  /-- The statement waits for a command. -/
  | waits {s : Statement} {e : Expr} (running : p.status = .running) (hs : p.current? = some s)
    (he : s.kind.value? = some e) (rest : Evaluation ι) :
    Changes p ({ p with evaluation := some rest }, .ok ())
  /-- The statement fails. -/
  | fails {s : Statement} (running : p.status = .running) (hs : p.current? = some s)
    (fault : Fault) : Changes p (p.failedAt s fault, .error ⟨p.name, s.span, fault⟩)
  /-- The statement has its value, and is completed. -/
  | completes {s : Statement} {e : Expr} (running : p.status = .running)
    (hs : p.current? = some s) (he : s.kind.value? = some e) {v : Value} {p' : Program ι}
    (h : completed { p with evaluation := none } s.kind v = .ok p') :
    Changes p (p'.settled, .ok ())
  /-- A block is closed. -/
  | closes {s : Statement} (running : p.status = .running) (hs : p.current? = some s)
    (hkind : s.kind = .blockEnd) {p' : Program ι} (h : p.closed = .ok p') :
    Changes p (p'.settled, .ok ())

theorem changes_of_afterProgress (running : p.status = .running) (hs : p.current? = some s)
    {e : Expr} (he : s.kind.value? = some e) (progress : Progress ι) :
    Changes p (p.afterProgress s progress) := by
  cases progress with
  | complete v =>
    rw [afterProgress]
    cases h : completed { p with evaluation := none } s.kind v with
    | ok p' => exact .completes running hs he h
    | error fault => exact .fails running hs fault
  | suspended rest =>
    have hsettled : settled { p with evaluation := some rest } =
        { p with evaluation := some rest } :=
      settled_eq_self (counter_lt_of_current hs)
    rw [afterProgress, outcome, hsettled]
    exact .waits running hs he rest
  | failed fault rest => exact .fails running hs fault

/-- **Inversion of a cycle.** -/
theorem changes_of_cycle {effect : Effect ω (Program ι × Except ProgramError Unit)}
    (h : p.cycle commands store = some effect) : Changes p effect.value := by
  cases hstatus : p.status with
  | done =>
    simp only [cycle, hstatus] at h
    cases h
    exact .done hstatus
  | failed error =>
    simp only [cycle, hstatus] at h
    cases h
    exact .failed hstatus
  | running =>
    -- the counter stands at a statement, or behind the last one
    cases hs : p.current? with
    | none =>
      obtain ⟨signals, hcycle, -⟩ := cycle_of_current_eq_none commands hstatus hs store
      rw [h] at hcycle
      cases hcycle
      exact .exhausted hstatus hs
    | some s =>
      cases he : s.kind.value? with
      | none =>
        -- only a brace has no expression
        have hkind := StatementKind.eq_blockEnd_of_value? he
        obtain ⟨signals, hcycle, -⟩ := cycle_of_blockEnd commands hstatus hs hkind store
        rw [h] at hcycle
        cases hcycle
        cases hclosed : p.closed with
        | ok p' => exact .closes hstatus hs hkind hclosed
        | error fault => exact .fails hstatus hs fault
      | some e =>
        -- a cycle gives nothing only if its evaluation does
        cases hresume : resume ⟨commands, p.vars⟩ (p.evaluation.getD .fresh) e store with
        | none =>
          rw [cycle_eq_none_of_resume hstatus hs he hresume] at h
          cases h
        | some progress =>
          obtain ⟨signals, hcycle, -⟩ := cycle_of_resume hstatus hs he hresume
          rw [h] at hcycle
          cases hcycle
          exact changes_of_afterProgress hstatus hs he progress.value

/-- **What a cycle does beyond the program**: it resumes the expression of the current statement, or
there is none and the cycle leaves the store alone and tells of no command. -/
theorem resume_of_cycle {effect : Effect ω (Program ι × Except ProgramError Unit)}
    (h : p.cycle commands store = some effect) :
    ((∀ s, p.status = .running → p.current? = some s → s.kind.value? = none) ∧
      effect.store = store ∧ ∀ signal ∈ events effect.signals, ∃ i s, signal = .line i s) ∨
    ∃ s e step, p.status = .running ∧ p.current? = some s ∧ s.kind.value? = some e ∧
      resume ⟨commands, p.vars⟩ (p.evaluation.getD .fresh) e store = some step ∧
      effect.value = p.afterProgress s step.value ∧ effect.store = step.store ∧
      events effect.signals = p.announced s ++ events step.signals := by
  -- Along the cases of a cycle, of which only one resumes an expression.
  cases hstatus : p.status with
  | done | failed error =>
    simp only [cycle, hstatus] at h
    cases h
    exact .inl ⟨fun s running => (nomatch running), rfl, fun signal hsignal => nomatch hsignal⟩
  | running =>
    cases hs : p.current? with
    | none =>
      obtain ⟨signals, hcycle, hevents⟩ := cycle_of_current_eq_none commands hstatus hs store
      rw [h] at hcycle
      cases hcycle
      refine .inl ⟨fun s _ hs => (nomatch hs), rfl, fun signal hsignal => ?_⟩
      rw [hevents] at hsignal
      exact nomatch hsignal
    | some s =>
      cases he : s.kind.value? with
      | none =>
        have hkind := StatementKind.eq_blockEnd_of_value? he
        obtain ⟨signals, hcycle, hevents⟩ := cycle_of_blockEnd commands hstatus hs hkind store
        rw [h] at hcycle
        cases hcycle
        refine .inl ⟨?_, rfl, fun signal hsignal => ?_⟩
        · rintro s' - hs'
          cases hs'
          exact he
        -- a brace is announced, and that is all
        rw [hevents, announced] at hsignal
        split at hsignal
        · exact ⟨p.counter, s, List.mem_singleton.mp hsignal⟩
        · exact nomatch hsignal
      | some e =>
        cases hresume : resume ⟨commands, p.vars⟩ (p.evaluation.getD .fresh) e store with
        | none =>
          rw [cycle_eq_none_of_resume hstatus hs he hresume] at h
          cases h
        | some step =>
          obtain ⟨signals, hcycle, hevents⟩ := cycle_of_resume hstatus hs he hresume
          rw [h] at hcycle
          cases hcycle
          exact .inr ⟨s, e, step, rfl, rfl, he, hresume, rfl, rfl, hevents⟩

/-- The programs that cycles lead to, with stores that they then find.  Between two cycles the host
may write any variables, and do anything to the store. -/
inductive Reachable (commands : Commands ι ω) : Program ι → Store ω → Prop
  /-- A new program, under any name. -/
  | start (script : Script) (vars : Variables) (name : String) (store : Store ω) :
    Reachable commands ((ofScript script vars).named name) store
  /-- After a cycle. -/
  | cycle {p : Program ι} {store : Store ω}
    {effect : Effect ω (Program ι × Except ProgramError Unit)} (before : Reachable commands p store)
    (h : p.cycle commands store = some effect) : Reachable commands effect.value.1 effect.store
  /-- After the host has written. -/
  | write {p : Program ι} {store : Store ω} (before : Reachable commands p store)
    (vars : Variables) (store' : Store ω) : Reachable commands { p with vars } store'

/-! ### Suspension -/

/-- Only the variables, the stack and the counter may differ. -/
def Moved (p p' : Program ι) : Prop :=
  ∃ vars stack counter, p' = { p with vars, stack, counter }

section

variable {p' : Program ι}

theorem moved_of_skipped {block : BlockKind} (h : p.skipped block = .ok p') : p.Moved p' := by
  rw [skipped] at h
  split at h
  · cases h
  · cases h
    exact ⟨_, _, _, rfl⟩

theorem moved_of_entered {block : BlockKind} {v : Value} (h : p.entered block v = .ok p') :
    p.Moved p' := by
  cases block with
  | condition | repetition =>
    rw [entered] at h
    split at h
    · cases h
      exact ⟨_, _, _, rfl⟩
    · exact moved_of_skipped h
  | selection =>
    cases h
    exact ⟨_, _, _, rfl⟩
  | alternative =>
    rw [entered] at h
    split at h
    · cases h
    · cases h
      exact ⟨_, _, _, rfl⟩
    · exact moved_of_skipped h

theorem moved_of_closed (h : p.closed = .ok p') : p.Moved p' := by
  rw [closed] at h
  split at h
  · cases h
  · cases h
    exact ⟨_, _, _, rfl⟩

theorem moved_of_completed {kind : StatementKind} {v : Value} (h : p.completed kind v = .ok p') :
    p.Moved p' := by
  cases kind with
  | assignment | expression =>
    cases h
    exact ⟨_, _, _, rfl⟩
  | header block e => exact moved_of_entered h
  | blockEnd => exact moved_of_closed h

theorem Moved.evaluation_settled (h : p.Moved p') : p'.settled.evaluation = p.evaluation := by
  obtain ⟨vars, stack, counter, rfl⟩ := h
  unfold settled
  split <;> rfl

theorem Moved.script_settled (h : p.Moved p') : p'.settled.script = p.script := by
  obtain ⟨vars, stack, counter, rfl⟩ := h
  unfold settled
  split <;> rfl

/-- A cycle keeps the script. -/
theorem script_of_cycle {effect : Effect ω (Program ι × Except ProgramError Unit)}
    (hcycle : p.cycle commands store = some effect) : effect.value.1.script = p.script := by
  have changes := changes_of_cycle hcycle
  generalize effect.value = value at changes ⊢
  cases changes with
  | done | failed | exhausted | waits | fails => rfl
  | completes _ _ _ hp => exact (moved_of_completed hp).script_settled
  | closes _ _ _ hp => exact (moved_of_closed hp).script_settled

/-- A program is suspended only while it executes a statement with an expression. -/
theorem current_of_suspended (reachable : Reachable commands p store) (h : p.isSuspended) :
    p.status = .running ∧ ∃ s e, p.current? = some s ∧ s.kind.value? = some e := by
  induction reachable with
  | start => cases h
  | write before vars store' ih => exact ih h
  | @cycle p store effect before hcycle ih =>
    have changes := changes_of_cycle hcycle
    generalize effect.value = value at changes h ⊢
    cases changes with
    | done | failed => exact ih h
    | exhausted running hs =>
      obtain ⟨-, s, e, hs', -⟩ := ih h
      rw [hs] at hs'
      cases hs'
    | @waits s e running hs he rest => exact ⟨running, s, e, hs, he⟩
    | fails => cases h
    | completes running hs he hp =>
      rw [isSuspended, (moved_of_completed hp).evaluation_settled] at h
      cases h
    | closes running hs hkind hp =>
      rw [isSuspended, (moved_of_closed hp).evaluation_settled] at h
      obtain ⟨-, s, e, hs', he⟩ := ih h
      rw [hs, Option.some.injEq] at hs'
      subst hs'
      rw [hkind] at he
      cases he

/-- **A cycle that leaves the program suspended** changes nothing but the place in the
evaluation. -/
theorem cycle_of_suspended {effect : Effect ω (Program ι × Except ProgramError Unit)}
    (reachable : Reachable commands p store) (hcycle : p.cycle commands store = some effect)
    (h : effect.value.1.isSuspended) :
    effect.value = ({ p with evaluation := effect.value.1.evaluation }, .ok ()) := by
  obtain ⟨running, s, e, hs, he⟩ := current_of_suspended (reachable.cycle hcycle) h
  have changes := changes_of_cycle hcycle
  generalize effect.value = value at changes h running hs ⊢
  cases changes with
  | done => rfl
  | failed hfailed =>
    rw [running] at hfailed
    cases hfailed
  | exhausted => cases running
  | waits => rfl
  | fails => cases h
  | completes _ _ _ hp =>
    rw [isSuspended, (moved_of_completed hp).evaluation_settled] at h
    cases h
  | closes running' hs' hkind hp =>
    rw [isSuspended, (moved_of_closed hp).evaluation_settled] at h
    obtain ⟨-, s', e', hs'', he'⟩ := current_of_suspended reachable h
    rw [hs', Option.some.injEq] at hs''
    subst hs''
    rw [hkind] at he'
    cases he'

/-- **A cycle of a suspended program** starts no statement. -/
theorem line_not_mem_of_suspended {effect : Effect ω (Program ι × Except ProgramError Unit)}
    (reachable : Reachable commands p store) (hcycle : p.cycle commands store = some effect)
    (h : p.isSuspended) (i : Nat) (s : Statement) : .line i s ∉ effect.signals := by
  intro hline
  obtain ⟨running, s', e, hs, he⟩ := current_of_suspended reachable h
  cases hresume : resume ⟨commands, p.vars⟩ (p.evaluation.getD .fresh) e store with
  | none =>
    rw [cycle_eq_none_of_resume running hs he hresume] at hcycle
    cases hcycle
  | some progress =>
    obtain ⟨signals, hcycle', hevents⟩ := cycle_of_resume running hs he hresume
    rw [hcycle] at hcycle'
    cases hcycle'
    have hannounced : p.announced s' = [] := by
      rw [announced, if_neg]
      rw [isSuspended, Option.isSome_iff_ne_none] at h
      simpa using h
    have hmem : .line i s ∈ events signals := List.mem_filter.mpr ⟨hline, rfl⟩
    rw [hevents, hannounced, List.nil_append] at hmem
    exact nomatch speaks_resume _ _ _ _ hresume _ (List.mem_filter.mp hmem).1

end

end Program

end StepScript
