import StepScript.Program.Evaluation

/-!
# Rules of evaluation

Evaluation is defined by functions that give nothing if they never end.  Here the same is said by
rules: each tells what one piece of work does, given what the smaller pieces in it do.  Whatever
is to be shown of all evaluations can then be shown rule by rule, no matter how deeply commands,
and the expressions that they ask for, are nested.

## Main definitions

* `Task` — a piece of work within an evaluation.
* `Task.activity` — what it is as an activity.
* `Does` — the rules.

## Main results

* `does_iff` — the rules say exactly what the activities give.
-/

namespace StepScript

variable {ι ω : Type}

/-! ### Activities by their equations -/

/-- An effect that other signals came before. -/
def Effect.after {α : Type} (signals : List Signal) (e : Effect ω α) : Effect ω α :=
  { e with signals := signals ++ e.signals }

namespace Activity

variable {α β : Type} {s : Store ω}

theorem bind_of_eq_some {x : Activity ω α} {a : α} {s' : Store ω} {signals : List Signal}
    (h : x s = some ⟨a, s', signals⟩) (f : α → Activity ω β) :
    (x >>= f) s = (f a s').map (Effect.after signals) := by
  rw [bind_apply, h, Option.bind_some, Option.map_eq_bind]
  rfl

theorem ask_apply {f : ω → Turn ω α} {a : α} {host : ω} {notes : List Note}
    (h : f s.host = ⟨a, host, notes⟩) :
    Activity.ask f s = some ⟨a, ⟨s.cache, host⟩, notes.map .note⟩ := by
  change some (Effect.mk (f s.host).value ⟨s.cache, (f s.host).host⟩ _) = _
  rw [h]

theorem expression_apply {source : String} {found : Except ParseError (Shared Expr)}
    {cache : Cache} (h : s.cache.expression source = (found, cache)) :
    Activity.expression source s = some ⟨found, ⟨cache, s.host⟩, []⟩ := by
  change some (Effect.mk (s.cache.expression source).1
    ⟨(s.cache.expression source).2, s.host⟩ []) = _
  rw [h]

end Activity

/-- The result of an expression that is no call, once its operands are known.  There is none where
an operator gives nothing. -/
def Expr.result? (vars : Variables) : Expr → List Value → Option (Except Fault Value)
  | literal v, _ => some (.ok v)
  | reference name, _ => some (.ok (vars.resolve name))
  | unary op _, values => some (op.apply (values.getD 0 .null))
  | binary op _ _, values => op.apply (values.getD 0 .null) (values.getD 1 .null)
  | call _ _, _ => none

/-- What is logged when a value is handed over. -/
def supplyRecord (name source : String) (v : Value) : LogRecord :=
  ⟨.trace, .evaluation, "Supplying `" ++ source ++ "` = " ++ v.display ++ " to `" ++ name ++ "`"⟩

/-- What is logged when a command finishes. -/
def finishRecord (name : String) (v : Value) : LogRecord :=
  ⟨.trace, .evaluation, "Command `" ++ name ++ "` finished with " ++ v.display⟩

/-- What is logged when a command warns. -/
def warnRecord (name message : String) : LogRecord :=
  ⟨.warn, .evaluation, name ++ ": " ++ message⟩

section

variable (ctx : Context ι ω) (run : Stepper ι ω)

/-- Goes on with a call, according to what has been created. -/
def greet (name : String) : Except Fault ι → Activity ω (Progress ι)
  | .error fault => pure (.failed fault .fresh)
  | .ok command => run name command

/-- Goes on with a call, according to a reply. -/
def react (name : String) : Except Fault Reply × ι → Activity ω (Progress ι)
  | (.error fault, _) => pure (.failed fault .fresh)
  | (.ok (.finished v), _) => do
    Activity.emit (.log (finishRecord name v))
    Activity.emit (.left name v)
    return .complete v
  | (.ok .suspend, command) => pure (.suspended (.calling name command))
  | (.ok (.warning message), command) => do
    Activity.emit (.log (warnRecord name message))
    Activity.emit (.warned name message)
    run name command
  | (.ok (.request source), command) => do
    match ← Activity.expression source with
    | .error e => return .failed (.unreadableRequest source e) .fresh
    | .ok request =>
      let progress ← start ctx run request.value
      answer ctx run name command source request.value progress

/-- Goes on with an expression, according to how far its next operand has come. -/
def proceed (e : Expr) (known : List Value) (rest : List Expr) :
    Progress ι → Activity ω (Progress ι)
  | .complete v => settle ctx run e (known ++ [v]) (rest.map (start ctx run))
  | .suspended inner => pure (.suspended (.operand known inner))
  | .failed fault inner => pure (.failed fault (.operand known inner))

variable {ctx} {s : Store ω} {host : ω} {notes : List Note}

theorem conclude_of_result? {e : Expr} {known : List Value} {result : Except Fault Value}
    (h : e.result? ctx.vars known = some result) :
    conclude ctx run e known = pure (.ofResult result) := by
  cases e with
  | call => cases h
  | literal | reference | unary =>
    cases h
    rfl
  | binary op left right =>
    rw [Expr.result?] at h
    rw [conclude, h, Activity.ofOption_some, map_pure]

/-- Where an operator gives nothing, the evaluation breaks off. -/
theorem conclude_binary_of_none {op : BinaryOp} {left right : Expr} {known : List Value}
    (h : op.apply (known.getD 0 .null) (known.getD 1 .null) = none) (s : Store ω) :
    conclude ctx run (.binary op left right) known s = none := by
  rw [conclude, h]
  rfl

theorem call_apply {name : String} {values : List Value} {created : Except Fault ι}
    (h : ctx.commands.create name values s.host = ⟨created, host, notes⟩) :
    call ctx run name values s =
      (greet run name created ⟨s.cache, host⟩).map
        (Effect.after (.entered name values :: notes.map .note)) := by
  have hask := Activity.bind_of_eq_some (Activity.ask_apply h) (greet run name)
  change (Activity.emit _ >>= fun _ => Activity.ask _ >>= greet run name) s = _
  rw [Activity.bind_of_eq_some rfl, hask, Option.map_map]
  rfl

theorem exchange_apply {name : String} {command : ι} {reply : Except Fault Reply × ι}
    (h : ctx.commands.next command s.host = some ⟨reply, host, notes⟩) :
    exchange ctx run name command s =
      (react ctx run name reply ⟨s.cache, host⟩).map (Effect.after (notes.map .note)) := by
  rw [exchange, Activity.bind_of_eq_some (Activity.await_apply h)]
  rcases reply with ⟨fault | v | _ | source | message, command⟩ <;> rfl

/-- Where a command gives nothing, the call breaks off. -/
theorem exchange_of_next_eq_none {command : ι} (h : ctx.commands.next command s.host = none)
    (name : String) : exchange ctx run name command s = none := by
  rw [exchange, Activity.bind_apply, Activity.await_eq_none h, Option.bind_none]

theorem react_warning_apply (name message : String) (command : ι) (s : Store ω) :
    react ctx run name (.ok (.warning message), command) s =
      (run name command s).map
        (Effect.after [.log (warnRecord name message), .warned name message]) := by
  change (Activity.emit _ >>= fun _ => Activity.emit _ >>= fun _ => run name command) s = _
  rw [Activity.bind_of_eq_some rfl, Activity.bind_of_eq_some rfl, Option.map_map]
  rfl

theorem react_request_of_error {name source : String} {command : ι} {error : ParseError}
    {cache cache' : Cache} (h : cache.expression source = (.error error, cache')) :
    react ctx run name (.ok (.request source), command) ⟨cache, host⟩ =
      some ⟨.failed (.unreadableRequest source error) .fresh, ⟨cache', host⟩, []⟩ := by
  rw [react, Activity.bind_of_eq_some (Activity.expression_apply h)]
  rfl

theorem react_request_of_ok {name source : String} {command : ι} {request : Shared Expr}
    {cache cache' : Cache} (h : cache.expression source = (.ok request, cache')) :
    react ctx run name (.ok (.request source), command) ⟨cache, host⟩ =
      (start ctx run request.value >>= answer ctx run name command source request.value)
        ⟨cache', host⟩ := by
  rw [react, Activity.bind_of_eq_some (Activity.expression_apply h)]
  exact congrFun Option.map_id _

theorem answer_complete_apply {name source : String} {command command' : ι} {request : Expr}
    {v : Value} (h : ctx.commands.supply command source v s.host = ⟨command', host, notes⟩) :
    answer ctx run name command source request (.complete v) s =
      (run name command' ⟨s.cache, host⟩).map
        (Effect.after (.log (supplyRecord name source v) :: notes.map .note)) := by
  have hask := Activity.bind_of_eq_some (Activity.ask_apply h) (run name)
  change (Activity.emit _ >>= fun _ => Activity.ask _ >>= run name) s = _
  rw [Activity.bind_of_eq_some rfl, hask, Option.map_map]
  rfl

theorem settle_cons (e x : Expr) (known : List Value) (rest : List Expr) :
    settle ctx run e known ((x :: rest).map (start ctx run)) =
      start ctx run x >>= proceed ctx run e known rest := by
  rw [List.map_cons, settle]
  exact bind_congr fun progress => by cases progress <;> rfl

theorem resume_operand {e x : Expr} {known : List Value} {rest : List Expr}
    (h : e.operands.drop known.length = x :: rest) (inner : Evaluation ι) :
    resume ctx (.operand known inner) e =
      resume ctx inner x >>= proceed ctx (drive ctx) e known rest := by
  rw [resume, h]
  exact bind_congr fun progress => by cases progress <;> rfl

end

/-! ### The rules -/

/-- A piece of work within an evaluation. -/
inductive Task (ι : Type)
  /-- Evaluate the remaining operands of an expression, and then the expression. -/
  | settle (e : Expr) (known : List Value) (rest : List Expr)
  /-- Go on with an expression, according to how far its next operand has come. -/
  | proceed (e : Expr) (known : List Value) (rest : List Expr) (progress : Progress ι)
  /-- Step a command until it finishes or suspends. -/
  | drive (name : String) (command : ι)
  /-- Go on with a call, according to how far the expression that its command asked for has
  come. -/
  | answer (name : String) (command : ι) (source : String) (request : Expr) (progress : Progress ι)
  /-- Go on with an evaluation. -/
  | resume (evaluation : Evaluation ι) (e : Expr)

/-- Evaluate an expression from the beginning. -/
abbrev Task.start (e : Expr) : Task ι :=
  .settle e [] e.operands

/-- A piece of work as an activity. -/
def Task.activity (ctx : Context ι ω) : Task ι → Activity ω (Progress ι)
  | settle e known rest =>
    StepScript.settle ctx (StepScript.drive ctx) e known
      (rest.map (StepScript.start ctx (StepScript.drive ctx)))
  | proceed e known rest progress =>
    StepScript.proceed ctx (StepScript.drive ctx) e known rest progress
  | drive name command => StepScript.drive ctx name command
  | answer name command source request progress =>
    StepScript.answer ctx (StepScript.drive ctx) name command source request progress
  | resume evaluation e => StepScript.resume ctx evaluation e

theorem Task.activity_start (ctx : Context ι ω) (e : Expr) :
    (Task.start e).activity ctx = StepScript.start ctx (StepScript.drive ctx) e :=
  (start_eq_settle ctx (StepScript.drive ctx) e).symm

/-- **The rules of evaluation**: a piece of work, done in a store, has brought the evaluation so
far, and has left this store and these signals behind. -/
inductive Does (ctx : Context ι ω) :
    Task ι → Store ω → Progress ι → Store ω → List Signal → Prop
  /-- An operator is applied, or a value is looked up. -/
  | applied {e : Expr} {known : List Value} {s : Store ω} {result : Except Fault Value}
    (h : e.result? ctx.vars known = some result) :
    Does ctx (.settle e known []) s (.ofResult result) s []
  /-- A call that creates no instance. -/
  | refused {name : String} {arguments : List Expr} {known : List Value} {s : Store ω}
    {fault : Fault} {host : ω} {notes : List Note}
    (hcreate : ctx.commands.create name known s.host = ⟨.error fault, host, notes⟩) :
    Does ctx (.settle (.call name arguments) known []) s (.failed fault .fresh) ⟨s.cache, host⟩
      (.entered name known :: notes.map .note)
  /-- A call. -/
  | called {name : String} {arguments : List Expr} {known : List Value} {s s' : Store ω}
    {command : ι} {host : ω} {notes : List Note} {progress : Progress ι} {signals : List Signal}
    (hcreate : ctx.commands.create name known s.host = ⟨.ok command, host, notes⟩)
    (h : Does ctx (.drive name command) ⟨s.cache, host⟩ progress s' signals) :
    Does ctx (.settle (.call name arguments) known []) s progress s'
      (.entered name known :: (notes.map .note ++ signals))
  /-- The next operand. -/
  | operand {e x : Expr} {known : List Value} {rest : List Expr} {s s' s'' : Store ω}
    {inner progress : Progress ι} {first second : List Signal}
    (hx : Does ctx (.start x) s inner s' first)
    (h : Does ctx (.proceed e known rest inner) s' progress s'' second) :
    Does ctx (.settle e known (x :: rest)) s progress s'' (first ++ second)
  /-- The operand has a value. -/
  | known {e : Expr} {known : List Value} {rest : List Expr} {v : Value} {s s' : Store ω}
    {progress : Progress ι} {signals : List Signal}
    (h : Does ctx (.settle e (known ++ [v]) rest) s progress s' signals) :
    Does ctx (.proceed e known rest (.complete v)) s progress s' signals
  /-- The operand is suspended. -/
  | held {e : Expr} {known : List Value} {rest : List Expr} {inner : Evaluation ι} {s : Store ω} :
    Does ctx (.proceed e known rest (.suspended inner)) s (.suspended (.operand known inner)) s []
  /-- The operand has failed. -/
  | broken {e : Expr} {known : List Value} {rest : List Expr} {fault : Fault}
    {inner : Evaluation ι} {s : Store ω} :
    Does ctx (.proceed e known rest (.failed fault inner)) s
      (.failed fault (.operand known inner)) s []
  /-- A command fails. -/
  | failed {name : String} {command command' : ι} {s : Store ω} {fault : Fault} {host : ω}
    {notes : List Note}
    (hnext : ctx.commands.next command s.host = some ⟨(.error fault, command'), host, notes⟩) :
    Does ctx (.drive name command) s (.failed fault .fresh) ⟨s.cache, host⟩ (notes.map .note)
  /-- A command finishes. -/
  | finished {name : String} {command command' : ι} {s : Store ω} {v : Value} {host : ω}
    {notes : List Note}
    (hnext : ctx.commands.next command s.host = some ⟨(.ok (.finished v), command'), host, notes⟩) :
    Does ctx (.drive name command) s (.complete v) ⟨s.cache, host⟩
      (notes.map .note ++ [.log (finishRecord name v), .left name v])
  /-- A command asks for time. -/
  | suspended {name : String} {command command' : ι} {s : Store ω} {host : ω} {notes : List Note}
    (hnext : ctx.commands.next command s.host = some ⟨(.ok .suspend, command'), host, notes⟩) :
    Does ctx (.drive name command) s (.suspended (.calling name command')) ⟨s.cache, host⟩
      (notes.map .note)
  /-- A command warns, and goes on. -/
  | warned {name message : String} {command command' : ι} {s s' : Store ω} {host : ω}
    {notes : List Note} {progress : Progress ι} {signals : List Signal}
    (hnext : ctx.commands.next command s.host =
      some ⟨(.ok (.warning message), command'), host, notes⟩)
    (h : Does ctx (.drive name command') ⟨s.cache, host⟩ progress s' signals) :
    Does ctx (.drive name command) s progress s'
      (notes.map .note ++ .log (warnRecord name message) :: .warned name message :: signals)
  /-- A command asks for something that cannot be parsed. -/
  | unreadable {name source : String} {command command' : ι} {s : Store ω} {host : ω}
    {notes : List Note} {error : ParseError} {cache : Cache}
    (hnext : ctx.commands.next command s.host =
      some ⟨(.ok (.request source), command'), host, notes⟩)
    (hparse : s.cache.expression source = (.error error, cache)) :
    Does ctx (.drive name command) s (.failed (.unreadableRequest source error) .fresh)
      ⟨cache, host⟩ (notes.map .note)
  /-- A command asks for an expression. -/
  | requested {name source : String} {command command' : ι} {s s' s'' : Store ω} {host : ω}
    {notes : List Note} {request : Shared Expr} {cache : Cache} {inner progress : Progress ι}
    {first second : List Signal}
    (hnext : ctx.commands.next command s.host =
      some ⟨(.ok (.request source), command'), host, notes⟩)
    (hparse : s.cache.expression source = (.ok request, cache))
    (hx : Does ctx (.start request.value) ⟨cache, host⟩ inner s' first)
    (h : Does ctx (.answer name command' source request.value inner) s' progress s'' second) :
    Does ctx (.drive name command) s progress s'' (notes.map .note ++ (first ++ second))
  /-- The command gets the value that it asked for, and goes on. -/
  | supplied {name source : String} {command command' : ι} {request : Expr} {v : Value}
    {s s' : Store ω} {host : ω} {notes : List Note} {progress : Progress ι}
    {signals : List Signal}
    (hsupply : ctx.commands.supply command source v s.host = ⟨command', host, notes⟩)
    (h : Does ctx (.drive name command') ⟨s.cache, host⟩ progress s' signals) :
    Does ctx (.answer name command source request (.complete v)) s progress s'
      (.log (supplyRecord name source v) :: (notes.map .note ++ signals))
  /-- The expression is suspended. -/
  | pending {name source : String} {command : ι} {request : Expr} {inner : Evaluation ι}
    {s : Store ω} :
    Does ctx (.answer name command source request (.suspended inner)) s
      (.suspended (.asking name command source request inner)) s []
  /-- The expression has failed. -/
  | denied {name source : String} {command : ι} {request : Expr} {fault : Fault}
    {inner : Evaluation ι} {s : Store ω} :
    Does ctx (.answer name command source request (.failed fault inner)) s
      (.failed fault .fresh) s []
  /-- An evaluation begins. -/
  | begin {e : Expr} {s s' : Store ω} {progress : Progress ι} {signals : List Signal}
    (h : Does ctx (.start e) s progress s' signals) :
    Does ctx (.resume .fresh e) s progress s' signals
  /-- All operands are known already. -/
  | exhausted {e : Expr} {known : List Value} {inner : Evaluation ι} {s s' : Store ω}
    {progress : Progress ι} {signals : List Signal} (hes : e.operands.drop known.length = [])
    (h : Does ctx (.settle e known []) s progress s' signals) :
    Does ctx (.resume (.operand known inner) e) s progress s' signals
  /-- An operand is resumed. -/
  | resumed {e x : Expr} {known : List Value} {rest : List Expr} {evaluation : Evaluation ι}
    {s s' s'' : Store ω} {inner progress : Progress ι} {first second : List Signal}
    (hes : e.operands.drop known.length = x :: rest)
    (hx : Does ctx (.resume evaluation x) s inner s' first)
    (h : Does ctx (.proceed e known rest inner) s' progress s'' second) :
    Does ctx (.resume (.operand known evaluation) e) s progress s'' (first ++ second)
  /-- A command is stepped again. -/
  | calling {name : String} {command : ι} {e : Expr} {s s' : Store ω} {progress : Progress ι}
    {signals : List Signal} (h : Does ctx (.drive name command) s progress s' signals) :
    Does ctx (.resume (.calling name command) e) s progress s' signals
  /-- An expression that a command asked for is resumed. -/
  | asking {name source : String} {command : ι} {request e : Expr} {evaluation : Evaluation ι}
    {s s' s'' : Store ω} {inner progress : Progress ι} {first second : List Signal}
    (hx : Does ctx (.resume evaluation request) s inner s' first)
    (h : Does ctx (.answer name command source request inner) s' progress s'' second) :
    Does ctx (.resume (.asking name command source request evaluation) e) s progress s''
      (first ++ second)

/-! ### The rules say what the activities give -/

section

variable {ctx : Context ι ω}

/-- What the rules say of a piece of work, its activity gives. -/
theorem activity_of_does {task : Task ι} {s s' : Store ω} {progress : Progress ι}
    {signals : List Signal} (h : Does ctx task s progress s' signals) :
    task.activity ctx s = some ⟨progress, s', signals⟩ := by
  -- Each rule is one unfolding of the activity.
  induction h with
  | applied h => exact congrFun (conclude_of_result? _ h) _
  | refused hcreate =>
    refine (call_apply _ hcreate).trans ?_
    simp [greet, Effect.after, Activity.pure_apply]
  | called hcreate h ih =>
    refine (call_apply _ hcreate).trans ?_
    exact congrArg (Option.map _) ih
  | operand hx h ihx ih =>
    -- the operand's activity is bound to what comes after
    rw [Task.activity_start] at ihx
    rw [Task.activity, settle_cons, Activity.bind_of_eq_some ihx]
    exact congrArg (Option.map _) ih
  | known h ih => exact ih
  | held | broken | pending | denied => rfl
  | failed hnext | suspended hnext =>
    rw [Task.activity, drive_eq_exchange, exchange_apply _ hnext]
    simp [react, Effect.after, Activity.pure_apply]
  | finished hnext =>
    rw [Task.activity, drive_eq_exchange, exchange_apply _ hnext]
    rfl
  | warned hnext h ih =>
    -- the warning is signalled, and the command driven on with the stepper itself
    rw [Task.activity] at ih
    rw [Task.activity, drive_eq_exchange, exchange_apply _ hnext,
      react_warning_apply, ih]
    rfl
  | unreadable hnext hparse =>
    rw [Task.activity, drive_eq_exchange, exchange_apply _ hnext, react_request_of_error _ hparse]
    simp [Effect.after]
  | requested hnext hparse hx h ihx ih =>
    -- two activities in a row: the requested expression, and the answer
    rw [Task.activity_start] at ihx
    rw [Task.activity] at ih
    rw [Task.activity, drive_eq_exchange, exchange_apply _ hnext,
      react_request_of_ok _ hparse, Activity.bind_of_eq_some ihx, ih]
    rfl
  | supplied hsupply h ih =>
    rw [Task.activity, answer_complete_apply _ hsupply]
    exact congrArg (Option.map _) ih
  | begin h ih =>
    rw [Task.activity_start] at ih
    exact ih
  | exhausted hes h ih =>
    rw [Task.activity, resume, hes]
    exact ih
  | resumed hes hx h ihx ih =>
    rw [Task.activity] at ihx
    rw [Task.activity, resume_operand hes, Activity.bind_of_eq_some ihx]
    exact congrArg (Option.map _) ih
  | calling h ih => exact ih
  | asking hx h ihx ih =>
    rw [Task.activity] at ihx
    rw [Task.activity, resume, Activity.bind_of_eq_some ihx]
    exact congrArg (Option.map _) ih

/-! The other way round, what is built on a stepper follows the rules if the stepper does. -/

section

variable {run : Stepper ι ω} {s : Store ω} {effect : Effect ω (Progress ι)}

/-- A stepper that gives only what the rules say. -/
def Obeys (ctx : Context ι ω) (run : Stepper ι ω) : Prop :=
  ∀ name command s effect, run name command s = some effect →
    Does ctx (.drive name command) s effect.value effect.store effect.signals

theorem does_of_conclude (obeys : Obeys ctx run) {e : Expr} {known : List Value}
    (given : conclude ctx run e known s = some effect) :
    Does ctx (.settle e known []) s effect.value effect.store effect.signals := by
  cases hresult : e.result? ctx.vars known with
  | some result =>
    rw [conclude_of_result? run hresult] at given
    cases given
    exact .applied hresult
  | none =>
    cases e with
    | literal | reference | unary => cases hresult
    | binary op left right =>
      rw [conclude_binary_of_none run hresult] at given
      cases given
    | call name arguments =>
      rcases hcreate : ctx.commands.create name known s.host with ⟨fault | command, host, notes⟩
      · have h := (call_apply run hcreate).symm.trans given
        cases h
        change Does ctx _ s (.failed fault .fresh) _ (.entered name known :: notes.map .note ++ [])
        rw [List.append_nil]
        exact .refused hcreate
      · have h := (call_apply run hcreate).symm.trans given
        obtain ⟨effect, heffect, rfl⟩ := Option.map_eq_some_iff.mp h
        exact .called hcreate (obeys name command _ effect heffect)

theorem does_of_proceed {e : Expr} {known : List Value} {rest : List Expr}
    (settles : ∀ known s effect,
      settle ctx run e known (rest.map (start ctx run)) s = some effect →
        Does ctx (.settle e known rest) s effect.value effect.store effect.signals)
    {progress : Progress ι} (given : proceed ctx run e known rest progress s = some effect) :
    Does ctx (.proceed e known rest progress) s effect.value effect.store effect.signals := by
  cases progress with
  | complete v => exact .known (settles _ _ _ given)
  | suspended inner =>
    cases given
    exact .held
  | failed fault inner =>
    cases given
    exact .broken

theorem does_of_settle (obeys : Obeys ctx run) {e : Expr} {rest : List Expr}
    (operands : ∀ x ∈ rest, ∀ s effect, start ctx run x s = some effect →
      Does ctx (.start x) s effect.value effect.store effect.signals) (known : List Value)
    (s : Store ω) (effect : Effect ω (Progress ι))
    (given : settle ctx run e known (rest.map (start ctx run)) s = some effect) :
    Does ctx (.settle e known rest) s effect.value effect.store effect.signals := by
  induction rest generalizing known s effect with
  | nil => exact does_of_conclude obeys given
  | cons x rest ih =>
    rw [settle_cons] at given
    obtain ⟨first, second, hfirst, hsecond, rfl⟩ := Activity.bind_eq_some_iff.mp given
    have settles := ih fun y hy => operands y (List.mem_cons_of_mem x hy)
    exact .operand (operands x List.mem_cons_self s first hfirst)
      (does_of_proceed settles hsecond)

theorem does_of_start (obeys : Obeys ctx run) (e : Expr) (s : Store ω)
    (effect : Effect ω (Progress ι)) (given : start ctx run e s = some effect) :
    Does ctx (.start e) s effect.value effect.store effect.signals := by
  induction e using Expr.operands_induction generalizing s effect with
  | step e ih =>
    rw [start_eq_settle] at given
    exact does_of_settle obeys ih [] s effect given

theorem does_of_answer (obeys : Obeys ctx run) {name source : String} {command : ι}
    {request : Expr} {progress : Progress ι}
    (given : answer ctx run name command source request progress s = some effect) :
    Does ctx (.answer name command source request progress) s
      effect.value effect.store effect.signals := by
  cases progress with
  | complete v =>
    rcases hsupply : ctx.commands.supply command source v s.host with ⟨command', host, notes⟩
    rw [answer_complete_apply run hsupply] at given
    obtain ⟨effect, heffect, rfl⟩ := Option.map_eq_some_iff.mp given
    exact .supplied hsupply (obeys name command' _ effect heffect)
  | suspended inner =>
    cases given
    exact .pending
  | failed fault inner =>
    cases given
    exact .denied

theorem does_of_exchange (obeys : Obeys ctx run) {name : String} {command : ι}
    (given : exchange ctx run name command s = some effect) :
    Does ctx (.drive name command) s effect.value effect.store effect.signals := by
  -- the command itself has to come to an end
  rcases hnext : ctx.commands.next command s.host with _ | ⟨⟨reply, command'⟩, host, notes⟩
  · rw [exchange_of_next_eq_none run hnext] at given
    cases given
  rw [exchange_apply run hnext] at given
  obtain ⟨effect, heffect, rfl⟩ := Option.map_eq_some_iff.mp given
  -- one rule for each reply
  rcases reply with fault | v | _ | source | message
  · cases heffect
    change Does ctx _ s (.failed fault .fresh) _ (notes.map .note ++ [])
    rw [List.append_nil]
    exact .failed hnext
  · cases heffect
    exact .finished hnext
  · cases heffect
    change Does ctx _ s (.suspended (.calling name command')) _ (notes.map .note ++ [])
    rw [List.append_nil]
    exact .suspended hnext
  · rcases hparse : s.cache.expression source with ⟨error | request, cache⟩
    · rw [react_request_of_error run hparse] at heffect
      cases heffect
      rw [Effect.after, List.append_nil]
      exact .unreadable hnext hparse
    · rw [react_request_of_ok run hparse] at heffect
      obtain ⟨first, second, hfirst, hsecond, rfl⟩ := Activity.bind_eq_some_iff.mp heffect
      exact .requested hnext hparse (does_of_start obeys request.value _ first hfirst)
        (does_of_answer obeys hsecond)
  · rw [react_warning_apply] at heffect
    obtain ⟨effect, hrun, rfl⟩ := Option.map_eq_some_iff.mp heffect
    exact .warned hnext (obeys name command' _ effect hrun)

theorem obeys_drive : Obeys ctx (drive ctx) := by
  intro name command s effect given
  refine drive_induction ctx (motive := fun name command s effect =>
    Does ctx (.drive name command) s effect.value effect.store effect.signals) ?_ given
  intro run obeys name command s effect given
  exact does_of_exchange obeys given

theorem does_of_resume {evaluation : Evaluation ι} {e : Expr}
    (given : resume ctx evaluation e s = some effect) :
    Does ctx (.resume evaluation e) s effect.value effect.store effect.signals := by
  have starts : ∀ (e : Expr) (s : Store ω) (effect : Effect ω (Progress ι)),
      start ctx (drive ctx) e s = some effect →
        Does ctx (.start e) s effect.value effect.store effect.signals :=
    does_of_start obeys_drive
  induction evaluation generalizing e s effect with
  | fresh => exact .begin (starts e s effect given)
  | operand known inner ih =>
    cases hes : e.operands.drop known.length with
    | nil =>
      rw [resume, hes] at given
      exact .exhausted hes (does_of_conclude obeys_drive given)
    | cons x rest =>
      rw [resume_operand hes] at given
      obtain ⟨first, second, hfirst, hsecond, rfl⟩ := Activity.bind_eq_some_iff.mp given
      exact .resumed hes (ih hfirst)
        (does_of_proceed
          (does_of_settle obeys_drive fun x _ => starts x) hsecond)
  | calling name command => exact .calling (obeys_drive name command s effect given)
  | asking name command source request inner ih =>
    obtain ⟨first, second, hfirst, hsecond, rfl⟩ := Activity.bind_eq_some_iff.mp given
    exact .asking (ih hfirst) (does_of_answer obeys_drive hsecond)

end

/-- **The rules say exactly what the activities give.** -/
theorem does_iff {task : Task ι} {s : Store ω} {effect : Effect ω (Progress ι)} :
    task.activity ctx s = some effect ↔
      Does ctx task s effect.value effect.store effect.signals := by
  refine ⟨fun given => ?_, activity_of_does⟩
  cases task with
  | settle e known rest =>
    exact does_of_settle obeys_drive (fun x _ => does_of_start obeys_drive x) known s effect given
  | proceed e known rest progress =>
    exact does_of_proceed
      (does_of_settle obeys_drive fun x _ => does_of_start obeys_drive x) given
  | drive name command => exact obeys_drive name command s effect given
  | answer name command source request progress => exact does_of_answer obeys_drive given
  | resume evaluation e => exact does_of_resume given

end

end StepScript
