import StepScript.Command
import StepScript.Program.Activity
import StepScript.Value.Operator
import StepScript.Variables

/-!
# The evaluation of expressions

Operands are evaluated one after the other from the left, and then the expression itself.  A call
may take several cycles: the evaluation then stops with all that is needed to go on, and is resumed
in a later cycle.  When something fails, the operands that are known are kept as well.

A command may exchange any number of messages within one cycle, and an expression that it asks for
may call commands in turn.  Nothing limits the number of messages, so that a cycle need not end.

## Main definitions

* `Evaluation` — where an evaluation stands.
* `Progress` — how far a cycle has brought it.
* `start` — evaluates an expression from the beginning.
* `exchange`, `drive` — one message of a command, and all of them until it finishes or suspends.
* `resume` — goes on with an evaluation.
-/

namespace StepScript

/-- Where the evaluation of an expression stands, between two cycles. -/
inductive Evaluation (ι : Type)
  /-- Not begun. -/
  | fresh
  /-- Some operands are known, and the next one is being evaluated. -/
  | operand (known : List Value) (inner : Evaluation ι)
  /-- All arguments are known, and the command needs more time. -/
  | calling (name : String) (command : ι)
  /-- The command has asked for an expression, which is being evaluated. -/
  | asking (name : String) (command : ι) (source : String) (request : Expr) (inner : Evaluation ι)

/-- Whether the evaluation waits for a command. -/
def Evaluation.isWaiting {ι : Type} : Evaluation ι → Bool
  | fresh => false
  | operand _ inner => inner.isWaiting
  | calling _ _ => true
  | asking _ _ _ _ _ => true

/-- How far an evaluation has come. -/
inductive Progress (ι : Type)
  /-- It is complete. -/
  | complete (value : Value)
  /-- It waits for a command. -/
  | suspended (rest : Evaluation ι)
  /-- It has failed; if it is stepped again, it goes on from here. -/
  | failed (fault : Fault) (rest : Evaluation ι)

/-- The outcome of an operator.  After a failure its operands are evaluated anew. -/
def Progress.ofResult {ι : Type} : Except Fault Value → Progress ι
  | .ok v => complete v
  | .error fault => failed fault .fresh

/-- The sub-expressions to be evaluated first, in order. -/
def Expr.operands : Expr → List Expr
  | literal _ => []
  | reference _ => []
  | call _ arguments => arguments
  | unary _ e => [e]
  | binary _ l r => [l, r]

theorem Expr.sizeOf_lt_of_mem_operands {x e : Expr} (h : x ∈ e.operands) : sizeOf x < sizeOf e := by
  cases e with
  | literal | reference => simp [operands] at h
  | call name arguments =>
    have := List.sizeOf_lt_of_mem (show x ∈ arguments from h)
    simp only [call.sizeOf_spec]
    omega
  | unary op operand =>
    simp only [operands, List.mem_singleton] at h
    subst h
    simp only [unary.sizeOf_spec]
    omega
  | binary op l r =>
    simp only [operands, List.mem_cons, List.not_mem_nil, or_false] at h
    rcases h with rfl | rfl <;> simp only [binary.sizeOf_spec] <;> omega

/-- Induction over expressions, with what is to be shown known of the operands. -/
theorem Expr.operands_induction {motive : Expr → Prop}
    (step : ∀ e, (∀ x ∈ e.operands, motive x) → motive e) (e : Expr) : motive e :=
  step e fun x _ => operands_induction step x
termination_by e
decreasing_by exact sizeOf_lt_of_mem_operands ‹_›

/-- What an evaluation may consult. -/
structure Context (ι ω : Type) where
  /-- The commands of the host. -/
  commands : Commands ι ω
  /-- The variables of the program. -/
  vars : Variables

section

variable {ι ω : Type} (ctx : Context ι ω)

/-- What steps an instance of the named command until it finishes or suspends. -/
abbrev Stepper (ι ω : Type) :=
  String → ι → Activity ω (Progress ι)

/-- Calls a command. -/
def call (run : Stepper ι ω) (name : String) (arguments : List Value) :
    Activity ω (Progress ι) := do
  Activity.emit (.entered name arguments)
  match ← Activity.ask (ctx.commands.create name arguments) with
  | .error fault => return .failed fault .fresh
  | .ok command => run name command

/-- Evaluates an expression whose operands are known. -/
def conclude (run : Stepper ι ω) : Expr → List Value → Activity ω (Progress ι)
  | .literal v, _ => pure (.complete v)
  | .reference name, _ => pure (.complete (ctx.vars.resolve name))
  | .unary op _, values => pure (.ofResult (op.apply (values.getD 0 .null)))
  | .binary op _ _, values =>
    Progress.ofResult <$> Activity.ofOption (op.apply (values.getD 0 .null) (values.getD 1 .null))
  | .call name _, values => call ctx run name values

/-- Evaluates the remaining operands of an expression, and then the expression. -/
def settle (run : Stepper ι ω) (e : Expr) (known : List Value) :
    List (Activity ω (Progress ι)) → Activity ω (Progress ι)
  | [] => conclude ctx run e known
  | operand :: rest => do
    match ← operand with
    | .complete v => settle run e (known ++ [v]) rest
    | .suspended inner => return .suspended (.operand known inner)
    | .failed fault inner => return .failed fault (.operand known inner)

mutual

/-- Evaluates an expression from the beginning. -/
def start (run : Stepper ι ω) : Expr → Activity ω (Progress ι)
  | .literal v => pure (.complete v)
  | .reference name => pure (.complete (ctx.vars.resolve name))
  | .unary op e => settle ctx run (.unary op e) [] [start run e]
  | .binary op l r => settle ctx run (.binary op l r) [] [start run l, start run r]
  | .call name arguments => settle ctx run (.call name arguments) [] (starts run arguments)

/-- The evaluations of several expressions, each from the beginning. -/
def starts (run : Stepper ι ω) : List Expr → List (Activity ω (Progress ι))
  | [] => []
  | e :: es => start run e :: starts run es

end

theorem starts_eq_map (run : Stepper ι ω) (es : List Expr) :
    starts ctx run es = es.map (start ctx run) := by
  induction es with
  | nil => simp [starts]
  | cons e es ih => simp [starts, ih]

/-- **One equation for every form of expression**: the operands from the left, then the rest. -/
theorem start_eq_settle (run : Stepper ι ω) (e : Expr) :
    start ctx run e = settle ctx run e [] (e.operands.map (start ctx run)) := by
  cases e <;> simp [start, Expr.operands, starts_eq_map, settle, conclude]

/-- Goes on with a call, according to how far the expression that its command asked for has
come. -/
def answer (run : Stepper ι ω) (name : String) (command : ι) (source : String) (request : Expr) :
    Progress ι → Activity ω (Progress ι)
  | .suspended inner => pure (.suspended (.asking name command source request inner))
  | .failed fault _ => pure (.failed fault .fresh)
  | .complete v => do
    Activity.log .trace .evaluation
      ("Supplying `" ++ source ++ "` = " ++ v.display ++ " to `" ++ name ++ "`")
    let command ← Activity.ask (ctx.commands.supply command source v)
    run name command

/-- Steps a command once, and goes on according to its reply. -/
def exchange (run : Stepper ι ω) : Stepper ι ω
  | name, command => do
    let (reply, command) ← Activity.await (ctx.commands.next command)
    match reply with
    | .error fault => return .failed fault .fresh
    | .ok (.finished v) =>
      Activity.log .trace .evaluation ("Command `" ++ name ++ "` finished with " ++ v.display)
      Activity.emit (.left name v)
      return .complete v
    | .ok .suspend => return .suspended (.calling name command)
    | .ok (.warning message) =>
      Activity.log .warn .evaluation (name ++ ": " ++ message)
      Activity.emit (.warned name message)
      run name command
    | .ok (.request source) =>
      match ← Activity.expression source with
      | .error e => return .failed (.unreadableRequest source e) .fresh
      | .ok request =>
        let progress ← start ctx run request.value
        answer ctx run name command source request.value progress

/-! What is built on a stepper gives no less if it is built on one that gives more. -/

section

variable {ctx} {run run' : Stepper ι ω}

theorem conclude_below (below : ∀ name command, Below (run name command) (run' name command))
    (e : Expr) (values : List Value) :
    Below (conclude ctx run e values) (conclude ctx run' e values) := by
  cases e with
  | literal | reference | unary | binary => exact .refl _
  | call name arguments =>
    refine Activity.bind_below (.refl _) fun _ => Activity.bind_below (.refl _) fun created => ?_
    cases created with
    | error fault => exact .refl _
    | ok command => exact below name command

theorem settle_below (below : ∀ name command, Below (run name command) (run' name command))
    (e : Expr) {es : List Expr}
    (operands : ∀ x ∈ es, Below (start ctx run x) (start ctx run' x)) (known : List Value) :
    Below (settle ctx run e known (es.map (start ctx run)))
      (settle ctx run' e known (es.map (start ctx run'))) := by
  induction es generalizing known with
  | nil => exact conclude_below below e known
  | cons x es ih =>
    refine Activity.bind_below (operands x List.mem_cons_self) fun progress => ?_
    cases progress with
    | complete v => exact ih (fun y hy => operands y (List.mem_cons_of_mem x hy)) (known ++ [v])
    | suspended | failed => exact .refl _

theorem start_below (below : ∀ name command, Below (run name command) (run' name command))
    (e : Expr) : Below (start ctx run e) (start ctx run' e) := by
  induction e using Expr.operands_induction with
  | step e ih =>
    rw [start_eq_settle, start_eq_settle]
    exact settle_below below e ih []

theorem answer_below (below : ∀ name command, Below (run name command) (run' name command))
    (name : String) (command : ι) (source : String) (request : Expr) (progress : Progress ι) :
    Below (answer ctx run name command source request progress)
      (answer ctx run' name command source request progress) := by
  cases progress with
  | suspended | failed => exact .refl _
  | complete v =>
    exact Activity.bind_below (.refl _) fun _ => Activity.bind_below (.refl _) fun command =>
      below name command

theorem exchange_below (below : ∀ name command, Below (run name command) (run' name command))
    (name : String) (command : ι) :
    Below (exchange ctx run name command) (exchange ctx run' name command) := by
  refine Activity.bind_below (.refl _) fun (reply, command) => ?_
  rcases reply with fault | v | _ | source | message
  · exact .refl _
  · exact .refl _
  · exact .refl _
  · refine Activity.bind_below (.refl _) fun found => ?_
    cases found with
    | error e => exact .refl _
    | ok request =>
      exact Activity.bind_below (start_below below request.value) fun progress =>
        answer_below below name command source request.value progress
  · exact Activity.bind_below (.refl _) fun _ => Activity.bind_below (.refl _) fun _ =>
      below name command

end

/-- Steps a command until it finishes or suspends. -/
def drive : Stepper ι ω := fun name command =>
  recur (fun run call => exchange ctx (fun name command => run (name, command)) call.1 call.2)
    (fun _ _ below call => exchange_below (fun name command => below (name, command)) call.1 call.2)
    (name, command)

theorem drive_eq_exchange : drive ctx = exchange ctx (drive ctx) := by
  funext name command s
  exact recur.eq_1 _ _ _ _

/-- **Induction over the messages of a command**: what one exchange gives when it goes on with
something that gives only what is wanted, is what driving the command gives. -/
theorem drive_induction {motive : String → ι → Store ω → Effect ω (Progress ι) → Prop}
    (step : ∀ run : Stepper ι ω,
      (∀ name command s e, run name command s = some e → motive name command s e) →
      ∀ name command s e, exchange ctx run name command s = some e → motive name command s e)
    {name : String} {command : ι} {s : Store ω} {e : Effect ω (Progress ι)}
    (given : drive ctx name command s = some e) : motive name command s e :=
  recur_induction (motive := fun call s e => motive call.1 call.2 s e)
    (fun f wanted call => step (fun name command => f (name, command))
      (fun name command => wanted (name, command)) call.1 call.2) given

/-- Goes on with the evaluation of an expression, which must be the one that it was begun with. -/
def resume : Evaluation ι → Expr → Activity ω (Progress ι)
  | .fresh, e => start ctx (drive ctx) e
  | .operand known inner, e =>
    match e.operands.drop known.length with
    | [] => conclude ctx (drive ctx) e known
    | x :: rest => do
      match ← resume inner x with
      | .complete v =>
        settle ctx (drive ctx) e (known ++ [v])
          (rest.map (start ctx (drive ctx)))
      | .suspended inner => return .suspended (.operand known inner)
      | .failed fault inner => return .failed fault (.operand known inner)
  | .calling name command, _ => drive ctx name command
  | .asking name command source request inner, _ => do
    let progress ← resume inner request
    answer ctx (drive ctx) name command source request progress

end

end StepScript
