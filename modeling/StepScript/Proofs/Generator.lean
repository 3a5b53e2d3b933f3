import StepScript.Program.Evaluation

/-!
# Direct evaluation

An evaluation keeps its place in a data structure, so that it can be resumed.  Here the same is
written as plain recursion over the expression: operands from the left, then the operator or the
call, and a pause wherever a command asks for time.  It works on a `Session`, which holds what the
following steps will find, so that a pause is nothing but turning to the next of them.

A `Generator` gives nothing if it never ends.  If it ends, it says how, with everything that could
be seen on the way.

## Main definitions

* `Moment`, `Session` — what the steps of an evaluation find.
* `Mark`, `Ending`, `Report` — what a direct evaluation shows and how it ends.
* `Generator` — a computation that may pause.
* `evaluate` — an expression, given how to talk to commands.
* `converse` — the whole conversation with a command.
* `generate` — an expression, evaluated directly.
-/

namespace StepScript

/-- What a step finds: the variables, and what has happened to the store since the last step. -/
structure Moment (ω : Type) where
  /-- The variables. -/
  vars : Variables
  /-- What was done to the store. -/
  change : Store ω → Store ω

/-- What a direct evaluation works on. -/
structure Session (ω : Type) where
  /-- The variables of the current step. -/
  vars : Variables
  /-- The store. -/
  store : Store ω
  /-- What the following steps will find. -/
  later : List (Moment ω)

/-- What can be seen of an evaluation. -/
inductive Mark
  /-- It sends a signal. -/
  | signal (s : Signal)
  /-- A step ends, and the evaluation is not complete. -/
  | suspended

/-- The signals among what can be seen. -/
def signalsOf (marks : List Mark) : List Signal :=
  marks.filterMap fun
    | .signal s => some s
    | .suspended => none

@[simp] theorem signalsOf_nil : signalsOf [] = [] := rfl

@[simp] theorem signalsOf_append (first second : List Mark) :
    signalsOf (first ++ second) = signalsOf first ++ signalsOf second :=
  List.filterMap_append

@[simp] theorem signalsOf_map_signal (signals : List Signal) :
    signalsOf (signals.map .signal) = signals := by
  induction signals with
  | nil => rfl
  | cons s signals ih => exact congrArg (s :: ·) ih

@[simp] theorem signalsOf_suspended (marks : List Mark) :
    signalsOf (.suspended :: marks) = signalsOf marks := rfl

/-- How a computation ends. -/
inductive Ending (ε α : Type)
  /-- With a value. -/
  | value (a : α)
  /-- With a fault. -/
  | fault (error : ε)
  /-- It is suspended, and there is no further step. -/
  | waiting

/-- How a computation ended, and what could be seen of it. -/
structure Report (ω ε α : Type) where
  /-- How it ended. -/
  ending : Ending ε α
  /-- The session afterwards. -/
  session : Session ω
  /-- What could be seen, in order. -/
  marks : List Mark

/-- The report of something that other marks came before. -/
def Report.after {ω ε α : Type} (marks : List Mark) (r : Report ω ε α) : Report ω ε α :=
  { r with marks := marks ++ r.marks }

@[simp] theorem Report.after_nil {ω ε α : Type} : (Report.after [] : Report ω ε α → _) = id := rfl

@[simp] theorem Report.after_after {ω ε α : Type} (first second : List Mark)
    (r : Report ω ε α) : (r.after second).after first = r.after (first ++ second) := by
  simp [after]

/-- A computation on a session, which gives nothing if it never ends. -/
def Generator (ω ε α : Type) : Type :=
  Session ω → Option (Report ω ε α)

/-- Goes on after a report, unless it is one of a computation that has stopped. -/
def Report.andThen {ω ε α β : Type} (r : Report ω ε α) (f : α → Generator ω ε β) :
    Option (Report ω ε β) :=
  match r.ending with
  | .value a => (f a r.session).map (after r.marks)
  | .fault error => some ⟨.fault error, r.session, r.marks⟩
  | .waiting => some ⟨.waiting, r.session, r.marks⟩

theorem Report.andThen_after {ω ε α β : Type} (marks : List Mark) (r : Report ω ε α)
    (f : α → Generator ω ε β) : (r.after marks).andThen f = (r.andThen f).map (after marks) := by
  rcases r with ⟨a | _ | _, session, later⟩
  · show (f a session).map (after (marks ++ later)) =
      ((f a session).map (after later)).map (after marks)
    rw [Option.map_map]
    congr 1
    funext r
    exact (after_after marks later r).symm
  · rfl
  · rfl

namespace Generator

variable {ω ε α β : Type}

instance : Monad (Generator ω ε) where
  pure a := fun s => some ⟨.value a, s, []⟩
  bind x f := fun s => (x s).bind (·.andThen f)

theorem pure_apply (a : α) (s : Session ω) :
    (pure a : Generator ω ε α) s = some ⟨.value a, s, []⟩ := rfl

theorem bind_apply (x : Generator ω ε α) (f : α → Generator ω ε β) (s : Session ω) :
    (x >>= f) s = (x s).bind (·.andThen f) := rfl

/-- Marks that came before do not matter to what goes on. -/
theorem bind_of_eq_after {x y : Generator ω ε α} {s t : Session ω} {marks : List Mark}
    (h : x s = (y t).map (Report.after marks)) (f : α → Generator ω ε β) :
    (x >>= f) s = ((y >>= f) t).map (Report.after marks) := by
  rw [bind_apply, bind_apply, h]
  cases y t with
  | none => rfl
  | some r => exact r.andThen_after marks f

instance : LawfulMonad (Generator ω ε) :=
  LawfulMonad.mk' _
    (fun x => by
      funext s
      show (x >>= fun a => pure a) s = x s
      rw [bind_apply]
      cases x s with
      | none => rfl
      | some r =>
        rcases r with ⟨_ | _ | _, _, _⟩ <;> simp [Report.andThen, Report.after, pure_apply])
    (fun a f => by
      funext s
      show (f a s).map (Report.after []) = f a s
      simp)
    (fun x f g => by
      funext s
      simp only [bind_apply]
      cases x s with
      | none => rfl
      | some r =>
        rcases r with ⟨a | _ | _, t, marks⟩
        · exact bind_of_eq_after (s := s) (x := fun _ => (f a t).map (Report.after marks)) rfl g
        · rfl
        · rfl)

/-- Does something with the store. -/
def perform (x : Activity ω α) : Generator ω ε α :=
  fun s => (x s.store).map fun effect =>
    ⟨.value effect.value, { s with store := effect.store }, effect.signals.map .signal⟩

/-- Marks that something leaves behind, and then what goes on. -/
theorem perform_bind_of_eq {x : Activity ω α} {effect : Effect ω α} {s : Session ω}
    (h : x s.store = some effect) (f : α → Generator ω ε β) :
    (.perform x >>= f) s = (f effect.value { s with store := effect.store }).map
      (Report.after (effect.signals.map .signal)) := by
  rw [bind_apply, perform, h, Option.map_some, Option.bind_some, Report.andThen]

theorem perform_bind_of_eq_none {x : Activity ω α} {s : Session ω} (h : x s.store = none)
    (f : α → Generator ω ε β) : (.perform x >>= f) s = none := by
  rw [bind_apply, perform, h, Option.map_none, Option.bind_none]

theorem perform_ofOption_bind (a : α) (f : α → Generator ω ε β) :
    (.perform (.ofOption (some a)) >>= f) = f a := by
  funext s
  show (f a s).map (Report.after []) = f a s
  rw [Report.after_nil, Option.map_id]
  rfl

/-- Stops with a fault. -/
def fail (error : ε) : Generator ω ε α :=
  fun s => some ⟨.fault error, s, []⟩

/-- Stops if there is an error. -/
def ofExcept : Except ε α → Generator ω ε α
  | .ok a => pure a
  | .error error => fail error

/-- The variables of the current step. -/
def vars : Generator ω ε Variables :=
  fun s => some ⟨.value s.vars, s, []⟩

/-- Ends the step, and goes on with what the next one finds. -/
def yield : Generator ω ε Unit :=
  fun s =>
    match s.later with
    | [] => some ⟨.waiting, s, [.suspended]⟩
    | moment :: later =>
      some ⟨.value (), ⟨moment.vars, moment.change s.store, later⟩, [.suspended]⟩

theorem bind_below {x y : Generator ω ε α} {f g : α → Generator ω ε β} (h : Below x y)
    (hf : ∀ a, Below (f a) (g a)) : Below (x >>= f) (y >>= g) := by
  intro s r given
  rw [bind_apply, Option.bind_eq_some_iff] at given
  obtain ⟨⟨ending, t, marks⟩, hx, hr⟩ := given
  rw [bind_apply, h s _ hx]
  cases ending with
  | value a =>
    obtain ⟨r', hr', rfl⟩ := Option.map_eq_some_iff.mp hr
    exact Option.map_eq_some_iff.mpr ⟨r', hf a t r' hr', rfl⟩
  | fault | waiting => exact hr

end Generator

/-! ### Expressions -/

section

variable {ι ω : Type} (commands : Commands ι ω)

/-- What talks to an instance of the named command until it has a value. -/
abbrev Talk (ι ω : Type) :=
  String → ι → Generator ω Fault Value

/-- Creates an instance for a call, and talks to it. -/
def summon (talk : Talk ι ω) (name : String) (arguments : List Value) :
    Generator ω Fault Value := do
  .perform (.emit (.entered name arguments))
  let created ← .perform (.ask (commands.create name arguments))
  let command ← .ofExcept created
  talk name command

mutual

/-- Evaluates an expression. -/
def evaluate (talk : Talk ι ω) : Expr → Generator ω Fault Value
  | .literal v => pure v
  | .reference name => do
    let vars ← .vars
    return vars.resolve name
  | .unary op e => do
    let v ← evaluate talk e
    .ofExcept (op.apply v)
  | .binary op l r => do
    let v ← evaluate talk l
    let w ← evaluate talk r
    let result ← .perform (.ofOption (op.apply v w))
    .ofExcept result
  | .call name arguments => do
    let values ← evaluateAll talk arguments
    summon commands talk name values

/-- Evaluates several expressions, from the left. -/
def evaluateAll (talk : Talk ι ω) : List Expr → Generator ω Fault (List Value)
  | [] => pure []
  | e :: es => do
    let v ← evaluate talk e
    let vs ← evaluateAll talk es
    return v :: vs

end

/-- Gives an instance the value that it asked for, and talks on. -/
def oblige (talk : Talk ι ω) (name : String) (command : ι) (source : String) (v : Value) :
    Generator ω Fault Value := do
  .perform (.log .trace .evaluation
    ("Supplying `" ++ source ++ "` = " ++ v.display ++ " to `" ++ name ++ "`"))
  let command ← .perform (.ask (commands.supply command source v))
  talk name command

/-- Talks on with an instance according to its reply. -/
def respond (pause : Generator ω Fault Unit) (talk : Talk ι ω) (name : String) :
    Except Fault Reply × ι → Generator ω Fault Value
  | (.error fault, _) => .fail fault
  | (.ok (.finished v), _) => do
    .perform (.log .trace .evaluation ("Command `" ++ name ++ "` finished with " ++ v.display))
    .perform (.emit (.left name v))
    return v
  | (.ok .suspend, command) => do
    pause
    talk name command
  | (.ok (.warning message), command) => do
    .perform (.log .warn .evaluation (name ++ ": " ++ message))
    .perform (.emit (.warned name message))
    talk name command
  | (.ok (.request source), command) => do
    match ← .perform (.expression source) with
    | .error e => .fail (.unreadableRequest source e)
    | .ok request => do
      let v ← evaluate commands talk request.value
      oblige commands talk name command source v

/-- Sends an instance one message, and talks on. -/
def converseOnce (pause : Generator ω Fault Unit) (talk : Talk ι ω) : Talk ι ω
  | name, command => do
    let reply ← .perform (.await (commands.next command))
    respond commands pause talk name reply

theorem converseOnce_apply {pause : Generator ω Fault Unit} {talk : Talk ι ω} {name : String}
    {command : ι} {s : Session ω} {turn : Turn ω (Except Fault Reply × ι)}
    (h : commands.next command s.store.host = some turn) :
    converseOnce commands pause talk name command s =
      (respond commands pause talk name turn.value
        { s with store := { s.store with host := turn.host } }).map
          (Report.after ((turn.notes.map .note).map .signal)) :=
  Generator.perform_bind_of_eq (Activity.await_apply h) _

theorem converseOnce_of_next_eq_none {pause : Generator ω Fault Unit} {talk : Talk ι ω}
    {name : String} {command : ι} {s : Session ω}
    (h : commands.next command s.store.host = none) :
    converseOnce commands pause talk name command s = none :=
  Generator.perform_bind_of_eq_none (Activity.await_eq_none h) _

/-! What is built on a way to talk gives no less if it is built on one that gives more. -/

section

variable {commands} {talk talk' : Talk ι ω}

theorem summon_below (below : ∀ name command, Below (talk name command) (talk' name command))
    (name : String) (arguments : List Value) :
    Below (summon commands talk name arguments) (summon commands talk' name arguments) :=
  Generator.bind_below (.refl _) fun _ => Generator.bind_below (.refl _) fun _ =>
    Generator.bind_below (.refl _) fun command => below name command

mutual

theorem evaluate_below (below : ∀ name command, Below (talk name command) (talk' name command)) :
    ∀ e : Expr, Below (evaluate commands talk e) (evaluate commands talk' e)
  | .literal _ | .reference _ => by
    rw [evaluate, evaluate]
    exact .refl _
  | .unary _ e => by
    rw [evaluate, evaluate]
    exact Generator.bind_below (evaluate_below below e) fun _ => .refl _
  | .binary _ l r => by
    rw [evaluate, evaluate]
    exact Generator.bind_below (evaluate_below below l) fun _ =>
      Generator.bind_below (evaluate_below below r) fun _ => .refl _
  | .call name arguments => by
    rw [evaluate, evaluate]
    exact Generator.bind_below (evaluateAll_below below arguments) fun values =>
      summon_below below name values

theorem evaluateAll_below
    (below : ∀ name command, Below (talk name command) (talk' name command)) :
    ∀ es : List Expr, Below (evaluateAll commands talk es) (evaluateAll commands talk' es)
  | [] => by
    rw [evaluateAll, evaluateAll]
    exact .refl _
  | e :: es => by
    rw [evaluateAll, evaluateAll]
    exact Generator.bind_below (evaluate_below below e) fun _ =>
      Generator.bind_below (evaluateAll_below below es) fun _ => .refl _

end

theorem converseOnce_below (pause : Generator ω Fault Unit)
    (below : ∀ name command, Below (talk name command) (talk' name command)) (name : String)
    (command : ι) :
    Below (converseOnce commands pause talk name command)
      (converseOnce commands pause talk' name command) := by
  refine Generator.bind_below (.refl _) fun (reply, command) => ?_
  rcases reply with fault | v | _ | source | message
  · exact .refl _
  · exact .refl _
  · exact Generator.bind_below (.refl _) fun _ => below name command
  · refine Generator.bind_below (.refl _) fun found => ?_
    cases found with
    | error e => exact .refl _
    | ok request =>
      exact Generator.bind_below (evaluate_below below request.value) fun v =>
        Generator.bind_below (.refl _) fun _ => Generator.bind_below (.refl _) fun command =>
          below name command
  · exact Generator.bind_below (.refl _) fun _ => Generator.bind_below (.refl _) fun _ =>
      below name command

end

variable (pause : Generator ω Fault Unit)

/-- Talks to an instance until it has a value, with a pause whenever it asks for time. -/
def converse : Talk ι ω := fun name command =>
  recur
    (fun talk call =>
      converseOnce commands pause (fun name command => talk (name, command)) call.1 call.2)
    (fun _ _ below call =>
      converseOnce_below pause (fun name command => below (name, command)) call.1 call.2)
    (name, command)

theorem converse_eq_once :
    converse commands pause = converseOnce commands pause (converse commands pause) := by
  funext name command s
  exact recur.eq_1 _ _ _ _

/-- Induction over a conversation. -/
theorem converse_induction {motive : String → ι → Session ω → Report ω Fault Value → Prop}
    (step : ∀ talk : Talk ι ω,
      (∀ name command s r, talk name command s = some r → motive name command s r) →
      ∀ name command s r, converseOnce commands pause talk name command s = some r →
        motive name command s r)
    {name : String} {command : ι} {s : Session ω} {r : Report ω Fault Value}
    (given : converse commands pause name command s = some r) : motive name command s r :=
  recur_induction (motive := fun call s r => motive call.1 call.2 s r)
    (fun f wanted call => step (fun name command => f (name, command))
      (fun name command => wanted (name, command)) call.1 call.2) given

/-- **Direct evaluation**: an expression by recursion over its parts, with a pause whenever a
command asks for time. -/
def generate (e : Expr) : Generator ω Fault Value :=
  evaluate commands (converse commands pause) e

end

/-- Commands that ask for time a number of times, and then give a value. -/
def Commands.afterPauses {ω : Type} (pauses : Nat) (v : Value) : Commands Nat ω where
  create _ _ host := .still (.ok pauses) host
  next
    | 0, host => some (.still (.ok (.finished v), 0) host)
    | n + 1, host => some (.still (.ok .suspend, n) host)
  supply n _ _ host := .still n host

end StepScript
