import StepScript.Proofs.Generator
import StepScript.Proofs.Suspended

/-!
# Evaluations as records

An evaluation can be kept as a record of three fields that are filled and emptied as it goes on: the
operands that are known, the operand that is being evaluated, and the call that is running.  Most
combinations of the three make no sense.  Here it is shown that none of those is ever met, that the
operator always finds its operands in the record, and that the record is empty again once the
expression has a value.

## Main definitions

* `Slots`, `PendingCall` — the record.
* `Slots.step` — a step of the record, with a value to fall back on if an operand is missing.
* `Evaluation.slots`, `Progress.slots` — an evaluation as a record.
* `Slots.Held` — the records that stepping an empty one leads to while it is suspended.

## Main results

* `slots_step` — the record takes the steps of the evaluation.
* `Slots.Held.shape` — which fields are filled.
* `record_of_evaluation_is_sound` — **the fields of the record**, in all evaluations and programs.
-/

namespace StepScript

variable {ι ω : Type}

/-! ### Records -/

/-- A call that is running. -/
structure PendingCall (ι : Type) where
  /-- The name of the command. -/
  name : String
  /-- Its instance. -/
  command : ι
  /-- The expression that it has asked for, with its text and how far its evaluation has come. -/
  request : Option (String × Expr × Evaluation ι)

/-- Goes on with a call. -/
def PendingCall.proceed (ctx : Context ι ω) : PendingCall ι → Activity ω (Progress ι)
  | ⟨name, command, none⟩ => drive ctx name command
  | ⟨name, command, some (source, request, inner)⟩ => do
    let progress ← resume ctx inner request
    answer ctx (drive ctx) name command source request progress

/-- An evaluation as a record. -/
structure Slots (ι : Type) where
  /-- The operands that are known. -/
  operands : List Value
  /-- The evaluation of the next operand. -/
  pending : Option (Evaluation ι)
  /-- The call that is running. -/
  call : Option (PendingCall ι)

/-- What a step of a record comes to. -/
inductive Verdict
  /-- The expression has a value. -/
  | complete (v : Value)
  /-- It has to wait. -/
  | suspended
  /-- It has failed. -/
  | failed (fault : Fault)

/-- The outcome of an operator. -/
def Verdict.ofResult : Except Fault Value → Verdict
  | .ok v => complete v
  | .error fault => failed fault

/-- The call that an evaluation waits in. -/
def Evaluation.pendingCall? : Evaluation ι → Option (PendingCall ι)
  | calling name command => some ⟨name, command, none⟩
  | asking name command source request inner => some ⟨name, command, some (source, request, inner)⟩
  | fresh | operand _ _ => none

namespace Slots

/-- The record of an evaluation that has not begun. -/
def fresh : Slots ι :=
  ⟨[], none, none⟩

/-- Takes the last operand out, or falls back on some value. -/
def pop (fallback : Value) (slots : Slots ι) : Value × Slots ι :=
  (slots.operands.getLast?.getD fallback, { slots with operands := slots.operands.dropLast })

section

variable (ctx : Context ι ω)

/-- Evaluates the operands that are not known, and says if one of them stops the step. -/
def collect (e : Expr) (slots : Slots ι) : Activity ω (Option Verdict × Slots ι) :=
  if h : slots.operands.length < e.operands.length then do
    match ← resume ctx (slots.pending.getD .fresh) (e.operands.get ⟨_, h⟩) with
    | .complete v => collect e { slots with operands := slots.operands ++ [v], pending := none }
    | .suspended inner => return (some .suspended, { slots with pending := some inner })
    | .failed fault inner => return (some (.failed fault), { slots with pending := some inner })
  else pure (none, slots)
termination_by e.operands.length - slots.operands.length
decreasing_by
  simp only [List.length_append, List.length_singleton]
  omega

/-- What is left of a record after its call was gone on with.  The call is put back only if it has
to wait. -/
def keep (left : Slots ι) : Progress ι → Verdict × Slots ι
  | .complete v => (.complete v, left)
  | .suspended rest => (.suspended, { left with call := rest.pendingCall? })
  | .failed fault _ => (.failed fault, left)

/-- Takes out the call that is running and goes on with it, or takes out the operands and calls the
command with them. -/
def stepCall (name : String) (slots : Slots ι) : Activity ω (Verdict × Slots ι) :=
  match slots.call with
  | some pending => keep { slots with call := none } <$> pending.proceed ctx
  | none =>
    keep { slots with operands := [] } <$> StepScript.call ctx (drive ctx) name slots.operands

/-- Evaluates the expression itself. -/
def apply (fallback : Value) : Expr → Slots ι → Activity ω (Verdict × Slots ι)
  | .literal v, slots => pure (.complete v, slots)
  | .reference name, slots => pure (.complete (ctx.vars.resolve name), slots)
  | .unary op _, slots =>
    let (operand, slots) := slots.pop fallback
    pure (.ofResult (op.apply operand), slots)
  | .binary op _ _, slots =>
    let (right, slots) := slots.pop fallback
    let (left, slots) := slots.pop fallback
    (fun result => (.ofResult result, slots)) <$> Activity.ofOption (op.apply left right)
  | .call name _, slots => slots.stepCall ctx name

/-- Goes on with the expression itself, unless one of its operands has stopped the step. -/
def conclude (fallback : Value) (e : Expr) :
    Option Verdict × Slots ι → Activity ω (Verdict × Slots ι)
  | (some verdict, slots) => pure (verdict, slots)
  | (none, slots) => slots.apply ctx fallback e

/-- A step of the record: the operands, unless a call is running, and then the expression itself. -/
def step (fallback : Value) (slots : Slots ι) (e : Expr) : Activity ω (Verdict × Slots ι) :=
  (if slots.call.isNone then slots.collect ctx e else pure (none, slots)) >>=
    conclude ctx fallback e

end

end Slots

/-! ### Evaluations as records -/

/-- An evaluation as a record. -/
def Evaluation.slots : Evaluation ι → Slots ι
  | fresh => .fresh
  | operand known inner => ⟨known, some inner, none⟩
  | calling name command => ⟨[], none, (calling name command).pendingCall?⟩
  | asking name command source request inner =>
    ⟨[], none, (asking name command source request inner).pendingCall?⟩

/-- How far an evaluation has come, told by its record.  Nothing is left of one that is
complete. -/
def Progress.slots : Progress ι → Verdict × Slots ι
  | complete v => (.complete v, .fresh)
  | suspended rest => (.suspended, rest.slots)
  | failed fault rest => (.failed fault, rest.slots)

section

variable {ctx : Context ι ω}

/-- What a call can come to: it waits for its command, or leaves nothing behind. -/
def Progress.Called : Progress ι → Prop
  | complete _ => True
  | suspended rest => rest.pendingCall?.isSome
  | failed _ rest => rest = .fresh

/-- The pieces of work that belong to a call whose arguments are known. -/
inductive Task.OfCall : Task ι → Prop
  | settle (name : String) (arguments : List Expr) (known : List Value) :
    OfCall (.settle (.call name arguments) known [])
  | drive (name : String) (command : ι) : OfCall (.drive name command)
  | answer (name : String) (command : ι) (source : String) (request : Expr)
    (progress : Progress ι) : OfCall (.answer name command source request progress)
  | resume {evaluation : Evaluation ι} (e : Expr) (h : evaluation.pendingCall?.isSome) :
    OfCall (.resume evaluation e)

theorem called_of_does {task : Task ι} {s s' : Store ω} {progress : Progress ι}
    {signals : List Signal} (h : Does ctx task s progress s' signals) (ofCall : task.OfCall) :
    progress.Called := by
  induction h with
  | applied h =>
    cases ofCall
    cases h
  | refused | failed | unreadable | denied => rfl
  | finished => trivial
  | suspended | pending => rfl
  | called hcreate h ih => exact ih (.drive _ _)
  | warned hnext h ih => exact ih (.drive _ _)
  | requested hnext hparse hx h ihx ih => exact ih (.answer _ _ _ _ _)
  | supplied hsupply h ih => exact ih (.drive _ _)
  | calling h ih => exact ih (.drive _ _)
  | asking hx h ihx ih => exact ih (.answer _ _ _ _ _)
  | begin | exhausted | resumed =>
    cases ofCall with
    | resume _ h => cases h
  | operand | known | held | broken => cases ofCall

theorem keep_fresh {progress : Progress ι} (h : progress.Called) :
    Slots.keep .fresh progress = progress.slots := by
  cases progress with
  | complete v => rfl
  | suspended rest =>
    cases rest with
    | fresh | operand => cases h
    | calling | asking => rfl
  | failed fault rest =>
    cases h
    rfl

theorem Activity.map_congr {α β : Type} {f g : α → β} {x : Activity ω α}
    (h : ∀ s effect, x s = some effect → f effect.value = g effect.value) :
    f <$> x = g <$> x := by
  funext s
  show (x s).bind _ = (x s).bind _
  cases hx : x s with
  | none => rfl
  | some effect =>
    show some (Effect.mk (f effect.value) _ _) = some (Effect.mk (g effect.value) _ _)
    rw [h s effect hx]

/-- A call that was gone on with, told by the record. -/
theorem keep_activity {task : Task ι} (ofCall : task.OfCall) :
    Slots.keep .fresh <$> task.activity ctx = Progress.slots <$> task.activity ctx :=
  Activity.map_congr fun _ _ given => keep_fresh (called_of_does (does_iff.mp given) ofCall)

variable {fallback : Value} {e : Expr} {known : List Value}

theorem Verdict.ofResult_fresh (result : Except Fault Value) :
    (Verdict.ofResult result, (Slots.fresh : Slots ι)) = (Progress.ofResult result).slots := by
  cases result <;> rfl

/-- An operator finds all its operands. -/
theorem apply_of_length_eq (h : known.length = e.operands.length) :
    (⟨known, none, none⟩ : Slots ι).apply ctx fallback e =
      Progress.slots <$> StepScript.conclude ctx (drive ctx) e known := by
  cases e with
  | literal v =>
    obtain rfl := List.length_eq_zero_iff.mp h
    rfl
  | reference name =>
    obtain rfl := List.length_eq_zero_iff.mp h
    rfl
  | unary op x =>
    obtain ⟨v, rfl⟩ := List.length_eq_one_iff.mp h
    exact congrArg pure (Verdict.ofResult_fresh (op.apply v))
  | binary op l r =>
    rcases known with _ | ⟨v, _ | ⟨w, _ | ⟨u, known⟩⟩⟩
    case cons.cons.nil =>
      change (fun result => (Verdict.ofResult result, Slots.fresh)) <$> _ =
        Progress.slots <$> Progress.ofResult <$> _
      rw [funext Verdict.ofResult_fresh, ← comp_map]
      rfl
    all_goals simp [Expr.operands] at h
  | call name arguments => exact keep_activity (.settle name arguments known)

theorem drop_append_singleton {x : Expr} {rest : List Expr}
    (h : e.operands.drop known.length = x :: rest) (v : Value) :
    e.operands.drop (known ++ [v]).length = rest ∧ (known ++ [v]).length ≤ e.operands.length := by
  have lengths := congrArg List.length h
  rw [List.length_drop, List.length_cons] at lengths
  rw [List.length_append, List.length_singleton]
  refine ⟨?_, by omega⟩
  rw [← List.tail_drop, h, List.tail_cons]

/-- Going on with an operand, told by the record, if what comes after it is. -/
theorem collect_eq_proceed {x : Expr} {rest : List Expr}
    (h : e.operands.drop known.length = x :: rest) (pending : Option (Evaluation ι))
    (later : ∀ v, (⟨known ++ [v], none, none⟩ : Slots ι).collect ctx e >>=
      Slots.conclude ctx fallback e = Progress.slots <$>
        settle ctx (drive ctx) e (known ++ [v]) (rest.map (start ctx (drive ctx)))) :
    (⟨known, pending, none⟩ : Slots ι).collect ctx e >>= Slots.conclude ctx fallback e =
      Progress.slots <$> (resume ctx (pending.getD .fresh) x >>=
        proceed ctx (drive ctx) e known rest) := by
  have hlen : known.length < e.operands.length := by
    have := congrArg List.length h
    rw [List.length_drop, List.length_cons] at this
    omega
  have hx : e.operands.get ⟨known.length, hlen⟩ = x := by
    rw [List.drop_eq_getElem_cons hlen] at h
    exact (List.cons.inj h).1
  rw [Slots.collect, dif_pos hlen, hx, bind_assoc, map_bind]
  refine bind_congr fun progress => ?_
  cases progress with
  | complete v => exact later v
  | suspended inner => rfl
  | failed fault inner => rfl

/-- Going on with all operands, told by the record. -/
theorem collect_eq_settle {rest : List Expr} (h : e.operands.drop known.length = rest)
    (hlen : known.length ≤ e.operands.length) :
    (⟨known, none, none⟩ : Slots ι).collect ctx e >>= Slots.conclude ctx fallback e =
      Progress.slots <$>
        settle ctx (drive ctx) e known (rest.map (start ctx (drive ctx))) := by
  induction rest generalizing known with
  | nil =>
    have full : ¬known.length < e.operands.length := by
      have := List.drop_eq_nil_iff.mp h
      omega
    rw [Slots.collect, dif_neg full, pure_bind]
    exact apply_of_length_eq (by omega)
  | cons x rest ih =>
    rw [settle_cons]
    refine collect_eq_proceed h none fun v => ?_
    obtain ⟨h, hlen⟩ := drop_append_singleton h v
    exact ih h hlen

theorem step_of_call {slots : Slots ι} (h : slots.call.isNone = false) (name : String)
    (arguments : List Expr) :
    slots.step ctx fallback (.call name arguments) = slots.stepCall ctx name := by
  rw [Slots.step, h, if_neg Bool.false_ne_true, pure_bind]
  rfl

/-- **The record takes the steps of the evaluation.** -/
theorem slots_step (fallback : Value) {evaluation : Evaluation ι}
    (h : evaluation = .fresh ∨ Suspended e evaluation) :
    evaluation.slots.step ctx fallback e = Progress.slots <$> resume ctx evaluation e := by
  rcases h with rfl | h
  · rw [resume, start_eq_settle]
    exact collect_eq_settle rfl (Nat.zero_le _)
  · cases h with
    | @operand _ x known inner hx h =>
      obtain ⟨rest, hes⟩ : ∃ rest, e.operands.drop known.length = x :: rest := by
        obtain ⟨hlen, rfl⟩ := List.getElem?_eq_some_iff.mp hx
        exact ⟨_, List.drop_eq_getElem_cons hlen⟩
      rw [resume_operand hes]
      exact collect_eq_proceed hes (some inner) fun v =>
        collect_eq_settle (drop_append_singleton hes v).1 (drop_append_singleton hes v).2
    | calling name arguments command =>
      have ofCall : (Task.resume (.calling name command) (.call name arguments)).OfCall :=
        .resume _ rfl
      rw [step_of_call rfl]
      exact keep_activity ofCall
    | @asking name arguments command source request inner hinner =>
      have ofCall : (Task.resume (.asking name command source request inner)
          (.call name arguments)).OfCall := .resume _ rfl
      rw [step_of_call rfl]
      exact keep_activity ofCall

end

/-! ### Records that are reached -/

theorem Evaluation.slots_injective {a b : Evaluation ι} (h : a.slots = b.slots) : a = b := by
  cases a <;> cases b <;> cases h <;> rfl

theorem Progress.slots_eq_suspended {progress : Progress ι} {slots : Slots ι}
    (h : progress.slots = (.suspended, slots)) :
    ∃ rest, progress = .suspended rest ∧ slots = rest.slots := by
  cases progress with
  | suspended rest =>
    cases h
    exact ⟨rest, rfl, rfl⟩
  | complete | failed => cases h

theorem Activity.map_eq_some_iff {α β : Type} {f : α → β} {x : Activity ω α} {s s' : Store ω}
    {b : β} {signals : List Signal} :
    (f <$> x) s = some ⟨b, s', signals⟩ ↔ ∃ a, x s = some ⟨a, s', signals⟩ ∧ f a = b := by
  show (x s).bind _ = _ ↔ _
  cases hx : x s with
  | none => simp
  | some effect =>
    obtain ⟨a, store, first⟩ := effect
    show some (Effect.mk (f a) store (first ++ [])) = _ ↔ _
    rw [List.append_nil]
    constructor
    · intro h
      cases h
      exact ⟨a, rfl, rfl⟩
    · rintro ⟨_, ⟨⟩, rfl⟩
      rfl

namespace Slots

/-- The records that an empty one is brought to by steps with one expression, each of which was
suspended.  The variables and the store may be others in each step. -/
inductive Held (commands : Commands ι ω) (e : Expr) : Slots ι → Prop
  /-- The first step. -/
  | first {vars : Variables} {s s' : Store ω} {signals : List Signal} {slots : Slots ι}
    (h : Slots.fresh.step ⟨commands, vars⟩ .null e s = some ⟨(.suspended, slots), s', signals⟩) :
    Held commands e slots
  /-- A further step. -/
  | again {vars : Variables} {s s' : Store ω} {signals : List Signal} {slots slots' : Slots ι}
    (before : Held commands e slots)
    (h : slots.step ⟨commands, vars⟩ .null e s = some ⟨(.suspended, slots'), s', signals⟩) :
    Held commands e slots'

variable {commands : Commands ι ω} {e : Expr} {slots : Slots ι}

/-- A step of a record that is suspended, as a step of an evaluation. -/
theorem resume_of_step (evaluation : Evaluation ι) {vars : Variables} {s s' : Store ω}
    {signals : List Signal} (fits : evaluation = .fresh ∨ Suspended e evaluation)
    (h : evaluation.slots.step ⟨commands, vars⟩ .null e s =
      some ⟨(.suspended, slots), s', signals⟩) :
    ∃ rest, slots = rest.slots ∧ Suspended e rest ∧
      resume ⟨commands, vars⟩ evaluation e s = some ⟨.suspended rest, s', signals⟩ := by
  rw [slots_step .null fits] at h
  obtain ⟨progress, given, hslots⟩ := Activity.map_eq_some_iff.mp h
  obtain ⟨rest, rfl, rfl⟩ := Progress.slots_eq_suspended hslots
  exact ⟨rest, rfl, suspended_of_does (does_of_resume given) fits rfl, given⟩

/-- A record that is reached is that of a suspended evaluation. -/
theorem Held.exists_suspended (h : Held commands e slots) :
    ∃ evaluation : Evaluation ι, slots = evaluation.slots ∧ Suspended e evaluation := by
  induction h with
  | first h =>
    obtain ⟨rest, hslots, suspended, -⟩ := resume_of_step .fresh (.inl rfl) h
    exact ⟨rest, hslots, suspended⟩
  | again before h ih =>
    obtain ⟨evaluation, rfl, suspended⟩ := ih
    obtain ⟨rest, hslots, suspended, -⟩ := resume_of_step evaluation (.inr suspended) h
    exact ⟨rest, hslots, suspended⟩

theorem Held.suspended {evaluation : Evaluation ι} (h : Held commands e evaluation.slots) :
    Suspended e evaluation := by
  obtain ⟨evaluation', same, suspended⟩ := h.exists_suspended
  rwa [Evaluation.slots_injective same]

theorem fits_of_held {evaluation : Evaluation ι}
    (h : evaluation = .fresh ∨ Held commands e evaluation.slots) :
    evaluation = .fresh ∨ Suspended e evaluation :=
  h.imp_right Held.suspended

/-- Whatever a resumption suspends is reached. -/
theorem held_of_resume {evaluation rest : Evaluation ι} {vars : Variables} {s s' : Store ω}
    {signals : List Signal} (h : evaluation = .fresh ∨ Held commands e evaluation.slots)
    (given : resume ⟨commands, vars⟩ evaluation e s = some ⟨.suspended rest, s', signals⟩) :
    Held commands e rest.slots := by
  have step : evaluation.slots.step ⟨commands, vars⟩ .null e s =
      some ⟨(.suspended, rest.slots), s', signals⟩ := by
    rw [slots_step .null (fits_of_held h)]
    exact Activity.map_eq_some_iff.mpr ⟨_, given, rfl⟩
  rcases h with rfl | held
  · exact .first step
  · exact .again held step

/-- The operand that is being evaluated in a record is itself in a state that is reached. -/
def Nests (commands : Commands ι ω) (e : Expr) (slots : Slots ι) : Prop :=
  ∀ inner, slots.pending = some inner →
    ∃ x, e.operands[slots.operands.length]? = some x ∧ Held commands x inner.slots

end Slots

/-- What a piece of work may start from, as far as the operand is concerned that is being
evaluated. -/
def Task.FitsHeld (commands : Commands ι ω) : Task ι → Prop
  | settle e known rest => e.operands.drop known.length = rest
  | proceed e known rest progress =>
    ∃ x, e.operands.drop known.length = x :: rest ∧
      ∀ inner, progress = .suspended inner → Slots.Held commands x inner.slots
  | resume evaluation e => evaluation.slots.Nests commands e
  | drive _ _ | answer _ _ _ _ _ => True

/-- What a piece of work may leave behind, as far as the operand is concerned that is being
evaluated. -/
def Task.LeavesHeld (commands : Commands ι ω) : Task ι → Evaluation ι → Prop
  | settle e _ _, rest | proceed e _ _ _, rest | resume _ e, rest => rest.slots.Nests commands e
  | drive _ _, rest | answer _ _ _ _ _, rest => rest.slots.pending = none

theorem Slots.nests_of_pending {commands : Commands ι ω} {e : Expr} {slots : Slots ι}
    (h : slots.pending = none) : slots.Nests commands e := by
  intro inner hinner
  rw [h] at hinner
  cases hinner

theorem leavesHeld_of_does {commands : Commands ι ω} {vars : Variables} {task : Task ι}
    {s s' : Store ω} {progress : Progress ι} {signals : List Signal}
    (h : Does ⟨commands, vars⟩ task s progress s' signals) (fits : task.FitsHeld commands)
    {left : Evaluation ι} (hleft : progress = .suspended left) :
    task.LeavesHeld commands left := by
  -- Induction on the rules, with the record that each of them leaves.
  induction h generalizing left with
  | @applied e known s result h => cases result <;> cases hleft
  | refused | broken | failed | finished | unreadable | denied => cases hleft
  | called hcreate h ih => exact Slots.nests_of_pending (ih trivial hleft)
  | @operand e x known rest s s' s'' inner progress first second hx h ihx ih =>
    refine ih ⟨x, fits, ?_⟩ hleft
    -- the operand is begun here, so that its record is held after one step
    rintro inner rfl
    exact Slots.held_of_resume (.inl rfl) (activity_of_does (.begin hx))
  | known h ih =>
    obtain ⟨x, hes, -⟩ := fits
    exact ih (drop_append_singleton hes _).1 hleft
  | held =>
    cases hleft
    -- the record of the operand, under the operands that are known
    obtain ⟨x, hes, held⟩ := fits
    rintro inner ⟨⟩
    exact ⟨x, by rw [← List.head?_drop]; exact congrArg List.head? hes, held _ rfl⟩
  | suspended | pending =>
    cases hleft
    rfl
  | warned hnext h ih => exact ih trivial hleft
  | requested hnext hparse hx h ihx ih => exact ih trivial hleft
  | supplied hsupply h ih => exact ih trivial hleft
  | begin h ih => exact ih rfl hleft
  | exhausted hes h ih => exact ih hes hleft
  | @resumed e x known rest evaluation s s' s'' inner progress first second hes hx h ihx ih =>
    obtain ⟨x', hx', held⟩ := fits evaluation rfl
    -- the record is for the operand that comes next
    have same : x' = x := by
      rw [← List.head?_drop] at hx'
      exact Option.some_inj.mp (hx'.symm.trans (congrArg List.head? hes))
    subst same
    refine ih ⟨x', hes, ?_⟩ hleft
    rintro inner rfl
    exact Slots.held_of_resume (.inr held) (activity_of_does hx)
  | calling h ih => exact Slots.nests_of_pending (ih trivial hleft)
  | asking hx h ihx ih => exact Slots.nests_of_pending (ih trivial hleft)

namespace Slots

variable {commands : Commands ι ω} {e : Expr} {slots : Slots ι}

theorem Held.nests (h : Held commands e slots) : slots.Nests commands e := by
  induction h with
  | first h =>
    obtain ⟨rest, rfl, -, given⟩ := resume_of_step .fresh (.inl rfl) h
    have fits : (Task.resume .fresh e : Task ι).FitsHeld commands := nests_of_pending rfl
    exact leavesHeld_of_does (does_of_resume given) fits rfl
  | again before h ih =>
    obtain ⟨evaluation, rfl, suspended⟩ := before.exists_suspended
    obtain ⟨rest, rfl, -, given⟩ := resume_of_step evaluation (.inr suspended) h
    have fits : (Task.resume evaluation e).FitsHeld commands := ih
    exact leavesHeld_of_does (does_of_resume given) fits rfl

/-- Which fields of a record are filled: the call alone, or all but the call. -/
theorem Held.shape (h : Held commands e slots) :
    (slots.call.isSome → (∃ name arguments, e = .call name arguments) ∧
      slots.operands = [] ∧ slots.pending = none) ∧
    (slots.call = none → ∃ inner x, slots.pending = some inner ∧
      e.operands[slots.operands.length]? = some x ∧ Held commands x inner.slots) := by
  obtain ⟨evaluation, rfl, suspended⟩ := h.exists_suspended
  cases suspended with
  | @operand _ x known inner hx hsuspended =>
    refine ⟨fun hcall => absurd hcall Bool.false_ne_true, fun _ => ?_⟩
    obtain ⟨x, hx, held⟩ := h.nests inner rfl
    exact ⟨inner, x, rfl, hx, held⟩
  | calling name arguments | asking name arguments =>
    refine ⟨fun _ => ⟨⟨name, arguments, rfl⟩, rfl, rfl⟩, ?_⟩
    intro hcall
    cases hcall

end Slots

/-- **The record of an evaluation.**  While an evaluation is suspended, its record holds a call
alone, or some operands, not all, and the evaluation of the next one, which is suspended likewise.
So no operand is ever missing when the operator is applied, and the record is empty once the
expression has a value.  The record takes the steps that the evaluation takes, and it is for the
expression of the current statement wherever a program keeps one. -/
theorem record_of_evaluation_is_sound (commands : Commands ι ω) :
    (∀ e slots, Slots.Held commands e slots →
      (slots.call.isSome → (∃ name arguments, e = .call name arguments) ∧
        slots.operands = [] ∧ slots.pending = none) ∧
      (slots.call = none → ∃ inner x, slots.pending = some inner ∧
        slots.operands.length < e.operands.length ∧
        e.operands[slots.operands.length]? = some x ∧ Slots.Held commands x inner.slots)) ∧
    (∀ e slots, slots = .fresh ∨ Slots.Held commands e slots → ∀ vars,
      (∃ evaluation, slots = evaluation.slots ∧ ∀ fallback,
        slots.step ⟨commands, vars⟩ fallback e =
          Progress.slots <$> resume ⟨commands, vars⟩ evaluation e) ∧
      ∀ v slots' store store' signals, slots.step ⟨commands, vars⟩ .null e store =
        some ⟨(.complete v, slots'), store', signals⟩ →
        slots' = .fresh ∧ ∀ vars, slots'.step ⟨commands, vars⟩ .null e =
          Progress.slots <$> start ⟨commands, vars⟩ (drive ⟨commands, vars⟩) e) ∧
    ∀ p store, Program.Reachable commands p store → ∀ evaluation, p.evaluation = some evaluation →
      ∃ s e, p.current? = some s ∧ s.kind.value? = some e ∧
        Slots.Held commands e evaluation.slots := by
  refine ⟨?_, ?_, ?_⟩
  · intro e slots held
    refine ⟨held.shape.1, fun hcall => ?_⟩
    obtain ⟨inner, x, hpending, hx, hinner⟩ := held.shape.2 hcall
    exact ⟨inner, x, hpending, (List.getElem?_eq_some_iff.mp hx).1, hx, hinner⟩
  · intro e slots h vars
    -- a record that is held is that of a suspended evaluation
    obtain ⟨evaluation, rfl, fits⟩ : ∃ evaluation : Evaluation ι, slots = evaluation.slots ∧
        (evaluation = .fresh ∨ Suspended e evaluation) := by
      rcases h with rfl | held
      · exact ⟨.fresh, rfl, .inl rfl⟩
      · obtain ⟨evaluation, rfl, suspended⟩ := held.exists_suspended
        exact ⟨evaluation, rfl, .inr suspended⟩
    refine ⟨⟨evaluation, rfl, fun fallback => slots_step fallback fits⟩, ?_⟩
    intro v slots' store store' signals given
    rw [slots_step .null fits] at given
    obtain ⟨progress, -, hslots⟩ := Activity.map_eq_some_iff.mp given
    -- what is complete leaves no record, and begins anew
    cases progress with
    | complete v =>
      cases hslots
      exact ⟨rfl, fun vars => slots_step .null (.inl rfl)⟩
    | suspended | failed => cases hslots
  · intro p store reachable
    refine Program.evaluatesIn_of_reachable
      (P := fun e evaluation => Slots.Held commands e evaluation.slots) ?_ reachable
    rintro vars e evaluation s ⟨_, s', signals⟩ h given rest rfl
    exact Slots.held_of_resume h given

/-- A sum that waits for its second operand. -/
theorem record_of_evaluation_is_sound_hold :
    Slots.Held (.afterPauses 2 (.int 5) : Commands Nat Unit)
        (.binary .add (.literal (.int 1)) (.call "hold" []))
        ⟨[.int 1], some (.calling "hold" 1), none⟩ ∧
      Slots.Held (.afterPauses 2 (.int 5) : Commands Nat Unit) (.call "hold" [])
        (Evaluation.calling "hold" 1).slots := by
  have suspended : ∃ s' signals, Does ⟨(.afterPauses 2 (.int 5) : Commands Nat Unit), .initial⟩
      (.resume .fresh (.binary .add (.literal (.int 1)) (.call "hold" []))) ⟨.empty, ()⟩
      (.suspended (.operand [.int 1] (.calling "hold" 1))) s' signals :=
    ⟨_, _, .begin (.operand (.applied rfl) (.known (.operand (.called rfl (.suspended rfl))
      .held)))⟩
  obtain ⟨_, _, suspended⟩ := suspended
  have held := Slots.held_of_resume (.inl rfl) (activity_of_does suspended)
  obtain ⟨_, _, ⟨⟩, _, ⟨⟩, inner⟩ :=
    ((record_of_evaluation_is_sound (.afterPauses 2 (.int 5) : Commands Nat Unit)).1 _ _ held).2 rfl
  exact ⟨held, inner⟩

end StepScript
