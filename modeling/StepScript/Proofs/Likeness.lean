import StepScript.Program
import StepScript.Proofs.Rules

/-!
# Programs over like commands

Two sets of commands may differ in their instances and in the state of the host, and still answer
alike: related messages get related answers and leave related stores behind.  A program then cannot
tell them apart.  Whatever it does over the one set, it does over the other, with the same signals
and the same results, and the two stay related.

The relation between the stores is left open, so that it may also compare the caches, as long as
both of them give the same answers when they are asked for an expression.

## Main definitions

* `Evaluation.Like`, `Progress.Like`, `Program.Like` — the same up to related instances.
* `Commands.Like` — commands that answer alike.

## Main results

* `Does.like` — related pieces of work do the same.
* `Program.follows_cycle` — related programs go through related cycles.
-/

namespace StepScript

variable {ι ι' ω ω' : Type}

/-! ### Related evaluations -/

/-- Both have failed with the same error, or both have results that are related. -/
inductive LikeResult {ε α β : Type} (R : α → β → Prop) : Except ε α → Except ε β → Prop
  /-- Both have results. -/
  | ok {a : α} {b : β} (h : R a b) : LikeResult R (.ok a) (.ok b)
  /-- Both have failed. -/
  | error (error : ε) : LikeResult R (.error error) (.error error)

section

variable (I : ι → ι' → Prop)

/-- Evaluations that stand at the same place, with related instances. -/
inductive Evaluation.Like : Evaluation ι → Evaluation ι' → Prop
  | fresh : Like .fresh .fresh
  | operand (known : List Value) {inner : Evaluation ι} {inner' : Evaluation ι'}
    (h : Like inner inner') : Like (.operand known inner) (.operand known inner')
  | calling (name : String) {command : ι} {command' : ι'} (h : I command command') :
    Like (.calling name command) (.calling name command')
  | asking (name source : String) (request : Expr) {command : ι} {command' : ι'}
    {inner : Evaluation ι} {inner' : Evaluation ι'} (h : I command command')
    (hx : Like inner inner') :
    Like (.asking name command source request inner) (.asking name command' source request inner')

/-- Evaluations that have come equally far. -/
inductive Progress.Like : Progress ι → Progress ι' → Prop
  | complete (v : Value) : Like (.complete v) (.complete v)
  | suspended {rest : Evaluation ι} {rest' : Evaluation ι'} (h : rest.Like I rest') :
    Like (.suspended rest) (.suspended rest')
  | failed (fault : Fault) {rest : Evaluation ι} {rest' : Evaluation ι'} (h : rest.Like I rest') :
    Like (.failed fault rest) (.failed fault rest')

/-- The same pieces of work, with related instances. -/
inductive Task.Like : Task ι → Task ι' → Prop
  | settle (e : Expr) (known : List Value) (rest : List Expr) :
    Like (.settle e known rest) (.settle e known rest)
  | proceed (e : Expr) (known : List Value) (rest : List Expr) {progress : Progress ι}
    {progress' : Progress ι'} (h : progress.Like I progress') :
    Like (.proceed e known rest progress) (.proceed e known rest progress')
  | drive (name : String) {command : ι} {command' : ι'} (h : I command command') :
    Like (.drive name command) (.drive name command')
  | answer (name source : String) (request : Expr) {command : ι} {command' : ι'}
    {progress : Progress ι} {progress' : Progress ι'} (h : I command command')
    (hprogress : progress.Like I progress') :
    Like (.answer name command source request progress)
      (.answer name command' source request progress')
  | resume (e : Expr) {evaluation : Evaluation ι} {evaluation' : Evaluation ι'}
    (h : evaluation.Like I evaluation') : Like (.resume evaluation e) (.resume evaluation' e)

/-- Commands that answer alike, where `I` relates their instances and `S` the stores in which they
are addressed. -/
structure Commands.Like (S : Store ω → Store ω' → Prop) (commands : Commands ι ω)
    (commands' : Commands ι' ω') : Prop where
  /-- Calls create related instances. -/
  create : ∀ {s s'}, S s s' → ∀ name values {created host notes},
    commands.create name values s.host = ⟨created, host, notes⟩ →
    ∃ created' host', commands'.create name values s'.host = ⟨created', host', notes⟩ ∧
      LikeResult I created created' ∧ S ⟨s.cache, host⟩ ⟨s'.cache, host'⟩
  /-- Related instances give the same reply. -/
  next : ∀ {s s'}, S s s' → ∀ {command command'}, I command command' →
    ∀ {reply rest host notes}, commands.next command s.host = some ⟨(reply, rest), host, notes⟩ →
    ∃ rest' host', commands'.next command' s'.host = some ⟨(reply, rest'), host', notes⟩ ∧
      I rest rest' ∧ S ⟨s.cache, host⟩ ⟨s'.cache, host'⟩
  /-- Related instances are given the same values. -/
  supply : ∀ {s s'}, S s s' → ∀ {command command'}, I command command' →
    ∀ source v {rest host notes}, commands.supply command source v s.host = ⟨rest, host, notes⟩ →
    ∃ rest' host', commands'.supply command' source v s'.host = ⟨rest', host', notes⟩ ∧
      I rest rest' ∧ S ⟨s.cache, host⟩ ⟨s'.cache, host'⟩
  /-- Both caches have the same expression for a text. -/
  expression : ∀ {s s'}, S s s' → ∀ source {found cache},
    s.cache.expression source = (found, cache) →
    ∃ found' cache', s'.cache.expression source = (found', cache') ∧
      LikeResult (fun request request' : Shared Expr => request.value = request'.value)
        found found' ∧ S ⟨cache, s.host⟩ ⟨cache', s'.host⟩

end

section

variable {I : ι → ι' → Prop} {S : Store ω → Store ω' → Prop} {commands : Commands ι ω}
  {commands' : Commands ι' ω'} {vars : Variables}

theorem Progress.Like.ofResult (result : Except Fault Value) :
    (Progress.ofResult result).Like I (Progress.ofResult result) := by
  cases result with
  | ok v => exact .complete v
  | error fault => exact .failed fault .fresh

/-- **Related pieces of work do the same**, rule by rule. -/
theorem Does.like (alike : Commands.Like I S commands commands') {task : Task ι}
    {s t : Store ω} {progress : Progress ι} {signals : List Signal}
    (h : Does ⟨commands, vars⟩ task s progress t signals) {task' : Task ι'} {s' : Store ω'}
    (htask : task.Like I task') (hs : S s s') :
    ∃ progress' t', Does ⟨commands', vars⟩ task' s' progress' t' signals ∧
      progress.Like I progress' ∧ S t t' := by
  -- Induction on the rules; the related work, and the store it begins in, are free.
  induction h generalizing task' s' with
  | applied h =>
    cases htask
    exact ⟨_, s', .applied h, .ofResult _, hs⟩
  | refused hcreate =>
    -- both commands refuse the arguments, with the same fault
    cases htask
    obtain ⟨created', host', hcreate', hcreated, hstore⟩ := alike.create hs _ _ hcreate
    cases hcreated
    exact ⟨_, _, .refused hcreate', .failed _ .fresh, hstore⟩
  | called hcreate h ih =>
    -- the related command is created from the same arguments, and then driven
    cases htask
    obtain ⟨created', host', hcreate', hcreated, hstore⟩ := alike.create hs _ _ hcreate
    cases hcreated with
    | ok hcommand =>
      obtain ⟨progress', t', h', hprogress, ht⟩ := ih (.drive _ hcommand) hstore
      exact ⟨progress', t', .called hcreate' h', hprogress, ht⟩
  | operand hx h ihx ih =>
    -- the operand first, and then whatever its progress leaves to do
    cases htask
    obtain ⟨inner', s₁', hx', hinner, hs₁⟩ := ihx (.settle _ _ _) hs
    obtain ⟨progress', t', h', hprogress, ht⟩ := ih (.proceed _ _ _ hinner) hs₁
    exact ⟨progress', t', .operand hx' h', hprogress, ht⟩
  | known h ih =>
    -- related progress is of the same form, here and in the next two rules
    cases htask with
    | proceed _ _ _ hinner =>
      cases hinner
      obtain ⟨progress', t', h', hprogress, ht⟩ := ih (.settle _ _ _) hs
      exact ⟨progress', t', .known h', hprogress, ht⟩
  | held =>
    cases htask with
    | proceed _ _ _ hinner =>
      cases hinner with
      | suspended h => exact ⟨_, s', .held, .suspended (.operand _ h), hs⟩
  | broken =>
    cases htask with
    | proceed _ _ _ hinner =>
      cases hinner with
      | failed _ h => exact ⟨_, s', .broken, .failed _ (.operand _ h), hs⟩
  | failed hnext =>
    -- from here on the command replies, and so does the related one, in the same way
    cases htask with
    | drive _ hcommand =>
      obtain ⟨rest', host', hnext', -, hstore⟩ := alike.next hs hcommand hnext
      exact ⟨_, _, .failed hnext', .failed _ .fresh, hstore⟩
  | finished hnext =>
    cases htask with
    | drive _ hcommand =>
      obtain ⟨rest', host', hnext', -, hstore⟩ := alike.next hs hcommand hnext
      exact ⟨_, _, .finished hnext', .complete _, hstore⟩
  | suspended hnext =>
    cases htask with
    | drive _ hcommand =>
      obtain ⟨rest', host', hnext', hrest, hstore⟩ := alike.next hs hcommand hnext
      exact ⟨_, _, .suspended hnext', .suspended (.calling _ hrest), hstore⟩
  | warned hnext h ih =>
    cases htask with
    | drive _ hcommand =>
      obtain ⟨rest', host', hnext', hrest, hstore⟩ := alike.next hs hcommand hnext
      obtain ⟨progress', t', h', hprogress, ht⟩ := ih (.drive _ hrest) hstore
      exact ⟨progress', t', .warned hnext' h', hprogress, ht⟩
  | unreadable hnext hparse =>
    -- both caches have the same error for the source, whatever they hold
    cases htask with
    | drive _ hcommand =>
      obtain ⟨rest', host', hnext', -, hstore⟩ := alike.next hs hcommand hnext
      obtain ⟨found', cache', hparse', hfound, hstore'⟩ := alike.expression hstore _ hparse
      cases hfound
      exact ⟨_, _, .unreadable hnext' hparse', .failed _ .fresh, hstore'⟩
  | requested hnext hparse hx h ihx ih =>
    -- the two caches may share different trees, but of the same expression
    cases htask with
    | drive _ hcommand =>
      obtain ⟨rest', host', hnext', hrest, hstore⟩ := alike.next hs hcommand hnext
      obtain ⟨found', cache', hparse', hfound, hstore'⟩ := alike.expression hstore _ hparse
      cases hfound with
      | ok hrequest =>
        obtain ⟨inner', s₁', hx', hinner, hs₁⟩ := ihx (.settle _ _ _) hstore'
        obtain ⟨progress', t', h', hprogress, ht⟩ := ih (.answer _ _ _ hrest hinner) hs₁
        rw [hrequest] at hx' h'
        exact ⟨progress', t', .requested hnext' hparse' hx' h', hprogress, ht⟩
  | supplied hsupply h ih =>
    -- the answer is the same value, since related progress is complete with it
    cases htask with
    | answer _ _ _ hcommand hinner =>
      cases hinner
      obtain ⟨rest', host', hsupply', hrest, hstore⟩ := alike.supply hs hcommand _ _ hsupply
      obtain ⟨progress', t', h', hprogress, ht⟩ := ih (.drive _ hrest) hstore
      exact ⟨progress', t', .supplied hsupply' h', hprogress, ht⟩
  | pending =>
    cases htask with
    | answer _ _ _ hcommand hinner =>
      cases hinner with
      | suspended h => exact ⟨_, s', .pending, .suspended (.asking _ _ _ hcommand h), hs⟩
  | denied =>
    cases htask with
    | answer _ _ _ hcommand hinner =>
      cases hinner
      exact ⟨_, s', .denied, .failed _ .fresh, hs⟩
  | begin h ih =>
    -- the last rules resume an evaluation, and the related one is held at the same place
    cases htask with
    | resume _ hevaluation =>
      cases hevaluation
      obtain ⟨progress', t', h', hprogress, ht⟩ := ih (.settle _ _ _) hs
      exact ⟨progress', t', .begin h', hprogress, ht⟩
  | exhausted hes h ih =>
    cases htask with
    | resume _ hevaluation =>
      cases hevaluation
      obtain ⟨progress', t', h', hprogress, ht⟩ := ih (.settle _ _ _) hs
      exact ⟨progress', t', .exhausted hes h', hprogress, ht⟩
  | resumed hes hx h ihx ih =>
    cases htask with
    | resume _ hevaluation =>
      cases hevaluation with
      | operand _ hinner =>
        obtain ⟨inner', s₁', hx', hinner, hs₁⟩ := ihx (.resume _ hinner) hs
        obtain ⟨progress', t', h', hprogress, ht⟩ := ih (.proceed _ _ _ hinner) hs₁
        exact ⟨progress', t', .resumed hes hx' h', hprogress, ht⟩
  | calling h ih =>
    cases htask with
    | resume _ hevaluation =>
      cases hevaluation with
      | calling _ hcommand =>
        obtain ⟨progress', t', h', hprogress, ht⟩ := ih (.drive _ hcommand) hs
        exact ⟨progress', t', .calling h', hprogress, ht⟩
  | asking hx h ihx ih =>
    cases htask with
    | resume _ hevaluation =>
      cases hevaluation with
      | asking _ _ _ hcommand hinner =>
        obtain ⟨inner', s₁', hx', hinner, hs₁⟩ := ihx (.resume _ hinner) hs
        obtain ⟨progress', t', h', hprogress, ht⟩ := ih (.answer _ _ _ hcommand hinner) hs₁
        exact ⟨progress', t', .asking hx' h', hprogress, ht⟩

/-- Related evaluations are resumed alike. -/
theorem resume_like (alike : Commands.Like I S commands commands') {evaluation : Evaluation ι}
    {evaluation' : Evaluation ι'} {e : Expr} {s t : Store ω} {s' : Store ω'}
    {progress : Progress ι} {signals : List Signal}
    (h : resume ⟨commands, vars⟩ evaluation e s = some ⟨progress, t, signals⟩)
    (hevaluation : evaluation.Like I evaluation') (hs : S s s') :
    ∃ progress' t',
      resume ⟨commands', vars⟩ evaluation' e s' = some ⟨progress', t', signals⟩ ∧
      progress.Like I progress' ∧ S t t' := by
  obtain ⟨progress', t', h', hprogress, ht⟩ :=
    (does_of_resume h).like alike (.resume e hevaluation) hs
  exact ⟨progress', t', activity_of_does h', hprogress, ht⟩

end

/-! ### Related programs -/

/-- Programs in the same state, with related instances. -/
structure Program.Like (I : ι → ι' → Prop) (p : Program ι) (p' : Program ι') : Prop where
  name : p.name = p'.name
  script : p.script = p'.script
  vars : p.vars = p'.vars
  stack : p.stack = p'.stack
  counter : p.counter = p'.counter
  status : p.status = p'.status
  /-- Both have begun with a statement, or neither has. -/
  begun : p.evaluation.isSome = p'.evaluation.isSome
  /-- The evaluations stand at the same place. -/
  evaluation : (p.evaluation.getD .fresh).Like I (p'.evaluation.getD .fresh)

/-- Actions that leave the store alone, send the same signals and have related results. -/
def Agree {α β : Type} (R : α → β → Prop) (x : Action ω α) (y : Action ω' β) : Prop :=
  ∀ s s', ∃ a b signals, x s = ⟨a, s, signals⟩ ∧ y s' = ⟨b, s', signals⟩ ∧ R a b

namespace Agree

variable {α β α₁ β₁ : Type} {R : α → β → Prop} {R₁ : α₁ → β₁ → Prop}

theorem pure {a : α} {b : β} (h : R a b) :
    Agree R (pure a : Action ω α) (pure b : Action ω' β) :=
  fun _ _ => ⟨a, b, [], rfl, rfl, h⟩

theorem emit (signal : Signal) :
    Agree (fun _ _ => True) (.emit signal : Action ω Unit) (.emit signal : Action ω' Unit) :=
  fun _ _ => ⟨(), (), [signal], rfl, rfl, trivial⟩

theorem bind {x : Action ω α} {y : Action ω' β} {f : α → Action ω α₁} {g : β → Action ω' β₁}
    (hx : Agree R x y) (hf : ∀ a b, R a b → Agree R₁ (f a) (g b)) :
    Agree R₁ (x >>= f) (y >>= g) := by
  intro s s'
  obtain ⟨a, b, first, hx, hy, hab⟩ := hx s s'
  obtain ⟨c, d, second, hf, hg, hcd⟩ := hf a b hab s s'
  refine ⟨c, d, first ++ second, ?_, ?_, hcd⟩
  · rw [Action.bind_apply, hx]
    simp only [hf]
  · rw [Action.bind_apply, hy]
    simp only [hg]

end Agree

namespace Program

variable {I : ι → ι' → Prop} {p : Program ι} {p' : Program ι'}

/-- What statements and cycles give, up to related programs. -/
def LikeOutcome {ε : Type} (I : ι → ι' → Prop) (x : Program ι × Except ε Unit)
    (x' : Program ι' × Except ε Unit) : Prop :=
  x.1.Like I x'.1 ∧ x.2 = x'.2

theorem agree_push (h : p.Like I p') (frame : Frame) :
    Agree (Program.Like I) (p.push frame : Action ω _) (p'.push frame : Action ω' _) := by
  unfold push
  rw [h.counter]
  refine (Agree.emit _).bind fun _ _ _ => (Agree.emit _).bind fun _ _ _ => .pure ?_
  exact { h with stack := congrArg (frame :: ·) h.stack, counter := rfl }

/-- A block is pushed, and all is well. -/
theorem agree_ok_push (h : p.Like I p') (frame : Frame) :
    Agree (LikeOutcome I) ((·, .ok ()) <$> p.push frame : Action ω (_ × Except Fault Unit))
      ((·, .ok ()) <$> p'.push frame : Action ω' _) := by
  rw [map_eq_pure_bind, map_eq_pure_bind]
  exact (agree_push h frame).bind fun _ _ h => .pure ⟨h, rfl⟩

theorem agree_skip (h : p.Like I p') (block : BlockKind) :
    Agree (LikeOutcome I) (p.skip block : Action ω _) (p'.skip block : Action ω' _) := by
  unfold skip
  rw [h.script, h.counter]
  cases p'.script.closing? p'.counter with
  | none => exact .pure ⟨h, rfl⟩
  | some stop =>
    refine (Agree.emit _).bind fun _ _ _ => .pure ⟨?_, rfl⟩
    exact { h with script := rfl, counter := rfl }

theorem agree_enter (h : p.Like I p') (block : BlockKind) (v : Value) :
    Agree (LikeOutcome I) (p.enter block v : Action ω _) (p'.enter block v : Action ω' _) := by
  unfold enter
  cases block with
  | condition =>
    by_cases hv : v.isTruthy = true
    · simpa only [if_pos hv] using agree_ok_push h .condition
    · simpa only [if_neg hv] using agree_skip h _
  | repetition =>
    by_cases hv : v.isTruthy = true
    · simpa only [if_pos hv, h.counter] using agree_ok_push h (.repetition p'.counter)
    · simpa only [if_neg hv] using agree_skip h _
  | selection => exact agree_ok_push h _
  | alternative =>
    dsimp only
    rw [h.stack]
    have like (stack : List Frame) : Program.Like I { p with stack } { p' with stack } :=
      { h with stack := rfl }
    rcases matchCase v p'.stack with _ | ⟨_ | _, stack⟩
    · exact .pure ⟨h, rfl⟩
    · exact agree_skip (like stack) _
    · exact agree_ok_push (like stack) _

theorem agree_close (h : p.Like I p') :
    Agree (LikeOutcome I) (p.close : Action ω _) (p'.close : Action ω' _) := by
  unfold close
  rw [h.stack, h.counter]
  cases p'.stack with
  | nil => exact .pure ⟨h, rfl⟩
  | cons frame stack =>
    refine (Agree.emit _).bind fun _ _ _ => (Agree.emit _).bind fun _ _ _ => .pure ⟨?_, rfl⟩
    exact { h with stack := rfl, counter := rfl }

theorem agree_announce (h : p.Like I p') (s : Statement) :
    Agree (fun _ _ => True) (p.announce s : Action ω _) (p'.announce s : Action ω' _) := by
  have hnone : p.evaluation.isNone = p'.evaluation.isNone := by
    rw [← Option.not_isSome, ← Option.not_isSome, h.begun]
  unfold announce
  rw [h.name, h.counter, hnone]
  by_cases hbegun : p'.evaluation.isNone = true
  · simp only [if_pos hbegun]
    exact (Agree.emit _).bind fun _ _ _ => .emit _
  · simp only [if_neg hbegun]
    exact .pure trivial

theorem current_of_like (h : p.Like I p') : p.current? = p'.current? := by
  rw [current?, current?, h.script, h.counter]

theorem agree_fail (h : p.Like I p') (fault : Fault) :
    Agree (LikeOutcome I) (p.fail fault : Action ω _) (p'.fail fault : Action ω' _) := by
  unfold fail
  dsimp only
  rw [h.name, current_of_like h]
  refine (Agree.emit _).bind fun _ _ _ => (Agree.emit _).bind fun _ _ _ => .pure ⟨?_, rfl⟩
  exact { h with name := rfl, status := rfl, begun := rfl, evaluation := .fresh }

theorem agree_advance (h : p.Like I p') :
    Agree (LikeOutcome I) (p.advance : Action ω _) (p'.advance : Action ω' _) := by
  unfold advance
  rw [h.script, h.counter, h.name]
  by_cases hsize : p'.script.size ≤ p'.counter
  · simp only [if_pos hsize]
    refine (Agree.emit _).bind fun _ _ _ => .pure ⟨?_, rfl⟩
    exact { h with script := rfl, counter := rfl, name := rfl, status := rfl }
  · simp only [if_neg hsize]
    exact .pure ⟨h, rfl⟩

end Program

/-- Activities of which the second does in a related store what the first does: it sends the same
signals, has a related result and leaves a related store. -/
def Follows {α β : Type} (S : Store ω → Store ω' → Prop) (R : α → β → Prop) (x : Activity ω α)
    (y : Activity ω' β) : Prop :=
  ∀ s s' a t signals, S s s' → x s = some ⟨a, t, signals⟩ →
    ∃ b t', y s' = some ⟨b, t', signals⟩ ∧ R a b ∧ S t t'

namespace Follows

variable {α β α₁ β₁ : Type} {R : α → β → Prop} {R₁ : α₁ → β₁ → Prop}
  {S : Store ω → Store ω' → Prop}

theorem ofAction {x : Action ω α} {y : Action ω' β} (h : Agree R x y) :
    Follows S R (.ofAction x) (.ofAction y) := by
  intro s s' a t signals hs hx
  obtain ⟨a', b, signals', hx', hy, hab⟩ := h s s'
  rw [Activity.ofAction_apply, hx'] at hx
  cases hx
  exact ⟨b, s', congrArg some hy, hab, hs⟩

theorem pure {a : α} {b : β} (h : R a b) :
    Follows S R (pure a : Activity ω α) (pure b : Activity ω' β) :=
  ofAction (.pure h)

theorem bind {x : Activity ω α} {y : Activity ω' β} {f : α → Activity ω α₁}
    {g : β → Activity ω' β₁} (hx : Follows S R x y)
    (hf : ∀ a b, R a b → Follows S R₁ (f a) (g b)) : Follows S R₁ (x >>= f) (y >>= g) := by
  intro s s' a t signals hs given
  obtain ⟨first, second, hfirst, hsecond, heffect⟩ := Activity.bind_eq_some_iff.mp given
  cases heffect
  obtain ⟨b, t₁, hy, hab, ht₁⟩ := hx s s' _ _ _ hs hfirst
  obtain ⟨d, t₂, hg, hcd, ht₂⟩ := hf _ b hab _ t₁ _ _ _ ht₁ hsecond
  refine ⟨d, t₂, ?_, hcd, ht₂⟩
  exact Activity.bind_eq_some_iff.mpr ⟨_, _, hy, hg, rfl⟩

end Follows

namespace Program

variable {I : ι → ι' → Prop} {S : Store ω → Store ω' → Prop} {commands : Commands ι ω}
  {commands' : Commands ι' ω'} {p : Program ι} {p' : Program ι'}

theorem follows_evaluate (alike : Commands.Like I S commands commands') (h : p.Like I p')
    (e : Expr) {andThen : Program ι → Value → Action ω (Program ι × Except Fault Unit)}
    {andThen' : Program ι' → Value → Action ω' (Program ι' × Except Fault Unit)}
    (hthen : ∀ (p : Program ι) (p' : Program ι') v, p.Like I p' →
      Agree (LikeOutcome I) (andThen p v) (andThen' p' v)) :
    Follows S (LikeOutcome I) (p.evaluate commands e andThen)
      (p'.evaluate commands' e andThen') := by
  have steps : Follows S (Progress.Like I)
      (resume ⟨commands, p.vars⟩ (p.evaluation.getD .fresh) e)
      (resume ⟨commands', p'.vars⟩ (p'.evaluation.getD .fresh) e) := by
    intro s s' progress t signals hs given
    rw [h.vars] at given
    exact resume_like alike given h.evaluation hs
  have taken : Program.Like I { p with evaluation := none } { p' with evaluation := none } :=
    { h with begun := rfl, evaluation := .fresh }
  refine steps.bind fun progress progress' hprogress => ?_
  cases hprogress with
  | complete v => exact .ofAction (hthen _ _ v taken)
  | suspended hrest => exact .pure ⟨{ h with begun := rfl, evaluation := hrest }, rfl⟩
  | failed fault hrest => exact .pure ⟨taken, rfl⟩

theorem follows_execute (alike : Commands.Like I S commands commands') (h : p.Like I p')
    (s : Statement) :
    Follows S (LikeOutcome I) (p.execute commands s) (p'.execute commands' s) := by
  unfold execute
  cases s.kind with
  | blockEnd => exact .ofAction (agree_close h)
  | assignment name e =>
    refine follows_evaluate alike h e fun p p' v h => .pure ⟨?_, rfl⟩
    exact { h with
      vars := congrArg (Variables.set · name v) h.vars
      counter := congrArg (· + 1) h.counter }
  | expression e =>
    refine follows_evaluate alike h e fun p p' v h => .pure ⟨?_, rfl⟩
    exact { h with counter := congrArg (· + 1) h.counter }
  | header block e =>
    exact follows_evaluate alike h e fun p p' v h => agree_enter h block v

/-- **Related programs go through related cycles**, with the same results and the same signals. -/
theorem follows_cycle (alike : Commands.Like I S commands commands') (h : p.Like I p') :
    Follows S (LikeOutcome I) (p.cycle commands) (p'.cycle commands') := by
  unfold cycle
  rw [h.status, current_of_like h]
  cases p'.status with
  | done => exact .pure ⟨h, rfl⟩
  | failed error => exact .pure ⟨h, rfl⟩
  | running =>
    cases p'.current? with
    | none => exact .ofAction (agree_advance h)
    | some s =>
      refine (Follows.ofAction (agree_announce h s)).bind fun _ _ _ =>
        (follows_execute alike h s).bind fun result result' hresult => ?_
      obtain ⟨p, result⟩ := result
      obtain ⟨p', result'⟩ := result'
      obtain ⟨like, same⟩ := hresult
      cases same
      cases result with
      | ok => exact .ofAction (agree_advance like)
      | error fault => exact .ofAction (agree_fail like fault)

end Program

end StepScript
