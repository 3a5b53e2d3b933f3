import StepScript.Proofs.Requests
import StepScript.Proofs.Resumption

/-!
# Commands with a diary

To speak of all messages that a program sends, its commands are recorded: each instance gets a
number of its own, and the host keeps a diary of every message with the reply to it.  The beginnings
of cycles are entered as well, with what the cycle finds.  Nothing else changes, so that the runs of a
program over the commands are those over the recorded commands, once numbers and diary are taken away
again.

A diary also tells what direct evaluation gives for an expression, begun at some point in it: all
that this depends on is what the cycles have found since.

## Main definitions

* `Entry`, `Recorder` — the diary.
* `Commands.recorded` — commands with a diary, where an instance is `Tagged` with its number.
* `Program.Runs`, `Program.Records` — the runs of a program, and those over recorded commands.
* `EvaluatesTo` — what direct evaluation gives, cycle by cycle.

## Main results

* `Program.runs_iff_records` — the runs are the recorded ones without the diary.
* `evaluatesTo_of_generate` — direct evaluation over recorded commands is that over the commands.
-/

namespace StepScript

variable {ι ω : Type}

/-! ### The diary -/

/-- An instance of a command under a number of its own. -/
structure Tagged (ι : Type) where
  /-- The number. -/
  id : Nat
  /-- The instance. -/
  inner : ι

/-- What a diary holds. -/
inductive Entry (ι ω : Type)
  /-- A cycle begins, and finds these variables and this state of the host. -/
  | cycle (vars : Variables) (host : ω)
  /-- A command is called, which gives a new instance or fails. -/
  | created (id : Nat) (name : String) (values : List Value) (result : Except Fault ι)
  /-- An instance is stepped, replies, and is then as given; so is the host. -/
  | stepped (id : Nat) (before : ι) (reply : Except Fault Reply) (after : ι) (host : ω)
  /-- An instance is handed a value, and is then as given. -/
  | supplied (id : Nat) (before : ι) (source : String) (v : Value) (after : ι)

/-- The instance that an entry is about. -/
def Entry.id? : Entry ι ω → Option Nat
  | cycle _ _ => none
  | created id _ _ _ | stepped id _ _ _ _ | supplied id _ _ _ _ => some id

/-- What the beginning of a cycle finds. -/
def Entry.moment? : Entry ι ω → Option (Moment ω)
  | cycle vars host => some ⟨vars, fun _ => ⟨.empty, host⟩⟩
  | _ => none

/-- What the cycles in a diary find. -/
def cyclesOf (diary : List (Entry ι ω)) : List (Moment ω) :=
  diary.filterMap Entry.moment?

/-- The calls in a diary. -/
def creations (diary : List (Entry ι ω)) : List (String × List Value) :=
  diary.filterMap fun
    | .created _ name values _ => some (name, values)
    | _ => none

/-- The calls among some signals. -/
def callsOf (signals : List Signal) : List (String × List Value) :=
  signals.filterMap fun
    | .entered name values => some (name, values)
    | _ => none

/-- A host that keeps a diary. -/
structure Recorder (ι ω : Type) where
  /-- The state of the host. -/
  host : ω
  /-- All messages so far, and the beginnings of cycles. -/
  diary : List (Entry ι ω)

/-- Commands with a diary.  A new instance gets the next number that the diary has. -/
def Commands.recorded (commands : Commands ι ω) : Commands (Tagged ι) (Recorder ι ω) where
  create name values r :=
    let turn := commands.create name values r.host
    let entry := .created r.diary.length name values turn.value
    ⟨turn.value.map (Tagged.mk r.diary.length), ⟨turn.host, r.diary ++ [entry]⟩, turn.notes⟩
  next c r :=
    (commands.next c.inner r.host).map fun turn =>
      let entry := .stepped c.id c.inner turn.value.1 turn.value.2 turn.host
      ⟨(turn.value.1, ⟨c.id, turn.value.2⟩), ⟨turn.host, r.diary ++ [entry]⟩, turn.notes⟩
  supply c source v r :=
    let turn := commands.supply c.inner source v r.host
    let entry := .supplied c.id c.inner source v turn.value
    ⟨⟨c.id, turn.value⟩, ⟨turn.host, r.diary ++ [entry]⟩, turn.notes⟩

section

variable {commands : Commands ι ω} {r r' : Recorder ι ω} {notes : List Note}

theorem Commands.create_of_recorded {name : String} {values : List Value}
    {created : Except Fault (Tagged ι)}
    (h : commands.recorded.create name values r = ⟨created, r', notes⟩) :
    ∃ result, commands.create name values r.host = ⟨result, r'.host, notes⟩ ∧
      created = result.map (Tagged.mk r.diary.length) ∧
      r'.diary = r.diary ++ [.created r.diary.length name values result] := by
  cases h
  exact ⟨_, rfl, rfl, rfl⟩

theorem Commands.next_of_recorded {c rest : Tagged ι} {reply : Except Fault Reply}
    (h : commands.recorded.next c r = some ⟨(reply, rest), r', notes⟩) :
    commands.next c.inner r.host = some ⟨(reply, rest.inner), r'.host, notes⟩ ∧ rest.id = c.id ∧
      r'.diary = r.diary ++ [.stepped c.id c.inner reply rest.inner r'.host] := by
  obtain ⟨⟨value, host, notes'⟩, hnext, hturn⟩ := Option.map_eq_some_iff.mp h
  cases hturn
  exact ⟨hnext, rfl, rfl⟩

theorem Commands.supply_of_recorded {c rest : Tagged ι} {source : String} {v : Value}
    (h : commands.recorded.supply c source v r = ⟨rest, r', notes⟩) :
    commands.supply c.inner source v r.host = ⟨rest.inner, r'.host, notes⟩ ∧ rest.id = c.id ∧
      r'.diary = r.diary ++ [.supplied c.id c.inner source v rest.inner] := by
  cases h
  exact ⟨rfl, rfl, rfl⟩

end

/-! ### Without the diary -/

/-- The evaluation without numbers. -/
def Evaluation.erase : Evaluation (Tagged ι) → Evaluation ι
  | fresh => fresh
  | operand known inner => operand known inner.erase
  | calling name command => calling name command.inner
  | asking name command source request inner =>
    asking name command.inner source request inner.erase

/-- The program without numbers. -/
def Program.erase (p : Program (Tagged ι)) : Program ι :=
  { p with evaluation := p.evaluation.map Evaluation.erase }

/-- The store without the diary. -/
def Store.erase (s : Store (Recorder ι ω)) : Store ω :=
  ⟨s.cache, s.host.host⟩

/-- An instance and the same under a number. -/
def Tagged.Is (c : Tagged ι) (command : ι) : Prop :=
  c.inner = command

theorem Evaluation.like_iff_erase {evaluation : Evaluation (Tagged ι)} {evaluation' : Evaluation ι} :
    evaluation.Like Tagged.Is evaluation' ↔ evaluation.erase = evaluation' := by
  constructor
  · intro h
    induction h with
    | fresh => rfl
    | operand known h ih => rw [erase, ih]
    | calling name h => rw [erase, h]
    | asking name source request h hx ih => rw [erase, h, ih]
  · rintro rfl
    induction evaluation with
    | fresh => exact .fresh
    | operand known inner ih => exact .operand known ih
    | calling name command => exact .calling name rfl
    | asking name command source request inner ih => exact .asking name source request rfl ih

theorem Evaluation.Like.symm {ι' : Type} {I : ι → ι' → Prop} {evaluation : Evaluation ι}
    {evaluation' : Evaluation ι'} (h : evaluation.Like I evaluation') :
    evaluation'.Like (flip I) evaluation := by
  induction h with
  | fresh => exact .fresh
  | operand known h ih => exact .operand known ih
  | calling name h => exact .calling name h
  | asking name source request h hx ih => exact .asking name source request h ih

theorem Program.Like.symm {ι' : Type} {I : ι → ι' → Prop} {p : Program ι} {p' : Program ι'}
    (h : p.Like I p') : p'.Like (flip I) p :=
  ⟨h.name.symm, h.script.symm, h.vars.symm, h.stack.symm, h.counter.symm, h.status.symm,
    h.begun.symm, h.evaluation.symm⟩

theorem Program.like_erase (p : Program (Tagged ι)) : p.Like Tagged.Is p.erase where
  name := rfl
  script := rfl
  vars := rfl
  stack := rfl
  counter := rfl
  status := rfl
  begun := Option.isSome_map.symm
  evaluation := by
    rw [Evaluation.like_iff_erase, erase]
    cases p.evaluation <;> rfl

theorem Program.Like.erase_eq {p : Program (Tagged ι)} {p' : Program ι} (h : p.Like Tagged.Is p') :
    p.erase = p' := by
  apply Program.Like.eq
  refine ⟨h.name, h.script, h.vars, h.stack, h.counter, h.status, ?_, ?_⟩
  · exact (p.like_erase).begun.symm.trans h.begun
  · rw [← Evaluation.like_iff_erase.mp p.like_erase.evaluation,
      Evaluation.like_iff_erase.mp h.evaluation]
    exact .refl _

/-! ### Recorded commands are like the commands -/

section

variable (commands : Commands ι ω)

/-- Recorded commands are like the commands, over any caches that give the same expressions. -/
theorem Commands.recorded_like {C : Cache → Cache → Prop}
    (agree : ∀ {c c'}, C c c' → ∀ source {found cache}, c.expression source = (found, cache) →
      ∃ found' cache', c'.expression source = (found', cache') ∧
        LikeResult (fun request request' : Shared Expr => request.value = request'.value)
          found found' ∧ C cache cache') :
    Commands.Like Tagged.Is (fun s s' => C s.cache s'.cache ∧ s.host.host = s'.host)
      commands.recorded commands where
  create := by
    rintro ⟨cache, r⟩ ⟨cache', _⟩ ⟨hcache, rfl⟩ name values created host notes h
    obtain ⟨result, hcreate, rfl, -⟩ := Commands.create_of_recorded h
    refine ⟨result, host.host, hcreate, ?_, hcache, rfl⟩
    cases result with
    | ok command => exact .ok rfl
    | error fault => exact .error fault
  next := by
    rintro ⟨cache, r⟩ ⟨cache', _⟩ ⟨hcache, rfl⟩ c _ rfl reply rest host notes h
    obtain ⟨hnext, -, -⟩ := Commands.next_of_recorded h
    exact ⟨rest.inner, host.host, hnext, rfl, hcache, rfl⟩
  supply := by
    rintro ⟨cache, r⟩ ⟨cache', _⟩ ⟨hcache, rfl⟩ c _ rfl source v rest host notes h
    obtain ⟨hsupply, -, -⟩ := Commands.supply_of_recorded h
    exact ⟨rest.inner, host.host, hsupply, rfl, hcache, rfl⟩
  expression := by
    rintro s s' ⟨hcache, hhost⟩ source found cache h
    obtain ⟨found', cache', h', hfound, hcache'⟩ := agree hcache source h
    exact ⟨found', cache', h', hfound, hcache', hhost⟩

theorem Commands.recorded_like_of_eq :
    Commands.Like Tagged.Is (fun s s' => s.cache = s'.cache ∧ s.host.host = s'.host)
      commands.recorded commands := by
  refine commands.recorded_like ?_
  rintro c _ rfl source found cache h
  exact ⟨found, cache, h, likeResult_of_map_eq rfl, rfl⟩

theorem Commands.recorded_like_of_sound :
    Commands.Like Tagged.Is
      (fun s s' => (s.cache.Sound ∧ s'.cache.Sound) ∧ s.host.host = s'.host)
      commands.recorded commands := by
  refine commands.recorded_like (C := fun c c' => c.Sound ∧ c'.Sound) ?_
  rintro c c' ⟨sound, sound'⟩ source found cache h
  exact sound.like_expression sound' h

/-- The commands are like the recorded ones. -/
theorem Commands.like_recorded :
    Commands.Like (flip Tagged.Is) (fun s s' => s.cache = s'.cache ∧ s.host = s'.host.host)
      commands commands.recorded where
  create := by
    rintro ⟨cache, _⟩ ⟨_, host₀, diary⟩ ⟨rfl, rfl⟩ name values created host notes h
    refine ⟨created.map (Tagged.mk diary.length),
      ⟨host, diary ++ [.created diary.length name values created]⟩, ?_, ?_, rfl, rfl⟩
    · simp only [recorded, h]
    · cases created with
      | ok command => exact .ok rfl
      | error fault => exact .error fault
  next := by
    rintro ⟨cache, _⟩ ⟨_, host₀, diary⟩ ⟨rfl, rfl⟩ _ c rfl reply rest host notes h
    refine ⟨⟨c.id, rest⟩, ⟨host, diary ++ [.stepped c.id c.inner reply rest host]⟩, ?_, rfl, rfl,
      rfl⟩
    simp only [recorded, h, Option.map_some]
  supply := by
    rintro ⟨cache, _⟩ ⟨_, host₀, diary⟩ ⟨rfl, rfl⟩ _ c rfl source v rest host notes h
    refine ⟨⟨c.id, rest⟩, ⟨host, diary ++ [.supplied c.id c.inner source v rest]⟩, ?_, rfl, rfl,
      rfl⟩
    simp only [recorded, h]
  expression := by
    rintro ⟨_, _⟩ ⟨cache₀, host₀, diary⟩ ⟨rfl, rfl⟩ source found cache h
    exact ⟨found, cache, h, likeResult_of_map_eq rfl, rfl, rfl⟩

end

/-! ### Runs -/

/-- The host when a cycle begins. -/
def Recorder.begin (r : Recorder ι ω) (vars : Variables) : Recorder ι ω :=
  ⟨r.host, r.diary ++ [.cycle vars r.host]⟩

namespace Program

/-- The runs of a program, with all signals that it has sent.  Between two cycles the host may write
any variables and do anything to the store, as long as the cache holds what the parser gives. -/
inductive Runs (commands : Commands ι ω) : Program ι → Store ω → List Signal → Prop
  /-- A new program, under any name. -/
  | start (script : Script) (vars : Variables) (name : String) {store : Store ω}
    (sound : store.cache.Sound) : Runs commands ((ofScript script vars).named name) store []
  /-- After a cycle. -/
  | cycle {p : Program ι} {store : Store ω} {signals : List Signal}
    {effect : Effect ω (Program ι × Except ProgramError Unit)}
    (before : Runs commands p store signals) (h : p.cycle commands store = some effect) :
    Runs commands effect.value.1 effect.store (signals ++ effect.signals)
  /-- After the host has written. -/
  | write {p : Program ι} {store : Store ω} {signals : List Signal}
    (before : Runs commands p store signals) (vars : Variables) {store' : Store ω}
    (sound : store'.cache.Sound) : Runs commands { p with vars } store' signals

/-- The same over recorded commands, where the diary is the host's own: it begins empty, and no one
else writes in it. -/
inductive Records (commands : Commands ι ω) :
    Program (Tagged ι) → Store (Recorder ι ω) → List Signal → Prop
  /-- A new program, under any name. -/
  | start (script : Script) (vars : Variables) (name : String) {cache : Cache} (sound : cache.Sound)
    (host : ω) : Records commands ((ofScript script vars).named name) ⟨cache, ⟨host, []⟩⟩ []
  /-- After a cycle, the beginning of which is entered. -/
  | cycle {p : Program (Tagged ι)} {store : Store (Recorder ι ω)} {signals : List Signal}
    {effect : Effect (Recorder ι ω) (Program (Tagged ι) × Except ProgramError Unit)}
    (before : Records commands p store signals)
    (h : p.cycle commands.recorded ⟨store.cache, store.host.begin p.vars⟩ = some effect) :
    Records commands effect.value.1 effect.store (signals ++ effect.signals)
  /-- After the host has written. -/
  | write {p : Program (Tagged ι)} {store : Store (Recorder ι ω)} {signals : List Signal}
    (before : Records commands p store signals) (vars : Variables) {cache : Cache}
    (sound : cache.Sound) (host : ω) :
    Records commands { p with vars } ⟨cache, ⟨host, store.host.diary⟩⟩ signals

variable {commands : Commands ι ω}

theorem Records.runs {q : Program (Tagged ι)} {t : Store (Recorder ι ω)} {signals : List Signal}
    (h : Records commands q t signals) : Runs commands q.erase t.erase signals := by
  induction h with
  | start script vars name sound host => exact .start script vars name sound
  | @cycle p store signals effect before h ih =>
    have follows := follows_cycle commands.recorded_like_of_eq p.like_erase
    obtain ⟨outcome, s, hcycle, ⟨hlike, -⟩, hcache, hhost⟩ :=
      follows ⟨store.cache, store.host.begin p.vars⟩ store.erase _ _ _ ⟨rfl, rfl⟩ h
    have hstore : Store.erase _ = s := congrArg₂ Store.mk hcache hhost
    rw [hlike.erase_eq, hstore]
    exact .cycle ih hcycle
  | write before vars sound host ih => exact .write ih vars sound

theorem Runs.exists_records {p : Program ι} {s : Store ω} {signals : List Signal}
    (h : Runs commands p s signals) :
    ∃ q t, Records commands q t signals ∧ q.erase = p ∧ t.erase = s := by
  induction h with
  | start script vars name sound => exact ⟨_, _, .start script vars name sound _, rfl, rfl⟩
  | cycle before h ih =>
    obtain ⟨q, t, records, rfl, rfl⟩ := ih
    have follows := follows_cycle commands.like_recorded q.like_erase.symm
    obtain ⟨outcome, u, hcycle, ⟨hlike, -⟩, hcache, hhost⟩ :=
      follows _ ⟨t.cache, t.host.begin q.vars⟩ _ _ _ ⟨rfl, rfl⟩ h
    exact ⟨outcome.1, u, .cycle records hcycle, hlike.symm.erase_eq,
      congrArg₂ Store.mk hcache.symm hhost.symm⟩
  | write before vars sound ih =>
    obtain ⟨q, t, records, rfl, rfl⟩ := ih
    exact ⟨_, _, .write records vars sound _, rfl, rfl⟩

/-- **The runs over the commands are those over the recorded commands**, without numbers and
diary. -/
theorem runs_iff_records {p : Program ι} {s : Store ω} {signals : List Signal} :
    Runs commands p s signals ↔
      ∃ q t, Records commands q t signals ∧ q.erase = p ∧ t.erase = s := by
  refine ⟨Runs.exists_records, ?_⟩
  rintro ⟨q, t, records, rfl, rfl⟩
  exact records.runs

end Program

/-! ### Direct evaluation -/

/-- What a cycle finds. -/
structure Visit (ω : Type) where
  /-- The variables. -/
  vars : Variables
  /-- The store. -/
  store : Store ω

/-- What the cycle finds over recorded commands, where it is entered in the diary. -/
def Visit.enter (visit : Visit ω) (diary : List (Entry ι ω)) : Store (Recorder ι ω) :=
  ⟨visit.store.cache, Recorder.begin ⟨visit.store.host, diary⟩ visit.vars⟩

/-- The cycle over recorded commands. -/
def Visit.marked (visit : Visit ω) : Moment (Recorder ι ω) :=
  ⟨visit.vars, fun s => visit.enter s.host.diary⟩

/-- The cycle over the commands, with an empty cache. -/
def Visit.bare (visit : Visit ω) : Moment ω :=
  ⟨visit.vars, fun _ => ⟨.empty, visit.store.host⟩⟩

/-- **Direct evaluation from scratch**: begun with these variables, this state of the host and an
empty cache, and gone on with in the given cycles, the evaluation of the expression ends in this way,
and not before the last of the cycles. -/
def EvaluatesTo (commands : Commands ι ω) (e : Expr) (vars : Variables) (host : ω)
    (cycles : List (Moment ω)) (ending : Ending Fault Value) : Prop :=
  ∃ session marks, generate commands .yield e ⟨vars, ⟨.empty, host⟩, cycles⟩ =
    some ⟨ending, session, marks⟩ ∧ session.later = []

section

variable {commands : Commands ι ω} {e : Expr} {vars : Variables} {visits : List (Visit ω)}
  {s : Store (Recorder ι ω)} {r : Report (Recorder ι ω) Fault Value}

/-- Whatever is done over recorded commands is done over the commands, in the same cycles. -/
theorem exists_stepAll_of_recorded {evaluation : Evaluation (Tagged ι)} {s' : Store ω}
    (sounds : ∀ visit ∈ visits, visit.store.cache.Sound)
    (sound : s.cache.Sound ∧ s'.cache.Sound) (hhost : s.host.host = s'.host)
    (h : stepAll commands.recorded e evaluation vars s (visits.map Visit.marked) = some r) :
    ∃ used left, visits = used ++ left ∧ r.session.later = left.map Visit.marked ∧
      ∃ session marks, stepAll commands e evaluation.erase vars s' (used.map Visit.bare) =
        some ⟨r.ending, session, marks⟩ ∧ session.later = [] := by
  -- Induction on the later cycles.  In each the two evaluations are alike, up to the tags.
  induction visits generalizing evaluation vars s s' r with
  | nil =>
    obtain ⟨progress, t, signals, hresume⟩ := exists_resume_of_stepAll h
    obtain ⟨progress', t', hresume', hprogress, -⟩ :=
      resume_like commands.recorded_like_of_sound hresume (Evaluation.like_iff_erase.mpr rfl)
        ⟨sound, hhost⟩
    refine ⟨[], [], rfl, ?_⟩
    cases hprogress with
    | complete v =>
      -- there is a result, with no later cycle used
      rw [List.map_nil, stepAll_of_complete _ hresume] at h
      cases h
      exact ⟨rfl, _, _, stepAll_of_complete _ hresume', rfl⟩
    | failed fault hrest =>
      rw [List.map_nil, stepAll_of_failed _ hresume] at h
      cases h
      exact ⟨rfl, _, _, stepAll_of_failed _ hresume', rfl⟩
    | suspended hrest =>
      rw [List.map_nil, stepAll_of_suspended_nil hresume] at h
      cases h
      exact ⟨rfl, _, _, stepAll_of_suspended_nil hresume', rfl⟩
  | cons visit visits ih =>
    obtain ⟨progress, t, signals, hresume⟩ := exists_resume_of_stepAll h
    obtain ⟨progress', t', hresume', hprogress, -⟩ :=
      resume_like commands.recorded_like_of_sound hresume (Evaluation.like_iff_erase.mpr rfl)
        ⟨sound, hhost⟩
    cases hprogress with
    | complete v =>
      -- the result comes early, and the later cycles are left over
      rw [stepAll_of_complete _ hresume] at h
      cases h
      exact ⟨[], visit :: visits, rfl, rfl, _, _, stepAll_of_complete _ hresume', rfl⟩
    | failed fault hrest =>
      rw [stepAll_of_failed _ hresume] at h
      cases h
      exact ⟨[], visit :: visits, rfl, rfl, _, _, stepAll_of_failed _ hresume', rfl⟩
    | suspended hrest =>
      -- one later cycle is used, and its cache may be an empty one: both are sound
      rw [List.map_cons, stepAll_of_suspended_cons _ _ hresume] at h
      obtain ⟨r, hr, rfl⟩ := Option.map_eq_some_iff.mp h
      obtain ⟨hvisit, hvisits⟩ := List.forall_mem_cons.mp sounds
      have hbare : (visit.bare.change t').cache.Sound := Cache.sound_empty
      obtain ⟨used, left, rfl, hleft, session, marks, hstep, hsession⟩ :=
        ih hvisits ⟨hvisit, hbare⟩ rfl hr
      refine ⟨visit :: used, left, rfl, hleft, session,
        signals.map .signal ++ [.suspended] ++ marks, ?_, hsession⟩
      rw [List.map_cons, stepAll_of_suspended_cons _ _ hresume',
        ← Evaluation.like_iff_erase.mp hrest]
      exact Option.map_eq_some_iff.mpr ⟨_, hstep, rfl⟩

/-- **Direct evaluation over recorded commands is that over the commands**, from scratch and in as
many cycles as were needed. -/
theorem evaluatesTo_of_generate (sounds : ∀ visit ∈ visits, visit.store.cache.Sound)
    (sound : s.cache.Sound)
    (h : generate commands.recorded .yield e ⟨vars, s, visits.map Visit.marked⟩ = some r) :
    ∃ used left, visits = used ++ left ∧ r.session.later = left.map Visit.marked ∧
      EvaluatesTo commands e vars s.host.host (used.map Visit.bare) r.ending := by
  have hstep : stepAll commands.recorded e .fresh vars s (visits.map Visit.marked) = some r :=
    (stepAll_eq_finishing _ e .fresh vars s _).trans h
  have hbare : (Store.mk .empty s.host.host).cache.Sound := Cache.sound_empty
  obtain ⟨used, left, hvisits, hleft, session, marks, hstep', hsession⟩ :=
    exists_stepAll_of_recorded sounds ⟨sound, hbare⟩ rfl hstep
  refine ⟨used, left, hvisits, hleft, session, marks, ?_, hsession⟩
  exact (stepAll_eq_finishing commands e .fresh vars _ _).symm.trans hstep'

end

end StepScript
