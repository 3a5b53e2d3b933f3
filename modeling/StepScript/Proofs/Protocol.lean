import StepScript.Proofs.Conduct

/-!
# The protocol between programs and commands

In a run, direct evaluation of one statement's expression follows that of another, with cycles in
between that address no one.  So the diary of a run is lawful, and what becomes of every request can
be told from the state of the program.

## Main definitions

* `Written` — diaries that direct evaluation writes, statement by statement.
* `Account` — what is known of such a diary.
* `Protocol` — the protocol, clause by clause.

## Main results

* `Written.account` — the diary of direct evaluation is lawful.
* `Program.Records.kept` — the diary of a run is that of direct evaluation.
-/

namespace StepScript

variable {ι ω : Type}

/-! ### Diaries of direct evaluation -/

/-- How an evaluation ended, without its value. -/
def Ending.void {ε α : Type} : Ending ε α → Ending ε Unit
  | value _ => .value ()
  | fault error => .fault error
  | waiting => .waiting

theorem Ending.Leaves.void {α : Type} {ending : Ending Fault α} {floor : Floor ι}
    (h : ending.Leaves floor) : ending.void.Leaves floor := by
  cases ending <;> exact h

theorem Unanswered.void {α : Type} {commands : Commands ι ω} {past rest : List (Entry ι ω)}
    {source : String} {host : ω} {ending : Ending Fault α}
    (h : Unanswered commands past source host rest ending) :
    Unanswered commands past source host rest ending.void := by
  cases ending <;> exact h

/-- Diaries that direct evaluation of the expressions of a script writes, with all calls and with how
the last evaluation ended. -/
inductive Written (commands : Commands ι ω) (script : Script) :
    List (Entry ι ω) → List (String × List Value) → Ending Fault Unit → Prop
  /-- Nothing has been evaluated. -/
  | nil : Written commands script [] [] (.value ())
  /-- A cycle in which nothing is evaluated. -/
  | idle {diary : List (Entry ι ω)} {calls : List (String × List Value)} {ending : Ending Fault Unit}
    (before : Written commands script diary calls ending) (hending : ending ≠ .waiting)
    (vars : Variables) (host : ω) : Written commands script (diary ++ [.cycle vars host]) calls ending
  /-- The expression of a statement is evaluated, begun in one cycle and gone on with in others. -/
  | evaluated {diary : List (Entry ι ω)} {calls : List (String × List Value)}
    (before : Written commands script diary calls (.value ())) {s : Statement} {e : Expr}
    (hs : s ∈ script.statements) (he : s.kind.value? = some e) {visit : Visit ω}
    {visits : List (Visit ω)} (sounds : ∀ v ∈ visit :: visits, v.store.cache.Sound)
    {r : Report (Recorder ι ω) Fault Value}
    (h : generate commands.recorded .yield e
      ⟨visit.vars, visit.enter diary, visits.map Visit.marked⟩ = some r) :
    Written commands script r.session.diary (calls ++ callsIn r.marks) r.ending.void

/-- What is known of the diary of direct evaluation. -/
structure Account (commands : Commands ι ω) (diary : List (Entry ι ω))
    (calls : List (String × List Value)) (ending : Ending Fault Unit) : Prop where
  lawful : Lawful commands diary
  floor : ending.Leaves (floorAfter diary)
  calls : creations diary = calls
  /-- The requests that have no answer are accounted for by the last evaluation. -/
  requests : ∀ past id before source after host later,
    diary = past ++ .stepped id before (.ok (.request source)) after host :: later →
    Untouched id later → ∃ rest idle, later = rest ++ idle ∧ (∀ entry ∈ idle, entry.id? = none) ∧
      (ending = .waiting → idle = []) ∧ Unanswered commands past source host rest ending

namespace Account

variable {commands : Commands ι ω} {diary : List (Entry ι ω)} {calls : List (String × List Value)}
  {ending : Ending Fault Unit}

theorem nil : Account commands [] [] (.value ()) where
  lawful := .nil
  floor := rfl
  calls := rfl
  requests past _ _ _ _ _ _ h := by cases past <;> cases h

theorem floor_eq_free (account : Account commands diary calls ending) (h : ending ≠ .waiting) :
    floorAfter diary = .free := by
  have hfloor := account.floor
  cases ending with
  | waiting => exact (h rfl).elim
  | value | fault => exact hfloor

theorem admits_cycle (account : Account commands diary calls ending) (h : ending ≠ .waiting)
    (vars : Variables) (host : ω) : Admits commands diary (.cycle vars host) := by
  refine .cycle vars host fun id command hturn => ?_
  rw [account.floor_eq_free h] at hturn
  cases hturn

theorem idle (account : Account commands diary calls ending) (h : ending ≠ .waiting)
    (vars : Variables) (host : ω) :
    Account commands (diary ++ [.cycle vars host]) calls ending where
  lawful := account.lawful.concat (account.admits_cycle h vars host)
  floor := by
    have hfloor := account.floor
    rw [account.floor_eq_free h] at hfloor
    rw [floorAfter_concat, account.floor_eq_free h]
    exact hfloor
  calls := by
    rw [creations_append, account.calls]
    exact List.append_nil _
  requests := by
    intro past id before source after host' later hdiary untouched
    rcases List.eq_nil_or_concat later with rfl | ⟨later, last, rfl⟩
    · -- The last entry is no request.
      have hlast := (List.append_inj_right' hdiary rfl)
      cases hlast
    · have hsplit : past ++ .stepped id before (.ok (.request source)) after host' ::
          (later ++ [last]) =
          (past ++ .stepped id before (.ok (.request source)) after host' :: later) ++ [last] := by
        simp
      rw [List.concat_eq_append] at hdiary untouched ⊢
      rw [hsplit] at hdiary
      obtain ⟨hpast, hlast⟩ := List.append_inj' hdiary rfl
      cases hlast
      obtain ⟨rest, idle, rfl, hidle, -, unanswered⟩ := account.requests past id before source after
        host' later hpast (untouched_append.mp untouched).1
      refine ⟨rest, idle ++ [.cycle vars host], by simp, ?_, fun hwaiting => (h hwaiting).elim,
        unanswered⟩
      refine List.forall_mem_append.mpr ⟨hidle, ?_⟩
      intro y hy
      rw [List.mem_singleton.mp hy]
      rfl

theorem evaluated (account : Account commands diary calls (.value ())) {e : Expr} {visit : Visit ω}
    {visits : List (Visit ω)} (sounds : ∀ v ∈ visit :: visits, v.store.cache.Sound)
    {r : Report (Recorder ι ω) Fault Value}
    (h : generate commands.recorded .yield e
      ⟨visit.vars, visit.enter diary, visits.map Visit.marked⟩ = some r) :
    Account commands r.session.diary (calls ++ callsIn r.marks) r.ending.void := by
  obtain ⟨hvisit, hvisits⟩ := List.forall_mem_cons.mp sounds
  have begun := account.idle (by rintro ⟨⟩) visit.vars visit.store.host
  have sane : Sane commands .free ⟨visit.vars, visit.enter diary, visits.map Visit.marked⟩ :=
    { lawful := begun.lawful
      floor := begun.floor
      sound := hvisit
      vars := varsAt_concat_cycle _ _
      later := ⟨visits, rfl, hvisits⟩ }
  obtain ⟨new, conducts⟩ := conducts_generate sane h
  obtain ⟨floor, hending, passage⟩ := conducts.passage
  have hdiary : r.session.diary = diary ++ [.cycle visit.vars visit.store.host] ++ new :=
    passage.diary
  refine ⟨passage.sane.lawful, ?_, ?_, ?_⟩
  · rw [passage.sane.floor]
    exact hending.void
  · rw [hdiary, creations_append, begun.calls, conducts.calls]
  · intro past id before source after host later hsplit untouched
    rw [hdiary] at hsplit
    rcases List.append_eq_append_iff.mp hsplit with ⟨between, rfl, hlater⟩ | ⟨between, hpast, hlater⟩
    · have unanswered := conducts.settled between id before source after host later hlater untouched
      exact ⟨later, [], (List.append_nil _).symm, List.forall_mem_nil _, fun _ => rfl,
        unanswered.void⟩
    · cases between with
      | nil =>
        have unanswered := conducts.settled [] id before source after host later hlater.symm untouched
        rw [List.append_nil] at hpast
        rw [List.append_nil] at unanswered
        refine ⟨later, [], (List.append_nil _).symm, List.forall_mem_nil _, fun _ => rfl, ?_⟩
        rw [← hpast]
        exact unanswered.void
      | cons y between =>
        -- Before this evaluation no request was left without an answer.
        cases hlater
        obtain ⟨rest, idle, -, -, -, unanswered⟩ := begun.requests past id before source after host
          between hpast (untouched_append.mp untouched).1
        exact unanswered.elim

end Account

/-- **The diary of direct evaluation is lawful**, and all requests are accounted for. -/
theorem Written.account {commands : Commands ι ω} {script : Script} {diary : List (Entry ι ω)}
    {calls : List (String × List Value)} {ending : Ending Fault Unit}
    (written : Written commands script diary calls ending) :
    Account commands diary calls ending := by
  induction written with
  | nil => exact .nil
  | idle before hending vars host ih => exact ih.idle hending vars host
  | evaluated before hs he sounds h ih => exact ih.evaluated sounds h

/-! ### The diary of a run -/

/-- The evaluation of an expression was begun with some variables in some store, and with what the
moments brought since, it is now to be resumed from a certain place. -/
def Underway (commands : Commands ι ω) (e : Expr) (vars : Variables) (s : Store ω)
    (moments : List (Moment ω)) (evaluation : Evaluation ι) (vars' : Variables) (s' : Store ω)
    (marks : List Mark) : Prop :=
  ∀ later, stepAll commands e .fresh vars s (moments ++ later) =
    (stepAll commands e evaluation vars' s' later).map (Report.after marks)

namespace Underway

variable {commands : Commands ι ω} {e : Expr} {vars vars' : Variables} {s s' t : Store ω}
  {moments : List (Moment ω)} {evaluation rest : Evaluation ι} {marks : List Mark}
  {signals : List Signal}

theorem start : Underway commands e vars s [] .fresh vars s [] := by
  intro later
  rw [List.nil_append, Report.after_nil, Option.map_id]
  rfl

/-- What direct evaluation gives in the cycles so far. -/
theorem generate_eq (underway : Underway commands e vars s moments evaluation vars' s' marks)
    {r : Report ω Fault Value} (h : stepAll commands e evaluation vars' s' [] = some r) :
    generate commands .yield e ⟨vars, s, moments⟩ = some (r.after marks) := by
  have hstep := underway []
  rw [List.append_nil, h, stepAll_eq_finishing] at hstep
  exact hstep

/-- A step that suspends the evaluation. -/
theorem suspended (underway : Underway commands e vars s moments evaluation vars' s' marks)
    (h : resume ⟨commands, vars'⟩ evaluation e s' = some ⟨.suspended rest, t, signals⟩)
    (moment : Moment ω) :
    Underway commands e vars s (moments ++ [moment]) rest moment.vars (moment.change t)
      (marks ++ (signals.map .signal ++ [.suspended])) := by
  intro later
  rw [List.append_assoc, underway, List.singleton_append, stepAll_of_suspended_cons _ _ h,
    Option.map_map]
  congr 1
  funext r
  exact Report.after_after _ _ r

end Underway

namespace Program

/-- What a program and the diary of its run have to do with each other. -/
inductive Kept (commands : Commands ι ω) (p : Program (Tagged ι)) (diary : List (Entry ι ω))
    (calls : List (String × List Value)) : Prop
  /-- No evaluation is underway. -/
  | rests (written : Written commands p.script diary calls (.value ()))
    (hevaluation : p.evaluation = none)
  /-- The last evaluation has failed. -/
  | failed {error : ProgramError} (written : Written commands p.script diary calls (.fault error.fault))
    (hstatus : p.status = .failed error)
  /-- An evaluation waits for the next cycle, whatever that may find. -/
  | waits {before : List (Entry ι ω)} {callsBefore : List (String × List Value)} {s : Statement}
    {e : Expr} {visit : Visit ω} {visits : List (Visit ω)} {rest : Evaluation (Tagged ι)}
    {marks : List Mark} (begun : Written commands p.script before callsBefore (.value ()))
    (sounds : ∀ v ∈ visit :: visits, v.store.cache.Sound) (running : p.status = .running)
    (hs : p.current? = some s) (he : s.kind.value? = some e) (hevaluation : p.evaluation = some rest)
    (written : Written commands p.script diary calls .waiting)
    (hcalls : calls = callsBefore ++ callsIn marks)
    (goesOn : ∀ next : Visit ω, Underway commands.recorded e visit.vars (visit.enter before)
      ((visits ++ [next]).map Visit.marked) rest next.vars (next.enter diary) marks)

section

variable {commands : Commands ι ω} {p : Program (Tagged ι)} {diary : List (Entry ι ω)}
  {calls : List (String × List Value)}

theorem mem_of_current {s : Statement} (hs : p.current? = some s) : s ∈ p.script.statements :=
  List.mem_of_getElem? hs

/-- What a step of an evaluation makes of program and diary. -/
theorem kept_of_resume {before : List (Entry ι ω)} {s : Statement} {e : Expr} {visit : Visit ω}
    {visits : List (Visit ω)} {evaluation : Evaluation (Tagged ι)} {vars : Variables}
    {t : Store (Recorder ι ω)} {marks : List Mark}
    {step : Effect (Recorder ι ω) (Progress (Tagged ι))}
    (begun : Written commands p.script before calls (.value ()))
    (sounds : ∀ v ∈ visit :: visits, v.store.cache.Sound) (running : p.status = .running)
    (hs : p.current? = some s) (he : s.kind.value? = some e)
    (underway : Underway commands.recorded e visit.vars (visit.enter before)
      (visits.map Visit.marked) evaluation vars t marks)
    (h : resume ⟨commands.recorded, vars⟩ evaluation e t = some step) :
    Kept commands (p.afterProgress s step.value).1 step.store.host.diary
      (calls ++ (callsIn marks ++ callsOf step.signals)) := by
  have hmem := mem_of_current hs
  obtain ⟨progress, t', signals⟩ := step
  -- the calls of the evaluation so far, and those of this cycle
  have hcalls : callsIn (marks ++ signals.map .signal) = callsIn marks ++ callsOf signals := by
    rw [callsIn_append, callsIn, callsIn, signalsOf_map_signal]
  cases progress with
  | complete v =>
    -- the evaluation is over, and direct evaluation gives the same value
    have hgenerate := underway.generate_eq (stepAll_of_complete [] h)
    have written := begun.evaluated hmem he sounds hgenerate
    rw [Report.after, hcalls] at written
    rw [afterProgress]
    cases hcompleted : completed { p with evaluation := none } s.kind v with
    | ok p' =>
      -- the statement is completed, and the program does not wait
      have moved := moved_of_completed hcompleted
      refine .rests ?_ moved.evaluation_settled
      have hscript : p'.settled.script = p.script := moved.script_settled
      rw [outcome, hscript]
      exact written
    | error fault => exact .rests written rfl
  | failed fault rest =>
    -- the program fails with the fault of the evaluation
    have hgenerate := underway.generate_eq (stepAll_of_failed [] h)
    have written := begun.evaluated hmem he sounds hgenerate
    rw [Report.after, hcalls] at written
    have hfault : fault = (ProgramError.mk p.name s.span fault).fault := rfl
    rw [hfault] at written
    exact .failed written rfl
  | suspended rest =>
    -- the program stays where it is, and the evaluation is under way
    have hgenerate := underway.generate_eq (stepAll_of_suspended_nil h)
    have written := begun.evaluated hmem he sounds hgenerate
    have hmarks : callsIn (marks ++ (signals.map .signal ++ [.suspended])) =
        callsIn marks ++ callsOf signals := by
      rw [← List.append_assoc, callsIn_append, hcalls]
      exact List.append_nil _
    rw [Report.after, hmarks] at written
    have hsettled : settled { p with evaluation := some rest } = { p with evaluation := some rest } :=
      settled_eq_self (counter_lt_of_current hs)
    rw [afterProgress, outcome, hsettled]
    refine .waits begun sounds running hs he rfl written (congrArg (calls ++ ·) hmarks.symm) ?_
    intro next
    rw [List.map_append]
    exact underway.suspended h next.marked

/-- A cycle in which no evaluation is resumed. -/
theorem Kept.idle (kept : Kept commands p diary calls) {commands' : Commands (Tagged ι) (Recorder ι ω)}
    {store : Store (Recorder ι ω)}
    {effect : Effect (Recorder ι ω) (Program (Tagged ι) × Except ProgramError Unit)}
    (hcycle : p.cycle commands' store = some effect)
    (hnone : ∀ s, p.status = .running → p.current? = some s → s.kind.value? = none)
    (vars : Variables) (host : ω) :
    Kept commands effect.value.1 (diary ++ [.cycle vars host]) calls := by
  have hscript := script_of_cycle hcycle
  have changes := changes_of_cycle hcycle
  generalize effect.value = value at changes hscript ⊢
  -- the program either rests, has failed, or waits for an evaluation
  cases kept with
  | rests written hevaluation =>
    refine .rests (hscript ▸ written.idle (by rintro ⟨⟩) vars host) ?_
    cases changes with
    | done | failed | exhausted => exact hevaluation
    | waits running hs he =>
      rw [hnone _ running hs] at he
      cases he
    | fails => rfl
    | completes running hs he hp => exact (moved_of_completed hp).evaluation_settled
    | closes running hs hkind hp => exact (moved_of_closed hp).evaluation_settled.trans hevaluation
  | failed written hstatus =>
    -- a failed program stays as it is
    refine .failed (hscript ▸ written.idle (by rintro ⟨⟩) vars host) ?_
    cases changes with
    | done h => exact hstatus
    | failed h => exact hstatus
    | exhausted running | waits running | fails running | completes running | closes running =>
      rw [hstatus] at running
      cases running
  | waits _ _ running hs he =>
    -- a program that waits does have an evaluation to resume
    rw [hnone _ running hs] at he
    cases he

theorem callsOf_events (signals : List Signal) : callsOf (events signals) = callsOf signals := by
  rw [callsOf, events, List.filterMap_filter, callsOf]
  congr 1
  funext signal
  cases signal <;> rfl

/-- **A cycle goes on with the diary as direct evaluation does.** -/
theorem Kept.cycle {store : Store (Recorder ι ω)} (kept : Kept commands p store.host.diary calls)
    (sound : store.cache.Sound)
    {effect : Effect (Recorder ι ω) (Program (Tagged ι) × Except ProgramError Unit)}
    (hcycle : p.cycle commands.recorded ⟨store.cache, store.host.begin p.vars⟩ = some effect) :
    Kept commands effect.value.1 effect.store.host.diary (calls ++ callsOf effect.signals) := by
  rw [← callsOf_events]
  rcases resume_of_cycle hcycle with
    ⟨hnone, hstore, hlines⟩ | ⟨s, e, step, running, hs, he, hresume, hvalue, hstore, hevents⟩
  · have hcalls : callsOf (events effect.signals) = [] := by
      refine List.filterMap_eq_nil_iff.mpr fun signal hsignal => ?_
      obtain ⟨i, s, rfl⟩ := hlines signal hsignal
      rfl
    rw [hcalls, List.append_nil, hstore]
    exact kept.idle hcycle hnone p.vars store.host.host
  · have hcalls : callsOf (events effect.signals) = callsOf step.signals := by
      rw [hevents, callsOf_append, callsOf_events]
      have hannounced : callsOf (p.announced s) = [] := by
        rw [announced]
        split <;> rfl
      rw [hannounced, List.nil_append]
    rw [hcalls, hvalue, hstore]
    -- What this cycle finds.
    let visit : Visit ω := ⟨p.vars, ⟨store.cache, store.host.host⟩⟩
    have hvisit : visit.store.cache.Sound := sound
    cases kept with
    | rests written hevaluation =>
      rw [hevaluation] at hresume
      have sounds : ∀ v ∈ [visit], v.store.cache.Sound :=
        List.forall_mem_singleton.mpr hvisit
      exact kept_of_resume written sounds running hs he .start hresume
    | failed written hstatus =>
      rw [running] at hstatus
      cases hstatus
    | @waits before callsBefore s' e' first visits rest marks begun sounds _ hs' he' hevaluation
        written hcalls goesOn =>
      rw [hs', Option.some.injEq] at hs
      subst hs
      rw [he', Option.some.injEq] at he
      subst he
      rw [hevaluation] at hresume
      have sounds' : ∀ v ∈ first :: (visits ++ [visit]), v.store.cache.Sound :=
        List.forall_mem_append.mpr ⟨sounds, List.forall_mem_singleton.mpr hvisit⟩
      rw [hcalls, List.append_assoc]
      exact kept_of_resume begun sounds' running hs' he' (goesOn visit) hresume

end

/-- **The diary of a run is that of direct evaluation.** -/
theorem Records.kept {commands : Commands ι ω} {p : Program (Tagged ι)}
    {store : Store (Recorder ι ω)} {signals : List Signal} (h : Records commands p store signals) :
    store.cache.Sound ∧ Kept commands p store.host.diary (callsOf signals) := by
  induction h with
  | start script vars name sound host => exact ⟨sound, .rests .nil rfl⟩
  | cycle before h ih =>
    obtain ⟨sound, kept⟩ := ih
    refine ⟨sound_of_cycle h sound, ?_⟩
    rw [callsOf_append]
    exact kept.cycle sound h
  | write before vars sound host ih =>
    refine ⟨sound, ?_⟩
    cases ih.2 with
    | rests written hevaluation => exact .rests written hevaluation
    | failed written hstatus => exact .failed written hstatus
    | waits begun sounds running hs he hevaluation written hcalls goesOn =>
      exact .waits begun sounds running hs he hevaluation written hcalls goesOn

end Program

/-! ### The protocol -/

/-- The program has failed by a certain fault. -/
def Program.FailedBy (p : Program ι) (fault : Fault) : Prop :=
  ∃ error, p.status = .failed error ∧ error.fault = fault

/-- What follows a request for an expression.  The expression is evaluated from scratch with the
given variables and host, and the instance gets its value as the next message; or the evaluation
fails, and the program with it; or it is not complete yet. -/
def Program.Follows (commands : Commands ι ω) (p : Program (Tagged ι)) (id : Nat) (after : ι)
    (source : String) (e : Expr) (vars : Variables) (host : ω) (later : List (Entry ι ω)) : Prop :=
  (∃ between v after' rest, later = between ++ .supplied id after source v after' :: rest ∧
    Untouched id between ∧ EvaluatesTo commands e vars host (cyclesOf between) (.value v)) ∨
  (∃ rest idle fault, Untouched id later ∧ later = rest ++ idle ∧
    (∀ entry ∈ idle, entry.id? = none) ∧
    EvaluatesTo commands e vars host (cyclesOf rest) (.fault fault) ∧ p.FailedBy fault) ∨
  (Untouched id later ∧ EvaluatesTo commands e vars host (cyclesOf later) .waiting ∧
    p.status = .running ∧ p.isSuspended)

/-- **The protocol between a program and its commands**, as the diary of a run shows it. -/
structure Protocol (commands : Commands ι ω) (p : Program (Tagged ι)) (diary : List (Entry ι ω))
    (calls : List (String × List Value)) : Prop where
  /-- The calls are those of direct evaluation, which makes every call of an expression once. -/
  written : ∃ ending, Written commands p.script diary calls ending
  /-- There is one creation for each call. -/
  creations : creations diary = calls
  /-- The instance is a new one. -/
  created : ∀ past id name values result later,
    diary = past ++ .created id name values result :: later → Untouched id past
  /-- An instance is stepped as the last entry about it has left it, and this entry is no reply that
  asks for something or ends the conversation. -/
  stepped : ∀ past id before reply after host later,
    diary = past ++ .stepped id before reply after host :: later →
    ∃ past' entry between, past = past' ++ entry :: between ∧ entry.keeps? = some (id, before) ∧
      Untouched id between
  /-- A value is handed over only to an instance that has asked for it and has not been addressed
  since, and it is what evaluation from scratch gives. -/
  supplied : ∀ past id before source v after later,
    diary = past ++ .supplied id before source v after :: later →
    ∃ past' first host between e vars,
      past = past' ++ .stepped id first (.ok (.request source)) before host :: between ∧
      Untouched id between ∧ parseExpr source = .ok e ∧ varsAt past' = some vars ∧
      EvaluatesTo commands e vars host (cyclesOf between) (.value v)
  /-- An instance that asks for something that cannot be parsed is not addressed again, and the
  program fails. -/
  unreadable : ∀ past id before source after host later error,
    diary = past ++ .stepped id before (.ok (.request source)) after host :: later →
    parseExpr source = .error error →
    Untouched id later ∧ p.FailedBy (.unreadableRequest source error)
  /-- An instance that asks for an expression gets its value as the next message, unless the
  evaluation fails, and the program with it, or is not complete yet. -/
  requested : ∀ past id before source after host later e,
    diary = past ++ .stepped id before (.ok (.request source)) after host :: later →
    parseExpr source = .ok e → ∃ vars, varsAt past = some vars ∧
      p.Follows commands id after source e vars host later
  /-- An instance that warns is stepped at once. -/
  warned : ∀ past id before message after host later,
    diary = past ++ .stepped id before (.ok (.warning message)) after host :: later →
    ∃ reply after' host' rest, later = .stepped id after reply after' host' :: rest
  /-- After an instance has asked for time there is no message in this cycle, and the first message in
  the next one is a step of the same instance. -/
  suspended : ∀ past id before after host later,
    diary = past ++ .stepped id before (.ok .suspend) after host :: later →
    later = [] ∨ ∃ vars host' reply after' host'' rest,
      later = .cycle vars host' :: .stepped id after reply after' host'' :: rest
  /-- An instance that has finished is not addressed again. -/
  finished : ∀ past id before v after host later,
    diary = past ++ .stepped id before (.ok (.finished v)) after host :: later → Untouched id later
  /-- Nor is one that has failed. -/
  failed : ∀ past id before fault after host later,
    diary = past ++ .stepped id before (.error fault) after host :: later → Untouched id later

namespace Account

variable {commands : Commands ι ω} {diary past later : List (Entry ι ω)}
  {calls : List (String × List Value)} {ending : Ending Fault Unit} {id : Nat} {before after : ι}
  {host : ω} {source : String}

theorem not_turn (account : Account commands diary calls ending) (id : Nat) (command : ι) :
    floorAfter diary ≠ .turn id command := by
  intro h
  have hfloor := account.floor
  rw [h] at hfloor
  cases ending with
  | value | fault => cases hfloor
  | waiting =>
    obtain ⟨_, _, h⟩ := hfloor
    cases h

/-- Where it is an instance's turn, it is stepped. -/
theorem stepped_of_turn (account : Account commands (past ++ later) calls ending)
    (h : floorAfter past = .turn id before) :
    ∃ reply after host rest, later = .stepped id before reply after host :: rest := by
  cases later with
  | nil =>
    rw [List.append_nil] at account
    exact (account.not_turn id before h).elim
  | cons entry later =>
    obtain ⟨reply, after, host, rfl⟩ := account.lawful.stepped_of_turn h
    exact ⟨reply, after, host, later, rfl⟩

theorem suspended (account : Account commands (past ++ later) calls ending)
    (h : floorAfter past = .asleep id before) :
    later = [] ∨ ∃ vars host reply after host' rest,
      later = .cycle vars host :: .stepped id before reply after host' :: rest := by
  cases later with
  | nil => exact .inl rfl
  | cons entry later =>
    obtain ⟨vars, host, rfl⟩ := account.lawful.cycle_of_asleep h
    have hturn : floorAfter (past ++ [.cycle vars host]) = .turn id before := by
      rw [floorAfter_concat, h]
      rfl
    rw [← List.singleton_append, ← List.append_assoc] at account
    obtain ⟨reply, after, host', rest, rfl⟩ := account.stepped_of_turn hturn
    exact .inr ⟨vars, host, reply, after, host', rest, rfl⟩

theorem unreadable (account : Account commands diary calls ending) {error : ParseError}
    (hdiary : diary = past ++ .stepped id before (.ok (.request source)) after host :: later)
    (hparse : parseExpr source = .error error) :
    Untouched id later ∧ ending = .fault (.unreadableRequest source error) := by
  subst hdiary
  have untouched : Untouched id later := by
    by_contra touched
    obtain ⟨between, v, after', rest, e, vars, -, -, hparse', -⟩ :=
      account.lawful.supplied_of_request touched
    rw [hparse] at hparse'
    cases hparse'
  obtain ⟨rest, idle, -, -, -, unanswered⟩ :=
    account.requests past id before source after host later rfl untouched
  refine ⟨untouched, ?_⟩
  cases ending with
  | value => exact unanswered.elim
  | fault fault =>
    rcases unanswered with ⟨error', hparse', rfl, -⟩ | ⟨e, vars, hparse', -⟩
    · rw [hparse] at hparse'
      cases hparse'
      rfl
    · rw [hparse] at hparse'
      cases hparse'
  | waiting =>
    obtain ⟨e, vars, hparse', -⟩ := unanswered
    rw [hparse] at hparse'
    cases hparse'

theorem requested (account : Account commands diary calls ending) {e : Expr}
    (hdiary : diary = past ++ .stepped id before (.ok (.request source)) after host :: later)
    (hparse : parseExpr source = .ok e) :
    ∃ vars, varsAt past = some vars ∧
      ((∃ between v after' rest, later = between ++ .supplied id after source v after' :: rest ∧
        Untouched id between ∧ EvaluatesTo commands e vars host (cyclesOf between) (.value v)) ∨
      (∃ rest idle fault, Untouched id later ∧ later = rest ++ idle ∧
        (∀ entry ∈ idle, entry.id? = none) ∧
        EvaluatesTo commands e vars host (cyclesOf rest) (.fault fault) ∧ ending = .fault fault) ∨
      (Untouched id later ∧ EvaluatesTo commands e vars host (cyclesOf later) .waiting ∧
        ending = .waiting)) := by
  subst hdiary
  -- there is a next message to the instance, or there is none
  by_cases untouched : Untouched id later
  · obtain ⟨rest, idle, rfl, hidle, hwaiting, unanswered⟩ :=
      account.requests past id before source after host later rfl untouched
    -- no answer: the evaluation failed, or it waits
    cases ending with
    | value => exact unanswered.elim
    | fault fault =>
      rcases unanswered with ⟨error, hparse', -⟩ | ⟨e', vars, hparse', hvars, evaluates⟩
      · rw [hparse] at hparse'
        cases hparse'
      · rw [hparse] at hparse'
        cases hparse'
        exact ⟨vars, hvars, .inr (.inl ⟨rest, idle, fault, untouched, rfl, hidle, evaluates, rfl⟩)⟩
    | waiting =>
      obtain ⟨e', vars, hparse', hvars, evaluates⟩ := unanswered
      rw [hparse] at hparse'
      cases hparse'
      rw [hwaiting rfl, List.append_nil] at untouched ⊢
      exact ⟨vars, hvars, .inr (.inr ⟨untouched, evaluates, rfl⟩)⟩
  · -- the next message is the answer, since the diary is lawful
    obtain ⟨between, v, after', rest, e', vars, rfl, untouched', hparse', hvars, evaluates⟩ :=
      account.lawful.supplied_of_request untouched
    rw [hparse] at hparse'
    cases hparse'
    exact ⟨vars, hvars, .inl ⟨between, v, after', rest, rfl, untouched', evaluates⟩⟩

end Account

/-- How the last evaluation ended can be told from the program. -/
theorem Program.Kept.exists_written {commands : Commands ι ω} {p : Program (Tagged ι)}
    {diary : List (Entry ι ω)} {calls : List (String × List Value)}
    (kept : p.Kept commands diary calls) :
    ∃ ending, Written commands p.script diary calls ending ∧
      (∀ fault, ending = .fault fault → p.FailedBy fault) ∧
      (ending = .waiting → p.status = .running ∧ p.isSuspended) := by
  cases kept with
  | rests written hevaluation => exact ⟨_, written, by rintro _ ⟨⟩, by rintro ⟨⟩⟩
  | @failed error written hstatus =>
    refine ⟨_, written, ?_, by rintro ⟨⟩⟩
    rintro fault ⟨⟩
    exact ⟨error, hstatus, rfl⟩
  | waits _ _ running _ _ hevaluation written =>
    refine ⟨_, written, by rintro _ ⟨⟩, fun _ => ⟨running, ?_⟩⟩
    rw [isSuspended, hevaluation]
    rfl

/-- A program whose diary is that of direct evaluation follows the protocol. -/
theorem Program.Kept.protocol {commands : Commands ι ω} {p : Program (Tagged ι)}
    {diary : List (Entry ι ω)} {calls : List (String × List Value)}
    (kept : p.Kept commands diary calls) : Protocol commands p diary calls := by
  obtain ⟨ending, written, hfault, hwaiting⟩ := kept.exists_written
  have account := written.account
  refine
    { written := ⟨ending, written⟩
      creations := account.calls
      created := ?_
      stepped := ?_
      supplied := ?_
      unreadable := ?_
      requested := ?_
      warned := ?_
      suspended := ?_
      finished := ?_
      failed := ?_ }
  · rintro past id name values result later rfl
    cases account.lawful past _ later rfl
    intro entry hentry hid
    exact Nat.lt_irrefl _ (account.lawful.left.id_lt hentry hid)
  · rintro past id before reply after host later rfl
    cases account.lawful past _ later rfl with
    | stepped _ _ _ hfloor => exact exists_keeps_of_floorAfter (.inl hfloor)
  · rintro past id before source v after later rfl
    cases account.lawful past _ later rfl with
    | supplied _ _ hpast untouched hparse hvars evaluates =>
      exact ⟨_, _, _, _, _, _, hpast, untouched, hparse, hvars, evaluates⟩
  · intro past id before source after host later error hdiary hparse
    obtain ⟨untouched, hending⟩ := account.unreadable hdiary hparse
    exact ⟨untouched, hfault _ hending⟩
  · intro past id before source after host later e hdiary hparse
    obtain ⟨vars, hvars, supplied | failed | waits⟩ := account.requested hdiary hparse
    · exact ⟨vars, hvars, .inl supplied⟩
    · obtain ⟨rest, idle, fault, untouched, hlater, hidle, evaluates, hending⟩ := failed
      exact ⟨vars, hvars, .inr (.inl ⟨rest, idle, fault, untouched, hlater, hidle, evaluates,
        hfault fault hending⟩)⟩
    · obtain ⟨untouched, evaluates, hending⟩ := waits
      exact ⟨vars, hvars, .inr (.inr ⟨untouched, evaluates, hwaiting hending⟩)⟩
  · rintro past id before message after host later rfl
    rw [← List.singleton_append, ← List.append_assoc] at account
    refine account.stepped_of_turn ?_
    rw [floorAfter_concat]
    rfl
  · rintro past id before after host later rfl
    rw [← List.singleton_append, ← List.append_assoc] at account
    refine account.suspended ?_
    rw [floorAfter_concat]
    rfl
  · rintro past id before v after host later rfl
    exact account.lawful.untouched_of_ended rfl rfl (by rintro _ _ _ _ _ ⟨⟩)
  · rintro past id before fault after host later rfl
    exact account.lawful.untouched_of_ended rfl rfl (by rintro _ _ _ _ _ ⟨⟩)

/-- **Programs address their commands by the protocol.**  Every run over the commands is one over the
recorded commands, without numbers and diary, and the diary of every such run follows the protocol.
The cycles of a run are those that come to an end. -/
theorem commands_are_addressed_by_protocol (commands : Commands ι ω) :
    (∀ (p : Program ι) (s : Store ω) (signals : List Signal), p.Runs commands s signals ↔
      ∃ q t, Program.Records commands q t signals ∧ q.erase = p ∧ t.erase = s) ∧
    ∀ (q : Program (Tagged ι)) (t : Store (Recorder ι ω)) (signals : List Signal),
      q.Records commands t signals → Protocol commands q t.host.diary (callsOf signals) :=
  ⟨fun _ _ _ => Program.runs_iff_records, fun _ _ _ records => records.kept.2.protocol⟩

/-- The script `ask();`. -/
def askScript : Script :=
  ⟨[⟨.expression (.call "ask" []), default⟩]⟩

/-- What is written in two cycles of `ask();`, if `ask` asks for `hold()` and `hold` asks for time. -/
def askDiary (v : Value) : List (Entry Nat Unit) :=
  [.cycle .initial (), .created 1 "ask" [] (.ok 2), .stepped 1 2 (.ok (.request "hold()")) 2 (),
    .created 3 "hold" [] (.ok 1), .stepped 3 1 (.ok .suspend) 0 (),
    .cycle .initial (), .stepped 3 0 (.ok (.finished v)) 0 (), .supplied 1 2 "hold()" v 0,
    .stepped 1 0 (.ok (.finished v)) 0 ()]

/-- A program for `ask();`. -/
def askProgram : Program (Tagged Nat) :=
  (Program.ofScript askScript .initial).named "asker"

/-- The program after the first cycle, when `hold` has asked for time. -/
def askingProgram : Program (Tagged Nat) :=
  { askProgram with
    evaluation := some (.asking "ask" ⟨1, 2⟩ "hold()" (.call "hold" []) (.calling "hold" ⟨3, 0⟩)) }

theorem exists_records_asking (v : Value) :
    ∃ cache signals, askingProgram.Records (.deferring v) ⟨cache, ⟨(), (askDiary v).take 5⟩⟩
      signals := by
  have start : askProgram.Records (.deferring v) ⟨.empty, ⟨(), []⟩⟩ [] :=
    .start askScript .initial "asker" Cache.sound_empty ()
  have hvalue := Cache.sound_empty.expression_value "hold()"
  rw [parseExpr_hold] at hvalue
  rcases hparse : Cache.empty.expression "hold()" with ⟨error | ⟨serial, request⟩, cache⟩
  · rw [hparse] at hvalue
    cases hvalue
  rw [hparse] at hvalue
  cases hvalue
  have does : Does ⟨(Commands.deferring v).recorded, askProgram.vars⟩
      (.resume .fresh (.call "ask" []))
      ⟨.empty, Recorder.begin ⟨(), []⟩ askProgram.vars⟩
      (.suspended (.asking "ask" ⟨1, 2⟩ "hold()" (.call "hold" []) (.calling "hold" ⟨3, 0⟩)))
      ⟨cache, ⟨(), (askDiary v).take 5⟩⟩ _ :=
    .begin (.called rfl (.requested rfl hparse (.called rfl (.suspended rfl)) .pending))
  have hresume := activity_of_does does
  rw [Task.activity] at hresume
  obtain ⟨signals, hcycle, -⟩ := Program.cycle_of_resume (p := askProgram) rfl rfl rfl hresume
  exact ⟨cache, signals, .cycle start hcycle⟩

theorem exists_records_ask (v : Value) :
    ∃ q cache signals, Program.Records (.deferring v) q ⟨cache, ⟨(), askDiary v⟩⟩ signals ∧
      q.status = .done := by
  obtain ⟨cache, signals, records⟩ := exists_records_asking v
  have does : Does ⟨(Commands.deferring v).recorded, .initial⟩
      (.resume (.asking "ask" ⟨1, 2⟩ "hold()" (.call "hold" []) (.calling "hold" ⟨3, 0⟩))
        (.call "ask" []))
      ⟨cache, Recorder.begin ⟨(), (askDiary v).take 5⟩ .initial⟩ (.complete v)
      ⟨cache, ⟨(), askDiary v⟩⟩ _ :=
    .asking (.calling (.finished rfl)) (.supplied rfl (.finished rfl))
  have hresume := activity_of_does does
  rw [Task.activity] at hresume
  obtain ⟨_, hcycle, -⟩ := Program.cycle_of_resume (p := askingProgram) rfl rfl rfl hresume
  exact ⟨_, cache, _, .cycle records hcycle, rfl⟩

/-- `ask` gets the value of `hold()` in the cycle after the one in which it has asked for it. -/
theorem commands_are_addressed_by_protocol_ask :
    ∃ q t signals, Program.Records (.deferring (.bool true)) q t signals ∧
      t.host.diary = askDiary (.bool true) ∧
      Protocol (.deferring (.bool true)) q (askDiary (.bool true)) (callsOf signals) := by
  obtain ⟨q, cache, signals, records, -⟩ := exists_records_ask (.bool true)
  exact ⟨q, _, signals, records, rfl,
    (commands_are_addressed_by_protocol (.deferring (.bool true))).2 q _ signals records⟩

end StepScript
