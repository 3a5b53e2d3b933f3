import StepScript.Proofs.Turns

/-!
# How direct evaluation conducts its conversations

Direct evaluation over recorded commands is plain recursion, so that its diary can be followed from
call to call.  It keeps the diary lawful, and it leaves no request without an answer, unless it fails
by it or waits for it.

## Main definitions

* `Sane`, `Passage` — sessions with a lawful diary, and the way from one to another.
* `Unanswered` — what is known of a request that has no answer.
* `Conducts` — what direct evaluation does to a diary.

## Main results

* `conducts_request` — how a request is answered.
* `conducts_generate` — direct evaluation keeps a diary lawful, and all requests are accounted for.
-/

namespace StepScript

variable {ι ω : Type}

/-! ### Direct evaluation by its equations -/

section

variable {commands : Commands ι ω} {talk : Talk ι ω} {pause : Generator ω Fault Unit}
  {s : Session ω} {name source : String} {command : ι} {host : ω} {notes : List Note}

theorem summon_apply {values : List Value} {created : Except Fault ι}
    (h : commands.create name values s.store.host = ⟨created, host, notes⟩) :
    summon commands talk name values s =
      ((Generator.ofExcept created >>= talk name) ⟨s.vars, ⟨s.store.cache, host⟩, s.later⟩).map
        (Report.after (.signal (.entered name values) :: (notes.map .note).map .signal)) := by
  have hask := Generator.perform_bind_of_eq (Activity.ask_apply h)
    fun created => Generator.ofExcept created >>= talk name
  refine (Generator.perform_bind_of_eq rfl _).trans ((congrArg (Option.map _) hask).trans ?_)
  rw [Option.map_map]
  rfl

theorem oblige_apply {rest : ι} {v : Value}
    (h : commands.supply command source v s.store.host = ⟨rest, host, notes⟩) :
    oblige commands talk name command source v s =
      (talk name rest ⟨s.vars, ⟨s.store.cache, host⟩, s.later⟩).map
        (Report.after (.signal (.log (supplyRecord name source v)) ::
          (notes.map .note).map .signal)) := by
  have hask := Generator.perform_bind_of_eq (Activity.ask_apply h) (talk name)
  refine (Generator.perform_bind_of_eq rfl _).trans ((congrArg (Option.map _) hask).trans ?_)
  rw [Option.map_map]
  rfl

theorem respond_request_of_error {error : ParseError} {cache : Cache}
    (h : s.store.cache.expression source = (.error error, cache)) :
    respond commands pause talk name (.ok (.request source), command) s =
      some ⟨.fault (.unreadableRequest source error), ⟨s.vars, ⟨cache, s.store.host⟩, s.later⟩,
        []⟩ :=
  Generator.perform_bind_of_eq (Activity.expression_apply h) _

theorem respond_request_of_ok {request : Shared Expr} {cache : Cache}
    (h : s.store.cache.expression source = (.ok request, cache)) :
    respond commands pause talk name (.ok (.request source), command) s =
      (evaluate commands talk request.value >>= oblige commands talk name command source)
        ⟨s.vars, ⟨cache, s.store.host⟩, s.later⟩ :=
  (Generator.perform_bind_of_eq (Activity.expression_apply h) _).trans
    (congrFun Option.map_id _)

end

/-! ### Sessions with a diary -/

/-- Cycles that are entered in the same way find the same. -/
theorem map_bare_of_map_marked (s : Store (Recorder ι ω)) {visits visits' : List (Visit ω)}
    (h : visits.map Visit.marked = visits'.map (Visit.marked : Visit ω → Moment (Recorder ι ω))) :
    visits.map Visit.bare = visits'.map Visit.bare := by
  let strip : Moment (Recorder ι ω) → Moment ω := fun moment =>
    ⟨moment.vars, fun _ => ⟨.empty, (moment.change s).host.host⟩⟩
  have hstrip := congrArg (List.map strip) h
  rw [List.map_map, List.map_map] at hstrip
  exact hstrip

/-- The diary in a session. -/
abbrev Session.diary (s : Session (Recorder ι ω)) : List (Entry ι ω) :=
  s.store.host.diary

/-- A session in which the diary is lawful, with someone to speak next, and in which all later cycles
will be entered. -/
structure Sane (commands : Commands ι ω) (floor : Floor ι) (s : Session (Recorder ι ω)) : Prop where
  lawful : Lawful commands s.diary
  floor : floorAfter s.diary = floor
  sound : s.store.cache.Sound
  vars : varsAt s.diary = some s.vars
  /-- Every later cycle is entered, and finds a sound cache. -/
  later : ∃ visits : List (Visit ω), s.later = visits.map Visit.marked ∧
    ∀ visit ∈ visits, visit.store.cache.Sound

/-- From one session to another, in which some entries have been added, about no other instances than
the given ones. -/
structure Passage (commands : Commands ι ω) (own : Nat → Prop) (s : Session (Recorder ι ω))
    (new : List (Entry ι ω)) (floor : Floor ι) (t : Session (Recorder ι ω)) : Prop where
  sane : Sane commands floor t
  diary : t.diary = s.diary ++ new
  /-- The cycles that were entered are those that the session has turned to. -/
  visits : ∃ used : List (Visit ω), s.later = used.map Visit.marked ++ t.later ∧
    cyclesOf new = used.map Visit.bare
  /-- The instances. -/
  own : ∀ entry ∈ new, ∀ id, entry.id? = some id → own id

namespace Passage

variable {commands : Commands ι ω} {own : Nat → Prop} {s t u : Session (Recorder ι ω)}
  {new new' : List (Entry ι ω)} {floor floor' : Floor ι} {entry : Entry ι ω}

theorem refl (sane : Sane commands floor s) : Passage commands own s [] floor s where
  sane := sane
  diary := (List.append_nil _).symm
  visits := ⟨[], rfl, rfl⟩
  own _ h := nomatch h

theorem trans (first : Passage commands own s new floor t)
    (second : Passage commands own t new' floor' u) :
    Passage commands own s (new ++ new') floor' u where
  sane := second.sane
  diary := by rw [second.diary, first.diary, List.append_assoc]
  visits := by
    obtain ⟨used, hlater, hcycles⟩ := first.visits
    obtain ⟨used', hlater', hcycles'⟩ := second.visits
    refine ⟨used ++ used', ?_, ?_⟩
    · rw [hlater, hlater', List.map_append, List.append_assoc]
    · rw [cyclesOf_append, hcycles, hcycles', List.map_append]
  own := List.forall_mem_append.mpr ⟨first.own, second.own⟩

theorem mono {own' : Nat → Prop} (h : ∀ id, own id → own' id)
    (passage : Passage commands own s new floor t) : Passage commands own' s new floor t :=
  { passage with own := fun entry hentry id hid => h id (passage.own entry hentry id hid) }

theorem length_le (passage : Passage commands own s new floor t) :
    s.diary.length ≤ t.diary.length := by
  rw [passage.diary, List.length_append]
  omega

/-- One message. -/
theorem message (sane : Sane commands floor s) (admits : Admits commands s.diary entry)
    (hcycle : entry.moment? = none) (hown : ∀ id, entry.id? = some id → own id)
    {host : Recorder ι ω} (hdiary : host.diary = s.diary ++ [entry]) :
    Passage commands own s [entry] (floor.after entry)
      ⟨s.vars, ⟨s.store.cache, host⟩, s.later⟩ where
  sane :=
    { lawful := by
        rw [Session.diary, hdiary]
        exact sane.lawful.concat admits
      floor := by rw [Session.diary, hdiary, floorAfter_concat, sane.floor]
      sound := sane.sound
      vars := by
        rw [Session.diary, hdiary, varsAt_append_of_nil (cyclesOf_singleton hcycle)]
        exact sane.vars
      later := sane.later }
  diary := hdiary
  visits := ⟨[], rfl, cyclesOf_singleton hcycle⟩
  own y hy id hid := hown id (List.mem_singleton.mp hy ▸ hid)

/-- An expression is parsed. -/
theorem parse (sane : Sane commands floor s) {cache : Cache} (sound : cache.Sound) :
    Passage commands own s [] floor ⟨s.vars, ⟨cache, s.store.host⟩, s.later⟩ where
  sane := { sane with sound := sound }
  diary := (List.append_nil _).symm
  visits := ⟨[], rfl, rfl⟩
  own _ h := nomatch h

/-- The next cycle begins. -/
theorem visit {moment : Moment (Recorder ι ω)} {later : List (Moment (Recorder ι ω))}
    (sane : Sane commands floor s) (hfloor : ∀ id command, floor ≠ .turn id command)
    (hlater : s.later = moment :: later) :
    ∃ vars host, Passage commands own s [.cycle vars host] (floor.after (.cycle vars host))
      ⟨moment.vars, moment.change s.store, later⟩ := by
  obtain ⟨visits, hvisits, sounds⟩ := sane.later
  rw [hlater] at hvisits
  obtain ⟨visit, visits, rfl, rfl, rfl⟩ := List.map_eq_cons_iff.mp hvisits.symm
  obtain ⟨hvisit, hvisits⟩ := List.forall_mem_cons.mp sounds
  have admits : Admits commands s.diary (.cycle visit.vars visit.store.host) :=
    .cycle _ _ fun id command h => hfloor id command (sane.floor.symm.trans h)
  refine ⟨visit.vars, visit.store.host, ?_, rfl, ⟨[visit], hlater, rfl⟩, ?_⟩
  · exact
      { lawful := sane.lawful.concat admits
        floor := by
          change floorAfter (s.diary ++ [_]) = _
          rw [floorAfter_concat, sane.floor]
        sound := hvisit
        vars := varsAt_concat_cycle _ _
        later := ⟨visits, rfl, hvisits⟩ }
  · intro y hy id hid
    rw [List.mem_singleton.mp hy] at hid
    cases hid

end Passage

/-! ### Accounts -/

/-- Who may be to speak when a computation ends in a certain way. -/
def Ending.Leaves {α : Type} : Ending Fault α → Floor ι → Prop
  | waiting, floor => ∃ id command, floor = .asleep id command
  | _, floor => floor = .free

/-- What is known of a request that has no answer, if the computation to which it belongs ends in a
certain way.  The entries before and after the request are given. -/
def Unanswered {α : Type} (commands : Commands ι ω) (past : List (Entry ι ω)) (source : String)
    (host : ω) (rest : List (Entry ι ω)) : Ending Fault α → Prop
  | .value _ => False
  | .fault fault =>
    (∃ error, parseExpr source = .error error ∧ fault = .unreadableRequest source error ∧
      rest = []) ∨
    ∃ e vars, parseExpr source = .ok e ∧ varsAt past = some vars ∧
      EvaluatesTo commands e vars host (cyclesOf rest) (.fault fault)
  | .waiting =>
    ∃ e vars, parseExpr source = .ok e ∧ varsAt past = some vars ∧
      EvaluatesTo commands e vars host (cyclesOf rest) .waiting

/-- All requests among the new entries that have no answer are accounted for. -/
def Settled {α : Type} (commands : Commands ι ω) (diary new : List (Entry ι ω))
    (ending : Ending Fault α) : Prop :=
  ∀ past id before source after host rest,
    new = past ++ .stepped id before (.ok (.request source)) after host :: rest →
    Untouched id rest → Unanswered commands (diary ++ past) source host rest ending

/-- The calls among what can be seen of an evaluation. -/
abbrev callsIn (marks : List Mark) : List (String × List Value) :=
  callsOf (signalsOf marks)

/-- **What a computation does to a diary**: it adds lawful entries, all requests among them are
accounted for, and the calls are those that can be seen. -/
structure Conducts {α : Type} (commands : Commands ι ω) (own : Nat → Prop)
    (s : Session (Recorder ι ω)) (new : List (Entry ι ω)) (r : Report (Recorder ι ω) Fault α) :
    Prop where
  passage : ∃ floor, r.ending.Leaves floor ∧ Passage commands own s new floor r.session
  settled : Settled commands s.diary new r.ending
  calls : callsIn r.marks = creations new

theorem callsOf_append (first second : List Signal) :
    callsOf (first ++ second) = callsOf first ++ callsOf second :=
  List.filterMap_append

theorem callsIn_notes (notes : List Note) : callsIn ((notes.map .note).map .signal) = [] := by
  rw [callsIn, signalsOf_map_signal]
  exact List.filterMap_eq_nil_iff.mpr fun signal h => by
    obtain ⟨note, -, rfl⟩ := List.mem_map.mp h
    rfl

theorem callsIn_append (first second : List Mark) :
    callsIn (first ++ second) = callsIn first ++ callsIn second := by
  rw [callsIn, signalsOf_append, callsOf_append]

theorem creations_append (first second : List (Entry ι ω)) :
    creations (first ++ second) = creations first ++ creations second :=
  List.filterMap_append

theorem settled_nil {α : Type} {commands : Commands ι ω} {diary : List (Entry ι ω)}
    {ending : Ending Fault α} : Settled commands diary [] ending := by
  intro past id before source after host rest h
  cases past <;> cases h

namespace Conducts

variable {α β : Type} {commands : Commands ι ω} {own : Nat → Prop}
  {s t : Session (Recorder ι ω)} {new new' : List (Entry ι ω)} {floor : Floor ι}
  {entry : Entry ι ω} {r : Report (Recorder ι ω) Fault α} {marks : List Mark}

/-- Nothing is entered. -/
theorem still {ending : Ending Fault α} (hending : ending.Leaves floor)
    (sane : Sane commands floor s) (hmarks : callsIn marks = []) :
    Conducts commands own s [] ⟨ending, s, marks⟩ where
  passage := ⟨floor, hending, .refl sane⟩
  settled := settled_nil
  calls := hmarks

theorem mono {own' : Nat → Prop} (h : ∀ id, own id → own' id)
    (conducts : Conducts commands own s new r) : Conducts commands own' s new r where
  passage := by
    obtain ⟨floor, hending, passage⟩ := conducts.passage
    exact ⟨floor, hending, passage.mono h⟩
  settled := conducts.settled
  calls := conducts.calls

/-- Entries and marks come before.  The requests among them must be accounted for. -/
theorem after (conducts : Conducts commands own t new' r)
    (passage : Passage commands own s new floor t) (hcalls : callsIn marks = creations new)
    (hsettled : ∀ past id before source after host rest,
      new = past ++ .stepped id before (.ok (.request source)) after host :: rest →
      Untouched id (rest ++ new') →
        Unanswered commands (s.diary ++ past) source host (rest ++ new') r.ending) :
    Conducts commands own s (new ++ new') (r.after marks) where
  passage := by
    obtain ⟨floor', hending, passage'⟩ := conducts.passage
    exact ⟨floor', hending, passage.trans passage'⟩
  settled := by
    intro past id before source after host rest hnew untouched
    rcases List.append_eq_append_iff.mp hnew with ⟨between, rfl, hrest⟩ | ⟨between, rfl, hrest⟩
    · have h := conducts.settled between id before source after host rest hrest untouched
      rwa [passage.diary, List.append_assoc] at h
    · cases between with
      | nil =>
        have h := conducts.settled [] id before source after host rest hrest.symm untouched
        rwa [passage.diary, List.append_nil, List.append_nil] at h
      | cons y between =>
        cases hrest
        exact hsettled past id before source after host between rfl untouched
  calls := by
    rw [Report.after, callsIn_append, creations_append, hcalls, conducts.calls]

/-- An entry that is no request comes before. -/
theorem cons (conducts : Conducts commands own t new r)
    (passage : Passage commands own s [entry] floor t) (hcalls : callsIn marks = creations [entry])
    (hentry : ∀ id before source after host,
      entry ≠ .stepped id before (.ok (.request source)) after host) :
    Conducts commands own s (entry :: new) (r.after marks) := by
  refine conducts.after passage hcalls ?_
  intro past id before source after host rest h
  cases past with
  | nil =>
    cases h
    exact absurd rfl (hentry id before source after host)
  | cons y past => cases past <;> cases h

/-- A computation that is about new instances only is not about an old one. -/
theorem untouched {n id : Nat} (conducts : Conducts commands (n ≤ ·) s new r) (h : id < n) :
    Untouched id new := by
  obtain ⟨_, -, passage⟩ := conducts.passage
  intro entry hentry hid
  have hnew : n ≤ id := passage.own entry hentry id hid
  omega

/-- Only marks come before. -/
theorem marked (conducts : Conducts commands own s new r) (hmarks : callsIn marks = []) :
    Conducts commands own s new (r.after marks) where
  passage := conducts.passage
  settled := conducts.settled
  calls := by rw [Report.after, callsIn_append, hmarks, List.nil_append, conducts.calls]

/-- The session has changed before, but not its diary. -/
theorem unentered (conducts : Conducts commands own t new r)
    (passage : Passage commands own s [] floor t) : Conducts commands own s new r where
  passage := by
    obtain ⟨floor', hending, passage'⟩ := conducts.passage
    exact ⟨floor', hending, passage.trans passage'⟩
  settled := by
    have hdiary : t.diary = s.diary := passage.diary.trans (List.append_nil _)
    exact hdiary ▸ conducts.settled
  calls := conducts.calls

/-- A computation that has a value comes before.  It has left no request without an answer. -/
theorem after_value {a : α} {r : Report (Recorder ι ω) Fault β}
    (conducts : Conducts commands own t new' r)
    (first : Conducts commands own s new ⟨.value a, t, marks⟩) :
    Conducts commands own s (new ++ new') (r.after marks) := by
  obtain ⟨_, rfl, passage⟩ := first.passage
  refine conducts.after passage first.calls ?_
  intro past id before source after host rest hnew untouched
  exact (first.settled past id before source after host rest hnew
    (untouched_append.mp untouched).1).elim

/-- One computation after the other. -/
theorem bind {x : Generator (Recorder ι ω) Fault α} {f : α → Generator (Recorder ι ω) Fault β}
    {r : Report (Recorder ι ω) Fault β}
    (hx : ∀ r, x s = some r → ∃ new, Conducts commands own s new r)
    (hf : ∀ a t r, s.diary.length ≤ t.diary.length → Sane commands .free t → f a t = some r →
      ∃ new, Conducts commands own t new r)
    (given : (x >>= f) s = some r) : ∃ new, Conducts commands own s new r := by
  rw [Generator.bind_apply, Option.bind_eq_some_iff] at given
  obtain ⟨⟨ending, t, marks⟩, hgiven, hr⟩ := given
  obtain ⟨new, conducts⟩ := hx _ hgiven
  cases ending with
  | value a =>
    obtain ⟨r', hr', rfl⟩ := Option.map_eq_some_iff.mp hr
    obtain ⟨_, rfl, passage⟩ := conducts.passage
    obtain ⟨new', conducts'⟩ := hf a t r' passage.length_le passage.sane hr'
    exact ⟨new ++ new', conducts'.after_value conducts⟩
  | fault fault =>
    cases hr
    exact ⟨new, conducts.passage, conducts.settled, conducts.calls⟩
  | waiting =>
    cases hr
    exact ⟨new, conducts.passage, conducts.settled, conducts.calls⟩

end Conducts

/-! ### Direct evaluation -/

section

variable {commands : Commands ι ω} {talk : Talk (Tagged ι) (Recorder ι ω)} {n : Nat}
  {s : Session (Recorder ι ω)}

/-- A way to talk that keeps the diary lawful.  It is about no instances but the one that it talks to,
and new ones. -/
def Polite (commands : Commands ι ω) (talk : Talk (Tagged ι) (Recorder ι ω)) : Prop :=
  ∀ n name c s r, n ≤ s.diary.length → Sane commands (.turn c.id c.inner) s →
    talk name c s = some r → ∃ new, Conducts commands (fun id => id = c.id ∨ n ≤ id) s new r

theorem conducts_summon (polite : Polite commands talk) {name : String} {values : List Value}
    {r : Report (Recorder ι ω) Fault Value} (hn : n ≤ s.diary.length) (sane : Sane commands .free s)
    (given : summon commands.recorded talk name values s = some r) :
    ∃ new, Conducts commands (n ≤ ·) s new r := by
  rcases hcreate : commands.recorded.create name values s.store.host with ⟨created, host, notes⟩
  obtain ⟨result, -, rfl, hdiary⟩ := Commands.create_of_recorded hcreate
  rw [summon_apply hcreate] at given
  obtain ⟨r, hr, rfl⟩ := Option.map_eq_some_iff.mp given
  have passage : Passage commands (n ≤ ·) s _ _ _ :=
    .message sane (.created name values result sane.floor) rfl (by rintro id ⟨⟩; exact hn) hdiary
  have hcalls : callsIn (.signal (.entered name values) :: (notes.map .note).map .signal) =
      [(name, values)] := congrArg ((name, values) :: ·) (callsIn_notes notes)
  cases result with
  | error fault =>
    cases hr
    have ends : Conducts commands (n ≤ ·) _ [] (⟨.fault fault, _, []⟩ : Report _ _ Value) :=
      .still rfl passage.sane rfl
    exact ⟨_, ends.cons passage hcalls (by rintro _ _ _ _ _ ⟨⟩)⟩
  | ok command =>
    change (pure _ >>= talk name) _ = some r at hr
    rw [pure_bind] at hr
    obtain ⟨new, conducts⟩ :=
      polite n name ⟨s.diary.length, command⟩ _ _ (hn.trans passage.length_le) passage.sane hr
    have fresh : Conducts commands (n ≤ ·) _ new r :=
      conducts.mono (by rintro id (rfl | h); exacts [hn, h])
    exact ⟨_, fresh.cons passage hcalls (by rintro _ _ _ _ _ ⟨⟩)⟩

theorem conducts_ofExcept {own : Nat → Prop} {result : Except Fault Value}
    {r : Report (Recorder ι ω) Fault Value} (sane : Sane commands .free s)
    (given : Generator.ofExcept result s = some r) : ∃ new, Conducts commands own s new r := by
  cases result with
  | ok v =>
    cases given
    exact ⟨[], .still rfl sane rfl⟩
  | error fault =>
    cases given
    exact ⟨[], .still rfl sane rfl⟩

theorem conducts_combine (polite : Polite commands talk) {e : Expr} {values : List Value}
    {r : Report (Recorder ι ω) Fault Value} (hn : n ≤ s.diary.length) (sane : Sane commands .free s)
    (given : combine commands.recorded talk e values s = some r) :
    ∃ new, Conducts commands (n ≤ ·) s new r := by
  cases e with
  | literal v =>
    cases given
    exact ⟨[], .still rfl sane rfl⟩
  | reference name =>
    cases given
    exact ⟨[], .still rfl sane rfl⟩
  | unary => exact conducts_ofExcept sane given
  | binary op =>
    rw [combine] at given
    cases hresult : op.apply (values.getD 0 .null) (values.getD 1 .null) with
    | none =>
      rw [hresult, Generator.perform_bind_of_eq_none rfl] at given
      cases given
    | some result =>
      rw [hresult, Generator.perform_ofOption_bind] at given
      exact conducts_ofExcept sane given
  | call name arguments => exact conducts_summon polite hn sane given

theorem conducts_evaluateAll {es : List Expr}
    (evaluates : ∀ e ∈ es, ∀ s r, n ≤ s.diary.length → Sane commands .free s →
      evaluate commands.recorded talk e s = some r → ∃ new, Conducts commands (n ≤ ·) s new r)
    {r : Report (Recorder ι ω) Fault (List Value)} (hn : n ≤ s.diary.length)
    (sane : Sane commands .free s) (given : evaluateAll commands.recorded talk es s = some r) :
    ∃ new, Conducts commands (n ≤ ·) s new r := by
  induction es generalizing s r with
  | nil =>
    rw [evaluateAll] at given
    cases given
    exact ⟨[], .still rfl sane rfl⟩
  | cons e es ih =>
    obtain ⟨he, hes⟩ := List.forall_mem_cons.mp evaluates
    rw [evaluateAll] at given
    refine Conducts.bind (fun r hr => he s r hn sane hr) ?_ given
    intro v t r hlength sane given
    refine Conducts.bind (fun r hr => ih hes (hn.trans hlength) sane hr) ?_ given
    intro vs u r _ sane given
    cases given
    exact ⟨[], .still rfl sane rfl⟩

/-- Evaluation of an expression conducts itself well, given that all conversations do. -/
theorem conducts_evaluate (polite : Polite commands talk) (e : Expr) (s : Session (Recorder ι ω))
    (r : Report (Recorder ι ω) Fault Value) (hn : n ≤ s.diary.length) (sane : Sane commands .free s)
    (given : evaluate commands.recorded talk e s = some r) :
    ∃ new, Conducts commands (n ≤ ·) s new r := by
  induction e using Expr.operands_induction generalizing s r with
  | step e ih =>
    rw [evaluate_eq_combine] at given
    refine Conducts.bind (fun r hr => conducts_evaluateAll ih hn sane hr) ?_ given
    intro values t r hlength sane given
    exact conducts_combine polite (hn.trans hlength) sane given

/-! What an instance replies decides how the conversation goes on. -/

section

variable {name : String} {c : Tagged ι} {r : Report (Recorder ι ω) Fault Value}

theorem conducts_suspend (polite : Polite commands talk) (hn : n ≤ s.diary.length)
    (sane : Sane commands (.asleep c.id c.inner) s)
    (given : respond commands.recorded .yield talk name (.ok .suspend, c) s = some r) :
    ∃ new, Conducts commands (fun id => id = c.id ∨ n ≤ id) s new r := by
  change ((Generator.yield >>= fun _ => talk name c) s : Option _) = some r at given
  cases hlater : s.later with
  | nil =>
    have hyield : (Generator.yield : Generator _ Fault Unit) s =
        some ⟨.waiting, s, [.suspended]⟩ := by
      rw [Generator.yield, hlater]
    rw [Generator.bind_apply, hyield] at given
    cases given
    exact ⟨[], .still ⟨_, _, rfl⟩ sane rfl⟩
  | cons moment later =>
    have hyield : (Generator.yield : Generator _ Fault Unit) s =
        some ⟨.value (), ⟨moment.vars, moment.change s.store, later⟩, [.suspended]⟩ := by
      rw [Generator.yield, hlater]
    rw [Generator.bind_apply, hyield] at given
    obtain ⟨r, hr, rfl⟩ := Option.map_eq_some_iff.mp given
    obtain ⟨vars, host, passage⟩ := Passage.visit sane (by rintro _ _ ⟨⟩) hlater
    obtain ⟨new, conducts⟩ := polite n name c _ r (hn.trans passage.length_le) passage.sane hr
    exact ⟨_, conducts.cons passage rfl (by rintro _ _ _ _ _ ⟨⟩)⟩

theorem conducts_warning (polite : Polite commands talk) {message : String} (hn : n ≤ s.diary.length)
    (sane : Sane commands (.turn c.id c.inner) s)
    (given : respond commands.recorded .yield talk name (.ok (.warning message), c) s = some r) :
    ∃ new, Conducts commands (fun id => id = c.id ∨ n ≤ id) s new r := by
  obtain ⟨_, hlogged, rfl⟩ := Option.map_eq_some_iff.mp given
  obtain ⟨r, hr, rfl⟩ := Option.map_eq_some_iff.mp hlogged
  obtain ⟨new, conducts⟩ := polite n name c s r hn sane hr
  exact ⟨new, (conducts.marked rfl).marked rfl⟩

/-- What direct evaluation gives depends on the cycles only. -/
theorem Conducts.evaluatesTo {own : Nat → Prop} {floor : Floor ι} {e : Expr}
    {new : List (Entry ι ω)} (conducts : Conducts commands own s new r)
    (sane : Sane commands floor s) (h : generate commands.recorded .yield e s = some r) :
    EvaluatesTo commands e s.vars s.store.host.host (cyclesOf new) r.ending := by
  obtain ⟨visits, hvisits, sounds⟩ := sane.later
  have hgenerate : generate commands.recorded .yield e
      ⟨s.vars, s.store, visits.map Visit.marked⟩ = some r := by
    rw [← hvisits]
    exact h
  obtain ⟨used, left, rfl, hleft, evaluates⟩ := evaluatesTo_of_generate sounds sane.sound hgenerate
  obtain ⟨_, -, passage⟩ := conducts.passage
  obtain ⟨used', hlater, hcycles⟩ := passage.visits
  have hused : used'.map Visit.marked = used.map (Visit.marked : Visit ω → Moment (Recorder ι ω)) := by
    rw [hvisits, List.map_append, hleft] at hlater
    exact (List.append_cancel_right hlater).symm
  rw [hcycles, map_bare_of_map_marked s.store hused]
  exact evaluates

/-- An instance is handed a value. -/
theorem conducts_oblige (polite : Polite commands talk) {source : String} {v : Value}
    (hn : n ≤ s.diary.length) (sane : Sane commands .free s)
    (admits : ∀ after, Admits commands s.diary (.supplied c.id c.inner source v after))
    (given : oblige commands.recorded talk name c source v s = some r) :
    ∃ new, Conducts commands (fun id => id = c.id ∨ n ≤ id) s new r ∧ ¬ Untouched c.id new := by
  rcases hsupply : commands.recorded.supply c source v s.store.host with ⟨rest, host, notes⟩
  obtain ⟨-, hrest, hentered⟩ := Commands.supply_of_recorded hsupply
  rw [oblige_apply hsupply] at given
  obtain ⟨r, hr, rfl⟩ := Option.map_eq_some_iff.mp given
  have passage : Passage commands (fun id => id = c.id ∨ n ≤ id) s _ _ _ :=
    .message sane (admits rest.inner) rfl (by rintro id ⟨⟩; exact .inl rfl) hentered
  have sane' : Sane commands (.turn rest.id rest.inner) _ := hrest ▸ passage.sane
  obtain ⟨new, conducts⟩ := polite n name rest _ r (hn.trans passage.length_le) sane' hr
  rw [hrest] at conducts
  have hcalls : callsIn (.signal (.log (supplyRecord name source v)) ::
      (notes.map .note).map .signal) = [] := callsIn_notes notes
  refine ⟨_, conducts.cons passage hcalls (by rintro _ _ _ _ _ ⟨⟩), fun untouched => ?_⟩
  exact untouched _ List.mem_cons_self rfl

/-- An instance asks for an expression.  It gets the value, unless the evaluation of the expression
fails or waits. -/
theorem conducts_request (polite : Polite commands talk)
    (below : ∀ name c, Below (talk name c) (converse commands.recorded .yield name c))
    {past : List (Entry ι ω)} {first : ι} {source : String} (hn : n ≤ s.diary.length)
    (hdiary : s.diary =
      past ++ [.stepped c.id first (.ok (.request source)) c.inner s.store.host.host])
    (hvars : varsAt past = some s.vars) (sane : Sane commands .free s)
    (given : respond commands.recorded .yield talk name (.ok (.request source), c) s = some r) :
    ∃ new, Conducts commands (fun id => id = c.id ∨ n ≤ id) s new r ∧
      (Untouched c.id new → Unanswered commands past source s.store.host.host new r.ending) := by
  have hvalue := sane.sound.expression_value source
  have hsound := sane.sound.expression source
  rcases hparse : s.store.cache.expression source with ⟨found, cache⟩
  rw [hparse] at hvalue hsound
  have parsed : Passage commands (fun id => id = c.id ∨ n ≤ id) s [] .free
      ⟨s.vars, ⟨cache, s.store.host⟩, s.later⟩ := .parse sane hsound
  cases found with
  | error error =>
    rw [respond_request_of_error hparse] at given
    cases given
    have ends : Conducts commands (fun id => id = c.id ∨ n ≤ id) _ []
        (⟨.fault (.unreadableRequest source error), _, []⟩ : Report _ _ Value) :=
      .still rfl parsed.sane rfl
    exact ⟨[], ends.unentered parsed, fun _ => .inl ⟨error, hvalue.symm, rfl, rfl⟩⟩
  | ok request =>
    rw [respond_request_of_ok hparse, Generator.bind_apply, Option.bind_eq_some_iff] at given
    obtain ⟨⟨ending, t, marks⟩, hinner, hr⟩ := given
    obtain ⟨inner, conducts⟩ := conducts_evaluate polite request.value _ _ le_rfl parsed.sane hinner
    -- The evaluation is about new instances only, and not about the one that has asked.
    have hasked : Entry.stepped c.id first (.ok (.request source)) c.inner s.store.host.host ∈
        s.diary := by
      rw [hdiary]
      exact List.mem_append_right _ List.mem_cons_self
    have untouched : Untouched c.id inner := conducts.untouched (sane.lawful.id_lt hasked rfl)
    obtain ⟨floor, hending, passage⟩ := conducts.passage
    have evaluates : EvaluatesTo commands request.value s.vars s.store.host.host (cyclesOf inner)
        ending := conducts.evaluatesTo parsed.sane (evaluate_below below _ _ _ hinner)
    have wider : ∀ id, s.diary.length ≤ id → id = c.id ∨ n ≤ id := fun id h => .inr (hn.trans h)
    cases ending with
    | fault fault =>
      cases hr
      exact ⟨inner, (conducts.mono wider).unentered parsed,
        fun _ => .inr ⟨_, _, hvalue.symm, hvars, evaluates⟩⟩
    | waiting =>
      cases hr
      exact ⟨inner, (conducts.mono wider).unentered parsed,
        fun _ => ⟨_, _, hvalue.symm, hvars, evaluates⟩⟩
    | value v =>
      cases hending
      obtain ⟨r, hobliged, rfl⟩ := Option.map_eq_some_iff.mp hr
      have hpast : t.diary =
          past ++ .stepped c.id first (.ok (.request source)) c.inner s.store.host.host :: inner := by
        rw [passage.diary]
        change s.diary ++ inner = _
        rw [hdiary, List.append_assoc]
        rfl
      have admits : ∀ after, Admits commands t.diary (.supplied c.id c.inner source v after) :=
        fun after => .supplied after passage.sane.floor hpast untouched hvalue.symm hvars evaluates
      obtain ⟨new, conducts', touched⟩ :=
        conducts_oblige polite (hn.trans passage.length_le) passage.sane admits hobliged
      exact ⟨inner ++ new, (conducts'.after_value (conducts.mono wider)).unentered parsed,
        fun h => (touched (untouched_append.mp h).2).elim⟩

/-- One message to an instance, and what follows. -/
theorem polite_converseOnce (polite : Polite commands talk)
    (below : ∀ name c, Below (talk name c) (converse commands.recorded .yield name c)) :
    Polite commands (converseOnce commands.recorded .yield talk) := by
  intro n name c s r hn sane given
  -- the message itself, which the diary enters
  rcases hnext : commands.recorded.next c s.store.host with _ | ⟨⟨reply, rest⟩, host, notes⟩
  · rw [converseOnce_of_next_eq_none commands.recorded hnext] at given
    cases given
  obtain ⟨-, hrest, hdiary⟩ := Commands.next_of_recorded hnext
  rw [converseOnce_apply commands.recorded hnext] at given
  obtain ⟨r, hr, rfl⟩ := Option.map_eq_some_iff.mp given
  -- the instance may be stepped, since it is its turn
  have admits : Admits commands s.diary (.stepped c.id c.inner reply rest.inner host.host) :=
    .stepped reply rest.inner host.host sane.floor
  have passage : Passage commands (fun id => id = c.id ∨ n ≤ id) s _ _ _ :=
    .message sane admits rfl (by rintro id ⟨⟩; exact .inl rfl) hdiary
  have hn' := hn.trans passage.length_le
  have hcalls := callsIn_notes notes
  rw [← hrest] at passage ⊢
  -- what follows depends on the reply
  rcases reply with fault | v | _ | source | message
  · cases hr
    have ends : Conducts commands (fun id => id = rest.id ∨ n ≤ id) _ []
        (⟨.fault fault, _, []⟩ : Report _ _ Value) := .still rfl passage.sane rfl
    exact ⟨_, ends.cons passage hcalls (by rintro _ _ _ _ _ ⟨⟩)⟩
  · cases hr
    have ends : Conducts commands (fun id => id = rest.id ∨ n ≤ id) _ []
        (⟨.value v, _, [.signal (.log (finishRecord name v)), .signal (.left name v)]⟩ :
          Report _ _ Value) := .still rfl passage.sane rfl
    exact ⟨_, ends.cons passage hcalls (by rintro _ _ _ _ _ ⟨⟩)⟩
  · obtain ⟨new, conducts⟩ := conducts_suspend polite hn' passage.sane hr
    exact ⟨_, conducts.cons passage hcalls (by rintro _ _ _ _ _ ⟨⟩)⟩
  · obtain ⟨new, conducts, unanswered⟩ :=
      conducts_request polite below hn' passage.diary sane.vars passage.sane hr
    refine ⟨_, conducts.after passage hcalls ?_⟩
    -- the request in question is the one just made: no other is open
    intro past id before source' after host' between h untouched
    cases past with
    | nil =>
      cases h
      rw [List.append_nil]
      exact unanswered untouched
    | cons y past => cases past <;> cases h
  · obtain ⟨new, conducts⟩ := conducts_warning polite hn' passage.sane hr
    exact ⟨_, conducts.cons passage hcalls (by rintro _ _ _ _ _ ⟨⟩)⟩

end

/-- All conversations keep the diary lawful. -/
theorem polite_converse : Polite commands (converse commands.recorded .yield) := by
  intro n name c s r hn sane given
  -- Along with the account, the induction keeps that all this is a part of the conversation, so
  -- that the requests in it are evaluated directly.
  have both : converse commands.recorded .yield name c s = some r ∧ ∀ n, n ≤ s.diary.length →
      Sane commands (.turn c.id c.inner) s →
        ∃ new, Conducts commands (fun id => id = c.id ∨ n ≤ id) s new r := by
    refine converse_induction commands.recorded .yield
      (motive := fun name c s r => converse commands.recorded .yield name c s = some r ∧
        ∀ n, n ≤ s.diary.length → Sane commands (.turn c.id c.inner) s →
          ∃ new, Conducts commands (fun id => id = c.id ∨ n ≤ id) s new r) ?_ given
    intro talk wanted name c s r given
    have below : ∀ name c, Below (talk name c) (converse commands.recorded .yield name c) :=
      fun name c s r h => (wanted name c s r h).1
    have polite : Polite commands talk :=
      fun n name c s r hn sane h => (wanted name c s r h).2 n hn sane
    refine ⟨?_, fun n hn sane => polite_converseOnce polite below n name c s r hn sane given⟩
    rw [converse_eq_once]
    exact converseOnce_below .yield below name c s r given
  exact both.2 n hn sane

/-- **Direct evaluation keeps a diary lawful**, and all requests are accounted for. -/
theorem conducts_generate {e : Expr} {r : Report (Recorder ι ω) Fault Value}
    (sane : Sane commands .free s) (given : generate commands.recorded .yield e s = some r) :
    ∃ new, Conducts commands (s.diary.length ≤ ·) s new r :=
  conducts_evaluate polite_converse e s r le_rfl sane given

end

end StepScript
