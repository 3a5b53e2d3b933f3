import StepScript.Proofs.Recording

/-!
# Diaries tell the truth

Every entry in the diary of a run is a message that the commands have answered in just this way, and
what can be seen of calls, results and warnings from outside is what the diary has of them, in the
same order.

## Main definitions

* `Entry.Genuine` — the commands have answered in this way.
* `Telling`, `told`, `tellings` — what can be seen of a call, among signals and in a diary.
* `Chronicles` — a diary is a true account of some signals.

## Main results

* `chronicles_of_does` — a piece of work adds a true account of its signals.
* `Program.Records.chronicles` — **the diary of a run is a true account of it**.
-/

namespace StepScript

variable {ι ω : Type}

/-! ### Entries and signals -/

/-- The commands have answered in this way, in some state of the host. -/
def Entry.Genuine (commands : Commands ι ω) : Entry ι ω → Prop
  | cycle _ _ => True
  | created _ name values result => ∃ host, (commands.create name values host).value = result
  | stepped _ before reply after _ =>
    ∃ host turn, commands.next before host = some turn ∧ turn.value = (reply, after)
  | supplied _ before source v after => ∃ host, (commands.supply before source v host).value = after

/-- What can be seen of a call. -/
inductive Telling
  /-- It begins. -/
  | called (name : String) (values : List Value)
  /-- Its command has finished. -/
  | finished (v : Value)
  /-- Its command warns. -/
  | warned (message : String)

/-- What a signal tells of a call. -/
def Signal.telling? : Signal → Option Telling
  | entered name values => some (.called name values)
  | left _ v => some (.finished v)
  | warned _ message => some (.warned message)
  | _ => none

/-- What an entry tells of a call. -/
def Entry.telling? : Entry ι ω → Option Telling
  | created _ name values _ => some (.called name values)
  | stepped _ _ (.ok (.finished v)) _ _ => some (.finished v)
  | stepped _ _ (.ok (.warning message)) _ _ => some (.warned message)
  | _ => none

/-- What some signals tell of calls. -/
def told (signals : List Signal) : List Telling :=
  signals.filterMap Signal.telling?

/-- What a diary tells of calls. -/
def tellings (diary : List (Entry ι ω)) : List Telling :=
  diary.filterMap Entry.telling?

@[simp] theorem told_append (first second : List Signal) :
    told (first ++ second) = told first ++ told second :=
  List.filterMap_append

@[simp] theorem told_notes (notes : List Note) : told (notes.map .note) = [] := by
  refine List.filterMap_eq_nil_iff.mpr fun signal hsignal => ?_
  obtain ⟨note, -, rfl⟩ := List.mem_map.mp hsignal
  rfl

theorem told_cons_notes (signal : Signal) (notes : List Note) :
    told (signal :: notes.map .note) = told [signal] := by
  rw [← List.singleton_append, told_append, told_notes, List.append_nil]

theorem told_events (signals : List Signal) : told (events signals) = told signals := by
  rw [told, events, List.filterMap_filter, told]
  congr 1
  funext signal
  cases signal <;> rfl

@[simp] theorem tellings_append (first second : List (Entry ι ω)) :
    tellings (first ++ second) = tellings first ++ tellings second :=
  List.filterMap_append

/-- The entries are a true account of the signals. -/
structure Chronicles (commands : Commands ι ω) (diary : List (Entry ι ω)) (signals : List Signal) :
    Prop where
  tells : tellings diary = told signals
  genuine : ∀ entry ∈ diary, entry.Genuine commands

namespace Chronicles

variable {commands : Commands ι ω} {first second : List (Entry ι ω)}
  {signals signals' : List Signal}

theorem nil (h : told signals = []) : Chronicles commands [] signals :=
  ⟨h.symm, List.forall_mem_nil _⟩

theorem append (h : Chronicles commands first signals) (h' : Chronicles commands second signals') :
    Chronicles commands (first ++ second) (signals ++ signals') where
  tells := by rw [tellings_append, h.tells, h'.tells, told_append]
  genuine := List.forall_mem_append.mpr ⟨h.genuine, h'.genuine⟩

theorem singleton {entry : Entry ι ω} (genuine : entry.Genuine commands)
    (tells : tellings [entry] = told signals) : Chronicles commands [entry] signals :=
  ⟨tells, List.forall_mem_singleton.mpr genuine⟩

end Chronicles

/-! ### Pieces of work -/

/-- Between two stores, a true account of the signals has been added. -/
def Adds (commands : Commands ι ω) (s t : Store (Recorder ι ω)) (signals : List Signal) : Prop :=
  ∃ new, t.host.diary = s.host.diary ++ new ∧ Chronicles commands new signals

namespace Adds

variable {commands : Commands ι ω} {s t u : Store (Recorder ι ω)} {host : Recorder ι ω}
  {first second signals : List Signal} {notes : List Note}

theorem refl (s : Store (Recorder ι ω)) : Adds commands s s [] :=
  ⟨[], (List.append_nil _).symm, .nil rfl⟩

theorem trans (h : Adds commands s t first) (h' : Adds commands t u second) :
    Adds commands s u (first ++ second) := by
  obtain ⟨new, hnew, chronicles⟩ := h
  obtain ⟨new', hnew', chronicles'⟩ := h'
  exact ⟨new ++ new', by rw [hnew', hnew, List.append_assoc], chronicles.append chronicles'⟩

theorem create {name : String} {values : List Value} {created : Except Fault (Tagged ι)}
    (h : commands.recorded.create name values s.host = ⟨created, host, notes⟩) :
    Adds commands s ⟨s.cache, host⟩ (.entered name values :: notes.map .note) := by
  obtain ⟨result, hcreate, -, hdiary⟩ := Commands.create_of_recorded h
  refine ⟨_, hdiary, .singleton ⟨s.host.host, by rw [hcreate]⟩ ?_⟩
  rw [told_cons_notes]
  rfl

/-- The signals after a step tell what the reply tells. -/
theorem next {c c' : Tagged ι} {reply : Except Fault Reply} {cache : Cache}
    (h : commands.recorded.next c s.host = some ⟨(reply, c'), host, notes⟩)
    (tells : tellings [.stepped c.id c.inner reply c'.inner host.host] = told signals) :
    Adds commands s ⟨cache, host⟩ (notes.map .note ++ signals) := by
  obtain ⟨hnext, -, hdiary⟩ := Commands.next_of_recorded h
  refine ⟨_, hdiary, .singleton ⟨s.host.host, _, hnext, rfl⟩ ?_⟩
  rw [told_append, told_notes]
  exact tells

theorem supply {c c' : Tagged ι} {source : String} {v : Value} {record : LogRecord}
    (h : commands.recorded.supply c source v s.host = ⟨c', host, notes⟩) :
    Adds commands s ⟨s.cache, host⟩ (.log record :: notes.map .note) := by
  obtain ⟨hsupply, -, hdiary⟩ := Commands.supply_of_recorded h
  refine ⟨_, hdiary, .singleton ⟨s.host.host, by rw [hsupply]⟩ ?_⟩
  rw [told_cons_notes]
  rfl

end Adds

/-- **A piece of work adds a true account of its signals.** -/
theorem chronicles_of_does {commands : Commands ι ω} {vars : Variables} {task : Task (Tagged ι)}
    {s t : Store (Recorder ι ω)} {progress : Progress (Tagged ι)} {signals : List Signal}
    (h : Does ⟨commands.recorded, vars⟩ task s progress t signals) : Adds commands s t signals := by
  induction h with
  | applied | held | broken | pending | denied => exact .refl _
  | refused hcreate => exact .create hcreate
  | called hcreate h ih => exact (Adds.create hcreate).trans ih
  | operand hx h ihx ih | resumed _ hx h ihx ih | asking hx h ihx ih => exact ihx.trans ih
  | known h ih | begin h ih | exhausted _ h ih | calling h ih => exact ih
  | failed hnext | suspended hnext | unreadable hnext =>
    rw [← List.append_nil (List.map _ _)]
    exact .next hnext rfl
  | finished hnext => exact .next hnext rfl
  | @warned name message command command' s s' host notes progress signals hnext h ih =>
    -- the warning belongs to the step that gave it, and not to what follows
    have warning : [.log (warnRecord name message), .warned name message] ++ signals =
        .log (warnRecord name message) :: .warned name message :: signals := rfl
    rw [← warning, ← List.append_assoc]
    exact (Adds.next hnext rfl).trans ih
  | @requested name source command command' s s' s'' host notes request cache inner progress first
      second hnext hparse hx h ihx ih =>
    have asked : Adds commands s ⟨cache, host⟩ (notes.map .note ++ []) := .next hnext rfl
    rw [List.append_nil] at asked
    exact asked.trans (ihx.trans ih)
  | supplied hsupply h ih => exact (Adds.supply hsupply).trans ih

/-! ### Runs -/

namespace Program

variable {commands : Commands ι ω}

theorem adds_of_cycle {p : Program (Tagged ι)} {store : Store (Recorder ι ω)}
    {effect : Effect (Recorder ι ω) (Program (Tagged ι) × Except ProgramError Unit)}
    (hcycle : p.cycle commands.recorded store = some effect) :
    Adds commands store effect.store effect.signals := by
  rcases resume_of_cycle hcycle with
    ⟨-, hstore, hlines⟩ | ⟨s, e, step, -, -, -, hresume, -, hstore, hevents⟩
  · have silent : told effect.signals = [] := by
      rw [← told_events]
      refine List.filterMap_eq_nil_iff.mpr fun signal hsignal => ?_
      obtain ⟨i, s, rfl⟩ := hlines signal hsignal
      rfl
    exact ⟨[], by rw [hstore, List.append_nil], .nil silent⟩
  · obtain ⟨new, hnew, chronicles⟩ := chronicles_of_does (does_of_resume hresume)
    refine ⟨new, by rw [hstore, hnew], ?_, chronicles.genuine⟩
    have hannounced : told (p.announced s) = [] := by
      rw [announced]
      split <;> rfl
    rw [← told_events, hevents, told_append, hannounced, told_events, List.nil_append]
    exact chronicles.tells

/-- **The diary of a run is a true account of it.** -/
theorem Records.chronicles {q : Program (Tagged ι)} {t : Store (Recorder ι ω)}
    {signals : List Signal} (records : q.Records commands t signals) :
    Chronicles commands t.host.diary signals := by
  induction records with
  | start script vars name sound host => exact .nil rfl
  | @cycle p store signals effect before hcycle ih =>
    have begun : Chronicles commands (store.host.begin p.vars).diary signals := by
      have beginning : Chronicles commands [.cycle p.vars store.host.host] [] :=
        .singleton trivial rfl
      have := ih.append beginning
      rwa [List.append_nil] at this
    obtain ⟨new, hnew, chronicles⟩ := adds_of_cycle hcycle
    rw [hnew]
    exact begun.append chronicles
  | write before vars sound host ih => exact ih

end Program

end StepScript
