import StepScript.Proofs.Resumption

/-!
# The pace of commands does not matter

A command may ask for time as often as it likes before it gives its next real answer.  If two sets
of commands give the same real answers with the same effects, and differ only in how often they ask
for time, then an expression comes to the same value or fault with both of them, as long as the
variables stay as they are.

## Main definitions

* `Commands.Awaits` — the next answer of an instance other than a request for time.
* `Commands.Keeps` — one set of commands gives all the real answers of another.
* `Attains` — what a computation comes to, given enough steps.
* `Settles` — what stepping an evaluation comes to, given enough steps.

## Main results

* `outlasts_converse` — what a conversation comes to, the corresponding one comes to as well.
* `stepping_is_generating` — **stepping an evaluation is direct evaluation, and the pace of commands
  does not matter to it**.
-/

namespace StepScript

/-! ### Answers at different paces -/

section

variable {ι ι' ω : Type}

/-- An instance comes to a certain answer, after it has asked for time any number of times.  The
notes of all messages are counted in. -/
inductive Commands.Awaits (commands : Commands ι ω) :
    ι → ω → Turn ω (Except Fault Reply × ι) → Prop
  /-- The next answer is not a request for time. -/
  | now {command : ι} {host : ω} {turn : Turn ω (Except Fault Reply × ι)}
    (hnext : commands.next command host = some turn) (h : turn.value.1 ≠ .ok .suspend) :
    Awaits commands command host turn
  /-- The next answer is a request for time. -/
  | later {command rest : ι} {host host' : ω} {notes : List Note}
    {turn : Turn ω (Except Fault Reply × ι)}
    (h : commands.next command host = some ⟨(.ok .suspend, rest), host', notes⟩)
    (awaits : Awaits commands rest host' turn) :
    Awaits commands command host { turn with notes := notes ++ turn.notes }

/-- The host gives back corresponding values and does the same. -/
structure Turn.Matches {α β : Type} (rel : α → β → Prop) (t : Turn ω α) (t' : Turn ω β) :
    Prop where
  /-- The values correspond. -/
  value : rel t.value t'.value
  /-- The host is the same afterwards. -/
  host : t.host = t'.host
  /-- The same is seen. -/
  notes : t.notes = t'.notes

/-- Both fail with the same error, or both give corresponding values. -/
def SameResult (same : ι → ι' → Prop) : Except Fault ι → Except Fault ι' → Prop
  | .ok command, .ok command' => same command command'
  | .error fault, .error fault' => fault = fault'
  | _, _ => False

/-- The same reply, from instances that correspond afterwards. -/
def SameReply (same : ι → ι' → Prop) (x : Except Fault Reply × ι) (x' : Except Fault Reply × ι') :
    Prop :=
  x.1 = x'.1 ∧ same x.2 x'.2

/-- The second commands do all that the first ones do, where `same` says which instances
correspond.  They need not ask for time equally often. -/
structure Commands.Keeps (commands : Commands ι ω) (commands' : Commands ι' ω)
    (same : ι → ι' → Prop) : Prop where
  /-- Calls create corresponding instances. -/
  create : ∀ name arguments host,
    (commands.create name arguments host).Matches (SameResult same)
      (commands'.create name arguments host)
  /-- Whatever answer one instance comes to, the other comes to it as well. -/
  next : ∀ command command' host turn, same command command' →
    commands.Awaits command host turn →
    ∃ turn', commands'.Awaits command' host turn' ∧ turn.Matches (SameReply same) turn'
  /-- Instances correspond after they have been given a value. -/
  supply : ∀ command command' source v host, same command command' →
    (commands.supply command source v host).Matches same
      (commands'.supply command' source v host)

end

/-! ### What computations come to -/

section

variable {ω ε α β : Type}

/-- Steps between which nothing happens. -/
def stillFor (vars : Variables) (steps : Nat) : List (Moment ω) :=
  List.replicate steps ⟨vars, id⟩

/-- A session in which nothing happens between the steps. -/
def Session.still (vars : Variables) (store : Store ω) (steps : Nat) : Session ω :=
  ⟨vars, store, stillFor vars steps⟩

/-- A computation comes to an end in a certain way, given enough steps between which nothing
happens.  It leaves all steps that it does not need. -/
def Attains (vars : Variables) (g : Generator ω ε α) (store : Store ω) (ending : Ending ε α)
    (store' : Store ω) (signals : List Signal) : Prop :=
  ∃ needed, ∀ spare, ∃ marks,
    g (.still vars store (needed + spare)) = some ⟨ending, .still vars store' spare, marks⟩ ∧
      signalsOf marks = signals

namespace Attains

variable {vars : Variables} {store store₁ store₂ : Store ω} {signals signals' : List Signal}

theorem pure (a : α) : Attains vars (pure a : Generator ω ε α) store (.value a) store [] :=
  ⟨0, fun spare => ⟨[], by rw [Nat.zero_add, Generator.pure_apply], rfl⟩⟩

theorem fail (error : ε) :
    Attains vars (.fail error : Generator ω ε α) store (.fault error) store [] :=
  ⟨0, fun spare => ⟨[], by rw [Nat.zero_add]; rfl, rfl⟩⟩

theorem perform {x : Activity ω α} {effect : Effect ω α} (h : x store = some effect) :
    Attains vars (.perform x : Generator ω ε α) store (.value effect.value) effect.store
      effect.signals := by
  refine ⟨0, fun spare => ⟨effect.signals.map .signal, ?_, signalsOf_map_signal _⟩⟩
  rw [Nat.zero_add]
  exact Option.map_eq_some_iff.mpr ⟨effect, h, rfl⟩

theorem vars_ : Attains vars (.vars : Generator ω ε Variables) store (.value vars) store [] :=
  ⟨0, fun spare => ⟨[], by rw [Nat.zero_add]; rfl, rfl⟩⟩

theorem yield : Attains vars (.yield : Generator ω ε Unit) store (.value ()) store [] :=
  ⟨1, fun spare => ⟨[.suspended], by rw [Nat.add_comm]; rfl, rfl⟩⟩

theorem bind {g : Generator ω ε α} {f : α → Generator ω ε β} {a : α} {ending : Ending ε β}
    (hg : Attains vars g store (.value a) store₁ signals)
    (hf : Attains vars (f a) store₁ ending store₂ signals') :
    Attains vars (g >>= f) store ending store₂ (signals ++ signals') := by
  obtain ⟨needed, hg⟩ := hg
  obtain ⟨needed', hf⟩ := hf
  refine ⟨needed + needed', fun spare => ?_⟩
  obtain ⟨marks, hfirst, rfl⟩ := hg (needed' + spare)
  obtain ⟨marks', hsecond, rfl⟩ := hf spare
  refine ⟨marks ++ marks', ?_, signalsOf_append marks marks'⟩
  rw [Generator.bind_apply, Nat.add_assoc, hfirst]
  exact Option.map_eq_some_iff.mpr ⟨_, hsecond, rfl⟩

theorem bind_fault {g : Generator ω ε α} {f : α → Generator ω ε β} {error : ε}
    (hg : Attains vars g store (.fault error) store₁ signals) :
    Attains vars (g >>= f) store (.fault error) store₁ signals := by
  obtain ⟨needed, hg⟩ := hg
  refine ⟨needed, fun spare => ?_⟩
  obtain ⟨marks, hfirst, hmarks⟩ := hg spare
  refine ⟨marks, ?_, hmarks⟩
  rw [Generator.bind_apply, hfirst]
  rfl

end Attains

/-- Whatever the first computation comes to with some number of steps, the second comes to as
well. -/
def Outlasts (vars : Variables) (g g' : Generator ω ε α) : Prop :=
  ∀ store steps r, g (.still vars store steps) = some r → r.ending ≠ .waiting →
    ∃ spare, r.session = .still vars r.session.store spare ∧
      Attains vars g' store r.ending r.session.store (signalsOf r.marks)

namespace Outlasts

variable {vars : Variables}

theorem pure (a : α) : Outlasts vars (pure a : Generator ω ε α) (pure a) := by
  rintro store steps r ⟨⟩ -
  exact ⟨steps, rfl, .pure a⟩

theorem fail (error : ε) : Outlasts vars (.fail error : Generator ω ε α) (.fail error) := by
  rintro store steps r ⟨⟩ -
  exact ⟨steps, rfl, .fail error⟩

theorem ofExcept (result : Except ε α) :
    Outlasts vars (.ofExcept result : Generator ω ε α) (.ofExcept result) := by
  cases result with
  | ok a => exact pure a
  | error error => exact fail error

theorem bind {g g' : Generator ω ε α} {f f' : α → Generator ω ε β} (hg : Outlasts vars g g')
    (hf : ∀ a, Outlasts vars (f a) (f' a)) : Outlasts vars (g >>= f) (g' >>= f') := by
  intro store steps r given hr
  rw [Generator.bind_apply, Option.bind_eq_some_iff] at given
  obtain ⟨⟨ending, session, marks⟩, hfirst, hrest⟩ := given
  cases ending with
  | value a =>
    obtain ⟨second, hsecond, rfl⟩ := Option.map_eq_some_iff.mp hrest
    obtain ⟨spare, hsession, attains⟩ := hg store steps _ hfirst nofun
    simp only at hsession attains hsecond
    rw [hsession] at hsecond
    obtain ⟨spare', hsession', attains'⟩ := hf a _ spare second hsecond hr
    refine ⟨spare', hsession', ?_⟩
    show Attains vars _ store _ _ (signalsOf (marks ++ second.marks))
    rw [signalsOf_append]
    exact attains.bind attains'
  | fault error =>
    obtain rfl := Option.some.inj hrest
    obtain ⟨spare, hsession, attains⟩ := hg store steps _ hfirst nofun
    exact ⟨spare, hsession, attains.bind_fault⟩
  | waiting =>
    obtain rfl := Option.some.inj hrest
    exact absurd rfl hr

/-- Addressing the host on both sides, and going on with answers that correspond. -/
theorem ask {α' : Type} {rel : α → α' → Prop} {f : ω → Turn ω α} {f' : ω → Turn ω α'}
    {k : α → Generator ω ε β} {k' : α' → Generator ω ε β}
    (h : ∀ host, (f host).Matches rel (f' host))
    (hk : ∀ a a', rel a a' → Outlasts vars (k a) (k' a')) :
    Outlasts vars (.perform (.ask f) >>= k) (.perform (.ask f') >>= k') := by
  intro store steps r given hr
  obtain ⟨second, hsecond, rfl⟩ := Option.map_eq_some_iff.mp given
  obtain ⟨hvalue, hhost, hnotes⟩ := h store.host
  obtain ⟨spare, hsession, attains⟩ := hk _ _ hvalue _ steps second hsecond hr
  refine ⟨spare, hsession, ?_⟩
  have asked : Attains vars (.perform (.ask f') : Generator ω ε α') store
      (.value (f' store.host).value) { store with host := (f store.host).host }
      ((f store.host).notes.map .note) := by
    rw [hhost, hnotes]
    exact .perform (Activity.ofAction_apply _ _)
  have h := asked.bind attains
  show Attains vars _ store _ _ (signalsOf (_ ++ second.marks))
  rw [signalsOf_append, signalsOf_map_signal]
  exact h

/-- The same is done on both sides. -/
theorem perform (x : Activity ω α) {k k' : α → Generator ω ε β}
    (hk : ∀ a, Outlasts vars (k a) (k' a)) :
    Outlasts vars (.perform x >>= k) (.perform x >>= k') := by
  refine bind ?_ hk
  intro store steps r given _
  obtain ⟨effect, heffect, rfl⟩ := Option.map_eq_some_iff.mp given
  refine ⟨steps, rfl, ?_⟩
  rw [signalsOf_map_signal]
  exact .perform heffect

theorem resolve (name : String) :
    Outlasts vars (do let vars ← Generator.vars; return vars.resolve name : Generator ω ε Value)
      (do let vars ← Generator.vars; return vars.resolve name) := by
  refine bind ?_ fun vars => pure _
  rintro store steps r ⟨⟩ -
  exact ⟨steps, rfl, .vars_⟩

end Outlasts

end

/-! ### Conversations at different paces -/

section

variable {ι ι' ω : Type} {commands : Commands ι ω} {commands' : Commands ι' ω}
  {same : ι → ι' → Prop} {vars : Variables} {talk : Talk ι ω} {talk' : Talk ι' ω}

theorem outlasts_summon (keeps : commands.Keeps commands' same)
    (talks : ∀ name command command', same command command' →
      Outlasts vars (talk name command) (talk' name command'))
    (name : String) (arguments : List Value) :
    Outlasts vars (summon commands talk name arguments)
      (summon commands' talk' name arguments) := by
  refine .perform _ fun _ => .ask (keeps.create name arguments) ?_
  intro created created' hcreated
  rcases created with fault | command <;> rcases created' with fault' | command'
  · obtain rfl : fault = fault' := hcreated
    exact .fail fault
  · exact nomatch hcreated
  · exact nomatch hcreated
  · simp only [Generator.ofExcept, pure_bind]
    exact talks name command command' hcreated

mutual

theorem outlasts_evaluate (keeps : commands.Keeps commands' same)
    (talks : ∀ name command command', same command command' →
      Outlasts vars (talk name command) (talk' name command')) :
    ∀ e : Expr, Outlasts vars (evaluate commands talk e) (evaluate commands' talk' e)
  | .literal v => by
    rw [evaluate, evaluate]
    exact .pure v
  | .reference name => by
    rw [evaluate, evaluate]
    exact .resolve name
  | .unary _ e => by
    rw [evaluate, evaluate]
    exact .bind (outlasts_evaluate keeps talks e) fun _ => .ofExcept _
  | .binary _ l r => by
    rw [evaluate, evaluate]
    exact .bind (outlasts_evaluate keeps talks l) fun _ =>
      .bind (outlasts_evaluate keeps talks r) fun _ => .perform _ fun result => .ofExcept result
  | .call name arguments => by
    rw [evaluate, evaluate]
    exact .bind (outlasts_evaluateAll keeps talks arguments) fun values =>
      outlasts_summon keeps talks name values

theorem outlasts_evaluateAll (keeps : commands.Keeps commands' same)
    (talks : ∀ name command command', same command command' →
      Outlasts vars (talk name command) (talk' name command')) :
    ∀ es : List Expr, Outlasts vars (evaluateAll commands talk es) (evaluateAll commands' talk' es)
  | [] => by
    rw [evaluateAll, evaluateAll]
    exact .pure []
  | e :: es => by
    rw [evaluateAll, evaluateAll]
    exact .bind (outlasts_evaluate keeps talks e) fun _ =>
      .bind (outlasts_evaluateAll keeps talks es) fun _ => .pure _

end

theorem outlasts_respond (keeps : commands.Keeps commands' same)
    (talks : ∀ name command command', same command command' →
      Outlasts vars (talk name command) (talk' name command'))
    (pause pause' : Generator ω Fault Unit) (name : String)
    {x : Except Fault Reply × ι} {x' : Except Fault Reply × ι'} (hx : SameReply same x x')
    (settled : x.1 ≠ .ok .suspend) :
    Outlasts vars (respond commands pause talk name x)
      (respond commands' pause' talk' name x') := by
  obtain ⟨reply, command⟩ := x
  obtain ⟨reply', command'⟩ := x'
  obtain ⟨hreply, hcommand⟩ := hx
  obtain rfl : reply = reply' := hreply
  rcases reply with fault | v | _ | source | message
  · exact .fail fault
  · exact .perform _ fun _ => .perform _ fun _ => .pure v
  · exact absurd rfl settled
  · refine .perform _ fun found => ?_
    cases found with
    | error e => exact .fail _
    | ok request =>
      refine .bind (outlasts_evaluate keeps talks request.value) fun v => .perform _ fun _ => ?_
      exact .ask (fun host => keeps.supply command command' source v host hcommand)
        fun command command' hcommand => talks name command command' hcommand
  · exact .perform _ fun _ => .perform _ fun _ => talks name command command' hcommand

/-- What follows from the answer that an instance comes to, is what the conversation with it comes
to. -/
theorem attains_converse_of_awaits {command : ι} {name : String} {host : ω}
    {turn : Turn ω (Except Fault Reply × ι)} (awaits : commands.Awaits command host turn)
    {cache : Cache} {ending : Ending Fault Value} {store' : Store ω} {signals : List Signal}
    (attains : Attains vars
      (respond commands .yield (converse commands .yield) name turn.value)
      ⟨cache, turn.host⟩ ending store' signals) :
    Attains vars (converse commands .yield name command) ⟨cache, host⟩ ending store'
      (turn.notes.map .note ++ signals) := by
  induction awaits with
  | @now command host turn hnext h =>
    rw [converse_eq_once]
    exact (Attains.perform (Activity.await_apply hnext)).bind attains
  | @later command rest host host' notes turn h awaits ih =>
    have asked : Activity.await (commands.next command) ⟨cache, host⟩ =
        some ⟨(.ok .suspend, rest), ⟨cache, host'⟩, notes.map .note⟩ :=
      Activity.await_apply (s := ⟨cache, host⟩) h
    rw [converse_eq_once, List.map_append, List.append_assoc]
    exact (Attains.perform asked).bind (Attains.yield.bind (ih attains))

/-- The first instance may be ahead of the second, if all it has done since is to ask for time:
every answer that it comes to, with the notes of that time before it, the second comes to as
well. -/
def Pending (commands : Commands ι ω) (commands' : Commands ι' ω) (same : ι → ι' → Prop)
    (notes : List Note) (command : ι) (host : ω) (command' : ι') (host' : ω) : Prop :=
  ∀ turn, commands.Awaits command host turn → ∃ turn', commands'.Awaits command' host' turn' ∧
    Turn.Matches (SameReply same) { turn with notes := notes ++ turn.notes } turn'

theorem Pending.suspend {notes notes' : List Note} {command rest : ι} {host host₁ : ω}
    {command' : ι'} {host' : ω}
    (pending : Pending commands commands' same notes command host command' host')
    (h : commands.next command host = some ⟨(.ok .suspend, rest), host₁, notes'⟩) :
    Pending commands commands' same (notes ++ notes') rest host₁ command' host' := by
  intro turn awaits
  obtain ⟨turn', awaits', matches'⟩ := pending _ (.later h awaits)
  refine ⟨turn', awaits', matches'.value, matches'.host, ?_⟩
  rw [← matches'.notes]
  exact List.append_assoc ..

/-- **What a conversation comes to, the corresponding one comes to as well.** -/
theorem outlasts_converse (keeps : commands.Keeps commands' same) (name : String) {command : ι}
    {command' : ι'} (hcommand : same command command') :
    Outlasts vars (converse commands .yield name command)
      (converse commands' .yield name command') := by
  intro store steps r given hr
  -- The induction follows the first conversation, which may be ahead of the second.
  refine converse_induction commands .yield (motive := fun name command s r =>
    ∀ steps store notes command' host', s = .still vars store steps → r.ending ≠ .waiting →
      Pending commands commands' same notes command store.host command' host' →
      ∃ spare, r.session = .still vars r.session.store spare ∧
        Attains vars (converse commands' .yield name command') { store with host := host' }
          r.ending r.session.store (notes.map .note ++ signalsOf r.marks)) ?_ given
    steps store [] command' store.host rfl hr fun turn =>
      keeps.next command command' _ turn hcommand
  clear given hr r steps store hcommand command command' name
  rintro talk known name command _ r given steps store notes command' host' rfl hr pending
  have talks : ∀ name command command', same command command' →
      Outlasts vars (talk name command) (converse commands' .yield name command') :=
    fun name command command' hcommand store steps r given hr =>
      known name command _ r given steps store [] command' store.host rfl hr
        fun turn => keeps.next command command' _ turn hcommand
  rcases hturn : commands.next command store.host with _ | ⟨⟨reply, rest⟩, host, notes'⟩
  · rw [converseOnce_of_next_eq_none commands hturn] at given
    cases given
  rw [converseOnce_apply commands hturn] at given
  obtain ⟨second, hsecond, rfl⟩ := Option.map_eq_some_iff.mp given
  simp only [Report.after, signalsOf_append, signalsOf_map_signal]
  by_cases settled : reply = .ok .suspend
  · subst settled
    have ahead := pending.suspend hturn
    cases steps with
    | zero =>
      cases hsecond
      exact absurd rfl hr
    | succ steps =>
      obtain ⟨third, hthird, rfl⟩ := Option.map_eq_some_iff.mp hsecond
      have h := known name rest _ third hthird steps ⟨store.cache, host⟩ (notes ++ notes')
        command' host' rfl hr ahead
      rw [List.map_append, List.append_assoc] at h
      exact h
  · have awaits : commands.Awaits command store.host ⟨(reply, rest), host, notes'⟩ :=
      .now hturn settled
    obtain ⟨turn', awaits', hvalue, hhost, hnotes⟩ := pending _ awaits
    obtain ⟨spare, hsession, attains⟩ :=
      outlasts_respond keeps talks .yield .yield name hvalue settled _ steps second hsecond hr
    refine ⟨spare, hsession, ?_⟩
    have attains' : Attains vars
        (respond commands' .yield (converse commands' .yield) name turn'.value)
        ⟨store.cache, turn'.host⟩ second.ending second.session.store (signalsOf second.marks) :=
      hhost ▸ attains
    have h := attains_converse_of_awaits awaits' attains'
    rw [← hnotes, List.map_append, List.append_assoc] at h
    exact h

end

/-! ### Evaluations at different paces -/

section

variable {ι ι' ω : Type}

/-- Stepping an evaluation comes to an end in a certain way, given enough steps between which
nothing happens. -/
def Settles (commands : Commands ι ω) (e : Expr) (vars : Variables) (store : Store ω)
    (ending : Ending Fault Value) (store' : Store ω) (signals : List Signal) : Prop :=
  ∃ steps r, stepAll commands e .fresh vars store (stillFor vars steps) = some r ∧
    r.ending = ending ∧ r.session.store = store' ∧ signalsOf r.marks = signals

theorem settles_of_keeps {commands : Commands ι ω} {commands' : Commands ι' ω}
    {same : ι → ι' → Prop} (keeps : commands.Keeps commands' same) {e : Expr} {vars : Variables}
    {store store' : Store ω} {ending : Ending Fault Value} {signals : List Signal}
    (hending : ending ≠ .waiting) (h : Settles commands e vars store ending store' signals) :
    Settles commands' e vars store ending store' signals := by
  obtain ⟨steps, r, given, rfl, rfl, rfl⟩ := h
  rw [stepAll_eq_finishing] at given
  obtain ⟨-, -, needed, attains⟩ :=
    outlasts_evaluate keeps (fun name _ _ => outlasts_converse keeps name) e store steps r given
      hending
  obtain ⟨marks, hr, hmarks⟩ := attains 0
  refine ⟨needed + 0, ⟨r.ending, .still vars r.session.store 0, marks⟩, ?_, rfl, rfl, hmarks⟩
  rw [stepAll_eq_finishing]
  exact hr

/-- **Stepping an evaluation is direct evaluation**, with the same outcome of every step and the
same signals, whatever the steps find.  As long as nothing happens between the steps, commands that
differ only in how often they ask for time come to the same value or fault, with the same
effects. -/
theorem stepping_is_generating (commands : Commands ι ω) (e : Expr) :
    (∀ vars store later, stepAll commands e .fresh vars store later =
      generate commands .yield e ⟨vars, store, later⟩) ∧
    ∀ (commands' : Commands ι' ω) (same : ι → ι' → Prop), commands.Keeps commands' same →
      commands'.Keeps commands (fun command' command => same command command') →
      ∀ vars store ending store' signals, ending ≠ .waiting →
        (Settles commands e vars store ending store' signals ↔
          Settles commands' e vars store ending store' signals) := by
  refine ⟨fun vars store later => stepAll_eq_finishing commands e .fresh vars store later, ?_⟩
  intro commands' same keeps keeps' vars store ending store' signals hending
  exact ⟨settles_of_keeps keeps hending, settles_of_keeps keeps' hending⟩

theorem awaits_afterPauses (pauses : Nat) (v : Value) (n : Nat) (host : ω) :
    (Commands.afterPauses pauses v).Awaits n host (.still (.ok (.finished v), 0) host) := by
  induction n with
  | zero => exact .now rfl nofun
  | succ n ih =>
    have asked : (Commands.afterPauses pauses v).next (n + 1) host =
        some ⟨(.ok .suspend, n), host, []⟩ := rfl
    exact .later asked ih

theorem eq_of_awaits_afterPauses {pauses : Nat} {v : Value} {n : Nat} {host : ω}
    {turn : Turn ω (Except Fault Reply × Nat)}
    (h : (Commands.afterPauses pauses v).Awaits n host turn) :
    turn = .still (.ok (.finished v), 0) host := by
  induction h with
  | @now n host turn hnext h =>
    cases n with
    | zero =>
      cases hnext
      rfl
    | succ n =>
      cases hnext
      exact absurd rfl h
  | @later n rest host host' notes turn h awaits ih =>
    cases n with
    | zero => cases h
    | succ n =>
      cases h
      rw [ih]
      rfl

theorem keeps_afterPauses (pauses pauses' : Nat) (v : Value) :
    (Commands.afterPauses pauses v : Commands Nat ω).Keeps (.afterPauses pauses' v)
      fun _ _ => True where
  create _ _ _ := ⟨trivial, rfl, rfl⟩
  next _ command' host turn _ awaits := by
    refine ⟨_, awaits_afterPauses pauses' v command' host, ?_⟩
    rw [eq_of_awaits_afterPauses awaits]
    exact ⟨⟨rfl, trivial⟩, rfl, rfl⟩
  supply _ _ _ _ _ _ := ⟨trivial, rfl, rfl⟩

/-- A command that asks for time twice comes to what it comes to without. -/
theorem settles_hold_after_pauses :
    let signals := [.entered "hold" [],
      .log ⟨.trace, .evaluation, "Command `hold` finished with true"⟩, .left "hold" (.bool true)]
    Settles (.afterPauses 0 (.bool true)) (.call "hold" []) .initial ⟨.empty, ()⟩
      (.value (.bool true)) ⟨.empty, ()⟩ signals ∧
    Settles (.afterPauses 2 (.bool true)) (.call "hold" []) .initial ⟨.empty, ()⟩
      (.value (.bool true)) ⟨.empty, ()⟩ signals := by
  intro signals
  have prompt : Settles (.afterPauses 0 (.bool true)) (.call "hold" []) .initial ⟨.empty, ()⟩
      (.value (.bool true)) ⟨.empty, ()⟩ signals := by
    refine ⟨0, ⟨.value (.bool true), ⟨.initial, ⟨.empty, ()⟩, []⟩, signals.map .signal⟩, ?_,
      rfl, rfl, rfl⟩
    rw [stepAll, resume, start, starts, settle, conclude, call, drive_eq_exchange]
    rfl
  exact ⟨prompt, ((stepping_is_generating _ _).2 (Commands.afterPauses 2 (.bool true)) _
    (keeps_afterPauses 0 2 _) (keeps_afterPauses 2 0 _) _ _ (.value (.bool true)) _ _
    (by rintro ⟨⟩)).mp prompt⟩

end

end StepScript
