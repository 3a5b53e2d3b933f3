import StepScript.Command.Standard
import StepScript.Proofs.Chronicle
import StepScript.Proofs.Protocol

/-!
# Polling

The command `wait_until` asks for the value of an expression, and asks again in every cycle after
one in which the value was false.  It stops at the first value that is true, which is then its
result, or that is nothing, of which it warns.  All this happens in the cycle in which the value
becomes known, however many cycles the expression itself has taken.

What one entry in a diary makes of a poll is shown first, and from it what a poll has replied after
any number of entries.

## Main definitions

* `Value.IsDecisive` — the values that a poll stops at.
* `Commands.Polls` — commands among which `wait_until` is the one of the library.
* `repliesOf`, `valuesFor` — what an instance has replied, and what it has been given.
* `PollState` — where a poll stands after a diary.
* `Polling` — what a poll does, clause by clause.

## Main results

* `PollState.step` — what one more entry makes of a poll.
* `pollState_of_created` — where a poll stands after any diary.
* `wait_until_stops_at_first_decisive_value` — **polls stop at the first decisive value**.
-/

namespace StepScript

variable {ι ω : Type}

/-! ### Polls and their replies -/

/-- The values that a poll stops at. -/
def Value.IsDecisive (v : Value) : Prop :=
  v = .null ∨ v.isTruthy = true

/-- Commands among which `wait_until` is the one of the library, whatever its instances are
called. -/
structure Commands.Polls (commands : Commands ι ω) (poll : Poll → ι) : Prop where
  create : ∀ s host, (commands.create "wait_until" [.str s] host).value = .ok (poll ⟨s, .unknown⟩)
  next : ∀ p host,
    (commands.next (poll p) host).map Turn.value = some (.ok p.next.1, poll p.next.2)
  supply : ∀ p source v host,
    (commands.supply (poll p) source v host).value = poll (p.supply source v)

theorem Commands.Polls.value_of_next {commands : Commands ι ω} {poll : Poll → ι}
    (polls : commands.Polls poll) {p : Poll} {host : ω} {turn : Turn ω (Except Fault Reply × ι)}
    (h : commands.next (poll p) host = some turn) :
    turn.value = (.ok p.next.1, poll p.next.2) := by
  have replies := polls.next p host
  rw [h, Option.map_some] at replies
  exact Option.some.inj replies

/-- So are the commands of every registry on the standard host that has it, whatever the devices. -/
theorem polls_standardCommands {δ : Type} {devices : Devices δ}
    {r : Registry (Instance δ) (World δ)}
    (h : r.entries.lookup "wait_until" = (builtins devices).entries.lookup "wait_until") :
    (standardCommands devices r).Polls .poll where
  create s host := by
    have hbuiltin : ((builtins devices).create "wait_until" [.str s] host).value =
        .ok (.poll ⟨s, .unknown⟩) := rfl
    change (r.create "wait_until" [.str s] host).value = _
    rw [Registry.create, h]
    exact hbuiltin
  next p host := rfl
  supply p source v host := rfl

/-- The warning of a poll that is given nothing. -/
def Poll.complaint (s : String) : String :=
  "`" ++ s ++ "` evaluated to null, no longer waiting"

/-- The replies of a poll up to the last of some values that do not decide. -/
def Poll.rounds (s : String) (values : List Value) : List (Except Fault Reply) :=
  values.flatMap fun _ => [.ok (.request s), .ok .suspend]

/-- The replies of a poll to a value that decides. -/
def Poll.conclusion (s : String) : Value → List (Except Fault Reply)
  | .null => [.ok (.warning (complaint s)), .ok (.finished .null)]
  | v => [.ok (.finished v)]

theorem Poll.rounds_concat (s : String) (values : List Value) (v : Value) :
    rounds s (values ++ [v]) = rounds s values ++ [.ok (.request s), .ok .suspend] := by
  simp [rounds]

theorem Poll.conclusion_of_ne_null {v : Value} (s : String) (h : v ≠ .null) :
    conclusion s v = [.ok (.finished v)] := by
  cases v with
  | null => exact absurd rfl h
  | bool | int | float | str | wildcard | host => rfl

/-- What a poll replies once it has been given something. -/
theorem Poll.next_of_known {v : Value} (s : String) (h : v ≠ .null) :
    Poll.next ⟨s, .known v⟩ = (if v.isTruthy then .finished v else .suspend, ⟨s, .unknown⟩) := by
  cases v with
  | null => exact absurd rfl h
  | bool | int | float | str | wildcard | host => rfl

/-- What an instance has replied. -/
def repliesOf (id : Nat) (diary : List (Entry ι ω)) : List (Except Fault Reply) :=
  diary.filterMap fun
    | .stepped i _ reply _ _ => if i = id then some reply else none
    | _ => none

/-- What an instance has been given. -/
def valuesFor (id : Nat) (diary : List (Entry ι ω)) : List Value :=
  diary.filterMap fun
    | .supplied i _ _ v _ => if i = id then some v else none
    | _ => none

section

variable {id : Nat} {diary : List (Entry ι ω)} {entry : Entry ι ω}

theorem repliesOf_append (first second : List (Entry ι ω)) :
    repliesOf id (first ++ second) = repliesOf id first ++ repliesOf id second :=
  List.filterMap_append

theorem valuesFor_append (first second : List (Entry ι ω)) :
    valuesFor id (first ++ second) = valuesFor id first ++ valuesFor id second :=
  List.filterMap_append

theorem repliesOf_stepped (before after : ι) (reply : Except Fault Reply) (host : ω) :
    repliesOf id [.stepped id before reply after host] = [reply] := by
  simp [repliesOf]

theorem valuesFor_supplied (before after : ι) (source : String) (v : Value) :
    valuesFor id [(.supplied id before source v after : Entry ι ω)] = [v] := by
  simp [valuesFor]

theorem repliesOf_untouched (h : Untouched id diary) : repliesOf id diary = [] := by
  refine List.filterMap_eq_nil_iff.mpr fun entry hentry => ?_
  have hid := h entry hentry
  cases entry with
  | stepped i before reply after host => exact if_neg fun hi => hid (congrArg some hi)
  | cycle | created | supplied => rfl

theorem valuesFor_untouched (h : Untouched id diary) : valuesFor id diary = [] := by
  refine List.filterMap_eq_nil_iff.mpr fun entry hentry => ?_
  have hid := h entry hentry
  cases entry with
  | supplied i before source v after => exact if_neg fun hi => hid (congrArg some hi)
  | cycle | created | stepped => rfl

end

/-! ### Where a poll stands -/

/-- What a poll has been given and has replied, and no value but the last may have decided. -/
structure Exchange (id : Nat) (s : String) (diary : List (Entry ι ω)) (undecided given : List Value)
    (replies : List (Except Fault Reply)) : Prop where
  indecisive : ∀ u ∈ undecided, ¬ u.IsDecisive
  values : valuesFor id diary = undecided ++ given
  replies : repliesOf id diary = Poll.rounds s undecided ++ replies

/-- Where a poll stands after a diary. -/
inductive PollState (poll : Poll → ι) (id : Nat) (s : String) (diary : List (Entry ι ω)) : Prop
  /-- It is to be stepped, and will ask. -/
  | ready {us : List Value} (exchange : Exchange id s diary us [] [])
    (floor : floorAfter diary = .turn id (poll ⟨s, .unknown⟩))
  /-- It has asked for time. -/
  | asleep {us : List Value} (exchange : Exchange id s diary us [] [])
    (floor : floorAfter diary = .asleep id (poll ⟨s, .unknown⟩))
  /-- It has asked for the value. -/
  | asked {us : List Value} (exchange : Exchange id s diary us [] [.ok (.request s)])
    {past rest : List (Entry ι ω)} {first : ι} {host : ω}
    (last : diary = past ++ .stepped id first (.ok (.request s)) (poll ⟨s, .unknown⟩) host :: rest)
    (untouched : Untouched id rest)
  /-- It has been given the value, and is to be stepped. -/
  | known {us : List Value} (v : Value) (exchange : Exchange id s diary us [v] [.ok (.request s)])
    (floor : floorAfter diary = .turn id (poll ⟨s, .known v⟩))
  /-- It has been given nothing and has warned, and is to be stepped. -/
  | abandoned {us : List Value} (exchange : Exchange id s diary us [.null]
      [.ok (.request s), .ok (.warning (Poll.complaint s))])
    (floor : floorAfter diary = .turn id (poll ⟨s, .abandoned⟩))
  /-- It has finished. -/
  | finished {us : List Value} (v : Value) (decisive : v.IsDecisive)
    (exchange : Exchange id s diary us [v] (.ok (.request s) :: Poll.conclusion s v))
    {past rest : List (Entry ι ω)} {before after : ι} {host : ω}
    (last : diary = past ++ .stepped id before (.ok (.finished v)) after host :: rest)
    (untouched : Untouched id rest)

section

variable {commands : Commands ι ω} {poll : Poll → ι} {id : Nat} {s : String}
  {diary : List (Entry ι ω)} {entry : Entry ι ω}

theorem Exchange.other {us given : List Value} {replies : List (Except Fault Reply)}
    (h : Exchange id s diary us given replies) (hid : entry.id? ≠ some id) :
    Exchange id s (diary ++ [entry]) us given replies := by
  have untouched : Untouched id [entry] := List.forall_mem_singleton.mpr hid
  refine ⟨h.indecisive, ?_, ?_⟩
  · rw [valuesFor_append, valuesFor_untouched untouched, List.append_nil, h.values]
  · rw [repliesOf_append, repliesOf_untouched untouched, List.append_nil, h.replies]

theorem Exchange.stepped {us given : List Value} {replies : List (Except Fault Reply)}
    (h : Exchange id s diary us given replies) (before after : ι) (reply : Except Fault Reply)
    (host : ω) :
    Exchange id s (diary ++ [.stepped id before reply after host]) us given
      (replies ++ [reply]) where
  indecisive := h.indecisive
  values := by
    rw [valuesFor_append, h.values]
    exact List.append_nil _
  replies := by rw [repliesOf_append, h.replies, repliesOf_stepped, List.append_assoc]

theorem Exchange.supplied {us given : List Value} {replies : List (Except Fault Reply)}
    (h : Exchange id s diary us given replies) (before after : ι) (source : String) (v : Value) :
    Exchange id s (diary ++ [.supplied id before source v after]) us (given ++ [v]) replies where
  indecisive := h.indecisive
  values := by rw [valuesFor_append, h.values, valuesFor_supplied, List.append_assoc]
  replies := by
    rw [repliesOf_append, h.replies]
    exact List.append_nil _

/-- A value that does not decide ends a round. -/
theorem Exchange.round {us : List Value} {v : Value}
    (h : Exchange id s diary us [v] [.ok (.request s), .ok .suspend]) (hv : ¬ v.IsDecisive) :
    Exchange id s diary (us ++ [v]) [] [] where
  indecisive := List.forall_mem_append.mpr ⟨h.indecisive, List.forall_mem_singleton.mpr hv⟩
  values := by rw [h.values, List.append_nil]
  replies := by rw [h.replies, Poll.rounds_concat, List.append_nil]

/-- A poll that is to be stepped is, and replies as polls do. -/
theorem stepped_of_turn_poll {p : Poll} (polls : commands.Polls poll)
    (lawful : Lawful commands (diary ++ [entry])) (genuine : entry.Genuine commands)
    (floor : floorAfter diary = .turn id (poll p)) :
    ∃ host, entry = .stepped id (poll p) (.ok p.next.1) (poll p.next.2) host := by
  obtain ⟨reply, after, host, rfl⟩ := lawful.stepped_of_turn floor
  obtain ⟨host', turn, hnext, hvalue⟩ := genuine
  cases hvalue.symm.trans (polls.value_of_next hnext)
  exact ⟨host, rfl⟩

/-- A poll that has asked for the value is addressed again only to be given it. -/
theorem supplied_of_asked {past rest : List (Entry ι ω)} {first : ι} {host : ω}
    (polls : commands.Polls poll)
    (lawful : Lawful commands (past ++
      .stepped id first (.ok (.request s)) (poll ⟨s, .unknown⟩) host :: rest ++ [entry]))
    (genuine : entry.Genuine commands) (untouched : Untouched id rest)
    (hid : entry.id? = some id) :
    ∃ v, entry = .supplied id (poll ⟨s, .unknown⟩) s v (poll ⟨s, .known v⟩) := by
  rcases lawful.next_about rfl hid untouched with
    ⟨_, _, _, _, hkeeps, -⟩ | ⟨_, _, _, _, v, after, _, _, hrequest, rfl, -⟩
  · cases hkeeps
  · cases hrequest
    obtain ⟨host', hsupply⟩ := genuine
    rw [polls.supply, Poll.supply, if_pos rfl] at hsupply
    exact ⟨v, by rw [hsupply]⟩

/-- **What one more entry makes of a poll.** -/
theorem PollState.step (polls : commands.Polls poll) (state : PollState poll id s diary)
    (lawful : Lawful commands (diary ++ [entry])) (genuine : entry.Genuine commands) :
    PollState poll id s (diary ++ [entry]) := by
  cases state with
  | ready exchange floor =>
    -- it is the turn of the poll, which asks
    obtain ⟨host, rfl⟩ := stepped_of_turn_poll polls lawful genuine floor
    exact .asked (exchange.stepped _ _ _ _) rfl (.nil id)
  | asleep exchange floor =>
    -- it has asked for time, and only the next cycle can come
    obtain ⟨vars, host, rfl⟩ := lawful.cycle_of_asleep floor
    refine .ready (exchange.other (by rintro ⟨⟩)) ?_
    rw [floorAfter_concat, floor]
    rfl
  | @asked us exchange past rest first host last untouched =>
    -- anything may happen to other instances before the answer comes
    subst last
    by_cases hid : entry.id? = some id
    · obtain ⟨v, rfl⟩ := supplied_of_asked polls lawful genuine untouched hid
      exact .known v (exchange.supplied _ _ _ _) (by rw [floorAfter_concat]; rfl)
    · have hlast : past ++ .stepped id first (.ok (.request s)) (poll ⟨s, .unknown⟩) host :: rest ++
          [entry] = past ++ .stepped id first (.ok (.request s)) (poll ⟨s, .unknown⟩) host ::
            (rest ++ [entry]) := by simp
      exact .asked (exchange.other hid) hlast
        (untouched_append.mpr ⟨untouched, List.forall_mem_singleton.mpr hid⟩)
  | known v exchange floor =>
    -- the value decides what the poll replies
    obtain ⟨host, rfl⟩ := stepped_of_turn_poll polls lawful genuine floor
    by_cases hnull : v = .null
    · subst hnull
      exact .abandoned (exchange.stepped _ _ _ _) (by rw [floorAfter_concat]; rfl)
    · rw [Poll.next_of_known s hnull]
      by_cases truthy : v.isTruthy = true
      · rw [if_pos truthy]
        have exchange' := exchange.stepped (poll ⟨s, .known v⟩) (poll ⟨s, .unknown⟩)
          (.ok (.finished v)) host
        rw [List.singleton_append, ← Poll.conclusion_of_ne_null s hnull] at exchange'
        exact .finished v (.inr truthy) exchange' rfl (.nil id)
      · rw [if_neg truthy]
        have indecisive : ¬ v.IsDecisive := not_or.mpr ⟨hnull, truthy⟩
        exact .asleep ((exchange.stepped _ _ _ _).round indecisive) (by rw [floorAfter_concat]; rfl)
  | abandoned exchange floor =>
    -- behind its warning the poll finishes with nothing
    obtain ⟨host, rfl⟩ := stepped_of_turn_poll polls lawful genuine floor
    exact .finished .null (.inl rfl) (exchange.stepped _ _ _ _) rfl (.nil id)
  | @finished us v decisive exchange past rest before after host last _ =>
    -- it has finished, and is not addressed again
    have hlast : diary ++ [entry] =
        past ++ .stepped id before (.ok (.finished v)) after host :: (rest ++ [entry]) := by
      simp [last]
    rw [hlast] at lawful
    have untouched := lawful.untouched_of_ended rfl rfl (by rintro _ _ _ _ _ ⟨⟩)
    have hid : entry.id? ≠ some id := (untouched_append.mp untouched).2 entry List.mem_cons_self
    exact .finished v decisive (exchange.other hid) hlast untouched

/-- **Where a poll stands after any diary.** -/
theorem pollState_of_created {past later : List (Entry ι ω)} {result : Except Fault ι}
    (polls : commands.Polls poll)
    (lawful : Lawful commands (past ++ .created id "wait_until" [.str s] result :: later))
    (genuine : ∀ entry ∈ past ++ .created id "wait_until" [.str s] result :: later,
      entry.Genuine commands) :
    PollState poll id s (past ++ .created id "wait_until" [.str s] result :: later) := by
  -- entries are written at the end, so that is where the induction takes them off
  induction later using List.reverseRecOn with
  | nil =>
    obtain ⟨host, hcreate⟩ := genuine (.created id "wait_until" [.str s] result) (by simp)
    rw [polls.create] at hcreate
    subst hcreate
    -- the number is a new one
    have untouched : Untouched id past := by
      intro entry hentry hid
      have hlt := lawful.left.id_lt hentry hid
      cases lawful.last
      exact Nat.lt_irrefl _ hlt
    have exchange : Exchange id s
        (past ++ [.created id "wait_until" [.str s] (.ok (poll ⟨s, .unknown⟩))]) [] [] [] := by
      refine ⟨List.forall_mem_nil _, ?_, ?_⟩
      · rw [valuesFor_append, valuesFor_untouched untouched]
        rfl
      · rw [repliesOf_append, repliesOf_untouched untouched]
        rfl
    exact .ready exchange (by rw [floorAfter_concat]; rfl)
  | append_singleton later entry ih =>
    have hsplit : past ++ .created id "wait_until" [.str s] result :: (later ++ [entry]) =
        past ++ .created id "wait_until" [.str s] result :: later ++ [entry] := by simp
    rw [hsplit] at lawful genuine ⊢
    obtain ⟨hbefore, hentry⟩ := List.forall_mem_append.mp genuine
    exact (ih lawful.left hbefore).step polls lawful (hentry entry List.mem_cons_self)

/-- Nothing is about an instance before it is created. -/
theorem Lawful.created_before {past past' later later' : List (Entry ι ω)} {name : String}
    {values : List Value} {result : Except Fault ι}
    (lawful : Lawful commands (past ++ .created id name values result :: later))
    (h : past ++ .created id name values result :: later = past' ++ entry :: later')
    (hid : entry.id? = some id) (hentry : entry ≠ .created id name values result) :
    ∃ between, past' = past ++ .created id name values result :: between := by
  rcases List.append_eq_append_iff.mp h with ⟨between, hpast', hrest⟩ | ⟨between, hpast, hrest⟩
  · cases between with
    | nil =>
      cases hrest
      exact absurd rfl hentry
    | cons x between =>
      cases hrest
      exact ⟨between, hpast'⟩
  · cases between with
    | nil =>
      cases hrest
      exact absurd rfl hentry
    | cons x between =>
      cases hrest
      have hmem : entry ∈ past := by simp [hpast]
      have hlt := lawful.left.id_lt hmem hid
      cases lawful past _ later rfl
      exact absurd hlt (Nat.lt_irrefl _)

/-- What a poll is given is the value that it has asked for. -/
theorem PollState.supplied {before after : ι} {source : String} {v : Value}
    (polls : commands.Polls poll) (state : PollState poll id s diary)
    (lawful : Lawful commands (diary ++ [.supplied id before source v after]))
    (genuine : (Entry.supplied id before source v after : Entry ι ω).Genuine commands) :
    source = s ∧ after = poll ⟨s, .known v⟩ := by
  cases state with
  | ready _ floor | known _ _ floor | abandoned _ floor =>
    obtain ⟨_, _, _, h⟩ := lawful.stepped_of_turn floor
    cases h
  | asleep _ floor =>
    obtain ⟨_, _, h⟩ := lawful.cycle_of_asleep floor
    cases h
  | asked exchange last untouched =>
    subst last
    obtain ⟨v', h⟩ := supplied_of_asked polls lawful genuine untouched rfl
    cases h
    exact ⟨rfl, rfl⟩
  | @finished us v decisive exchange past rest before' after' host last _ =>
    subst last
    rw [List.append_assoc, List.cons_append] at lawful
    have untouched := lawful.untouched_of_ended rfl rfl (by rintro _ _ _ _ _ ⟨⟩)
    exact absurd rfl ((untouched_append.mp untouched).2 _ List.mem_cons_self)

/-- After a poll has asked for time, it is as in the beginning. -/
theorem PollState.suspended {before after : ι} {host : ω}
    (state : PollState poll id s (diary ++ [.stepped id before (.ok .suspend) after host])) :
    after = poll ⟨s, .unknown⟩ := by
  have hfloor : floorAfter (diary ++ [.stepped id before (.ok .suspend) after host]) =
      .asleep id after := by
    rw [floorAfter_concat]
    rfl
  cases state with
  | ready _ floor | known _ _ floor | abandoned _ floor =>
    rw [hfloor] at floor
    cases floor
  | asleep _ floor =>
    rw [hfloor] at floor
    cases floor
    rfl
  | asked _ last untouched | finished _ _ _ last untouched =>
    obtain ⟨-, h, -⟩ := eq_of_last_about last rfl rfl (.nil id) untouched
    cases h

end

/-! ### Runs -/

/-- The result in a reply. -/
def resultOf? : Except Fault Reply → Option Value
  | .ok (.finished v) => some v
  | _ => none

/-- The expression that a reply asks for. -/
def requestOf? : Except Fault Reply → Option String
  | .ok (.request source) => some source
  | _ => none

/-- The warning in a reply. -/
def warningOf? : Except Fault Reply → Option String
  | .ok (.warning message) => some message
  | _ => none

/-- Whether a reply asks for time. -/
def asksForTime : Except Fault Reply → Bool
  | .ok .suspend => true
  | _ => false

/-- **What a poll does**, as the diary of a run shows it. -/
structure Polling (commands : Commands ι ω) (p : Program (Tagged ι)) (diary : List (Entry ι ω))
    (id : Nat) (s : String) (e : Expr) : Prop where
  /-- It asks for its expression only.  The expression is evaluated from scratch; the poll is given
  its value, or the evaluation fails, and the program with it, or is not complete yet. -/
  asks : ∀ past before source after host later,
    diary = past ++ .stepped id before (.ok (.request source)) after host :: later →
    source = s ∧ ∃ vars, varsAt past = some vars ∧
      p.Follows commands id after s e vars host later
  /-- It is given only what it has asked for. -/
  given : ∀ past before source v after later,
    diary = past ++ .supplied id before source v after :: later →
    source = s ∧ ∃ past' first host between vars,
      past = past' ++ .stepped id first (.ok (.request s)) before host :: between ∧
      Untouched id between ∧ varsAt past' = some vars ∧
      EvaluatesTo commands e vars host (cyclesOf between) (.value v)
  /-- It finishes if and only if one of the values decides. -/
  finishes : (repliesOf id diary).filterMap resultOf? ≠ [] ↔
    ∃ v ∈ valuesFor id diary, v.IsDecisive
  /-- At the first value that decides, it is given no more; this value is its result; it has asked
  once for each value, and has asked for time once for each value before; and it has warned once if
  the value is nothing, and not at all otherwise. -/
  decided : ∀ us v ws, valuesFor id diary = us ++ v :: ws → (∀ u ∈ us, ¬ u.IsDecisive) →
    v.IsDecisive → ws = [] ∧ (repliesOf id diary).filterMap resultOf? = [v] ∧
      (repliesOf id diary).filterMap requestOf? = List.replicate (us.length + 1) s ∧
      (repliesOf id diary).countP asksForTime = us.length ∧
      (v = .null → (repliesOf id diary).filterMap warningOf? = [Poll.complaint s]) ∧
      (v ≠ .null → (repliesOf id diary).filterMap warningOf? = [])
  /-- It replies directly to the value that it is given, in the same cycle. -/
  prompt : ∀ past before v after later, diary = past ++ .supplied id before s v after :: later →
    (¬ v.IsDecisive → ∃ after' host rest,
      later = .stepped id after (.ok .suspend) after' host :: rest) ∧
    (v = .null → ∃ after' host after'' host' rest,
      later = .stepped id after (.ok (.warning (Poll.complaint s))) after' host ::
        .stepped id after' (.ok (.finished .null)) after'' host' :: rest) ∧
    (v ≠ .null → v.IsDecisive → ∃ after' host rest,
      later = .stepped id after (.ok (.finished v)) after' host :: rest)
  /-- After it has asked for time, it asks for its expression as soon as the next cycle begins. -/
  again : ∀ past before after host later,
    diary = past ++ .stepped id before (.ok .suspend) after host :: later →
    later = [] ∨ ∃ vars host' after' host'' rest, later = .cycle vars host' ::
      .stepped id after (.ok (.request s)) after' host'' :: rest

section

variable {commands : Commands ι ω} {poll : Poll → ι} {id : Nat} {s : String}
  {diary : List (Entry ι ω)}

theorem Poll.rounds_cons (s : String) (u : Value) (us : List Value) :
    rounds s (u :: us) = .ok (.request s) :: .ok .suspend :: rounds s us := rfl

/-- In its rounds a poll only makes requests and asks for time. -/
theorem filterMap_rounds {α : Type} {view : Except Fault Reply → Option α}
    (request : view (.ok (.request s)) = none) (suspend : view (.ok .suspend) = none)
    (us : List Value) : (Poll.rounds s us).filterMap view = [] := by
  induction us with
  | nil => rfl
  | cons u us ih =>
    rwa [Poll.rounds_cons, List.filterMap_cons_none request, List.filterMap_cons_none suspend]

theorem requests_rounds (s : String) (us : List Value) :
    (Poll.rounds s us).filterMap requestOf? = List.replicate us.length s := by
  induction us with
  | nil => rfl
  | cons u us ih =>
    have hask : requestOf? (.ok (.request s)) = some s := rfl
    rw [Poll.rounds_cons, List.filterMap_cons_some hask, List.filterMap_cons_none rfl, ih,
      List.length_cons, List.replicate_succ]

theorem suspensions_rounds (s : String) (us : List Value) :
    (Poll.rounds s us).countP asksForTime = us.length := by
  induction us with
  | nil => rfl
  | cons u us ih =>
    rw [Poll.rounds_cons, List.countP_cons_of_neg (by simp [asksForTime]),
      List.countP_cons_of_pos rfl, ih, List.length_cons]

/-- Between two cycles a poll waits, for the next cycle or for the value, or it has finished. -/
theorem PollState.between (state : PollState poll id s diary)
    (hfloor : ∀ command, floorAfter diary ≠ .turn id command) :
    (∃ us replies, Exchange id s diary us [] replies ∧
      (replies = [] ∨ replies = [.ok (.request s)])) ∨
    ∃ us v, v.IsDecisive ∧
      Exchange id s diary us [v] (.ok (.request s) :: Poll.conclusion s v) := by
  cases state with
  | ready _ floor | known _ _ floor | abandoned _ floor => exact absurd floor (hfloor _)
  | asleep exchange => exact .inl ⟨_, _, exchange, .inl rfl⟩
  | asked exchange => exact .inl ⟨_, _, exchange, .inr rfl⟩
  | finished v decisive exchange => exact .inr ⟨_, v, decisive, exchange⟩

theorem Exchange.not_decisive {us : List Value} {replies : List (Except Fault Reply)}
    (exchange : Exchange id s diary us [] replies) {v : Value} (hv : v ∈ valuesFor id diary) :
    ¬ v.IsDecisive := by
  rw [exchange.values, List.append_nil] at hv
  exact exchange.indecisive v hv

/-- A list has only one first member of a kind. -/
theorem eq_of_first {α : Type} {P : α → Prop} {us vs ws : List α} {v w : α}
    (h : us ++ v :: ws = vs ++ [w]) (hvs : ∀ x ∈ vs, ¬ P x) (hv : P v) :
    us = vs ∧ v = w ∧ ws = [] := by
  rcases List.append_eq_append_iff.mp h with ⟨between, rfl, hrest⟩ | ⟨between, rfl, hrest⟩
  · cases between with
    | nil =>
      cases hrest
      exact ⟨(List.append_nil _).symm, rfl, rfl⟩
    | cons x between =>
      cases hrest
      exact absurd hv (hvs v (by simp))
  · cases between with
    | nil =>
      cases hrest
      exact ⟨List.append_nil _, rfl, rfl⟩
    | cons x between =>
      have hlength := congrArg List.length hrest
      simp only [List.length_append, List.length_cons, List.length_nil] at hlength
      omega

theorem results_of_finished {us : List Value} {v : Value}
    (exchange : Exchange id s diary us [v] (.ok (.request s) :: Poll.conclusion s v)) :
    (repliesOf id diary).filterMap resultOf? = [v] := by
  rw [exchange.replies, List.filterMap_append, filterMap_rounds rfl rfl]
  cases v <;> rfl

/-- What a poll has replied when it has finished. -/
theorem Exchange.decided {us : List Value} {v : Value}
    (exchange : Exchange id s diary us [v] (.ok (.request s) :: Poll.conclusion s v)) :
    (repliesOf id diary).filterMap requestOf? = List.replicate (us.length + 1) s ∧
      (repliesOf id diary).countP asksForTime = us.length ∧
      (v = .null → (repliesOf id diary).filterMap warningOf? = [Poll.complaint s]) ∧
      (v ≠ .null → (repliesOf id diary).filterMap warningOf? = []) := by
  rw [exchange.replies]
  refine ⟨?_, ?_, ?_, ?_⟩
  · rw [List.filterMap_append, requests_rounds, List.replicate_succ']
    cases v <;> rfl
  · rw [List.countP_append, suspensions_rounds]
    cases v <;> rfl
  · rintro rfl
    rw [List.filterMap_append, filterMap_rounds rfl rfl]
    rfl
  · intro hnull
    rw [List.filterMap_append, filterMap_rounds rfl rfl, Poll.conclusion_of_ne_null s hnull]
    rfl

/-- Between two cycles a poll has asked for its expression only. -/
theorem PollState.requests (state : PollState poll id s diary)
    (hfloor : ∀ command, floorAfter diary ≠ .turn id command) :
    ∀ source ∈ (repliesOf id diary).filterMap requestOf?, source = s := by
  intro source hsource
  rcases state.between hfloor with ⟨us, replies, exchange, rfl | rfl⟩ | ⟨us, v, -, exchange⟩
  · rw [exchange.replies, List.append_nil, requests_rounds] at hsource
    exact List.eq_of_mem_replicate hsource
  · rw [exchange.replies, List.filterMap_append, requests_rounds] at hsource
    rcases List.mem_append.mp hsource with hsource | hsource
    · exact List.eq_of_mem_replicate hsource
    · exact List.mem_singleton.mp hsource
  · rw [exchange.decided.1] at hsource
    exact List.eq_of_mem_replicate hsource

/-- Between two cycles a poll has finished if and only if one of the values decides. -/
theorem PollState.finishes (state : PollState poll id s diary)
    (hfloor : ∀ command, floorAfter diary ≠ .turn id command) :
    (repliesOf id diary).filterMap resultOf? ≠ [] ↔ ∃ v ∈ valuesFor id diary, v.IsDecisive := by
  rcases state.between hfloor with ⟨us, replies, exchange, hreplies⟩ | ⟨us, v, decisive, exchange⟩
  · have unfinished : (repliesOf id diary).filterMap resultOf? = [] := by
      rw [exchange.replies, List.filterMap_append, filterMap_rounds rfl rfl]
      rcases hreplies with rfl | rfl <;> rfl
    constructor
    · intro hresults
      exact absurd unfinished hresults
    · intro ⟨v, hv, decisive⟩
      exact absurd decisive (exchange.not_decisive hv)
  · have hv : v ∈ valuesFor id diary := by
      rw [exchange.values]
      simp
    have hresults : (repliesOf id diary).filterMap resultOf? ≠ [] := by
      rw [results_of_finished exchange]
      exact List.cons_ne_nil _ _
    exact ⟨fun _ => ⟨v, hv, decisive⟩, fun _ => hresults⟩

/-- Between two cycles a poll that has been given a decisive value has finished with the first. -/
theorem PollState.finished_of_decisive (state : PollState poll id s diary)
    (hfloor : ∀ command, floorAfter diary ≠ .turn id command) {us ws : List Value} {v : Value}
    (hvalues : valuesFor id diary = us ++ v :: ws) (hv : v.IsDecisive) :
    ws = [] ∧ Exchange id s diary us [v] (.ok (.request s) :: Poll.conclusion s v) := by
  rcases state.between hfloor with ⟨us', replies, exchange, -⟩ | ⟨us', v', -, exchange⟩
  · have mem : v ∈ valuesFor id diary := by
      rw [hvalues]
      simp
    exact absurd hv (exchange.not_decisive mem)
  · obtain ⟨rfl, rfl, rfl⟩ :=
      eq_of_first (hvalues.symm.trans exchange.values) exchange.indecisive hv
    exact ⟨rfl, exchange⟩

theorem mem_requests {past later : List (Entry ι ω)} {before after : ι} {source : String}
    {host : ω} :
    source ∈ (repliesOf id
      (past ++ .stepped id before (.ok (.request source)) after host :: later)).filterMap
        requestOf? := by
  rw [← List.singleton_append, repliesOf_append, repliesOf_append, repliesOf_stepped]
  simp [requestOf?]

/-- Where a poll stands after a diary that it was created in. -/
theorem pollState_of_mem {result : Except Fault ι} (polls : commands.Polls poll)
    (lawful : Lawful commands diary) (genuine : ∀ entry ∈ diary, entry.Genuine commands)
    (created : .created id "wait_until" [.str s] result ∈ diary) : PollState poll id s diary := by
  obtain ⟨past, later, rfl⟩ := List.append_of_mem created
  exact pollState_of_created polls lawful genuine

/-- Where a poll stands before a message to it. -/
theorem pollState_before {result : Except Fault ι} (polls : commands.Polls poll)
    (lawful : Lawful commands diary) (genuine : ∀ entry ∈ diary, entry.Genuine commands)
    (created : .created id "wait_until" [.str s] result ∈ diary) {past later : List (Entry ι ω)}
    {entry : Entry ι ω} (hdiary : diary = past ++ entry :: later) (hid : entry.id? = some id)
    (hentry : entry ≠ .created id "wait_until" [.str s] result) : PollState poll id s past := by
  obtain ⟨past₀, later₀, hcreated⟩ := List.append_of_mem created
  obtain ⟨between, rfl⟩ :=
    Lawful.created_before (hcreated ▸ lawful) (hcreated.symm.trans hdiary) hid hentry
  rw [hdiary] at lawful genuine
  exact pollState_of_created polls lawful.left (List.forall_mem_append.mp genuine).1

namespace Account

variable {calls : List (String × List Value)} {ending : Ending Fault Unit}
  {past later : List (Entry ι ω)} {result : Except Fault ι}

/-- A poll that is to be stepped is so before the cycle ends, and replies as polls do. -/
theorem stepped_poll {p : Poll} (account : Account commands (past ++ later) calls ending)
    (polls : commands.Polls poll) (genuine : ∀ entry ∈ past ++ later, entry.Genuine commands)
    (floor : floorAfter past = .turn id (poll p)) :
    ∃ host rest, later = .stepped id (poll p) (.ok p.next.1) (poll p.next.2) host :: rest := by
  obtain ⟨reply, after, host, rest, rfl⟩ := account.stepped_of_turn floor
  obtain ⟨host', turn, hnext, hvalue⟩ :=
    genuine (.stepped id (poll p) reply after host) (by simp)
  cases hvalue.symm.trans (polls.value_of_next hnext)
  exact ⟨host, rest, rfl⟩

/-- A poll replies directly to a value. -/
theorem reply_of_supplied (account : Account commands diary calls ending)
    (polls : commands.Polls poll) (genuine : ∀ entry ∈ diary, entry.Genuine commands)
    (created : .created id "wait_until" [.str s] result ∈ diary) {before after : ι}
    {source : String} {v : Value}
    (hdiary : diary = past ++ .supplied id before source v after :: later) :
    source = s ∧ ∃ host rest, later = .stepped id after (.ok (Poll.next ⟨s, .known v⟩).1)
      (poll (Poll.next ⟨s, .known v⟩).2) host :: rest := by
  have state := pollState_before polls account.lawful genuine created hdiary rfl (by rintro ⟨⟩)
  rw [← List.singleton_append, ← List.append_assoc] at hdiary
  rw [hdiary] at account genuine
  have hsupplied := genuine (.supplied id before source v after) (by simp)
  obtain ⟨hsource, rfl⟩ := state.supplied polls account.lawful.left hsupplied
  have floor : floorAfter (past ++ [.supplied id before source v (poll ⟨s, .known v⟩)]) =
      .turn id (poll ⟨s, .known v⟩) := by
    rw [floorAfter_concat]
    rfl
  exact ⟨hsource, account.stepped_poll polls genuine floor⟩

/-- A poll that has been given nothing finishes directly after its warning. -/
theorem reply_of_null (account : Account commands diary calls ending)
    (polls : commands.Polls poll) (genuine : ∀ entry ∈ diary, entry.Genuine commands)
    (created : .created id "wait_until" [.str s] result ∈ diary) {before after : ι}
    {source : String} (hdiary : diary = past ++ .supplied id before source .null after :: later) :
    ∃ after' host after'' host' rest,
      later = .stepped id after (.ok (.warning (Poll.complaint s))) after' host ::
        .stepped id after' (.ok (.finished .null)) after'' host' :: rest := by
  obtain ⟨-, host, rest, rfl⟩ := account.reply_of_supplied polls genuine created hdiary
  have hsplit : diary = (past ++ [.supplied id before source .null after,
      .stepped id after (.ok (.warning (Poll.complaint s))) (poll ⟨s, .abandoned⟩) host]) ++
      rest := by
    rw [hdiary]
    simp [Poll.next, Poll.complaint]
  rw [hsplit] at account genuine
  have floor : floorAfter (past ++ [.supplied id before source .null after,
      .stepped id after (.ok (.warning (Poll.complaint s))) (poll ⟨s, .abandoned⟩) host]) =
      .turn id (poll ⟨s, .abandoned⟩) := by
    rw [List.append_cons, floorAfter_concat]
    rfl
  obtain ⟨host', rest', rfl⟩ := account.stepped_poll polls genuine floor
  exact ⟨_, host, _, host', rest', rfl⟩

/-- A poll that has asked for time asks for its expression as soon as the next cycle begins. -/
theorem request_of_suspended (account : Account commands diary calls ending)
    (polls : commands.Polls poll) (genuine : ∀ entry ∈ diary, entry.Genuine commands)
    (created : .created id "wait_until" [.str s] result ∈ diary) {before after : ι} {host : ω}
    (hdiary : diary = past ++ .stepped id before (.ok .suspend) after host :: later) :
    later = [] ∨ ∃ vars host' after' host'' rest, later = .cycle vars host' ::
      .stepped id after (.ok (.request s)) after' host'' :: rest := by
  have state := pollState_before polls account.lawful genuine created hdiary rfl (by rintro ⟨⟩)
  rw [← List.singleton_append, ← List.append_assoc] at hdiary
  rw [hdiary] at account genuine
  have hstepped := genuine (.stepped id before (.ok .suspend) after host) (by simp)
  have hafter := (state.step polls account.lawful.left hstepped).suspended
  have floor : floorAfter (past ++ [.stepped id before (.ok .suspend) after host]) =
      .asleep id after := by
    rw [floorAfter_concat]
    rfl
  rcases account.suspended floor with hlater | ⟨vars, host', reply, after', host'', rest, rfl⟩
  · exact .inl hlater
  · obtain ⟨_, turn, hnext, hvalue⟩ :=
      genuine (.stepped id after reply after' host'') (by simp)
    rw [hafter] at hnext
    cases hvalue.symm.trans (polls.value_of_next hnext)
    exact .inr ⟨vars, host', _, host'', rest, rfl⟩

end Account

end

/-- **The polls in a run.** -/
theorem polling_of_records {commands : Commands ι ω} {poll : Poll → ι} (polls : commands.Polls poll)
    {q : Program (Tagged ι)} {t : Store (Recorder ι ω)} {signals : List Signal}
    (records : q.Records commands t signals) {id : Nat} {s : String} {e : Expr}
    {result : Except Fault ι} (created : .created id "wait_until" [.str s] result ∈ t.host.diary)
    (hparse : parseExpr s = .ok e) : Polling commands q t.host.diary id s e := by
  obtain ⟨ending, written, -, -⟩ := records.kept.2.exists_written
  have account := written.account
  have protocol := records.kept.2.protocol
  have genuine := records.chronicles.genuine
  have state := pollState_of_mem polls account.lawful genuine created
  have requests := state.requests (account.not_turn id)
  refine ⟨?asks, ?given, state.finishes (account.not_turn id), ?decided, ?prompt, ?again⟩
  case asks =>
    intro past before source after host later hdiary
    have hsource : source = s := requests source (hdiary ▸ mem_requests)
    subst hsource
    exact ⟨rfl, protocol.requested past id before source after host later e hdiary hparse⟩
  case given =>
    intro past before source v after later hdiary
    obtain ⟨past', first, host, between, e', vars, hpast, untouched, hparse', hvars, evaluates⟩ :=
      protocol.supplied past id before source v after later hdiary
    obtain ⟨rfl, -⟩ := account.reply_of_supplied polls genuine created hdiary
    -- a source has only one expression
    cases hparse.symm.trans hparse'
    exact ⟨rfl, past', first, host, between, vars, hpast, untouched, hvars, evaluates⟩
  case decided =>
    intro us v ws hvalues _ hv
    obtain ⟨hws, exchange⟩ := state.finished_of_decisive (account.not_turn id) hvalues hv
    exact ⟨hws, results_of_finished exchange, exchange.decided⟩
  case prompt =>
    intro past before v after later hdiary
    obtain ⟨-, host, rest, hlater⟩ := account.reply_of_supplied polls genuine created hdiary
    refine ⟨fun hv => ?_, ?_, fun hnull hv => ?_⟩
    · obtain ⟨hnull, hfalse⟩ := not_or.mp hv
      rw [Poll.next_of_known s hnull, if_neg hfalse] at hlater
      exact ⟨_, host, rest, hlater⟩
    · rintro rfl
      exact account.reply_of_null polls genuine created hdiary
    · have truthy : v.isTruthy = true := hv.resolve_left hnull
      rw [Poll.next_of_known s hnull, if_pos truthy] at hlater
      exact ⟨_, host, rest, hlater⟩
  case again =>
    intro past before after host later hdiary
    exact account.request_of_suspended polls genuine created hdiary

/-- **Polls stop at the first decisive value.**  This holds over all commands among which
`wait_until` is the one of the library, and so over every registry on the standard host that has it.
Every run is one over the recorded commands, without numbers and diary; and the calls, results and
warnings in the diary are those that can be seen from outside. -/
theorem wait_until_stops_at_first_decisive_value :
    (∀ (δ : Type) (devices : Devices δ) (r : Registry (Instance δ) (World δ)),
      r.entries.lookup "wait_until" = (builtins devices).entries.lookup "wait_until" →
      (standardCommands devices r).Polls .poll) ∧
    ∀ (commands : Commands ι ω) (poll : Poll → ι), commands.Polls poll →
      (∀ (p : Program ι) (store : Store ω) (signals : List Signal),
        p.Runs commands store signals ↔
          ∃ q t, Program.Records commands q t signals ∧ q.erase = p ∧ t.erase = store) ∧
      ∀ (q : Program (Tagged ι)) (t : Store (Recorder ι ω)) (signals : List Signal),
        q.Records commands t signals → tellings t.host.diary = told signals ∧
          ∀ id s e result, .created id "wait_until" [.str s] result ∈ t.host.diary →
            parseExpr s = .ok e → Polling commands q t.host.diary id s e := by
  refine ⟨fun δ devices r h => polls_standardCommands h, fun commands poll polls => ?_⟩
  refine ⟨fun p store signals => Program.runs_iff_records, fun q t signals records => ?_⟩
  refine ⟨records.chronicles.tells, fun id s e result created hparse => ?_⟩
  exact polling_of_records polls records created hparse

/-! ### A poll that takes two cycles -/

theorem parseExpr_reference : parseExpr "x" = .ok (.reference "x") := by
  have kinds : (lex "x").tokens.map Token.kind = [.identifier "x"] := by decide +kernel
  simp only [List.map_eq_cons_iff, List.map_eq_nil_iff] at kinds
  obtain ⟨x, _, whole, named, rfl⟩ := kinds
  exact parseExpr_eq_ok_iff_derives.mpr
    ⟨by decide +kernel, _, (Derives.reference named).to_disjunction, [], whole, rfl⟩

/-- A program for `wait_until("x");`. -/
def pollProgram {δ : Type} : Program (Tagged (Instance δ)) :=
  (Program.ofScript ⟨[⟨.expression (.call "wait_until" [.literal (.str "x")]), default⟩]⟩
    (Variables.initial.set "x" (.bool false))).named "poller"

/-- The poll in the given phase. -/
def pollIn {δ : Type} (phase : PollPhase) : Instance δ :=
  .poll ⟨"x", phase⟩

/-- What is written in two cycles of `wait_until("x");`, if `x` is false in the first and true in
the second. -/
def pollDiary {δ : Type} (w : World δ) : List (Entry (Instance δ) (World δ)) :=
  [.cycle (Variables.initial.set "x" (.bool false)) w,
    .created 1 "wait_until" [.str "x"] (.ok (pollIn .unknown)),
    .stepped 1 (pollIn .unknown) (.ok (.request "x")) (pollIn .unknown) w,
    .supplied 1 (pollIn .unknown) "x" (.bool false) (pollIn (.known (.bool false))),
    .stepped 1 (pollIn (.known (.bool false))) (.ok .suspend) (pollIn .unknown) w,
    .cycle (Variables.initial.set "x" (.bool true)) w,
    .stepped 1 (pollIn .unknown) (.ok (.request "x")) (pollIn .unknown) w,
    .supplied 1 (pollIn .unknown) "x" (.bool true) (pollIn (.known (.bool true))),
    .stepped 1 (pollIn (.known (.bool true))) (.ok (.finished (.bool true))) (pollIn .unknown) w]

theorem exists_records_poll {δ : Type} (devices : Devices δ) (w : World δ) :
    ∃ q cache signals, Program.Records (standardCommands devices (builtins devices)) q
      ⟨cache, ⟨w, pollDiary w⟩⟩ signals := by
  have hvalue := Cache.sound_empty.expression_value "x"
  rw [parseExpr_reference] at hvalue
  rcases hparse : Cache.empty.expression "x" with ⟨error | ⟨serial, request⟩, cache⟩
  · rw [hparse] at hvalue
    cases hvalue
  rw [hparse] at hvalue
  cases hvalue
  let commands := (standardCommands devices (builtins devices)).recorded
  let rest : Evaluation (Tagged (Instance δ)) := .calling "wait_until" ⟨1, pollIn .unknown⟩
  let before : Variables := Variables.initial.set "x" (.bool false)
  let later : Variables := Variables.initial.set "x" (.bool true)
  have begins : commands.create "wait_until" [.str "x"] ⟨w, (pollDiary w).take 1⟩ =
      ⟨.ok ⟨1, pollIn .unknown⟩, ⟨w, (pollDiary w).take 2⟩, []⟩ := rfl
  -- The poll asks, takes the value and replies to it, with three entries for each round.
  have asks (diary : List (Entry (Instance δ) (World δ))) :
      commands.next ⟨1, pollIn .unknown⟩ ⟨w, diary⟩ =
        some ⟨(.ok (.request "x"), ⟨1, pollIn .unknown⟩),
          ⟨w, diary ++ [.stepped 1 (pollIn .unknown) (.ok (.request "x")) (pollIn .unknown) w]⟩,
          []⟩ := rfl
  have takes (v : Value) (diary : List (Entry (Instance δ) (World δ))) :
      commands.supply ⟨1, pollIn .unknown⟩ "x" v ⟨w, diary⟩ =
        ⟨⟨1, pollIn (.known v)⟩,
          ⟨w, diary ++ [.supplied 1 (pollIn .unknown) "x" v (pollIn (.known v))]⟩, []⟩ := rfl
  have waits : commands.next ⟨1, pollIn (.known (.bool false))⟩ ⟨w, (pollDiary w).take 4⟩ =
      some ⟨(.ok .suspend, ⟨1, pollIn .unknown⟩), ⟨w, (pollDiary w).take 5⟩, []⟩ := rfl
  have stops : commands.next ⟨1, pollIn (.known (.bool true))⟩ ⟨w, (pollDiary w).take 8⟩ =
      some ⟨(.ok (.finished (.bool true)), ⟨1, pollIn .unknown⟩), ⟨w, pollDiary w⟩, []⟩ := rfl
  have first : Does ⟨commands, before⟩
      (.resume .fresh (.call "wait_until" [.literal (.str "x")]))
      ⟨.empty, Recorder.begin ⟨w, []⟩ before⟩ (.suspended rest)
      ⟨cache, ⟨w, (pollDiary w).take 5⟩⟩ _ :=
    .begin (.operand (.applied rfl) (.known (.called begins
      (.requested (asks _) hparse (.applied rfl) (.supplied (takes (.bool false) _)
        (.suspended waits))))))
  have second : Does ⟨commands, later⟩ (.resume rest (.call "wait_until" [.literal (.str "x")]))
      ⟨.empty, Recorder.begin ⟨w, (pollDiary w).take 5⟩ later⟩ (.complete (.bool true))
      ⟨cache, ⟨w, pollDiary w⟩⟩ _ :=
    .calling (.requested (asks _) hparse (.applied rfl) (.supplied (takes (.bool true) _)
      (.finished stops)))
  have hfirst := activity_of_does first
  have hsecond := activity_of_does second
  rw [Task.activity] at hfirst hsecond
  have start : pollProgram.Records (standardCommands devices (builtins devices))
      ⟨.empty, ⟨w, []⟩⟩ [] :=
    .start _ _ _ Cache.sound_empty w
  obtain ⟨_, hcycle, -⟩ := Program.cycle_of_resume (p := pollProgram) rfl rfl rfl hfirst
  let poller : Program (Tagged (Instance δ)) := pollProgram
  let resumed := { poller with evaluation := some rest, vars := later }
  obtain ⟨_, hcycle', -⟩ := Program.cycle_of_resume (p := resumed) rfl rfl rfl hsecond
  have written : resumed.Records (standardCommands devices (builtins devices)) _ _ :=
    (start.cycle hcycle).write later Cache.sound_empty w
  exact ⟨_, cache, _, written.cycle hcycle'⟩

/-- The poll is false at first and then true, and stops there. -/
theorem wait_until_stops_at_first_decisive_value_twice :
    let commands := standardCommands Simulation.devices (builtins Simulation.devices)
    ∃ q t signals, Program.Records commands q t signals ∧
      valuesFor 1 t.host.diary = [.bool false, .bool true] ∧
      Polling commands q t.host.diary 1 "x" (.reference "x") := by
  let w : World Simulation := ⟨⟨0, mkStdGen⟩, []⟩
  obtain ⟨q, cache, signals, records⟩ := exists_records_poll Simulation.devices w
  have stops := @wait_until_stops_at_first_decisive_value (Instance Simulation) (World Simulation)
  have polls := stops.1 Simulation Simulation.devices (builtins Simulation.devices) rfl
  have created : .created 1 "wait_until" [.str "x"] (.ok (pollIn .unknown)) ∈ pollDiary w := by
    simp [pollDiary]
  exact ⟨q, _, signals, records, rfl,
    ((stops.2 _ _ polls).2 q _ signals records).2 1 "x" _ _ created parseExpr_reference⟩

end StepScript
