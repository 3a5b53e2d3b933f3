import StepScript.Proofs.Recording

/-!
# Whose turn it is

Who may speak next can be told from a diary: an instance that was just created, has warned or has
been given a value is stepped at once; an instance that asks for time is stepped when the next cycle
begins, and nothing happens before; and otherwise the floor is free, for another call, for a value
that was asked for, or for the next cycle.  A diary is lawful if each of its entries keeps to this,
and if every value that is handed over is what evaluation from scratch gives.

## Main definitions

* `Floor`, `floorAfter` — who is to speak next.
* `Admits`, `Lawful` — what may be entered.

## Main results

* `Lawful.id_lt` — a new instance has a new number.
* `Lawful.next_about` — the messages to one instance, one after the other.
* `Lawful.untouched_of_ended` — an instance that has finished or failed is not addressed again.
-/

namespace StepScript

variable {ι ω : Type}

/-! ### Whose turn it is -/

/-- Who is to speak next. -/
inductive Floor (ι : Type)
  /-- There is no one who must be addressed. -/
  | free
  /-- An instance is to be stepped. -/
  | turn (id : Nat) (command : ι)
  /-- An instance is to be stepped when the next cycle begins. -/
  | asleep (id : Nat) (command : ι)

/-- Who is to speak after an entry. -/
def Floor.after (floor : Floor ι) : Entry ι ω → Floor ι
  | .cycle _ _ =>
    match floor with
    | asleep id command => turn id command
    | _ => floor
  | .created id _ _ (.ok command) => turn id command
  | .stepped id _ (.ok .suspend) command _ => asleep id command
  | .stepped id _ (.ok (.warning _)) command _ => turn id command
  | .supplied id _ _ _ command => turn id command
  | _ => free

/-- Who is to speak after a diary. -/
def floorAfter (diary : List (Entry ι ω)) : Floor ι :=
  diary.foldl Floor.after .free

/-- The variables in the last cycle of a diary. -/
def varsAt (diary : List (Entry ι ω)) : Option Variables :=
  (cyclesOf diary).getLast?.map Moment.vars

/-- Nothing is about the instance. -/
def Untouched (id : Nat) (diary : List (Entry ι ω)) : Prop :=
  ∀ entry ∈ diary, entry.id? ≠ some id

/-- The instance that is to be stepped after an entry, at once or when the next cycle begins. -/
def Entry.keeps? : Entry ι ω → Option (Nat × ι)
  | created id _ _ (.ok command) => some (id, command)
  | stepped id _ (.ok .suspend) command _ => some (id, command)
  | stepped id _ (.ok (.warning _)) command _ => some (id, command)
  | supplied id _ _ _ command => some (id, command)
  | _ => none

section

variable {diary rest : List (Entry ι ω)} {entry : Entry ι ω} {id : Nat} {command : ι}

theorem Entry.id?_of_keeps? (h : entry.keeps? = some (id, command)) : entry.id? = some id := by
  rcases entry with _ | ⟨_, _, _, _ | _⟩ | ⟨_, _, _ | _ | _ | _ | _, _, _⟩ | _ <;> cases h <;> rfl

@[simp] theorem floorAfter_concat :
    floorAfter (diary ++ [entry]) = (floorAfter diary).after entry :=
  List.foldl_concat ..

@[simp] theorem cyclesOf_append : cyclesOf (diary ++ rest) = cyclesOf diary ++ cyclesOf rest :=
  List.filterMap_append

theorem cyclesOf_singleton (h : entry.moment? = none) : cyclesOf [entry] = [] :=
  List.filterMap_cons_none h

theorem varsAt_append_of_nil (h : cyclesOf rest = []) : varsAt (diary ++ rest) = varsAt diary := by
  rw [varsAt, cyclesOf_append, h, List.append_nil, varsAt]

@[simp] theorem varsAt_concat_cycle (vars : Variables) (host : ω) :
    varsAt (diary ++ [.cycle vars host]) = some vars := by
  rw [varsAt, cyclesOf_append]
  change (cyclesOf diary ++ [_]).getLast?.map Moment.vars = _
  rw [List.getLast?_concat]
  rfl

theorem Untouched.nil (id : Nat) : Untouched id ([] : List (Entry ι ω)) :=
  fun _ h => nomatch h

theorem untouched_append : Untouched id (diary ++ rest) ↔ Untouched id diary ∧ Untouched id rest :=
  List.forall_mem_append

/-- An entry that gives the floor to an instance is about this instance, or only a cycle begins. -/
theorem Floor.keeps_of_after {floor : Floor ι}
    (h : floor.after entry = .turn id command ∨ floor.after entry = .asleep id command) :
    entry.keeps? = some (id, command) ∨
      entry.id? = none ∧ (floor = .turn id command ∨ floor = .asleep id command) := by
  cases entry with
  | cycle vars host =>
    -- a new cycle wakes the instance that sleeps, and changes nothing else
    refine .inr ⟨rfl, ?_⟩
    cases floor with
    | free => rcases h with h | h <;> cases h
    | turn => exact h
    | asleep =>
      rcases h with h | h <;> cases h
      exact .inr rfl
  | created _ _ _ result =>
    cases result with
    | error fault => rcases h with h | h <;> cases h
    | ok command =>
      rcases h with h | h <;> cases h
      exact .inl rfl
  | stepped _ _ reply _ _ =>
    -- an instance keeps the floor if it asks for time or warns
    rcases reply with fault | v | _ | source | message
    · rcases h with h | h <;> cases h
    · rcases h with h | h <;> cases h
    · rcases h with h | h <;> cases h
      exact .inl rfl
    · rcases h with h | h <;> cases h
    · rcases h with h | h <;> cases h
      exact .inl rfl
  | supplied =>
    rcases h with h | h <;> cases h
    exact .inl rfl

/-- The last entry about an instance is unique. -/
theorem eq_of_last_about {past past' rest' : List (Entry ι ω)} {entry' : Entry ι ω}
    (h : past ++ entry :: rest = past' ++ entry' :: rest') (hid : entry.id? = some id)
    (hid' : entry'.id? = some id) (untouched : Untouched id rest) (untouched' : Untouched id rest') :
    past = past' ∧ entry = entry' ∧ rest = rest' := by
  rcases List.append_eq_append_iff.mp h with ⟨between, rfl, hrest⟩ | ⟨between, rfl, hrest⟩
  · cases between with
    | nil =>
      cases hrest
      exact ⟨(List.append_nil _).symm, rfl, rfl⟩
    | cons y between =>
      cases hrest
      exact (untouched entry' (List.mem_append_right _ List.mem_cons_self) hid').elim
  · cases between with
    | nil =>
      cases hrest
      exact ⟨List.append_nil _, rfl, rfl⟩
    | cons y between =>
      cases hrest
      exact (untouched' entry (List.mem_append_right _ List.mem_cons_self) hid).elim

/-- If anything is about an instance, there is a first entry that is. -/
theorem exists_first_about (h : ¬ Untouched id diary) :
    ∃ between entry rest, diary = between ++ entry :: rest ∧ entry.id? = some id ∧
      Untouched id between := by
  induction diary with
  | nil => exact (h (.nil id)).elim
  | cons y diary ih =>
    by_cases hy : y.id? = some id
    · exact ⟨[], y, diary, rfl, hy, .nil id⟩
    · have hdiary : ¬ Untouched id diary := fun untouched =>
        h (List.forall_mem_cons.mpr ⟨hy, untouched⟩)
      obtain ⟨between, entry, rest, rfl, hid, untouched⟩ := ih hdiary
      exact ⟨y :: between, entry, rest, rfl, hid, List.forall_mem_cons.mpr ⟨hy, untouched⟩⟩

/-- Whose turn it is or will be, is as the last entry about it has left it. -/
theorem exists_keeps_of_floorAfter
    (h : floorAfter diary = .turn id command ∨ floorAfter diary = .asleep id command) :
    ∃ past entry rest, diary = past ++ entry :: rest ∧ entry.keeps? = some (id, command) ∧
      Untouched id rest := by
  induction diary using List.reverseRecOn with
  | nil => rcases h with h | h <;> cases h
  | append_singleton diary entry ih =>
    rw [floorAfter_concat] at h
    rcases Floor.keeps_of_after h with hkeeps | ⟨hcycle, hfloor⟩
    · exact ⟨diary, entry, [], rfl, hkeeps, .nil id⟩
    · obtain ⟨past, last, rest, rfl, hkeeps, untouched⟩ := ih hfloor
      refine ⟨past, last, rest ++ [entry], by simp, hkeeps, untouched_append.mpr ⟨untouched, ?_⟩⟩
      intro y hy
      rw [List.mem_singleton.mp hy, hcycle]
      exact (Option.some_ne_none id).symm

end

/-! ### Lawful diaries -/

/-- What may be entered after a diary. -/
inductive Admits (commands : Commands ι ω) (diary : List (Entry ι ω)) : Entry ι ω → Prop
  /-- A cycle, unless it is someone's turn. -/
  | cycle (vars : Variables) (host : ω) (hfloor : ∀ id command, floorAfter diary ≠ .turn id command) :
    Admits commands diary (.cycle vars host)
  /-- A call, if the floor is free. -/
  | created (name : String) (values : List Value) (result : Except Fault ι)
    (hfloor : floorAfter diary = .free) :
    Admits commands diary (.created diary.length name values result)
  /-- A message to the instance whose turn it is. -/
  | stepped {id : Nat} {before : ι} (reply : Except Fault Reply) (after : ι) (host : ω)
    (hfloor : floorAfter diary = .turn id before) :
    Admits commands diary (.stepped id before reply after host)
  /-- A value, if the floor is free, to the instance that has asked for it and has not been addressed
  since.  It is what evaluation from scratch gives, begun when it was asked for. -/
  | supplied {past rest : List (Entry ι ω)} {id : Nat} {first before : ι} {source : String}
    {host : ω} {e : Expr} {vars : Variables} {v : Value} (after : ι)
    (hfloor : floorAfter diary = .free)
    (hdiary : diary = past ++ .stepped id first (.ok (.request source)) before host :: rest)
    (untouched : Untouched id rest) (hparse : parseExpr source = .ok e)
    (hvars : varsAt past = some vars)
    (hvalue : EvaluatesTo commands e vars host (cyclesOf rest) (.value v)) :
    Admits commands diary (.supplied id before source v after)

/-- A diary in which every entry may follow those before it. -/
def Lawful (commands : Commands ι ω) (diary : List (Entry ι ω)) : Prop :=
  ∀ past entry rest, diary = past ++ entry :: rest → Admits commands past entry

namespace Lawful

variable {commands : Commands ι ω} {diary rest : List (Entry ι ω)} {entry : Entry ι ω} {id : Nat}

theorem nil : Lawful commands [] := by
  intro past entry rest h
  cases past <;> cases h

theorem concat (lawful : Lawful commands diary) (admits : Admits commands diary entry) :
    Lawful commands (diary ++ [entry]) := by
  intro past x rest h
  rcases List.append_eq_append_iff.mp h with ⟨between, rfl, hx⟩ | ⟨between, rfl, hx⟩
  · cases between with
    | nil =>
      cases hx
      rwa [List.append_nil]
    | cons y between => cases between <;> cases hx
  · cases between with
    | nil =>
      cases hx
      rwa [List.append_nil] at admits
    | cons y between =>
      cases hx
      exact lawful past x between rfl

theorem left (lawful : Lawful commands (diary ++ rest)) : Lawful commands diary := by
  rintro past x between rfl
  exact lawful past x (between ++ rest) (by simp)

theorem last (lawful : Lawful commands (diary ++ [entry])) : Admits commands diary entry :=
  lawful diary entry [] rfl

/-- The numbers of instances are those of entries, so that a new instance has a new number. -/
theorem id_lt (lawful : Lawful commands diary) (hentry : entry ∈ diary) (hid : entry.id? = some id) :
    id < diary.length := by
  -- Entries are added at the end, each about a new instance or about an old one.
  induction diary using List.reverseRecOn generalizing entry with
  | nil => cases hentry
  | append_singleton diary last ih =>
    rw [List.length_append]
    rcases List.mem_append.mp hentry with hentry | hentry
    · have := ih lawful.left hentry hid
      omega
    · cases List.mem_singleton.mp hentry
      cases lawful.last with
      | cycle => cases hid
      | created =>
        cases hid
        exact Nat.lt_succ_self _
      | stepped reply after host hfloor =>
        cases hid
        obtain ⟨past, entry, rest, rfl, hkeeps, -⟩ := exists_keeps_of_floorAfter (.inl hfloor)
        have := ih lawful.left (by simp) (Entry.id?_of_keeps? hkeeps)
        omega
      | supplied after hfloor hdiary =>
        cases hid
        subst hdiary
        have := ih lawful.left (List.mem_append_right _ List.mem_cons_self) rfl
        omega

/-! Between entries that are next to each other, and between those about one instance. -/

section

variable {past between : List (Entry ι ω)} {entry' : Entry ι ω} {command : ι}

theorem stepped_of_turn (lawful : Lawful commands (past ++ entry :: rest))
    (hfloor : floorAfter past = .turn id command) :
    ∃ reply after host, entry = .stepped id command reply after host := by
  cases lawful past entry rest rfl with
  | cycle _ _ hturn => exact (hturn id command hfloor).elim
  | created _ _ _ hfree | supplied _ hfree =>
    rw [hfloor] at hfree
    cases hfree
  | stepped reply after host hturn =>
    rw [hfloor] at hturn
    cases hturn
    exact ⟨reply, after, host, rfl⟩

theorem cycle_of_asleep (lawful : Lawful commands (past ++ entry :: rest))
    (hfloor : floorAfter past = .asleep id command) : ∃ vars host, entry = .cycle vars host := by
  cases lawful past entry rest rfl with
  | cycle vars host => exact ⟨vars, host, rfl⟩
  | created _ _ _ h | supplied _ h | stepped _ _ _ h =>
    rw [hfloor] at h
    cases h

/-- **The messages to one instance**: what follows the last entry about it is a step, if the entry
keeps it going, or the value that it has asked for. -/
theorem next_about (lawful : Lawful commands (past ++ entry :: between ++ entry' :: rest))
    (hid : entry.id? = some id) (hid' : entry'.id? = some id) (untouched : Untouched id between) :
    (∃ command reply after host, entry.keeps? = some (id, command) ∧
      entry' = .stepped id command reply after host) ∨
    ∃ first source command host v after e vars,
      entry = .stepped id first (.ok (.request source)) command host ∧
      entry' = .supplied id command source v after ∧ parseExpr source = .ok e ∧
      varsAt past = some vars ∧
      EvaluatesTo commands e vars host (cyclesOf between) (.value v) := by
  have hbefore : Lawful commands (past ++ entry :: between) := lawful.left
  cases lawful _ entry' rest rfl with
  | cycle => cases hid'
  | created =>
    cases hid'
    -- a new instance has a new number, but this one is known
    have hentry : entry ∈ past ++ entry :: between := List.mem_append_right _ List.mem_cons_self
    exact (Nat.lt_irrefl _ (hbefore.id_lt hentry hid)).elim
  | stepped reply after host hfloor =>
    cases hid'
    -- the floor was given by the last entry about the instance, which is `entry`
    obtain ⟨past', last, between', hlast, hkeeps, untouched'⟩ :=
      exists_keeps_of_floorAfter (.inl hfloor)
    obtain ⟨rfl, rfl, rfl⟩ :=
      eq_of_last_about hlast hid (Entry.id?_of_keeps? hkeeps) untouched untouched'
    exact .inl ⟨_, reply, after, host, hkeeps, rfl⟩
  | supplied after hfloor hlast untouched' hparse hvars hvalue =>
    cases hid'
    obtain ⟨rfl, rfl, rfl⟩ := eq_of_last_about hlast hid rfl untouched untouched'
    exact .inr ⟨_, _, _, _, _, after, _, _, rfl, rfl, hparse, hvars, hvalue⟩

/-- An instance that has finished or failed is not addressed again. -/
theorem untouched_of_ended (lawful : Lawful commands (past ++ entry :: rest))
    (hid : entry.id? = some id) (hkeeps : entry.keeps? = none)
    (hrequest : ∀ id first source command host,
      entry ≠ .stepped id first (.ok (.request source)) command host) : Untouched id rest := by
  by_contra touched
  obtain ⟨between, entry', rest', rfl, hid', untouched⟩ := exists_first_about touched
  have hsplit : past ++ entry :: (between ++ entry' :: rest') =
      past ++ entry :: between ++ entry' :: rest' := by simp
  rw [hsplit] at lawful
  rcases lawful.next_about hid hid' untouched with
    ⟨command, reply, after, host, h, -⟩ | ⟨first, source, command, host, v, after, e, vars, h, -⟩
  · rw [hkeeps] at h
    cases h
  · exact hrequest id first source command host h

/-- An instance that has asked for something and is addressed again gets it, and it is the value that
evaluation from scratch gives. -/
theorem supplied_of_request {first : ι} {source : String} {host : ω}
    (lawful : Lawful commands
      (past ++ .stepped id first (.ok (.request source)) command host :: rest))
    (touched : ¬ Untouched id rest) :
    ∃ between v after rest' e vars,
      rest = between ++ .supplied id command source v after :: rest' ∧ Untouched id between ∧
      parseExpr source = .ok e ∧ varsAt past = some vars ∧
      EvaluatesTo commands e vars host (cyclesOf between) (.value v) := by
  obtain ⟨between, entry', rest', rfl, hid', untouched⟩ := exists_first_about touched
  have hsplit : past ++ .stepped id first (.ok (.request source)) command host ::
      (between ++ entry' :: rest') =
      past ++ .stepped id first (.ok (.request source)) command host :: between ++
        entry' :: rest' := by simp
  rw [hsplit] at lawful
  rcases lawful.next_about rfl hid' untouched with
    ⟨command, reply, after, host, h, -⟩ |
      ⟨first, source, command, host, v, after, e, vars, h, rfl, hparse, hvars, hvalue⟩
  · cases h
  · cases h
    exact ⟨between, v, after, rest', e, vars, rfl, untouched, hparse, hvars, hvalue⟩

end

end Lawful

end StepScript
