import Mathlib.Data.List.Forall2
import StepScript.Proofs.Protocol
import StepScript.Proofs.Suspended

/-!
# Events are well bracketed

A command is entered and later left, and a block is opened and later closed.  Both kinds of events
are read as brackets, by one scan that keeps the brackets that are still open.  A call can stay open
over many cycles, while the expression that its command has asked for makes calls in turn; the open
calls are those that the suspended evaluation holds, from the outside inwards.

## Main definitions

* `Delimiter`, `Nest`, `Bracketing` — signals that are read as brackets.
* `Bracketing.calls`, `Bracketing.blocks` — the two ways to do so.
* `Evaluation.live` — the commands that an evaluation holds.
* `WellBracketed` — how the events of a run are bracketed.

## Main results

* `tracks_of_does` — the open calls are those that the evaluation holds.
* `Program.reports_cycle` — the open blocks are those on the stack.
* `debugger_events_are_well_bracketed` — **the events of every run are well bracketed**.
-/

namespace StepScript

/-! ### Brackets -/

section

variable {α β : Type}

/-- The beginning or the end of something. -/
inductive Delimiter (α β : Type)
  /-- It begins. -/
  | opens (a : α)
  /-- It ends. -/
  | closes (b : β)

/-- What is open after some brackets. -/
structure Nest (α : Type) where
  /-- How many brackets have been opened. -/
  count : Nat
  /-- Those that are open, the outermost first, each with the number of those opened before it. -/
  pending : List (Nat × α)

/-- Nothing is open. -/
def Nest.empty : Nest α :=
  ⟨0, []⟩

/-- A way to read some of the signals as brackets. -/
structure Bracketing (α β : Type) where
  /-- The bracket that a signal is. -/
  read : Signal → Option (Delimiter α β)
  /-- Whether a closing bracket fits an opening one. -/
  fits : α → β → Bool

namespace Bracketing

variable (b : Bracketing α β)

/-- What is open after one more bracket.  Only the innermost bracket may be closed. -/
def step (n : Nest α) : Delimiter α β → Option (Nest α)
  | .opens a => some ⟨n.count + 1, n.pending ++ [(n.count, a)]⟩
  | .closes c =>
    match n.pending.getLast? with
    | some (_, a) => if b.fits a c then some ⟨n.count, n.pending.dropLast⟩ else none
    | none => none

/-- What is open after some more signals, if they are well bracketed. -/
def scan (n : Nest α) (signals : List Signal) : Option (Nest α) :=
  (signals.filterMap b.read).foldlM b.step n

variable {b} {n n' : Nest α} {signal : Signal} {signals first second : List Signal}

theorem scan_append (n : Nest α) (first second : List Signal) :
    b.scan n (first ++ second) = (b.scan n first).bind (b.scan · second) := by
  rw [scan, List.filterMap_append, List.foldlM_append]
  rfl

theorem scan_append_of_eq (h : b.scan n first = some n') (second : List Signal) :
    b.scan n (first ++ second) = b.scan n' second := by
  rw [scan_append, h, Option.bind_some]

/-- Signals that are no brackets change nothing. -/
theorem scan_of_silent (n : Nest α) (silent : ∀ signal ∈ signals, b.read signal = none) :
    b.scan n signals = some n := by
  rw [scan, List.filterMap_eq_nil_iff.mpr silent]
  rfl

theorem scan_opens {a : α} (n : Nest α) (h : b.read signal = some (.opens a)) :
    b.scan n [signal] = some ⟨n.count + 1, n.pending ++ [(n.count, a)]⟩ := by
  simp [scan, h, step]

theorem scan_closes {count k : Nat} {pending : List (Nat × α)} {a : α} {c : β}
    (h : b.read signal = some (.closes c)) (fits : b.fits a c = true) :
    b.scan ⟨count, pending ++ [(k, a)]⟩ [signal] = some ⟨count, pending⟩ := by
  simp [scan, h, step, fits]

end Bracketing

end

/-- Calls of commands as brackets: a command is left under the name that it was entered with. -/
def Bracketing.calls : Bracketing (String × List Value) String where
  read
    | .entered name values => some (.opens (name, values))
    | .left name _ => some (.closes name)
    | _ => none
  fits call name := call.1 = name

/-- The block without a mark on it. -/
def Frame.unmarked : Frame → Frame
  | selection scrutinee _ => selection scrutinee false
  | frame => frame

/-- Blocks as brackets: a block is closed as it was opened, apart from a mark on it. -/
def Bracketing.blocks : Bracketing Frame Frame where
  read
    | .pushed frame => some (.opens frame)
    | .popped frame => some (.closes frame)
    | _ => none
  fits opened closed := opened.unmarked = closed.unmarked

/-! ### Open blocks -/

/-- The open blocks are those on the stack, apart from marks. -/
def Nest.Shows (n : Nest Frame) (stack : List Frame) : Prop :=
  n.pending.map (fun block => block.2.unmarked) = stack.reverse.map Frame.unmarked

/-- Signals that lead from the blocks on one stack to those on another. -/
def Carries (stack : List Frame) (signals : List Signal) (stack' : List Frame) : Prop :=
  ∀ n : Nest Frame, n.Shows stack →
    ∃ n', Bracketing.blocks.scan n signals = some n' ∧ n'.Shows stack'

namespace Carries

variable {stack stack' stack'' : List Frame} {signals first second : List Signal}

theorem silent (h : ∀ signal ∈ signals, Bracketing.blocks.read signal = none)
    (hstack : stack.map Frame.unmarked = stack'.map Frame.unmarked) :
    Carries stack signals stack' := by
  intro n shows
  refine ⟨n, Bracketing.scan_of_silent n h, ?_⟩
  rw [Nest.Shows, List.map_reverse] at shows ⊢
  rw [shows, hstack]

theorem append (h : Carries stack first stack') (h' : Carries stack' second stack'') :
    Carries stack (first ++ second) stack'' := by
  intro n shows
  obtain ⟨n', hscan, shows'⟩ := h n shows
  obtain ⟨n'', hscan', shows''⟩ := h' n' shows'
  exact ⟨n'', (Bracketing.scan_append_of_eq hscan second).trans hscan', shows''⟩

theorem pushed (frame : Frame) (stack : List Frame) :
    Carries stack [.pushed frame] (frame :: stack) := by
  intro n shows
  refine ⟨_, Bracketing.scan_opens n rfl, ?_⟩
  rw [Nest.Shows] at shows ⊢
  rw [List.map_append, shows, List.reverse_cons, List.map_append]
  rfl

theorem popped (frame : Frame) (stack : List Frame) :
    Carries (frame :: stack) [.popped frame] stack := by
  rintro ⟨count, pending⟩ shows
  rw [Nest.Shows, List.reverse_cons, List.map_append] at shows
  obtain ⟨outer, inner, rfl, houter, hinner⟩ := List.map_eq_append_iff.mp shows
  obtain ⟨⟨k, opened⟩, rfl, hopened⟩ := List.map_eq_singleton_iff.mp hinner
  have fits : Bracketing.blocks.fits opened frame = true := decide_eq_true hopened
  exact ⟨_, Bracketing.scan_closes rfl fits, houter⟩

end Carries

/-- What an action signals of the blocks leads to a stack that its result has. -/
def Action.Reports {ω α : Type} (x : Action ω α) (stack : List Frame) (after : α → List Frame) :
    Prop :=
  ∀ store, Carries stack (x store).signals (after (x store).value)

namespace Action.Reports

variable {ω α β : Type} {stack : List Frame} {after : α → List Frame}

theorem pure {a : α} (h : stack.map Frame.unmarked = (after a).map Frame.unmarked) :
    (pure a : Action ω α).Reports stack after :=
  fun _ => .silent (List.forall_mem_nil _) h

theorem bind {x : Action ω α} {f : α → Action ω β} {after' : β → List Frame}
    (hx : x.Reports stack after) (hf : ∀ a, (f a).Reports (after a) after') :
    (x >>= f).Reports stack after' :=
  fun store => (hx store).append (hf _ _)

theorem emit {signal : Signal} {stack' : List Frame} (h : Carries stack [signal] stack') :
    (Action.emit signal : Action ω Unit).Reports stack (fun _ => stack') :=
  fun _ => h

theorem log (level : LogLevel) (origin : LogOrigin) (message : String) (stack : List Frame) :
    (Action.log level origin message : Action ω Unit).Reports stack (fun _ => stack) :=
  .emit (.silent (List.forall_mem_singleton.mpr rfl) rfl)

end Action.Reports

/-- What an activity signals of the blocks leads to a stack that its result has. -/
def Activity.Reports {ω α : Type} (x : Activity ω α) (stack : List Frame)
    (after : α → List Frame) : Prop :=
  ∀ store effect, x store = some effect → Carries stack effect.signals (after effect.value)

namespace Activity.Reports

variable {ω α β : Type} {stack : List Frame} {after : α → List Frame}

theorem ofAction {x : Action ω α} (hx : x.Reports stack after) :
    (Activity.ofAction x).Reports stack after := by
  rintro store effect ⟨⟩
  exact hx store

theorem bind {x : Activity ω α} {f : α → Activity ω β} {after' : β → List Frame}
    (hx : x.Reports stack after) (hf : ∀ a, (f a).Reports (after a) after') :
    (x >>= f).Reports stack after' := by
  intro store effect given
  obtain ⟨first, second, hfirst, hsecond, rfl⟩ := Activity.bind_eq_some_iff.mp given
  exact (hx store first hfirst).append (hf _ _ second hsecond)

/-- What comes from commands says nothing of blocks. -/
theorem of_speaks {x : Activity ω α} (speaks : Speaks x) (stack : List Frame) :
    x.Reports stack (fun _ => stack) := by
  intro store effect given
  refine .silent (fun signal hsignal => ?_) rfl
  have hcommands := speaks store effect given signal hsignal
  cases signal with
  | entered | left | warned | note | log => rfl
  | line | pushed | popped | failed => cases hcommands

end Activity.Reports

namespace Program

variable {ι ω : Type}

theorem reports_push (p : Program ι) (frame : Frame) :
    (p.push frame : Action ω _).Reports p.stack Program.stack :=
  .bind (.log _ _ _ _) fun _ => .bind (.emit (.pushed frame p.stack)) fun _ => .pure rfl

theorem reports_skip (p : Program ι) (block : BlockKind) :
    (p.skip block : Action ω _).Reports p.stack (fun result => result.1.stack) := by
  unfold skip
  cases p.script.closing? p.counter with
  | none => exact .pure rfl
  | some stop => exact .bind (.log _ _ _ _) fun _ => .pure rfl

/-- Matching a case changes no more than a mark. -/
theorem unmarked_of_matchCase {v : Value} {stack stack' : List Frame} {entered : Bool}
    (h : matchCase v stack = some (entered, stack')) :
    stack.map Frame.unmarked = stack'.map Frame.unmarked := by
  induction stack generalizing stack' with
  | nil => cases h
  | cons frame stack ih =>
    cases frame with
    | selection scrutinee hit =>
      rw [matchCase] at h
      split at h <;> cases h <;> rfl
    | condition | alternative | repetition =>
      obtain ⟨⟨_, rest⟩, hrest, heq⟩ := Option.map_eq_some_iff.mp h
      cases heq
      rw [List.map_cons, ih hrest, List.map_cons]

/-- Opening a block, on a stack that may have got a mark. -/
theorem reports_ok_push (p : Program ι) {q : Program ι} (frame : Frame)
    (hstack : p.stack.map Frame.unmarked = q.stack.map Frame.unmarked) :
    ((·, .ok ()) <$> q.push frame : Action ω (Program ι × Except Fault Unit)).Reports p.stack
      (fun result => result.1.stack) := by
  intro store
  have marked : Carries p.stack [] q.stack := .silent (List.forall_mem_nil _) hstack
  rw [map_eq_pure_bind]
  exact marked.append ((reports_push q frame).bind (fun _ => .pure rfl) store)

theorem reports_enter (p : Program ι) (block : BlockKind) (v : Value) :
    (p.enter block v : Action ω _).Reports p.stack (fun result => result.1.stack) := by
  unfold enter
  cases block with
  | condition | repetition =>
    dsimp only
    split
    · exact reports_ok_push p _ rfl
    · exact reports_skip p _
  | selection => exact reports_ok_push p _ rfl
  | alternative =>
    dsimp only
    cases hmatch : matchCase v p.stack with
    | none => exact .pure rfl
    | some found =>
      obtain ⟨entered, stack⟩ := found
      have hstack := unmarked_of_matchCase hmatch
      cases entered with
      | true => exact reports_ok_push p .alternative hstack
      | false =>
        cases eq_of_matchCase hmatch
        exact reports_skip p _

theorem reports_close (p : Program ι) :
    (p.close : Action ω _).Reports p.stack (fun result => result.1.stack) := by
  unfold close
  cases hstack : p.stack with
  | nil => exact .pure (congrArg _ hstack.symm)
  | cons frame stack =>
    exact .bind (.log _ _ _ _) fun _ => .bind (.emit (.popped frame stack)) fun _ => .pure rfl

theorem reports_evaluate (commands : Commands ι ω) (p : Program ι) (e : Expr)
    {andThen : Program ι → Value → Action ω (Program ι × Except Fault Unit)}
    (h : ∀ v, (andThen { p with evaluation := none } v).Reports p.stack
      (fun result => result.1.stack)) :
    (p.evaluate commands e andThen).Reports p.stack (fun result => result.1.stack) := by
  refine .bind (.of_speaks (speaks_resume _ e) p.stack) fun progress => ?_
  cases progress with
  | complete v => exact .ofAction (h v)
  | suspended rest | failed fault rest => exact .ofAction (.pure rfl)

theorem reports_execute (commands : Commands ι ω) (p : Program ι) (s : Statement) :
    (p.execute commands s).Reports p.stack (fun result => result.1.stack) := by
  unfold execute
  cases s.kind with
  | blockEnd => exact .ofAction (reports_close p)
  | assignment name e => exact reports_evaluate commands p e fun v => .pure rfl
  | expression e => exact reports_evaluate commands p e fun v => .pure rfl
  | header block e =>
    exact reports_evaluate commands p e fun v => reports_enter { p with evaluation := none } block v

theorem reports_announce (p : Program ι) (s : Statement) :
    (p.announce s : Action ω Unit).Reports p.stack (fun _ => p.stack) := by
  unfold announce
  split
  · exact .bind (.log _ _ _ _) fun _ => .emit (.silent (List.forall_mem_singleton.mpr rfl) rfl)
  · exact .pure rfl

theorem reports_fail (p : Program ι) (fault : Fault) :
    (p.fail fault : Action ω _).Reports p.stack (fun result => result.1.stack) :=
  .bind (.log _ _ _ _) fun _ =>
    .bind (.emit (.silent (List.forall_mem_singleton.mpr rfl) rfl)) fun _ => .pure rfl

theorem reports_advance (p : Program ι) :
    (p.advance : Action ω _).Reports p.stack (fun result => result.1.stack) := by
  unfold advance
  split
  · exact .bind (.log _ _ _ _) fun _ => .pure rfl
  · exact .pure rfl

/-- **A cycle tells of every block that it opens or closes.** -/
theorem reports_cycle (commands : Commands ι ω) (p : Program ι) :
    (p.cycle commands).Reports p.stack (fun result => result.1.stack) := by
  unfold cycle
  cases p.status with
  | done | failed => exact .ofAction (.pure rfl)
  | running =>
    dsimp only
    cases p.current? with
    | none => exact .ofAction (reports_advance p)
    | some s =>
      refine .bind (.ofAction (reports_announce p s)) fun _ => ?_
      refine .bind (reports_execute commands p s) fun (p', result) => ?_
      cases result with
      | error fault => exact .ofAction (reports_fail p' fault)
      | ok => exact .ofAction (reports_advance p')

end Program

/-! ### Open calls -/

variable {ι ω : Type}

/-- The commands that an evaluation waits for, the outermost first: each but the last has asked for
the expression that the next one is called in.  They are given by their names and numbers. -/
def Evaluation.live : Evaluation (Tagged ι) → List (String × Nat)
  | fresh => []
  | operand _ inner => inner.live
  | calling name command => [(name, command.id)]
  | asking name command _ _ inner => (name, command.id) :: inner.live

/-- The commands that are at work once an evaluation has come so far. -/
def Progress.live? : Progress (Tagged ι) → Option (List (String × Nat))
  | complete _ => some []
  | suspended rest => some rest.live
  | failed _ _ => none

/-- The commands that are at work before a piece of work is done. -/
def Task.live? : Task (Tagged ι) → Option (List (String × Nat))
  | settle _ _ _ => some []
  | proceed _ _ _ progress => progress.live?
  | drive name command => some [(name, command.id)]
  | answer name command _ _ progress => progress.live?.map ((name, command.id) :: ·)
  | resume evaluation _ => some evaluation.live

/-- The call with the given number, name and arguments is the one that has made the instance. -/
structure IsCallOf (diary : List (Entry ι ω)) (call : Nat × String × List Value)
    (live : String × Nat) : Prop where
  name : call.2.1 = live.1
  created : ∃ past result later,
    diary = past ++ .created live.2 call.2.1 call.2.2 result :: later ∧
      (creations past).length = call.1

/-- The open calls are those of the given instances. -/
structure Tracks (diary : List (Entry ι ω)) (n : Nest (String × List Value))
    (live : List (String × Nat)) : Prop where
  count : n.count = (creations diary).length
  pending : List.Forall₂ (IsCallOf diary) n.pending live

section

variable {diary : List (Entry ι ω)} {n : Nest (String × List Value)} {live : List (String × Nat)}

theorem IsCallOf.mono {call : Nat × String × List Value} {held : String × Nat}
    (h : IsCallOf diary call held) (new : List (Entry ι ω)) :
    IsCallOf (diary ++ new) call held := by
  obtain ⟨name, past, result, later, rfl, hlength⟩ := h
  exact ⟨name, past, result, later ++ new, by simp, hlength⟩

/-- Messages change nothing. -/
theorem Tracks.message (h : Tracks diary n live) {entry : Entry ι ω}
    (hentry : creations [entry] = []) : Tracks (diary ++ [entry]) n live where
  count := by rw [h.count, creations_append, hentry, List.append_nil]
  pending := h.pending.imp fun _ _ hcall => hcall.mono [entry]

theorem Tracks.next {commands : Commands ι ω} {r r' : Recorder ι ω} {c c' : Tagged ι}
    {reply : Except Fault Reply} {notes : List Note} {outer : List (String × Nat)} {name : String}
    (h : Tracks r.diary n (outer ++ [(name, c.id)]))
    (hnext : commands.recorded.next c r = some ⟨(reply, c'), r', notes⟩) :
    Tracks r'.diary n (outer ++ [(name, c'.id)]) := by
  obtain ⟨-, hid, hdiary⟩ := Commands.next_of_recorded hnext
  rw [hid, hdiary]
  exact h.message rfl

theorem Tracks.supply {commands : Commands ι ω} {r r' : Recorder ι ω} {c c' : Tagged ι}
    {source : String} {v : Value} {notes : List Note} {outer : List (String × Nat)} {name : String}
    (h : Tracks r.diary n (outer ++ [(name, c.id)]))
    (hsupply : commands.recorded.supply c source v r = ⟨c', r', notes⟩) :
    Tracks r'.diary n (outer ++ [(name, c'.id)]) := by
  obtain ⟨-, hid, hdiary⟩ := Commands.supply_of_recorded hsupply
  rw [hid, hdiary]
  exact h.message rfl

/-- A call opens a bracket. -/
theorem Tracks.called (h : Tracks diary n live) (id : Nat) (name : String) (values : List Value)
    (result : Except Fault ι) :
    Tracks (diary ++ [.created id name values result])
      ⟨n.count + 1, n.pending ++ [(n.count, name, values)]⟩ (live ++ [(name, id)]) where
  count := by
    rw [h.count, creations_append, List.length_append]
    rfl
  pending := by
    have new : IsCallOf (diary ++ [.created id name values result]) (n.count, name, values)
        (name, id) := ⟨rfl, diary, result, [], rfl, h.count.symm⟩
    have old := h.pending.imp fun _ _ hcall => hcall.mono [.created id name values result]
    exact List.rel_append old (.cons new .nil)

/-- A command that finishes closes its own bracket. -/
theorem Tracks.left {outer : List (String × Nat)} {name : String} {id : Nat}
    (h : Tracks diary n (outer ++ [(name, id)])) (v : Value) :
    ∃ n', Bracketing.calls.scan n [.left name v] = some n' ∧ Tracks diary n' outer := by
  obtain ⟨count, pending⟩ := n
  obtain ⟨hcount, hpending⟩ := h
  rcases List.eq_nil_or_concat pending with rfl | ⟨init, ⟨k, called, values⟩, rfl⟩
  · exact absurd hpending.length_eq (by simp)
  · rw [List.concat_eq_append] at hpending ⊢
    rw [← List.forall₂_reverse_iff, List.reverse_append, List.reverse_append] at hpending
    cases hpending with
    | cons hcall hinit =>
      have fits : Bracketing.calls.fits (called, values) name = true := decide_eq_true hcall.name
      exact ⟨_, Bracketing.scan_closes rfl fits, hcount, List.forall₂_reverse_iff.mp hinit⟩

end

theorem scan_notes (n : Nest (String × List Value)) (notes : List Note) (signals : List Signal) :
    Bracketing.calls.scan n (notes.map .note ++ signals) = Bracketing.calls.scan n signals := by
  refine Bracketing.scan_append_of_eq (Bracketing.scan_of_silent n fun signal hsignal => ?_) signals
  obtain ⟨note, -, rfl⟩ := List.mem_map.mp hsignal
  rfl

/-- Where nothing has failed in the end, nothing had failed before. -/
theorem exists_live_of_does {ctx : Context (Tagged ι) ω} {task : Task (Tagged ι)} {s s' : Store ω}
    {progress : Progress (Tagged ι)} {signals : List Signal}
    (h : Does ctx task s progress s' signals) {live' : List (String × Nat)}
    (hlive' : progress.live? = some live') : ∃ live, task.live? = some live := by
  cases task with
  | settle | drive | resume => exact ⟨_, rfl⟩
  | proceed e known rest inner =>
    cases inner with
    | complete | suspended => exact ⟨_, rfl⟩
    | failed fault inner =>
      cases h
      cases hlive'
  | answer name command source request inner =>
    cases inner with
    | complete | suspended => exact ⟨_, rfl⟩
    | failed fault inner =>
      cases h
      cases hlive'

/-- **The open calls are those that the evaluation holds.** -/
theorem tracks_of_does {commands : Commands ι ω} {vars : Variables} {task : Task (Tagged ι)}
    {s s' : Store (Recorder ι ω)} {progress : Progress (Tagged ι)} {signals : List Signal}
    (h : Does ⟨commands.recorded, vars⟩ task s progress s' signals) (fits : task.Fits)
    {outer live live' : List (String × Nat)} {n : Nest (String × List Value)}
    (hlive : task.live? = some live) (hlive' : progress.live? = some live')
    (tracks : Tracks s.host.diary n (outer ++ live)) :
    ∃ n', Bracketing.calls.scan n signals = some n' ∧
      Tracks s'.host.diary n' (outer ++ live') := by
  -- the calls around the piece of work, in `outer`, stay open
  induction h generalizing outer live live' n with
  | @applied e known s result h =>
    cases hlive
    cases result with
    | error fault => cases hlive'
    | ok v =>
      cases hlive'
      exact ⟨n, rfl, tracks⟩
  | refused | broken | failed | unreadable | denied => cases hlive'
  | @called name arguments known s s' command host notes progress signals hcreate h ih =>
    cases hlive
    obtain ⟨result, -, hresult, hdiary⟩ := Commands.create_of_recorded hcreate
    have hid : command.id = s.host.diary.length := by
      cases result with
      | error fault => cases hresult
      | ok created =>
        cases hresult
        rfl
    have opened := tracks.called s.host.diary.length name known result
    rw [List.append_nil, ← hdiary, ← hid] at opened
    obtain ⟨n', hscan, tracks'⟩ := ih trivial rfl hlive' opened
    refine ⟨n', ?_, tracks'⟩
    rw [← List.singleton_append, Bracketing.scan_append_of_eq (Bracketing.scan_opens n rfl),
      scan_notes]
    exact hscan
  | @operand e x known rest s s' s'' inner progress first second hx h ihx ih =>
    cases hlive
    obtain ⟨mid, hmid⟩ := exists_live_of_does h hlive'
    have leaves : ∀ left, inner = .suspended left → Suspended x left :=
      fun left hleft => suspended_of_does hx (Task.fits_start x) hleft
    obtain ⟨n₁, hscan, tracks₁⟩ := ihx (Task.fits_start x) rfl hmid tracks
    obtain ⟨n₂, hscan', tracks₂⟩ := ih ⟨x, fits, leaves⟩ hmid hlive' tracks₁
    exact ⟨n₂, (Bracketing.scan_append_of_eq hscan second).trans hscan', tracks₂⟩
  | known h ih =>
    cases hlive
    exact ih fits.known rfl hlive' tracks
  | held | pending =>
    cases hlive
    cases hlive'
    exact ⟨n, rfl, tracks⟩
  | @finished name command command' s v host notes hnext =>
    cases hlive
    cases hlive'
    obtain ⟨n', hscan, tracks'⟩ := (tracks.next hnext).left v
    rw [List.append_nil, scan_notes]
    exact ⟨n', hscan, tracks'⟩
  | suspended hnext =>
    cases hlive
    cases hlive'
    rw [← List.append_nil (List.map _ _), scan_notes]
    exact ⟨n, rfl, tracks.next hnext⟩
  | warned hnext h ih =>
    cases hlive
    obtain ⟨n', hscan, tracks'⟩ := ih trivial rfl hlive' (tracks.next hnext)
    rw [scan_notes]
    exact ⟨n', hscan, tracks'⟩
  | @requested name source command command' s s' s'' host notes request cache inner progress first
      second hnext hparse hx h ihx ih =>
    cases hlive
    obtain ⟨_, hanswer⟩ := exists_live_of_does h hlive'
    obtain ⟨mid, hmid, -⟩ := Option.map_eq_some_iff.mp hanswer
    have leaves : ∀ left, inner = .suspended left → Suspended request.value left :=
      fun left hleft => suspended_of_does hx (Task.fits_start request.value) hleft
    -- the command that asks is one of those around the expression
    have around := tracks.next hnext
    rw [← List.append_nil (_ ++ _)] at around
    obtain ⟨n₁, hscan, tracks₁⟩ := ihx (Task.fits_start request.value) rfl hmid around
    rw [List.append_assoc] at tracks₁
    obtain ⟨n₂, hscan', tracks₂⟩ := ih leaves (congrArg (Option.map _) hmid) hlive' tracks₁
    rw [scan_notes]
    exact ⟨n₂, (Bracketing.scan_append_of_eq hscan second).trans hscan', tracks₂⟩
  | supplied hsupply h ih =>
    cases hlive
    obtain ⟨n', hscan, tracks'⟩ := ih trivial rfl hlive' (tracks.supply hsupply)
    refine ⟨n', ?_, tracks'⟩
    exact (scan_notes n _ _).trans hscan
  | begin h ih =>
    cases hlive
    exact ih (Task.fits_start _) rfl hlive' tracks
  | exhausted hes h ih =>
    rcases fits with fits | fits
    · cases fits
    · exact absurd hes fits.drop_ne_nil
  | @resumed e x known rest evaluation s s' s'' inner progress first second hes hx h ihx ih =>
    cases hlive
    obtain ⟨mid, hmid⟩ := exists_live_of_does h hlive'
    have hresume : (Task.resume evaluation x).Fits := by
      rcases fits with fits | fits
      · cases fits
      · exact .inr (fits.of_operand hes)
    have leaves : ∀ left, inner = .suspended left → Suspended x left :=
      fun left hleft => suspended_of_does hx hresume hleft
    obtain ⟨n₁, hscan, tracks₁⟩ := ihx hresume rfl hmid tracks
    obtain ⟨n₂, hscan', tracks₂⟩ := ih ⟨x, hes, leaves⟩ hmid hlive' tracks₁
    exact ⟨n₂, (Bracketing.scan_append_of_eq hscan second).trans hscan', tracks₂⟩
  | calling h ih =>
    cases hlive
    exact ih trivial rfl hlive' tracks
  | @asking name source command request e evaluation s s' s'' inner progress first second hx h ihx
      ih =>
    cases hlive
    obtain ⟨_, hanswer⟩ := exists_live_of_does h hlive'
    obtain ⟨mid, hmid, -⟩ := Option.map_eq_some_iff.mp hanswer
    have hresume : (Task.resume evaluation request).Fits := by
      rcases fits with fits | fits
      · cases fits
      · cases fits with
        | asking _ _ _ _ hrequest => exact .inr hrequest
    have leaves : ∀ left, inner = .suspended left → Suspended request left :=
      fun left hleft => suspended_of_does hx hresume hleft
    have around : Tracks s.host.diary n (outer ++ [(name, command.id)] ++ evaluation.live) := by
      rw [List.append_assoc]
      exact tracks
    obtain ⟨n₁, hscan, tracks₁⟩ := ihx hresume rfl hmid around
    rw [List.append_assoc] at tracks₁
    obtain ⟨n₂, hscan', tracks₂⟩ := ih leaves (congrArg (Option.map _) hmid) hlive' tracks₁
    exact ⟨n₂, (Bracketing.scan_append_of_eq hscan second).trans hscan', tracks₂⟩

/-- What is suspended holds at least one command. -/
theorem Suspended.live_ne_nil {e : Expr} {evaluation : Evaluation (Tagged ι)}
    (h : Suspended e evaluation) : evaluation.live ≠ [] := by
  induction h with
  | operand hx h ih => exact ih
  | calling | asking => exact List.cons_ne_nil _ _

/-! ### Runs -/

theorem scan_events (n : Nest (String × List Value)) (signals : List Signal) :
    Bracketing.calls.scan n (events signals) = Bracketing.calls.scan n signals := by
  have hread : (events signals).filterMap Bracketing.calls.read =
      signals.filterMap Bracketing.calls.read := by
    rw [events, List.filterMap_filter]
    congr 1
    funext signal
    cases signal <;> rfl
  rw [Bracketing.scan, hread, Bracketing.scan]

namespace Program

variable {commands : Commands ι ω} {p : Program (Tagged ι)}

/-- The commands that the program waits for, the outermost first. -/
def live (p : Program (Tagged ι)) : List (String × Nat) :=
  (p.evaluation.getD .fresh).live

theorem live_eq_nil (h : p.evaluation = none) : p.live = [] := by
  rw [live, h]
  rfl

theorem Poised.live_eq_nil_iff (poised : p.Poised) : p.live = [] ↔ p.isSuspended = false := by
  rw [live, isSuspended]
  cases h : p.evaluation with
  | none => exact ⟨fun _ => rfl, fun _ => rfl⟩
  | some evaluation =>
    obtain ⟨s, e, -, -, hsuspended⟩ := poised evaluation h
    exact ⟨fun hnil => absurd hnil hsuspended.live_ne_nil, by rintro ⟨⟩⟩

/-- What a step of the evaluation makes of the open calls. -/
theorem tracks_afterProgress {s : Statement} {progress : Progress (Tagged ι)}
    {diary : List (Entry ι ω)} {n : Nest (String × List Value)} {live' : List (String × Nat)}
    (hs : p.current? = some s) (hlive' : progress.live? = some live')
    (tracks : Tracks diary n live')
    (fine : ∀ error, (p.afterProgress s progress).1.status ≠ .failed error) :
    Tracks diary n (p.afterProgress s progress).1.live := by
  cases progress with
  | complete v =>
    cases hlive'
    rw [afterProgress] at fine ⊢
    cases hcompleted : completed { p with evaluation := none } s.kind v with
    | ok p' =>
      rw [outcome, live_eq_nil (moved_of_completed hcompleted).evaluation_settled]
      exact tracks
    | error fault =>
      rw [hcompleted] at fine
      exact absurd rfl (fine _)
  | suspended rest =>
    cases hlive'
    have hsettled : settled { p with evaluation := some rest } =
        { p with evaluation := some rest } :=
      settled_eq_self (counter_lt_of_current hs)
    rw [afterProgress, outcome, hsettled]
    exact tracks
  | failed fault rest => exact absurd rfl (fine _)

/-- A cycle keeps the open calls in step with the evaluation. -/
theorem tracks_of_cycle {store : Store (Recorder ι ω)} {n : Nest (String × List Value)}
    {effect : Effect (Recorder ι ω) (Program (Tagged ι) × Except ProgramError Unit)}
    (poised : p.Poised) (tracks : Tracks store.host.diary n p.live)
    (hcycle : p.cycle commands.recorded store = some effect)
    (fine : ∀ error, effect.value.1.status ≠ .failed error) :
    ∃ n', Bracketing.calls.scan n effect.signals = some n' ∧
      Tracks effect.store.host.diary n' effect.value.1.live := by
  rcases resume_of_cycle hcycle with
    ⟨hnone, hstore, hlines⟩ | ⟨s, e, step, running, hs, he, hresume, hvalue, hstore, hevents⟩
  · -- no expression is resumed: only lines are announced, and the open calls stay
    have silent : Bracketing.calls.scan n effect.signals = some n := by
      rw [← scan_events]
      refine Bracketing.scan_of_silent n fun signal hsignal => ?_
      obtain ⟨i, s, rfl⟩ := hlines signal hsignal
      rfl
    have hlive : effect.value.1.live = p.live := by
      have changes := changes_of_cycle hcycle
      generalize effect.value = value at changes fine ⊢
      cases changes with
      | done | failed | exhausted => rfl
      | waits running hs he | completes running hs he =>
        rw [hnone _ running hs] at he
        cases he
      | fails => exact absurd rfl (fine _)
      | closes running hs hkind hp => rw [live, (moved_of_closed hp).evaluation_settled, live]
    rw [hlive, hstore]
    exact ⟨n, silent, tracks⟩
  · rw [hvalue] at fine ⊢
    obtain ⟨progress, store', signals⟩ := step
    -- the evaluation has not failed, so that it says which calls it leaves open
    obtain ⟨live', hlive'⟩ : ∃ live', progress.live? = some live' := by
      cases progress with
      | complete | suspended => exact ⟨_, rfl⟩
      | failed fault rest => exact absurd rfl (fine _)
    -- all open calls are those of this evaluation
    have around : Tracks store.host.diary n ([] ++ p.live) := tracks
    obtain ⟨n', hscan, tracks'⟩ :=
      tracks_of_does (does_of_resume hresume) (poised.fits hs he) rfl hlive' around
    refine ⟨n', ?_, hstore ▸ tracks_afterProgress hs hlive' tracks' fine⟩
    rw [← scan_events, hevents, ← hscan, ← scan_events n signals]
    refine Bracketing.scan_append_of_eq (Bracketing.scan_of_silent n fun signal hsignal => ?_) _
    rw [announced] at hsignal
    split at hsignal
    · cases List.mem_singleton.mp hsignal
      rfl
    · cases hsignal

theorem Records.reachable {q : Program (Tagged ι)} {t : Store (Recorder ι ω)}
    {signals : List Signal} (records : q.Records commands t signals) :
    Reachable commands.recorded q t := by
  induction records with
  | start script vars name sound host => exact .start script vars name _
  | @cycle p store signals effect before hcycle ih => exact .cycle (.write ih p.vars _) hcycle
  | write before vars sound host ih => exact .write ih vars _

/-- The open calls of a run are those of the instances that it waits for. -/
theorem Records.tracks {q : Program (Tagged ι)} {t : Store (Recorder ι ω)}
    {signals : List Signal} (records : q.Records commands t signals)
    (fine : ∀ error, q.status ≠ .failed error) :
    ∃ n, Bracketing.calls.scan .empty signals = some n ∧ Tracks t.host.diary n q.live := by
  induction records with
  | start script vars name sound host => exact ⟨.empty, rfl, rfl, .nil⟩
  | @cycle p store signals effect before hcycle ih =>
    have wasFine : ∀ error, p.status ≠ .failed error := by
      intro error hfailed
      have changes := changes_of_cycle hcycle
      generalize effect.value = value at changes fine
      cases changes with
      | done | failed => exact fine error hfailed
      | exhausted running | waits running | fails running | completes running | closes running =>
        rw [hfailed] at running
        cases running
    obtain ⟨n, hscan, tracks⟩ := ih wasFine
    have begun : Tracks (store.host.begin p.vars).diary n p.live := tracks.message rfl
    have poised := suspended_of_reachable before.reachable
    obtain ⟨n', hscan', tracks'⟩ := tracks_of_cycle poised begun hcycle fine
    exact ⟨n', (Bracketing.scan_append_of_eq hscan _).trans hscan', tracks'⟩
  | write before vars sound host ih => exact ih fine

/-- The open blocks of a run are those on the stack. -/
theorem Records.shows {q : Program (Tagged ι)} {t : Store (Recorder ι ω)}
    {signals : List Signal} (records : q.Records commands t signals) :
    Carries [] signals q.stack := by
  induction records with
  | start script vars name sound host => exact .silent (List.forall_mem_nil _) rfl
  | @cycle p store signals effect before hcycle ih =>
    exact ih.append (reports_cycle commands.recorded p _ effect hcycle)
  | write before vars sound host ih => exact ih

end Program

/-- **How the events of a run are bracketed.** -/
structure WellBracketed (p : Program (Tagged ι)) (diary : List (Entry ι ω))
    (signals : List Signal) : Prop where
  /-- The calls are entered in the order in which the instances are created. -/
  created : creations diary = callsOf signals
  /-- Unless the program has failed, commands are left from the inside outwards; those that are not
  left yet are those that the program waits for; and there are some if and only if it is
  suspended. -/
  calls : (∀ error, p.status ≠ .failed error) → ∃ n,
    Bracketing.calls.scan .empty signals = some n ∧
    List.Forall₂ (IsCallOf diary) n.pending p.live ∧ (n.pending ≠ [] ↔ p.isSuspended = true)
  /-- A suspended evaluation waits for a command. -/
  waiting : ∀ evaluation, p.evaluation = some evaluation → evaluation.isWaiting = true
  /-- Blocks are closed from the inside outwards, and those that are not closed yet are those on the
  stack, apart from marks. -/
  blocks : ∃ n, Bracketing.blocks.scan .empty signals = some n ∧
    n.pending.map (fun block => block.2.unmarked) = p.stack.reverse.map Frame.unmarked

/-- **The events of every run are well bracketed.**  Every run over the commands is one over the
recorded commands, without numbers and diary. -/
theorem debugger_events_are_well_bracketed (commands : Commands ι ω) :
    (∀ (p : Program ι) (s : Store ω) (signals : List Signal), p.Runs commands s signals ↔
      ∃ q t, Program.Records commands q t signals ∧ q.erase = p ∧ t.erase = s) ∧
    ∀ (q : Program (Tagged ι)) (t : Store (Recorder ι ω)) (signals : List Signal),
      q.Records commands t signals → WellBracketed q t.host.diary signals := by
  refine ⟨fun _ _ _ => Program.runs_iff_records, fun q t signals records => ?_⟩
  have poised := Program.suspended_of_reachable records.reachable
  refine ⟨records.kept.2.protocol.creations, fun fine => ?_, fun evaluation h => ?_, ?_⟩
  · obtain ⟨n, hscan, tracks⟩ := records.tracks fine
    have hnil : n.pending = [] ↔ q.live = [] := by
      rw [← List.length_eq_zero_iff, tracks.pending.length_eq, List.length_eq_zero_iff]
    refine ⟨n, hscan, tracks.pending, ?_⟩
    rw [ne_eq, hnil, poised.live_eq_nil_iff, Bool.not_eq_false]
  · obtain ⟨s, e, -, -, hsuspended⟩ := poised evaluation h
    exact hsuspended.isWaiting
  · exact records.shows .empty rfl

/-- While `hold` has asked for time, `ask` and in it `hold` are open. -/
theorem debugger_events_are_well_bracketed_ask :
    ∃ (t : Store (Recorder Nat Unit)) (signals : List Signal),
      askingProgram.Records (.deferring (.bool true)) t signals ∧
      askingProgram.live = [("ask", 1), ("hold", 3)] ∧
      WellBracketed askingProgram t.host.diary signals := by
  obtain ⟨cache, signals, records⟩ := exists_records_asking (.bool true)
  exact ⟨_, signals, records, rfl,
    (debugger_events_are_well_bracketed (.deferring (.bool true))).2 _ _ signals records⟩

end StepScript
