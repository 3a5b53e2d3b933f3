import StepScript.Proofs.Resumption
import StepScript.Proofs.Structured

/-!
# Cycles do what the tree of blocks means

A program works with a counter, a stack and a search for closing braces.  Its script, if it is
balanced, means something as a tree of blocks.  The two agree: cycling a program comes to an end
exactly if the tree does, in the same way, with the same variables, and with the same events in the
same order.

The tree determines what the program does, so that one half of the proof follows the meaning of the
tree and shows that cycles lead to the corresponding place.  For the other half it is then enough
that the meaning of the tree has an end whenever the cycles have one, which is shown by induction on
their number.

## Main definitions

* `Cycles` — some cycles of a program, with all signals.
* `cellOf`, `mark` — the cell of the innermost selection on a stack.
* `Program.standing` — a program between two statements.

## Main results

* `achieves_of_exec` — what the tree does, cycles do.
* `exec_of_cycles` — if the cycles end, the tree does something.
* `flat_machine_refines_structured` — **cycles do what the tree means**.
-/

namespace StepScript

variable {ι ω : Type} {commands : Commands ι ω} {pause : ω → ω}

/-! ### Some cycles -/

/-- A number of cycles of a program that can go on before each of them, with a pause after each. -/
inductive Cycles (commands : Commands ι ω) (pause : ω → ω) :
    Nat → Program ι → Store ω → List Signal → Program ι → Store ω → Prop
  /-- None. -/
  | none (p : Program ι) (store : Store ω) : Cycles commands pause 0 p store [] p store
  /-- One, and then more. -/
  | more {n : Nat} {p p' : Program ι} {store store' : Store ω} {signals : List Signal}
    {effect : Effect ω (Program ι × Except ProgramError Unit)} (running : p.status = .running)
    (h : p.cycle commands store = some effect)
    (rest : Cycles commands pause n effect.value.1 (effect.store.paced pause) signals p' store') :
    Cycles commands pause (n + 1) p store (effect.signals ++ signals) p' store'

namespace Cycles

variable {m n : Nat} {p q r : Program ι} {s t u : Store ω} {first second : List Signal}

theorem trans (h : Cycles commands pause m p s first q t)
    (h' : Cycles commands pause n q t second r u) :
    Cycles commands pause (m + n) p s (first ++ second) r u := by
  induction h with
  | none => rwa [Nat.zero_add, List.nil_append]
  | more running h rest ih =>
    rw [Nat.add_right_comm, List.append_assoc]
    exact .more running h (ih h')

/-- Cycles that end have all others from the same start as their first part. -/
theorem split (h : Cycles commands pause m p s first q t)
    (h' : Cycles commands pause n p s second r u) (ended : r.status ≠ .running) :
    ∃ k rest, n = m + k ∧ second = first ++ rest ∧ Cycles commands pause k q t rest r u := by
  induction h generalizing n second with
  | none => exact ⟨n, second, (Nat.zero_add n).symm, rfl, h'⟩
  | more running h rest ih =>
    cases h' with
    | none => exact absurd running ended
    | more running' h'' rest' =>
      rw [h] at h''
      cases h''
      obtain ⟨k, rest, rfl, rfl, hrest⟩ := ih rest'
      exact ⟨k, rest, by omega, (List.append_assoc ..).symm, hrest⟩

/-- After the end there are no more cycles. -/
theorem eq_of_ended (h : Cycles commands pause n p s first q t) (ended : p.status ≠ .running) :
    n = 0 ∧ first = [] ∧ q = p ∧ t = s := by
  cases h with
  | none => exact ⟨rfl, rfl, rfl, rfl⟩
  | more running => exact absurd running ended

end Cycles

theorem cycles_of_continue {n : Nat} {r r' : Run ι ω}
    (h : Run.continue commands pause n r = some r') :
    ∃ m signals, Cycles commands pause m r.program r.store signals r'.program r'.store ∧
      r'.allSignals = r.allSignals ++ signals := by
  induction n generalizing r with
  | zero =>
    cases h
    exact ⟨0, [], .none .., (List.append_nil _).symm⟩
  | succ n ih =>
    rw [Run.continue] at h
    split at h
    · cases h
      exact ⟨0, [], .none .., (List.append_nil _).symm⟩
    · next running =>
      obtain ⟨effect, hcycle, hrest⟩ := Option.bind_eq_some_iff.mp h
      obtain ⟨m, signals, cycles, hsignals⟩ := ih hrest
      refine ⟨m + 1, effect.signals ++ signals, .more ?_ hcycle cycles, ?_⟩
      · simpa [Program.isDone] using running
      · rw [hsignals]
        simp [Run.allSignals]

theorem continue_of_cycles {n : Nat} {r : Run ι ω} {p : Program ι} {store : Store ω}
    {signals : List Signal} (h : Cycles commands pause n r.program r.store signals p store) :
    ∃ r', Run.continue commands pause n r = some r' ∧ r'.program = p ∧ r'.store = store ∧
      r'.allSignals = r.allSignals ++ signals := by
  induction n generalizing r signals with
  | zero =>
    cases h
    exact ⟨r, rfl, rfl, rfl, (List.append_nil _).symm⟩
  | succ n ih =>
    cases h with
    | @more _ _ _ _ _ signals effect running hcycle rest =>
      obtain ⟨r', hr', hprogram, hstore, hsignals⟩ := ih (r :=
        ⟨effect.value.1, effect.store.paced pause, r.cycles + 1, effect.value.2,
          effect.signals :: r.signals⟩) rest
      refine ⟨r', ?_, hprogram, hstore, ?_⟩
      · rw [Run.continue, if_neg (by simp [Program.isDone, running])]
        exact Option.bind_eq_some_iff.mpr ⟨effect, hcycle, hr'⟩
      · rw [hsignals]
        simp [Run.allSignals]

/-! ### The cell on a stack -/

/-- The cell of the innermost selection. -/
def cellOf : List Frame → Cell
  | [] => none
  | .selection scrutinee hit :: _ => some (scrutinee, hit)
  | .condition :: stack | .alternative :: stack | .repetition _ :: stack => cellOf stack

/-- The stack with the innermost selection marked as matched or not. -/
def mark (hit : Bool) : List Frame → List Frame
  | [] => []
  | .selection scrutinee _ :: stack => .selection scrutinee hit :: stack
  | .condition :: stack => .condition :: mark hit stack
  | .alternative :: stack => .alternative :: mark hit stack
  | .repetition header :: stack => .repetition header :: mark hit stack

theorem mark_mark (hit hit' : Bool) (stack : List Frame) :
    mark hit (mark hit' stack) = mark hit stack := by
  induction stack with
  | nil => rfl
  | cons frame stack ih => cases frame <;> simp [mark, ih]

theorem exists_mark_eq_self (stack : List Frame) : ∃ hit, mark hit stack = stack := by
  induction stack with
  | nil => exact ⟨false, rfl⟩
  | cons frame stack ih =>
    obtain ⟨hit, h⟩ := ih
    cases frame with
    | selection scrutinee hit => exact ⟨hit, rfl⟩
    | condition | alternative | repetition => exact ⟨hit, by rw [mark, h]⟩

/-- A case is matched against the cell. -/
theorem matchCase_eq (v : Value) (stack : List Frame) :
    Program.matchCase v stack = (cellOf stack).map fun cell =>
      if !cell.2 && cell.1.equals v then (true, mark true stack) else (false, stack) := by
  induction stack with
  | nil => rfl
  | cons frame stack ih =>
    cases frame with
    | selection scrutinee hit =>
      cases h : !hit && scrutinee.equals v <;>
        simp only [Program.matchCase, cellOf, mark, h, Option.map_some, Bool.false_eq_true,
          if_true, if_false]
    | condition | alternative | repetition =>
      show (Program.matchCase v stack).map _ = (cellOf stack).map _
      rw [ih, Option.map_map]
      congr 1
      funext cell
      simp only [Function.comp_apply]
      split <;> rfl

/-! ### One statement -/

namespace Program

/-- A program that executes the statement with the given index. -/
abbrev executing (name : String) (script : Script) (vars : Variables) (stack : List Frame)
    (i : Nat) (evaluation : Option (Evaluation ι)) : Program ι :=
  ⟨name, script, vars, stack, i, evaluation, .running⟩

/-- A program between two statements, before the one with the given index. -/
def standing (name : String) (script : Script) (vars : Variables) (stack : List Frame) (i : Nat) :
    Program ι :=
  settled (executing name script vars stack i none)

variable {name : String} {script : Script} {vars : Variables} {stack : List Frame} {i : Nat}

theorem standing_of_lt (h : i < script.size) :
    (standing name script vars stack i : Program ι) = executing name script vars stack i none :=
  settled_eq_self h

theorem standing_of_drop {s : Statement} {rest : List Statement}
    (h : script.statements.drop i = s :: rest) :
    (standing name script vars stack i : Program ι) = executing name script vars stack i none :=
  standing_of_lt (List.getElem?_eq_some_iff.mp (getElem?_of_drop h)).1

theorem ofScript_named_eq_standing (script : Script) (vars : Variables) (name : String) :
    ((ofScript script vars).named name : Program ι) = standing name script vars [] 0 := by
  unfold standing settled
  cases h : script.statements with
  | nil => simp [ofScript, named, Script.size, h]
  | cons => simp [ofScript, named, Script.size, h]

end Program

open Program (executing standing)

section

variable {name : String} {script : Script} {vars : Variables} {stack : List Frame} {i : Nat}
  {s : Statement} {e : Expr}

theorem afterProgress_suspended (hs : script.statements[i]? = some s)
    {evaluation : Option (Evaluation ι)} {rest : Evaluation ι} :
    ((executing name script vars stack i evaluation).afterProgress s (.suspended rest)).1 =
      executing name script vars stack i (some rest) :=
  Program.settled_eq_self (List.getElem?_eq_some_iff.mp hs).1

/-- One cycle with an expression. -/
theorem cycles_of_progress (hs : script.statements[i]? = some s) (he : s.kind.value? = some e)
    {evaluation : Option (Evaluation ι)} {store : Store ω} {effect : Effect ω (Progress ι)}
    (h : resume ⟨commands, vars⟩ (evaluation.getD .fresh) e store = some effect) :
    ∃ signals, Cycles commands pause 1 (executing name script vars stack i evaluation) store signals
      ((executing name script vars stack i evaluation).afterProgress s effect.value).1
      (effect.store.paced pause) ∧
      events signals = (executing name script vars stack i evaluation).announced s ++
        events effect.signals := by
  have hs' : (executing name script vars stack i evaluation).current? = some s := hs
  obtain ⟨signals, hcycle, hevents⟩ := Program.cycle_of_resume rfl hs' he h
  refine ⟨signals ++ [], .more rfl hcycle (.none ..), ?_⟩
  rw [List.append_nil, hevents]

/-- Cycles with an expression go on until it has a result. -/
theorem cycles_of_stepAll (hs : script.statements[i]? = some s) (he : s.kind.value? = some e)
    {pauses : Nat} {evaluation : Option (Evaluation ι)} {store store' : Store ω}
    {result : Except Fault Value} {marks : List Mark}
    (h : stepAll commands e (evaluation.getD .fresh) vars store
      (List.replicate pauses ⟨vars, Store.paced pause⟩) =
        some ⟨.ofResult result, ⟨vars, store', []⟩, marks⟩) :
    ∃ signals, Cycles commands pause (pauses + 1) (executing name script vars stack i evaluation)
      store signals
      ((executing name script vars stack i none).outcome s
        (result.bind ((executing name script vars stack i none).completed s.kind))).1
      (store'.paced pause) ∧
      events signals = (executing name script vars stack i evaluation).announced s ++
        events (signalsOf marks) := by
  -- One cycle for each pause, and one in which the result comes.
  induction pauses generalizing evaluation store marks with
  | zero =>
    obtain ⟨progress, store₁, signals₁, hresume⟩ := exists_resume_of_stepAll h
    obtain ⟨signals, cycles, hevents⟩ := cycles_of_progress hs he hresume
    refine ⟨signals, ?_⟩
    cases progress with
    | complete v =>
      rw [stepAll_of_complete _ hresume] at h
      cases result with
      | error => cases h
      | ok =>
        cases h
        exact ⟨cycles, by rw [hevents, signalsOf_map_signal]⟩
    | failed fault rest =>
      rw [stepAll_of_failed _ hresume] at h
      cases result with
      | ok => cases h
      | error =>
        cases h
        exact ⟨cycles, by rw [hevents, signalsOf_map_signal]⟩
    | suspended rest =>
      -- without a pause left, an evaluation that is suspended has no result
      rw [List.replicate_zero, stepAll_of_suspended_nil hresume] at h
      cases result <;> cases h
  | succ pauses ih =>
    obtain ⟨progress, store₁, signals₁, hresume⟩ := exists_resume_of_stepAll h
    obtain ⟨signals, cycles, hevents⟩ := cycles_of_progress hs he hresume
    cases progress with
    | complete v =>
      -- a result now would leave the other pauses over
      rw [stepAll_of_complete _ hresume] at h
      exact nomatch congrArg (fun r => r.session.later) (Option.some.inj h)
    | failed fault rest =>
      rw [stepAll_of_failed _ hresume] at h
      exact nomatch congrArg (fun r => r.session.later) (Option.some.inj h)
    | suspended rest =>
      -- the program is left as it was, but for the place in the evaluation
      rw [List.replicate_succ, stepAll_of_suspended_cons _ _ hresume] at h
      obtain ⟨⟨ending, session, marks'⟩, hrest, heq⟩ := Option.map_eq_some_iff.mp h
      obtain ⟨rfl, rfl, rfl⟩ := Report.mk.inj heq
      obtain ⟨signals', cycles', hevents'⟩ := @ih (some rest) _ _ hrest
      rw [afterProgress_suspended hs] at cycles
      refine ⟨signals ++ signals', ?_, ?_⟩
      · rw [Nat.add_comm]
        exact cycles.trans cycles'
      · rw [events_append, hevents, hevents']
        simp [Program.announced]

/-- Cycles evaluate the expression of a statement directly, and then go on with the statement. -/
theorem cycles_of_evaluates (hs : script.statements[i]? = some s) (he : s.kind.value? = some e)
    {store store' : Store ω} {result : Except Fault Value} {seen : List Signal}
    (h : Evaluates commands pause e vars store result store' seen) :
    ∃ n signals, Cycles commands pause (n + 1) (standing name script vars stack i) store signals
      ((executing name script vars stack i none).outcome s
        (result.bind ((executing name script vars stack i none).completed s.kind))).1
      (store'.paced pause) ∧
      events signals = .line i s :: seen := by
  obtain ⟨pauses, marks, hgenerate, rfl⟩ := h
  have hstep : stepAll commands e (Option.getD none .fresh) vars store
      (List.replicate pauses ⟨vars, Store.paced pause⟩) =
        some ⟨.ofResult result, ⟨vars, store', []⟩, marks⟩ := by
    rw [stepAll_eq_finishing]
    exact hgenerate
  obtain ⟨signals, cycles, hevents⟩ := cycles_of_stepAll hs he hstep
  refine ⟨pauses, signals, ?_, hevents⟩
  rw [Program.standing_of_lt (List.getElem?_eq_some_iff.mp hs).1]
  exact cycles

/-- If cycles end, the expression that they begin with has a result. -/
theorem stepAll_of_cycles (hs : script.statements[i]? = some s) (he : s.kind.value? = some e)
    {n : Nat} {evaluation : Option (Evaluation ι)} {store store' : Store ω}
    {signals : List Signal} {p : Program ι}
    (h : Cycles commands pause n (executing name script vars stack i evaluation) store signals p
      store') (ended : p.status ≠ .running) :
    ∃ pauses result store'' marks, stepAll commands e (evaluation.getD .fresh) vars store
      (List.replicate pauses ⟨vars, Store.paced pause⟩) =
        some ⟨.ofResult result, ⟨vars, store'', []⟩, marks⟩ := by
  -- The number of cycles bounds that of the pauses.
  induction n generalizing evaluation store signals with
  | zero =>
    cases h
    exact absurd rfl ended
  | succ n ih =>
    cases h with
    | more running hcycle rest =>
      have hs' : (executing name script vars stack i evaluation).current? = some s := hs
      cases hresume : resume ⟨commands, vars⟩ (evaluation.getD .fresh) e store with
      | none =>
        rw [Program.cycle_eq_none_of_resume rfl hs' he hresume] at hcycle
        cases hcycle
      | some effect =>
        obtain ⟨progress, store₁, signals₁⟩ := effect
        cases progress with
        | complete v =>
          exact ⟨0, .ok v, store₁, _, stepAll_of_complete [] hresume⟩
        | failed fault rest =>
          exact ⟨0, .error fault, store₁, _, stepAll_of_failed [] hresume⟩
        | suspended inner =>
          -- the next cycle stands at the same statement, with the rest of the evaluation
          obtain ⟨signals', hcycle', -⟩ := Program.cycle_of_resume rfl hs' he hresume
          rw [hcycle] at hcycle'
          cases hcycle'
          rw [afterProgress_suspended hs] at rest
          obtain ⟨pauses, result, store'', marks, hstep⟩ := ih rest
          refine ⟨pauses + 1, result, store'', signals₁.map .signal ++ [.suspended] ++ marks, ?_⟩
          rw [List.replicate_succ, stepAll_of_suspended_cons _ _ hresume]
          exact Option.map_eq_some_iff.mpr ⟨_, hstep, rfl⟩

theorem evaluates_of_cycles (hs : script.statements[i]? = some s) (he : s.kind.value? = some e)
    {n : Nat} {store store' : Store ω} {signals : List Signal} {p : Program ι}
    (h : Cycles commands pause n (standing name script vars stack i) store signals p store')
    (ended : p.status ≠ .running) :
    ∃ result store'' seen, Evaluates commands pause e vars store result store'' seen := by
  rw [Program.standing_of_lt (List.getElem?_eq_some_iff.mp hs).1] at h
  obtain ⟨pauses, result, store'', marks, hstep⟩ := stepAll_of_cycles hs he h ended
  rw [stepAll_eq_finishing] at hstep
  exact ⟨result, store'', _, pauses, marks, hstep, rfl⟩

end

/-! ### Blocks -/

/-- What the header with the given index makes of the stack when the body of its block is executed:
the new frame, and the stack below it. -/
inductive Entered (i : Nat) (stack : List Frame) : BlockKind → Frame → List Frame → Prop
  /-- An `if`. -/
  | condition : Entered i stack .condition .condition stack
  /-- A `switch`. -/
  | selection (v : Value) : Entered i stack .selection (.selection v false) stack
  /-- A `case`, which marks the innermost selection. -/
  | alternative : Entered i stack .alternative .alternative (mark true stack)
  /-- A `while`. -/
  | repetition : Entered i stack .repetition (.repetition i) stack

section

variable {name : String} {script : Script} {vars : Variables} {stack stack' : List Frame} {i : Nat}
  {kind : BlockKind} {frame : Frame} {v : Value}

theorem cellOf_mark_true {scrutinee : Value} {hit : Bool}
    (h : cellOf stack = some (scrutinee, hit)) :
    cellOf (mark true stack) = some (scrutinee, true) := by
  induction stack with
  | nil => cases h
  | cons frame stack ih =>
    cases frame with
    | selection scrutinee' hit' =>
      cases h
      rfl
    | condition | alternative | repetition => exact ih h

theorem entered_of_error {fault : Fault} (h : kind.entry v (cellOf stack) = .error fault) :
    (executing name script vars stack i (none : Option (Evaluation ι))).entered kind v =
      .error fault := by
  cases kind with
  | condition | repetition | selection => cases h
  | alternative =>
    rw [Program.entered, matchCase_eq]
    cases hcell : cellOf stack with
    | none =>
      rw [hcell] at h
      cases h
      rfl
    | some cell =>
      rw [hcell] at h
      cases h

theorem entered_of_none (h : kind.entry v (cellOf stack) = .ok none) :
    (executing name script vars stack i (none : Option (Evaluation ι))).entered kind v =
      (executing name script vars stack i none).skipped kind := by
  cases kind with
  | condition | repetition =>
    simp only [BlockKind.entry, Except.ok.injEq, ite_eq_right_iff, reduceCtorEq, imp_false] at h
    rw [Program.entered, if_neg h]
  | selection => cases h
  | alternative =>
    rw [Program.entered, matchCase_eq]
    cases hcell : cellOf stack with
    | none =>
      rw [hcell] at h
      cases h
    | some cell =>
      rw [hcell] at h
      simp only [BlockKind.entry, Except.ok.injEq, ite_eq_right_iff, reduceCtorEq, imp_false] at h
      simp only [Option.map_some, if_neg h]

theorem entered_of_some {inner : Cell} (h : kind.entry v (cellOf stack) = .ok (some inner)) :
    ∃ frame stack', Entered i stack kind frame stack' ∧ cellOf (frame :: stack') = inner ∧
      (executing name script vars stack i (none : Option (Evaluation ι))).entered kind v =
        .ok (executing name script vars (frame :: stack') (i + 1) none) := by
  cases kind with
  | condition | repetition =>
    simp only [BlockKind.entry, Except.ok.injEq, Option.ite_none_right_eq_some, Option.some.injEq]
      at h
    obtain ⟨htruthy, rfl⟩ := h
    exact ⟨_, _, by constructor, rfl, by rw [Program.entered, if_pos htruthy]; rfl⟩
  | selection =>
    cases h
    exact ⟨_, _, .selection v, rfl, rfl⟩
  | alternative =>
    cases hcell : cellOf stack with
    | none =>
      rw [hcell] at h
      cases h
    | some cell =>
      rw [hcell] at h
      simp only [BlockKind.entry, Except.ok.injEq, Option.ite_none_right_eq_some,
        Option.some.injEq] at h
      obtain ⟨hmatch, rfl⟩ := h
      refine ⟨_, _, .alternative, cellOf_mark_true hcell, ?_⟩
      rw [Program.entered, matchCase_eq, hcell]
      simp only [Option.map_some, if_pos hmatch]
      rfl

end

/-! ### Statements of a tree -/

/-- A program that has failed in the statement with the given index. -/
def HasFailed (name : String) (script : Script) (vars : Variables) (i : Nat) (fault : Fault)
    (p : Program ι) : Prop :=
  ∃ s stack, script.statements[i]? = some s ∧
    p = (executing name script vars stack i none).failedAt s fault

section

variable {name : String} {script : Script} {vars : Variables} {stack stack' : List Frame}
  {i : Nat} {kind : BlockKind} {frame : Frame} {e : Expr} {span brace : Span} {v : Value}
  {body next : BlockTree} {rest : List Statement} {store store' : Store ω} {seen : List Signal}

theorem cycles_plain {target : Option String}
    (hdrop : script.statements.drop i = ⟨.plain target e, span⟩ :: rest)
    (h : Evaluates commands pause e vars store (.ok v) store' seen) :
    ∃ n signals, Cycles commands pause (n + 1) (standing name script vars stack i) store signals
      (standing name script (assign vars v target) stack (i + 1)) (store'.paced pause) ∧
      events signals = .line i ⟨.plain target e, span⟩ :: seen := by
  have he : (StatementKind.plain target e).value? = some e := by cases target <;> rfl
  obtain ⟨n, signals, cycles, hevents⟩ := cycles_of_evaluates (getElem?_of_drop hdrop) he h
  refine ⟨n, signals, ?_, hevents⟩
  cases target <;> exact cycles

/-- A statement without a value, or a header whose block must not stand there, is the end. -/
theorem cycles_failed {s : Statement} {fault : Fault} {result : Except Fault Value}
    (hs : script.statements[i]? = some s) (he : s.kind.value? = some e)
    (h : Evaluates commands pause e vars store result store' seen)
    (hfault : result.bind ((executing name script vars stack i
      (none : Option (Evaluation ι))).completed s.kind) = .error fault) :
    ∃ n signals p, Cycles commands pause (n + 1) (standing name script vars stack i) store signals p
      (store'.paced pause) ∧ events signals = .line i s :: seen ∧
      HasFailed name script vars i fault p := by
  obtain ⟨n, signals, cycles, hevents⟩ := cycles_of_evaluates hs he h
  rw [hfault] at cycles
  exact ⟨n, signals, _, cycles, hevents, s, stack, hs, rfl⟩

theorem cycles_skipped
    (hdrop : script.statements.drop i =
      (BlockTree.block kind e span body brace next).statements ++ rest)
    (h : Evaluates commands pause e vars store (.ok v) store' seen)
    (hentry : kind.entry v (cellOf stack) = .ok none) :
    ∃ n signals, Cycles commands pause (n + 1) (standing name script vars stack i) store signals
      (standing name script vars stack (i + 1 + body.size + 1)) (store'.paced pause) ∧
      events signals = .line i ⟨.header kind e, span⟩ :: seen := by
  obtain ⟨hheader, -, -, -⟩ := drop_block hdrop
  obtain ⟨n, signals, cycles, hevents⟩ := cycles_of_evaluates (getElem?_of_drop hheader) rfl h
  refine ⟨n, signals, ?_, hevents⟩
  have hskipped : (executing name script vars stack i
      (none : Option (Evaluation ι))).completed (.header kind e) v =
        .ok (executing name script vars stack (i + 1 + body.size + 1) none) := by
    rw [Program.completed, entered_of_none hentry, Program.skipped]
    simp only [BlockTree.closing?_of_drop hdrop]
  rw [Except.bind, hskipped] at cycles
  exact cycles

theorem cycles_entered {inner : Cell}
    (hdrop : script.statements.drop i =
      (BlockTree.block kind e span body brace next).statements ++ rest)
    (h : Evaluates commands pause e vars store (.ok v) store' seen)
    (hentry : kind.entry v (cellOf stack) = .ok (some inner)) :
    ∃ frame stack', Entered i stack kind frame stack' ∧ cellOf (frame :: stack') = inner ∧
      ∃ n signals, Cycles commands pause (n + 1) (standing name script vars stack i) store signals
        (standing name script vars (frame :: stack') (i + 1)) (store'.paced pause) ∧
        events signals = .line i ⟨.header kind e, span⟩ :: seen := by
  obtain ⟨hheader, -, -, -⟩ := drop_block hdrop
  obtain ⟨n, signals, cycles, hevents⟩ := cycles_of_evaluates (getElem?_of_drop hheader) rfl h
  obtain ⟨frame, stack', entered, hcell, hopened⟩ := entered_of_some hentry
  refine ⟨frame, stack', entered, hcell, n, signals, ?_, hevents⟩
  rw [Except.bind, Program.completed, hopened] at cycles
  exact cycles

theorem cycles_blockEnd {j : Nat} (commands : Commands ι ω) (pause : ω → ω)
    (hdrop : script.statements.drop j = ⟨.blockEnd, brace⟩ :: rest) (store : Store ω) :
    ∃ signals, Cycles commands pause 1 (standing name script vars (frame :: stack) j) store signals
      (standing name script vars stack (frame.exit j)) (store.paced pause) ∧
      events signals = [.line j ⟨.blockEnd, brace⟩] := by
  rw [Program.standing_of_drop hdrop]
  have hs : (executing name script vars (frame :: stack) j
      (none : Option (Evaluation ι))).current? = some ⟨.blockEnd, brace⟩ := getElem?_of_drop hdrop
  obtain ⟨signals, hcycle, hevents⟩ := Program.cycle_of_blockEnd commands rfl hs rfl store
  refine ⟨signals ++ [], .more rfl hcycle (.none ..), ?_⟩
  rw [List.append_nil, hevents]
  rfl

/-- A closing brace takes back what the header has done to the stack, apart from a mark on the
innermost selection. -/
theorem cycles_closed {j : Nat} (commands : Commands ι ω) (pause : ω → ω)
    (entered : Entered i stack kind frame stack')
    (hdrop : script.statements.drop j = ⟨.blockEnd, brace⟩ :: rest) (hit : Bool) (store : Store ω) :
    ∃ hit', cellOf (mark hit' stack) =
        kind.leave (cellOf stack) (cellOf (mark hit (frame :: stack'))) ∧
      ∃ signals,
        Cycles commands pause 1 (standing name script vars (mark hit (frame :: stack')) j) store
          signals
          (standing name script vars (mark hit' stack) (if kind = .repetition then i else j + 1))
          (store.paced pause) ∧
        events signals = [.line j ⟨.blockEnd, brace⟩] := by
  cases entered with
  | condition => exact ⟨hit, rfl, cycles_blockEnd commands pause hdrop store⟩
  | repetition => exact ⟨hit, rfl, cycles_blockEnd commands pause hdrop store⟩
  | selection v =>
    obtain ⟨hit', hsame⟩ := exists_mark_eq_self stack
    refine ⟨hit', congrArg cellOf hsame, ?_⟩
    rw [hsame]
    exact cycles_blockEnd commands pause hdrop store
  | alternative =>
    have hmark : mark hit (.alternative :: mark true stack) = .alternative :: mark hit stack := by
      rw [mark, mark_mark]
    rw [hmark]
    exact ⟨hit, rfl, cycles_blockEnd commands pause hdrop store⟩

end

/-! ### What the tree does, cycles do -/

/-- A program has come to where an outcome leads, from a stack and before the statement with the
given index if all went well. -/
def Lands (name : String) (script : Script) (stack : List Frame) (i : Nat) (p : Program ι)
    (store : Store ω) : Outcome ω → Prop
  | .finished s => store = s.store ∧ ∃ hit, p = standing name script s.vars (mark hit stack) i ∧
    cellOf (mark hit stack) = s.cell
  | .failed j fault vars store' => store = store' ∧ HasFailed name script vars j fault p

/-- Cycles that start at one index, in a certain situation, lead to an outcome at another. -/
def Achieves (commands : Commands ι ω) (pause : ω → ω) (name : String) (script : Script)
    (stack : List Frame) (i i' : Nat) (s : Situation ω) (seen : List Signal) (out : Outcome ω) :
    Prop :=
  ∃ n signals p store, Cycles commands pause n (standing name script s.vars stack i) s.store
    signals p store ∧ events signals = seen ∧ Lands name script stack i' p store out

section

variable {name : String} {script : Script} {stack : List Frame} {i i' : Nat}

theorem lands_of_mark {hit : Bool} {p : Program ι} {store : Store ω} {out : Outcome ω}
    (h : Lands name script (mark hit stack) i p store out) :
    Lands name script stack i p store out := by
  cases out with
  | failed => exact h
  | finished s =>
    obtain ⟨hstore, hit', hp, hcell⟩ := h
    rw [mark_mark] at hp hcell
    exact ⟨hstore, hit', hp, hcell⟩

/-- Cycles before those that lead to an outcome. -/
theorem Achieves.after {n j : Nat} {s : Situation ω} {vars : Variables} {store : Store ω}
    {signals seen : List Signal} {hit : Bool} {out : Outcome ω}
    (h : Achieves commands pause name script (mark hit stack) j i' s seen out)
    (cycles : Cycles commands pause n (standing name script vars stack i) store signals
      (standing name script s.vars (mark hit stack) j) s.store) (cell : Cell) :
    Achieves commands pause name script stack i i' ⟨vars, store, cell⟩ (events signals ++ seen)
      out := by
  obtain ⟨m, signals', p, store', cycles', rfl, lands⟩ := h
  exact ⟨n + m, signals ++ signals', p, store', cycles.trans cycles', events_append ..,
    lands_of_mark lands⟩

/-- The same, for cycles that leave the stack as it is. -/
theorem Achieves.after_same {n j : Nat} {s : Situation ω} {vars : Variables} {store : Store ω}
    {signals seen : List Signal} {out : Outcome ω}
    (h : Achieves commands pause name script stack j i' s seen out)
    (cycles : Cycles commands pause n (standing name script vars stack i) store signals
      (standing name script s.vars stack j) s.store) (cell : Cell) :
    Achieves commands pause name script stack i i' ⟨vars, store, cell⟩ (events signals ++ seen)
      out := by
  obtain ⟨hit, hsame⟩ := exists_mark_eq_self stack
  rw [← hsame] at h
  refine h.after (n := n) ?_ cell
  rw [hsame]
  exact cycles

/-- The header of a block, its body, and its closing brace. -/
theorem cycles_block {kind : BlockKind} {e : Expr} {span brace : Span} {body next : BlockTree}
    {rest : List Statement} {s s' : Situation ω} {v : Value} {inner : Cell} {store : Store ω}
    {seen seen' : List Signal}
    (hdrop : script.statements.drop i =
      (BlockTree.block kind e span body brace next).statements ++ rest)
    (hcell : cellOf stack = s.cell)
    (value : Evaluates commands pause e s.vars s.store (.ok v) store seen)
    (entry : kind.entry v s.cell = .ok (some inner))
    (inside : ∀ stack, cellOf stack = inner → Achieves commands pause name script stack (i + 1)
      (i + 1 + body.size) ⟨s.vars, store.paced pause, inner⟩ seen' (.finished s')) :
    ∃ n signals hit, Cycles commands pause (n + 1) (standing name script s.vars stack i) s.store
        signals
        (standing name script s'.vars (mark hit stack)
          (if kind = .repetition then i else i + 1 + body.size + 1))
        (s'.store.paced pause) ∧
      events signals = .line i ⟨.header kind e, span⟩ :: seen ++
        (seen' ++ [.line (i + 1 + body.size) ⟨.blockEnd, brace⟩]) ∧
      cellOf (mark hit stack) = kind.leave s.cell s'.cell := by
  obtain ⟨-, -, hbrace, -⟩ := drop_block hdrop
  rw [← hcell] at entry
  -- the header
  obtain ⟨frame, stack', entered, hinner, n, signals, cycles, hevents⟩ :=
    cycles_entered hdrop value entry
  -- the body, on the stack that the header leaves
  obtain ⟨m, signals', p, store', cycles', rfl, rfl, hit, rfl, hcell'⟩ := inside _ hinner
  -- the brace, which marks the frame below if a case was entered
  obtain ⟨hit', hleave, signals'', cycles'', hevents''⟩ :=
    cycles_closed commands pause entered hbrace hit s'.store
  refine ⟨n + (m + 1), signals ++ (signals' ++ signals''), hit', ?_, ?_, ?_⟩
  · have h := cycles.trans (cycles'.trans cycles'')
    rwa [Nat.add_right_comm] at h
  · rw [events_append, events_append, hevents, hevents'']
  · rw [hleave, hcell, hcell']

theorem index_after_block {kind : BlockKind} {e : Expr} {span brace : Span}
    {body next : BlockTree} : i + 1 + body.size + 1 + next.size =
      i + (BlockTree.block kind e span body brace next).size := by
  rw [BlockTree.size_block]
  omega

/-- **What the tree does, cycles do.** -/
theorem achieves_of_exec {t : BlockTree} {s : Situation ω} {seen : List Signal} {out : Outcome ω}
    (h : Exec commands pause t i s seen out) {rest : List Statement}
    (hdrop : script.statements.drop i = t.statements ++ rest) (hcell : cellOf stack = s.cell) :
    Achieves commands pause name script stack i (i + t.size) s seen out := by
  -- Induction on the execution; the stack below, and what follows the tree, are free.
  induction h generalizing stack rest with
  | @nil i s =>
    -- no cycle at all
    obtain ⟨hit, hsame⟩ := exists_mark_eq_self stack
    refine ⟨0, [], _, _, .none .., rfl, rfl, hit, ?_, ?_⟩
    · rw [hsame]
      rfl
    · rw [hsame, hcell]
  | @plain target e span next i s v store seen seen' out value _ ih =>
    obtain ⟨n, signals, cycles, hevents⟩ := cycles_plain hdrop value
    have h := (ih (drop_succ hdrop) hcell).after_same cycles s.cell
    rwa [hevents, Nat.add_right_comm, Nat.add_assoc] at h
  | @plainFails target e span next i s fault store seen value =>
    have he : (StatementKind.plain target e).value? = some e := by cases target <;> rfl
    -- the cycle in which the evaluation fails is the last one
    obtain ⟨n, signals, p, cycles, hevents, hfailed⟩ :=
      cycles_failed (getElem?_of_drop hdrop) he value rfl
    exact ⟨n + 1, signals, p, _, cycles, hevents, rfl, hfailed⟩
  | @headerFails kind e span brace body next i s fault store seen value =>
    obtain ⟨hheader, -, -, -⟩ := drop_block hdrop
    obtain ⟨n, signals, p, cycles, hevents, hfailed⟩ :=
      cycles_failed (getElem?_of_drop hheader) rfl value rfl
    exact ⟨n + 1, signals, p, _, cycles, hevents, rfl, hfailed⟩
  | @refused kind e span brace body next i s v fault store seen value entry =>
    -- the value is known, but the block does not take it
    obtain ⟨hheader, -, -, -⟩ := drop_block hdrop
    rw [← hcell] at entry
    obtain ⟨n, signals, p, cycles, hevents, hfailed⟩ :=
      cycles_failed (getElem?_of_drop hheader) rfl value (entered_of_error entry)
    exact ⟨n + 1, signals, p, _, cycles, hevents, rfl, hfailed⟩
  | @skipped kind e span brace body next i s v store seen seen' out value entry _ ih =>
    -- the cycle jumps behind the brace
    obtain ⟨-, -, -, hnext⟩ := drop_block hdrop
    rw [← hcell] at entry
    obtain ⟨n, signals, cycles, hevents⟩ := cycles_skipped hdrop value entry
    have h := (ih hnext hcell).after_same cycles s.cell
    rw [hevents] at h
    rwa [← index_after_block]
  | @bodyFails kind e span brace body next i j s v inner store store' vars fault seen seen' value
      entry _ ih =>
    obtain ⟨-, hbody, -, -⟩ := drop_block hdrop
    rw [← hcell] at entry
    -- the header is passed, and the body fails on the longer stack
    obtain ⟨frame, stack', entered, hinner, n, signals, cycles, hevents⟩ :=
      cycles_entered hdrop value entry
    obtain ⟨m, signals', p, store'', cycles', rfl, lands⟩ := ih hbody hinner
    refine ⟨_, _, p, store'', cycles.trans cycles', ?_, lands⟩
    rw [events_append, hevents]
  | @passed kind e span brace body next i s s' v inner store seen seen' seen'' out once value entry
      _ _ ihbody ihnext =>
    obtain ⟨-, hbody, -, hnext⟩ := drop_block hdrop
    -- header, body and brace, and then what follows the block
    obtain ⟨n, signals, hit, cycles, hevents, hleave⟩ :=
      cycles_block hdrop hcell value entry fun stack hinner => ihbody hbody hinner
    rw [if_neg once] at cycles
    have h := (ihnext hnext hleave).after cycles s.cell
    rw [hevents, List.append_assoc, List.append_assoc] at h
    rwa [← index_after_block]
  | @repeated e span brace body next i s s' v inner store seen seen' seen'' out value entry
      _ _ ihbody ihagain =>
    -- header, body and brace, and then the same loop again
    obtain ⟨-, hbody, -, -⟩ := drop_block hdrop
    obtain ⟨n, signals, hit, cycles, hevents, hleave⟩ :=
      cycles_block hdrop hcell value entry fun stack hinner => ihbody hbody hinner
    rw [if_pos rfl] at cycles
    have h := (ihagain hdrop hleave).after cycles s.cell
    rwa [hevents, List.append_assoc, List.append_assoc] at h

/-- **If cycles end, the tree does something.**  The induction is on the number of cycles: each part
of the tree takes at least one of them away from what follows it. -/
theorem exec_of_cycles {n : Nat} {t : BlockTree} {s : Situation ω} {rest : List Statement}
    {signals : List Signal} {p : Program ι} {store' : Store ω}
    (hdrop : script.statements.drop i = t.statements ++ rest) (hcell : cellOf stack = s.cell)
    (h : Cycles commands pause n (standing name script s.vars stack i) s.store signals p store')
    (ended : p.status ≠ .running) : ∃ seen out, Exec commands pause t i s seen out := by
  induction n using Nat.strongRecOn generalizing t i s stack rest signals with
  | ind n ih =>
    cases t with
    | nil => exact ⟨[], .finished s, .nil⟩
    | plain target e span next =>
      have he : (StatementKind.plain target e).value? = some e := by cases target <;> rfl
      obtain ⟨result, store'', seen, value⟩ :=
        evaluates_of_cycles (getElem?_of_drop hdrop) he h ended
      cases result with
      | error fault => exact ⟨_, _, .plainFails value⟩
      | ok v =>
        obtain ⟨m, signals', cycles, -⟩ := cycles_plain hdrop value
        -- the statement has taken cycles away, and the others are for what follows
        obtain ⟨k, rest', rfl, -, hrest⟩ := cycles.split h ended
        obtain ⟨seen', out, hnext⟩ := ih k (by omega)
          (s := ⟨assign s.vars v target, store''.paced pause, s.cell⟩) (drop_succ hdrop) hcell hrest
        exact ⟨_, out, .plain value hnext⟩
    | block kind e span body brace next =>
      -- whatever happens, the header is evaluated first
      obtain ⟨hheader, hbody, hbrace, hnext⟩ := drop_block hdrop
      obtain ⟨result, store'', seen, value⟩ :=
        evaluates_of_cycles (getElem?_of_drop hheader) rfl h ended
      cases result with
      | error fault => exact ⟨_, _, .headerFails value⟩
      | ok v =>
        cases hentry : kind.entry v s.cell with
        | error fault => exact ⟨_, _, .refused value hentry⟩
        | ok inner? =>
          cases inner? with
          | none =>
            rw [← hcell] at hentry
            obtain ⟨m, signals', cycles, -⟩ := cycles_skipped hdrop value hentry
            -- the block is skipped, and fewer cycles are left for what follows it
            obtain ⟨k, rest', rfl, -, hrest⟩ := cycles.split h ended
            obtain ⟨seen', out, hexec⟩ := ih k (by omega)
              (s := ⟨s.vars, store''.paced pause, s.cell⟩) hnext hcell hrest
            rw [hcell] at hentry
            exact ⟨_, out, .skipped value hentry hexec⟩
          | some inner =>
            -- the header has taken a cycle, so that the body is executed
            obtain ⟨seen', out, hinside⟩ : ∃ seen' out,
                Exec commands pause body (i + 1) ⟨s.vars, store''.paced pause, inner⟩ seen'
                  out := by
              rw [← hcell] at hentry
              obtain ⟨frame, stack', entered, hinner, m, signals', cycles, -⟩ :=
                cycles_entered hdrop value hentry
              obtain ⟨k, rest', rfl, -, hrest⟩ := cycles.split h ended
              exact ih k (by omega) (s := ⟨s.vars, store''.paced pause, inner⟩) hbody hinner hrest
            cases out with
            | failed j fault vars store₁ => exact ⟨_, _, .bodyFails value hentry hinside⟩
            | finished s' =>
              -- the body is done, and the cycles of the whole block are known
              obtain ⟨m, signals', hit, cycles, -, hleave⟩ :=
                cycles_block hdrop hcell value hentry fun stack hinner =>
                  achieves_of_exec hinside hbody hinner
              obtain ⟨k, rest', rfl, -, hrest⟩ := cycles.split h ended
              -- a loop is tried again, and any other block is left
              by_cases once : kind = .repetition
              · subst once
                obtain ⟨seen'', out, hagain⟩ := ih k (by omega)
                  (s := ⟨s'.vars, s'.store.paced pause, s'.cell⟩) hdrop hleave hrest
                exact ⟨_, out, .repeated value hentry hinside hagain⟩
              · rw [if_neg once] at hrest
                obtain ⟨seen'', out, hafter⟩ := ih k (by omega)
                  (s := ⟨s'.vars, s'.store.paced pause, kind.leave s.cell s'.cell⟩)
                  hnext hleave hrest
                exact ⟨_, out, .passed once value hentry hinside hafter⟩

end

/-! ### Runs -/

/-- Cycling a program, with a pause after every cycle, leads to another one, with the given
events. -/
def RunsTo (commands : Commands ι ω) (pause : ω → ω) (p : Program ι) (store : Store ω)
    (p' : Program ι) (store' : Store ω) (seen : List Signal) : Prop :=
  ∃ limit run, p.runPaced commands pause limit store = some run ∧ run.program = p' ∧
    run.store = store' ∧ events run.allSignals = seen

theorem runsTo_iff {p p' : Program ι} {store store' : Store ω} {seen : List Signal} :
    RunsTo commands pause p store p' store' seen ↔
      ∃ n signals, Cycles commands pause n p store signals p' store' ∧ events signals = seen := by
  constructor
  · rintro ⟨limit, run, hrun, rfl, rfl, rfl⟩
    obtain ⟨n, signals, cycles, hsignals⟩ := cycles_of_continue hrun
    exact ⟨n, signals, cycles, congrArg events hsignals.symm⟩
  · rintro ⟨n, signals, cycles, rfl⟩
    obtain ⟨run, hrun, hprogram, hstore, hsignals⟩ :=
      continue_of_cycles (r := ⟨p, store, 0, .ok (), []⟩) cycles
    exact ⟨n, run, hrun, hprogram, hstore, congrArg events hsignals⟩

section

variable {t : BlockTree} {name : String} {p : Program ι} {store : Store ω}

theorem Lands.finished {s : Situation ω} (h : Lands name t.script [] t.size p store (.finished s)) :
    p.status = .done ∧ p.vars = s.vars ∧ store = s.store := by
  obtain ⟨hstore, hit, rfl, -⟩ := h
  have hsettled : (standing name t.script s.vars (mark hit []) t.size : Program ι) =
      { executing name t.script s.vars (mark hit []) t.size none with status := .done } :=
    if_pos (Nat.le_refl _)
  rw [hsettled]
  exact ⟨rfl, rfl, hstore⟩

theorem Lands.failed {i j : Nat} {fault : Fault} {vars : Variables} {store' : Store ω}
    (h : Lands name t.script [] j p store (.failed i fault vars store')) :
    (∃ s, t.script.statements[i]? = some s ∧ p.status = .failed ⟨name, s.span, fault⟩) ∧
      p.counter = i ∧ p.vars = vars ∧ store = store' := by
  obtain ⟨hstore, s, stack, hs, rfl⟩ := h
  exact ⟨⟨s, hs, rfl⟩, rfl, rfl, hstore⟩

theorem Lands.ended {out : Outcome ω} (h : Lands name t.script [] t.size p store out) :
    p.status ≠ .running := by
  cases out with
  | finished s =>
    rw [h.finished.1]
    nofun
  | failed i fault vars store' =>
    obtain ⟨⟨s, -, hstatus⟩, -⟩ := h.failed
    rw [hstatus]
    nofun

/-- Whatever the tree does, cycles of the whole script lead there. -/
theorem runsTo_of_exec {vars : Variables} {seen : List Signal} {out : Outcome ω} (name : String)
    (h : Exec commands pause t 0 ⟨vars, store, none⟩ seen out) :
    ∃ (p : Program ι) (store' : Store ω),
      RunsTo commands pause ((Program.ofScript t.script vars).named name) store p store' seen ∧
        Lands name t.script [] t.size p store' out := by
  have hdrop : t.script.statements.drop 0 = t.statements ++ [] := (List.append_nil _).symm
  have achieves : Achieves commands pause name t.script [] 0 (0 + t.size) ⟨vars, store, none⟩
    seen out := achieves_of_exec h hdrop rfl
  obtain ⟨n, signals, p, store', cycles, hevents, lands⟩ := achieves
  rw [Nat.zero_add] at lands
  refine ⟨p, store', ?_, lands⟩
  rw [Program.ofScript_named_eq_standing, runsTo_iff]
  exact ⟨n, signals, cycles, hevents⟩

/-- Wherever cycles of the whole script end, the tree leads there. -/
theorem exec_of_runsTo {vars : Variables} {store' : Store ω} {seen : List Signal}
    (h : RunsTo commands pause ((Program.ofScript t.script vars).named name) store p store' seen)
    (ended : p.status ≠ .running) :
    ∃ out, Exec commands pause t 0 ⟨vars, store, none⟩ seen out ∧
      Lands name t.script [] t.size p store' out := by
  have hdrop : t.script.statements.drop 0 = t.statements ++ [] := (List.append_nil _).symm
  rw [Program.ofScript_named_eq_standing, runsTo_iff] at h
  obtain ⟨n, signals, cycles, rfl⟩ := h
  -- the tree does something, and its cycles lead somewhere
  obtain ⟨seen, out, hexec⟩ := exec_of_cycles (s := ⟨vars, store, none⟩) hdrop rfl cycles ended
  have achieves : Achieves commands pause name t.script [] 0 (0 + t.size) ⟨vars, store, none⟩
    seen out := achieves_of_exec hexec hdrop rfl
  obtain ⟨m, signals', p', store'', cycles', rfl, lands⟩ := achieves
  rw [Nat.zero_add] at lands
  -- both runs begin alike and end, so that they are the same
  obtain ⟨k, rest, -, rfl, hrest⟩ := cycles'.split cycles ended
  obtain ⟨-, rfl, rfl, rfl⟩ := hrest.eq_of_ended lands.ended
  exact ⟨out, by rwa [List.append_nil], lands⟩

end

/-- **Cycles do what the tree means.**  The balanced scripts are the trees of blocks.  Cycling a new
program for a tree, under any name and with any variables, is done with certain variables, store and
events exactly if the tree finishes with them, and it fails with a fault in a statement exactly if
the tree does.  A cycle that leaves the program suspended changes nothing but the place in the
evaluation of the current statement, and a cycle of a suspended program starts no statement. -/
theorem flat_machine_refines_structured (commands : Commands ι ω) (pause : ω → ω) :
    (∀ script : Script, script.Balanced ↔ ∃ t : BlockTree, t.script = script) ∧
    (∀ (t : BlockTree) (name : String) (vars : Variables) (store : Store ω),
      (∀ vars' store' seen,
        (∃ p, RunsTo commands pause ((Program.ofScript t.script vars).named name) store p store'
            seen ∧ p.status = .done ∧ p.vars = vars') ↔
          ∃ cell, Exec commands pause t 0 ⟨vars, store, none⟩ seen
            (.finished ⟨vars', store', cell⟩)) ∧
      ∀ i fault vars' store' seen,
        (∃ p s, RunsTo commands pause ((Program.ofScript t.script vars).named name) store p store'
            seen ∧ t.script.statements[i]? = some s ∧
            p.status = .failed ⟨name, s.span, fault⟩ ∧ p.counter = i ∧ p.vars = vars') ↔
          Exec commands pause t 0 ⟨vars, store, none⟩ seen (.failed i fault vars' store')) ∧
    ∀ p store effect, Program.Reachable commands p store → p.cycle commands store = some effect →
      (effect.value.1.isSuspended →
        effect.value = ({ p with evaluation := effect.value.1.evaluation }, .ok ())) ∧
      (p.isSuspended → ∀ i s, .line i s ∉ effect.signals) := by
  refine ⟨fun _ => Script.balanced_iff, fun t name vars store => ⟨?_, ?_⟩, ?_⟩
  · intro vars' store' seen
    constructor
    · rintro ⟨p, runs, hstatus, rfl⟩
      -- where the run ends, the tree leads; it cannot fail, since the program is done
      obtain ⟨out, hexec, lands⟩ := exec_of_runsTo runs (by rw [hstatus]; nofun)
      cases out with
      | finished s =>
        obtain ⟨-, hvars, rfl⟩ := lands.finished
        rw [hvars]
        exact ⟨s.cell, hexec⟩
      | failed =>
        obtain ⟨⟨s, -, hfailed⟩, -⟩ := lands.failed
        rw [hstatus] at hfailed
        cases hfailed
    · rintro ⟨cell, hexec⟩
      obtain ⟨p, store'', runs, lands⟩ := runsTo_of_exec name hexec
      obtain ⟨hstatus, hvars, rfl⟩ := lands.finished
      exact ⟨p, runs, hstatus, hvars⟩
  · intro i fault vars' store' seen
    constructor
    · -- likewise the tree cannot finish, and it fails with the same fault
      rintro ⟨p, s, runs, hs, hstatus, rfl, rfl⟩
      obtain ⟨out, hexec, lands⟩ := exec_of_runsTo runs (by rw [hstatus]; nofun)
      cases out with
      | finished =>
        rw [lands.finished.1] at hstatus
        cases hstatus
      | failed i fault' vars' store'' =>
        obtain ⟨⟨s', -, hfailed⟩, rfl, rfl, rfl⟩ := lands.failed
        rw [hstatus, Status.failed.injEq, ProgramError.mk.injEq] at hfailed
        obtain ⟨-, -, rfl⟩ := hfailed
        exact hexec
    · intro hexec
      obtain ⟨p, store'', runs, lands⟩ := runsTo_of_exec name hexec
      obtain ⟨⟨s, hs, hstatus⟩, hcounter, hvars, rfl⟩ := lands.failed
      exact ⟨p, s, runs, hs, hstatus, hcounter, hvars⟩
  · intro p store effect reachable hcycle
    exact ⟨Program.cycle_of_suspended reachable hcycle,
      Program.line_not_mem_of_suspended reachable hcycle⟩

/-- The tree of `while a { a = hold(); }`. -/
def holdingLoop : BlockTree :=
  .block .repetition (.reference "a") default
    (.plain (some "a") (.call "hold" []) default .nil) default .nil

theorem evaluates_hold (vars : Variables) (store : Store ω) (v : Value) (pause : ω → ω) :
    Evaluates (.afterPauses 1 v) pause (.call "hold" []) vars store (.ok v) (store.paced pause)
      [.entered "hold" [], .left "hold" v] := by
  refine ⟨1, [.signal (.entered "hold" []), .suspended, .signal (.log ⟨.trace, .evaluation,
    "Command `" ++ "hold" ++ "` finished with " ++ v.display⟩), .signal (.left "hold" v)], ?_, rfl⟩
  rw [generate, evaluate, evaluateAll, converse_eq_once, converse_eq_once]
  rfl

theorem evaluates_reference (name : String) (commands : Commands ι ω) (vars : Variables)
    (store : Store ω) (pause : ω → ω) :
    Evaluates commands pause (.reference name) vars store (.ok (vars.resolve name)) store [] := by
  refine ⟨0, [], ?_, rfl⟩
  rw [generate, evaluate]
  rfl

/-- A loop that ends once its command, which asks for time, has given a value. -/
theorem flat_machine_refines_structured_loop :
    holdingLoop.script.Balanced ∧
    (∃ p seen, RunsTo (.afterPauses 1 (.bool false)) id ((Program.ofScript holdingLoop.script
        (Variables.initial.set "a" (.bool true))).named "loop") ⟨.empty, ()⟩ p ⟨.empty, ()⟩ seen ∧
      p.status = .done ∧
      p.vars = (Variables.initial.set "a" (.bool true)).set "a" (.bool false)) ∧
    ∃ (p : Program Nat) (effect : Effect Unit (Program Nat × Except ProgramError Unit)),
      p.cycle (.afterPauses 1 (.bool false)) ⟨.empty, ()⟩ = some effect ∧
      effect.value.1.isSuspended ∧
      effect.value = ({ p with evaluation := effect.value.1.evaluation }, .ok ()) := by
  have refines := flat_machine_refines_structured
    (.afterPauses 1 (.bool false) : Commands Nat Unit) id
  refine ⟨(refines.1 _).mpr ⟨_, rfl⟩, ?_, ?_⟩
  · have hexec : Exec (.afterPauses 1 (.bool false)) id holdingLoop 0
        ⟨Variables.initial.set "a" (.bool true), ⟨.empty, ()⟩, none⟩ _
        (.finished ⟨(Variables.initial.set "a" (.bool true)).set "a" (.bool false),
          ⟨.empty, ()⟩, none⟩) :=
      .repeated (evaluates_reference ..) rfl (.plain (evaluates_hold ..) .nil)
        (.skipped (evaluates_reference ..) rfl .nil)
    obtain ⟨p, runs, hstatus, hvars⟩ :=
      ((refines.2.1 holdingLoop "loop" _ _).1 _ _ _).mpr ⟨_, hexec⟩
    exact ⟨p, _, runs, hstatus, hvars⟩
  · have hresume : resume ⟨.afterPauses 1 (.bool false), .initial⟩ .fresh (.call "hold" [])
        (⟨.empty, ()⟩ : Store Unit) =
          some ⟨.suspended (.calling "hold" 0), ⟨.empty, ()⟩, [.entered "hold" []]⟩ := by
      rw [resume, start, starts, settle, conclude, call, drive_eq_exchange]
      rfl
    obtain ⟨signals, hcycle, -⟩ := Program.cycle_of_resume
      (p := (Program.ofScript ⟨[⟨.expression (.call "hold" []), default⟩]⟩ .initial).named "hold")
      rfl rfl rfl hresume
    exact ⟨_, _, hcycle, rfl, refines.2.2 _ _ _ (.start _ _ _ _) hcycle |>.1 rfl⟩

end StepScript
