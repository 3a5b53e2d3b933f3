import StepScript.Proofs.Atomicity
import StepScript.Proofs.Refinement

/-!
# A selection enters its first match

A selection remembers the value to match and whether a case has matched.  The mark is set by the
case that is entered and is never taken back, so that of all the cases that are tried while the
selection stays open, in whatever order the program comes to them and however often, the first that
equals the value is entered and no other.

A selection is known by its place on the stack, the number of frames below it: as long as the stack
does not shrink to this number, it is the same activation.

## Main definitions

* `Frame.at?`, `Frame.innermost?` — the frame at a place, and the place of the innermost selection.
* `Frame.Chosen` — every case on a stack belongs to a selection that has matched.
* `History` — a program through all time.
* `Program.Tries`, `Program.Enters` — a step evaluates the header of a case; a step opens a case.
* `History.Activation` — the steps from the opening of a selection on, through which it stays open.
* `History.FirstMatch` — what becomes of a selection.

## Main results

* `Program.stack_of_tried`, `Program.stack_of_untried` — what a cycle makes of the stack.
* `Program.chosen_of_reachable` — every case on the stack belongs to a selection that has matched.
* `Program.selection_of_step` — what a step makes of one selection.
* `History.selection_of_activation` — a selection is marked exactly if a case has equalled it.
* `selection_enters_its_first_match` — **at most one case is entered, and it is the first match**.
-/

namespace StepScript

/-! ### Places on a stack -/

namespace Frame

/-- The frame that has the given number of frames below it. -/
def at? (stack : List Frame) (depth : Nat) : Option Frame :=
  stack.reverse[depth]?

/-- How many frames are below the innermost selection. -/
def innermost? : List Frame → Option Nat
  | [] => none
  | .selection _ _ :: stack => some stack.length
  | .condition :: stack | .alternative :: stack | .repetition _ :: stack => innermost? stack

/-- Every case stands in a selection, and the innermost one around it has matched. -/
def Chosen : List Frame → Prop
  | [] => True
  | .alternative :: stack => (∃ v, cellOf stack = some (v, true)) ∧ Chosen stack
  | .condition :: stack | .selection _ _ :: stack | .repetition _ :: stack => Chosen stack

variable {stack : List Frame} {depth : Nat}

theorem at?_cons (frame : Frame) (stack : List Frame) (depth : Nat) :
    at? (frame :: stack) depth = if depth = stack.length then some frame else at? stack depth := by
  rw [at?, at?, List.reverse_cons, List.getElem?_append]
  split
  · next below =>
    rw [List.length_reverse] at below
    rw [if_neg (Nat.ne_of_lt below)]
  · next above =>
    rw [List.length_reverse] at above ⊢
    split
    · next top => rw [top, Nat.sub_self, List.getElem?_cons_zero]
    · next off =>
      rw [List.getElem?_eq_none (by rw [List.length_singleton]; omega),
        List.getElem?_eq_none (by rw [List.length_reverse]; omega)]

theorem at?_cons_self (frame : Frame) (stack : List Frame) :
    at? (frame :: stack) stack.length = some frame := by
  rw [at?_cons, if_pos rfl]

theorem at?_cons_of_lt (frame : Frame) (below : depth < stack.length) :
    at? (frame :: stack) depth = at? stack depth := by
  rw [at?_cons, if_neg (Nat.ne_of_lt below)]

theorem lt_of_at? {frame : Frame} (h : at? stack depth = some frame) : depth < stack.length := by
  have := (List.getElem?_eq_some_iff.mp h).1
  rwa [List.length_reverse] at this

/-- The innermost selection is the one at its place. -/
theorem at?_of_innermost? (h : innermost? stack = some depth) :
    ∃ v hit, cellOf stack = some (v, hit) ∧ at? stack depth = some (.selection v hit) := by
  induction stack with
  | nil => cases h
  | cons frame stack ih =>
    cases frame with
    | selection v hit =>
      cases h
      exact ⟨v, hit, rfl, at?_cons_self _ _⟩
    | condition | alternative | repetition =>
      obtain ⟨v, hit, hcell, hat⟩ := ih h
      exact ⟨v, hit, hcell, by rw [at?_cons_of_lt _ (lt_of_at? hat), hat]⟩

@[simp] theorem length_mark (hit : Bool) (stack : List Frame) :
    (mark hit stack).length = stack.length := by
  induction stack with
  | nil => rfl
  | cons frame stack ih => cases frame <;> simp [mark, ih]

@[simp] theorem innermost?_mark (hit : Bool) (stack : List Frame) :
    innermost? (mark hit stack) = innermost? stack := by
  induction stack with
  | nil => rfl
  | cons frame stack ih => cases frame <;> simp [mark, innermost?, ih]

theorem cellOf_mark {v : Value} {hit : Bool} (mark' : Bool) (h : cellOf stack = some (v, hit)) :
    cellOf (mark mark' stack) = some (v, mark') := by
  induction stack with
  | nil => cases h
  | cons frame stack ih =>
    cases frame with
    | selection u hit' =>
      cases h
      rfl
    | condition | alternative | repetition => exact ih h

/-- Marking changes the innermost selection. -/
theorem at?_mark_of_innermost? {v : Value} {hit : Bool} (mark' : Bool)
    (h : innermost? stack = some depth) (hat : at? stack depth = some (.selection v hit)) :
    at? (mark mark' stack) depth = some (.selection v mark') := by
  obtain ⟨_, _, hcell, hat'⟩ := at?_of_innermost? h
  cases hat.symm.trans hat'
  have marked : innermost? (mark mark' stack) = some depth := (innermost?_mark mark' stack).trans h
  obtain ⟨_, _, hcell', hat''⟩ := at?_of_innermost? marked
  cases hcell'.symm.trans (cellOf_mark mark' hcell)
  exact hat''

/-- Marking changes no other frame. -/
theorem at?_mark_of_ne (mark' : Bool) (h : innermost? stack ≠ some depth) :
    at? (mark mark' stack) depth = at? stack depth := by
  induction stack with
  | nil => rfl
  | cons frame stack ih =>
    cases frame with
    | selection u hit =>
      have off : depth ≠ stack.length := fun top => h (congrArg some top.symm)
      rw [mark, at?_cons, at?_cons, if_neg off, if_neg off]
    | condition | alternative | repetition =>
      rw [mark, at?_cons, at?_cons, length_mark, ih h]

/-- A selection that has not matched yet has no open case, so that marking it does no harm. -/
theorem chosen_mark {v : Value} (chosen : Chosen stack) (fresh : cellOf stack = some (v, false)) :
    Chosen (mark true stack) := by
  induction stack with
  | nil => trivial
  | cons frame stack ih =>
    cases frame with
    | selection u hit => exact chosen
    | condition | repetition => exact ih chosen fresh
    | alternative =>
      obtain ⟨⟨u, taken⟩, -⟩ := chosen
      cases fresh.symm.trans taken

end Frame

/-! ### What a cycle makes of the stack -/

namespace Program

open StepScript.Frame

variable {ι ω : Type} {commands : Commands ι ω} {p p' : Program ι} {store : Store ω}
  {effect : Effect ω (Program ι × Except ProgramError Unit)}

/-- The current statement is the header of a case, and in this cycle its expression gets the given
value. -/
def CaseValue (commands : Commands ι ω) (p : Program ι) (store : Store ω) (w : Value) : Prop :=
  p.status = .running ∧ ∃ e span step, p.current? = some ⟨.header .alternative e, span⟩ ∧
    resume ⟨commands, p.vars⟩ (p.evaluation.getD .fresh) e store = some step ∧
      step.value = .complete w

/-- The stack after the header of a case with the given value. -/
def tried (w : Value) (stack : List Frame) : List Frame :=
  match matchCase w stack with
  | some (true, stack) => .alternative :: stack
  | _ => stack

theorem tried_eq (w : Value) (stack : List Frame) :
    tried w stack = match cellOf stack with
      | some (v, false) => if v.equals w then .alternative :: mark true stack else stack
      | _ => stack := by
  rw [tried, matchCase_eq]
  rcases cellOf stack with _ | ⟨v, _ | _⟩
  · rfl
  · cases h : v.equals w <;> simp [h]
  · rfl

theorem stack_settled (p : Program ι) : p.settled.stack = p.stack := by
  unfold settled
  split <;> rfl

/-- A statement that fails leaves the stack as it was. -/
theorem stack_outcome {s : Statement} {result : Except Fault (Program ι)} {P : List Frame → Prop}
    (fails : P p.stack) (succeeds : ∀ q, result = .ok q → P q.stack) :
    P (p.outcome s result).1.stack := by
  cases result with
  | ok q =>
    rw [outcome, stack_settled]
    exact succeeds q rfl
  | error fault => exact fails

theorem stack_skipped {block : BlockKind} (h : p.skipped block = .ok p') : p'.stack = p.stack := by
  rw [skipped] at h
  split at h
  · cases h
  · cases h
    rfl

/-- **A case that is tried** is entered if it is the first match, and skipped otherwise. -/
theorem stack_of_tried {w : Value} (h : p.cycle commands store = some effect)
    (value : CaseValue commands p store w) : effect.value.1.stack = tried w p.stack := by
  obtain ⟨running, e, span, step, hs, hresume, hcomplete⟩ := value
  obtain ⟨kind, -, -⟩ | ⟨e', step', he, hresume', hvalue, -⟩ := cycle_cases running hs h
  · cases kind
  cases he
  cases hresume.symm.trans hresume'
  rw [hvalue, hcomplete, afterProgress, completed, entered, tried]
  dsimp only
  rcases matchCase w p.stack with _ | ⟨_ | _, stack⟩
  · rfl
  · have skip (q : Program ι) (hq : skipped { p with evaluation := none } .alternative = .ok q) :
        q.stack = p.stack := stack_skipped (p := { p with evaluation := none }) hq
    exact stack_outcome (P := (· = p.stack)) rfl skip
  · exact stack_settled _

/-- What a cycle that tries no case may make of the stack. -/
inductive Shifts (stack : List Frame) : List Frame → Prop
  /-- Nothing is opened or closed. -/
  | keeps : Shifts stack stack
  /-- A block that is no case is opened, and if it is a selection, it has not matched yet. -/
  | opens {frame : Frame} (other : frame ≠ .alternative) (fresh : ∀ v, frame ≠ .selection v true) :
    Shifts stack (frame :: stack)
  /-- The innermost block is closed. -/
  | closes {frame : Frame} {rest : List Frame} (h : stack = frame :: rest) : Shifts stack rest

theorem shifts_closed (h : p.closed = .ok p') : Shifts p.stack p'.stack := by
  rw [closed] at h
  split at h
  · cases h
  · next frame rest hstack =>
    cases h
    exact .closes hstack

theorem shifts_entered {block : BlockKind} {v : Value} (other : block ≠ .alternative)
    (h : p.entered block v = .ok p') : Shifts p.stack p'.stack := by
  have skip (h : p.skipped block = .ok p') : Shifts p.stack p'.stack := by
    rw [stack_skipped h]
    exact .keeps
  cases block with
  | condition | repetition =>
    rw [entered] at h
    split at h
    · cases h
      exact .opens (by rintro ⟨⟩) (by rintro _ ⟨⟩)
    · exact skip h
  | selection =>
    cases h
    exact .opens (by rintro ⟨⟩) (by rintro _ ⟨⟩)
  | alternative => exact absurd rfl other

theorem shifts_completed {kind : StatementKind} {v : Value}
    (other : ∀ e, kind ≠ .header .alternative e) (h : p.completed kind v = .ok p') :
    Shifts p.stack p'.stack := by
  cases kind with
  | assignment | expression =>
    cases h
    exact .keeps
  | header block e =>
    refine shifts_entered (fun same => ?_) h
    subst same
    exact other e rfl
  | blockEnd => exact shifts_closed h

/-- **A cycle that tries no case** opens no case. -/
theorem stack_of_untried (h : p.cycle commands store = some effect)
    (untried : ∀ w, ¬CaseValue commands p store w) : Shifts p.stack effect.value.1.stack := by
  by_cases running : p.status = .running
  case neg =>
    cases h.symm.trans (cycle_of_ended commands running store)
    exact .keeps
  cases hs : p.current? with
  | none =>
    obtain ⟨signals, hcycle, -⟩ := cycle_of_current_eq_none commands running hs store
    cases h.symm.trans hcycle
    exact .keeps
  | some s =>
    -- a brace, or a statement with an expression that is not a case with a value
    obtain ⟨-, hvalue, -⟩ | ⟨e, step, he, hresume, hvalue, -⟩ := cycle_cases running hs h
    · rw [hvalue]
      exact stack_outcome .keeps fun q hq => shifts_closed hq
    rw [hvalue]
    cases hprogress : step.value with
    | suspended rest =>
      refine stack_outcome .keeps ?_
      rintro q ⟨⟩
      exact .keeps
    | failed fault rest => exact .keeps
    | complete v =>
      have other : ∀ e', s.kind ≠ .header .alternative e' := by
        obtain ⟨kind, span⟩ := s
        rintro e' rfl
        cases he
        exact untried v ⟨running, e, span, step, hs, hresume, hprogress⟩
      exact stack_outcome .keeps fun q hq =>
        shifts_completed (p := { p with evaluation := none }) other hq

theorem chosen_tried (w : Value) {stack : List Frame} (chosen : Chosen stack) :
    Chosen (tried w stack) := by
  rw [tried_eq]
  rcases hcell : cellOf stack with _ | ⟨v, _ | _⟩
  · exact chosen
  · dsimp only
    split
    · exact ⟨⟨v, cellOf_mark true hcell⟩, chosen_mark chosen hcell⟩
    · exact chosen
  · exact chosen

theorem chosen_of_shifts {stack stack' : List Frame} (shifts : Shifts stack stack')
    (chosen : Chosen stack) : Chosen stack' := by
  cases shifts with
  | keeps => exact chosen
  | @opens frame other fresh =>
    cases frame with
    | condition | selection | repetition => exact chosen
    | alternative => exact absurd rfl other
  | @closes frame rest h =>
    rw [h] at chosen
    cases frame with
    | condition | selection | repetition => exact chosen
    | alternative => exact chosen.2

/-- A cycle leaves every case with a selection that has matched. -/
theorem chosen_cycle (h : p.cycle commands store = some effect) (chosen : Chosen p.stack) :
    Chosen effect.value.1.stack := by
  by_cases value : ∃ w, CaseValue commands p store w
  · obtain ⟨w, value⟩ := value
    rw [stack_of_tried h value]
    exact chosen_tried w chosen
  · have untried (w : Value) : ¬CaseValue commands p store w := fun hw => value ⟨w, hw⟩
    exact chosen_of_shifts (stack_of_untried h untried) chosen

/-- **Every case on the stack belongs to a selection that has matched**, in all that cycles lead
to. -/
theorem chosen_of_reachable (reachable : Reachable commands p store) : Chosen p.stack := by
  induction reachable with
  | start => trivial
  | write before vars store' ih => exact ih
  | cycle before h ih => exact chosen_cycle h ih

/-! ### One selection in one step -/

/-- A step is a cycle that evaluates the header of a case, with the innermost selection at the given
place. -/
def Tries (commands : Commands ι ω) (p : Program ι) (store : Store ω) (p' : Program ι)
    (depth : Nat) (w : Value) : Prop :=
  (∃ effect, p.cycle commands store = some effect ∧ effect.value.1 = p') ∧
    CaseValue commands p store w ∧ innermost? p.stack = some depth

/-- A step opens a case, with the innermost selection below it at the given place. -/
def Enters (p p' : Program ι) (depth : Nat) : Prop :=
  ∃ stack, p'.stack = .alternative :: stack ∧ stack.length = p.stack.length ∧
    innermost? stack = some depth

/-- A step tries a case that equals the value of the selection at the given place. -/
def Hits (commands : Commands ι ω) (p : Program ι) (store : Store ω) (p' : Program ι)
    (depth : Nat) (v : Value) : Prop :=
  ∃ w, Tries commands p store p' depth w ∧ v.equals w = true

/-- What a program may become in a step: a cycle ends, or the host writes variables. -/
def Goes (commands : Commands ι ω) (p : Program ι) (store : Store ω) (p' : Program ι)
    (store' : Store ω) : Prop :=
  (∃ effect, p.cycle commands store = some effect ∧ effect.value.1 = p' ∧ effect.store = store') ∨
    ∃ vars, p' = { p with vars }

variable {depth : Nat} {v : Value} {hit : Bool}

theorem not_enters_of_shifts (shifts : Shifts p.stack p'.stack) : ¬Enters p p' depth := by
  rintro ⟨stack, hstack, hlength, -⟩
  rw [hstack] at shifts
  generalize hnew : Frame.alternative :: stack = new at shifts
  cases shifts with
  | keeps =>
    have := congrArg List.length hnew
    rw [List.length_cons] at this
    omega
  | opens other =>
    cases hnew
    exact other rfl
  | closes h =>
    have := congrArg List.length h
    rw [← hnew, List.length_cons, List.length_cons] at this
    omega

theorem at?_of_shifts {frame : Frame} (shifts : Shifts p.stack p'.stack)
    (here : at? p.stack depth = some frame) (stays : depth < p'.stack.length) :
    at? p'.stack depth = some frame := by
  generalize p'.stack = stack at shifts stays ⊢
  cases shifts with
  | keeps => exact here
  | opens => rw [at?_cons_of_lt _ (lt_of_at? here), here]
  | closes h => rwa [h, at?_cons_of_lt _ stays] at here

theorem caseValue_unique {w w' : Value} (first : CaseValue commands p store w)
    (second : CaseValue commands p store w') : w = w' := by
  obtain ⟨-, e, span, step, hs, hresume, hvalue⟩ := first
  obtain ⟨-, e', span', step', hs', hresume', hvalue'⟩ := second
  cases hs.symm.trans hs'
  cases hresume.symm.trans hresume'
  cases hvalue.symm.trans hvalue'
  rfl

/-- What has become of a selection after a step: it keeps its value, it is marked if a case hits it,
and the case is entered if it was not marked before. -/
def Latches (commands : Commands ι ω) (p : Program ι) (store : Store ω) (p' : Program ι)
    (depth : Nat) (v : Value) (hit : Bool) : Prop :=
  ∃ hit', at? p'.stack depth = some (.selection v hit') ∧
    (hit' = true ↔ hit = true ∨ Hits commands p store p' depth v) ∧
    (Enters p p' depth ↔ hit = false ∧ Hits commands p store p' depth v)

theorem latches_of_shifts (shifts : Shifts p.stack p'.stack)
    (here : at? p.stack depth = some (.selection v hit)) (stays : depth < p'.stack.length)
    (misses : ¬Hits commands p store p' depth v) :
    Latches commands p store p' depth v hit := by
  refine ⟨hit, at?_of_shifts shifts here stays, ?_, ?_⟩
  · exact ⟨.inl, fun h => h.resolve_right misses⟩
  · exact ⟨fun enters => absurd enters (not_enters_of_shifts shifts), fun h => absurd h.2 misses⟩

theorem latches_of_entered {u : Value} (hcell : cellOf p.stack = some (u, false))
    (hstack : p'.stack = .alternative :: mark true p.stack)
    (here : at? p.stack depth = some (.selection v hit))
    (hits : Hits commands p store p' depth v ↔ innermost? p.stack = some depth) :
    Latches commands p store p' depth v hit := by
  have below : depth < (mark true p.stack).length := by
    rw [length_mark]
    exact lt_of_at? here
  -- the frames keep their places, so that the innermost selection is the same
  have enters : Enters p p' depth ↔ innermost? p.stack = some depth := by
    constructor
    · rintro ⟨stack, h, -, nearest⟩
      cases hstack.symm.trans h
      rwa [innermost?_mark] at nearest
    · intro nearest
      exact ⟨_, hstack, length_mark true p.stack, by rwa [innermost?_mark]⟩
  by_cases nearest : innermost? p.stack = some depth
  · -- the selection is the innermost one, and is marked
    obtain ⟨u', hit', hcell', hat⟩ := at?_of_innermost? nearest
    cases hcell.symm.trans hcell'
    cases here.symm.trans hat
    refine ⟨true, ?_, by simp [hits, nearest], by simp [hits, enters]⟩
    rw [hstack, at?_cons_of_lt _ below]
    exact at?_mark_of_innermost? true nearest here
  · -- it is another one, and stays as it was
    refine ⟨hit, ?_, by simp [hits, nearest], by simp [hits, enters, nearest]⟩
    rw [hstack, at?_cons_of_lt _ below, at?_mark_of_ne true nearest, here]

/-- A case is tried against the innermost selection, and changes no other. -/
theorem latches_of_tried {w : Value} (hstack : p'.stack = tried w p.stack)
    (here : at? p.stack depth = some (.selection v hit))
    (hits : Hits commands p store p' depth v ↔
      innermost? p.stack = some depth ∧ v.equals w = true) :
    Latches commands p store p' depth v hit := by
  -- A case that is not entered leaves the stack alone, be it that it misses or comes too late.
  have kept (same : p'.stack = p.stack)
      (late : Hits commands p store p' depth v → hit = true) :
      Latches commands p store p' depth v hit := by
    have closed : ¬Enters p p' depth := not_enters_of_shifts (same ▸ .keeps)
    refine ⟨hit, same ▸ here, ⟨.inl, fun h => h.elim id late⟩, fun h => absurd h closed, ?_⟩
    rintro ⟨fresh, h⟩
    rw [late h] at fresh
    cases fresh
  have nearest : ∀ u hit', cellOf p.stack = some (u, hit') →
      innermost? p.stack = some depth → v = u ∧ hit = hit' := by
    intro u hit' hcell h
    obtain ⟨u', hit'', hcell', hat⟩ := at?_of_innermost? h
    cases hcell.symm.trans hcell'
    cases here.symm.trans hat
    exact ⟨rfl, rfl⟩
  rw [tried_eq] at hstack
  rcases hcell : cellOf p.stack with _ | ⟨u, _ | _⟩
  · rw [hcell] at hstack
    refine kept hstack fun h => ?_
    obtain ⟨_, _, hcell', -⟩ := at?_of_innermost? (hits.mp h).1
    cases hcell.symm.trans hcell'
  · rw [hcell] at hstack
    cases equal : u.equals w with
    | true =>
      simp only [equal, if_true] at hstack
      refine latches_of_entered hcell hstack here (hits.trans ⟨And.left, fun h => ⟨h, ?_⟩⟩)
      rw [(nearest u false hcell h).1, equal]
    | false =>
      simp only [equal, Bool.false_eq_true, if_false] at hstack
      refine kept hstack fun h => ?_
      obtain ⟨place, equal'⟩ := hits.mp h
      rw [(nearest u false hcell place).1, equal] at equal'
      cases equal'
  · rw [hcell] at hstack
    exact kept hstack fun h => (nearest u true hcell (hits.mp h).1).2

/-- **What a step makes of one selection** that is open before and after it. -/
theorem selection_of_step {store' : Store ω} (goes : Goes commands p store p' store')
    (here : at? p.stack depth = some (.selection v hit)) (stays : depth < p'.stack.length) :
    Latches commands p store p' depth v hit := by
  -- a cycle with a case, a cycle without one, or a change by the host
  by_cases cycles : ∃ effect, p.cycle commands store = some effect ∧ effect.value.1 = p'
  · by_cases value : ∃ w, CaseValue commands p store w
    · obtain ⟨w, value⟩ := value
      have hits : Hits commands p store p' depth v ↔
          innermost? p.stack = some depth ∧ v.equals w = true := by
        constructor
        · rintro ⟨w', ⟨-, value', nearest⟩, equal⟩
          rw [caseValue_unique value value']
          exact ⟨nearest, equal⟩
        · rintro ⟨nearest, equal⟩
          exact ⟨w, ⟨cycles, value, nearest⟩, equal⟩
      obtain ⟨effect, hcycle, rfl⟩ := cycles
      exact latches_of_tried (stack_of_tried hcycle value) here hits
    · have misses : ¬Hits commands p store p' depth v := by
        rintro ⟨w, ⟨-, hw, -⟩, -⟩
        exact value ⟨w, hw⟩
      obtain ⟨effect, hcycle, rfl⟩ := cycles
      exact latches_of_shifts (stack_of_untried hcycle fun w hw => value ⟨w, hw⟩) here stays misses
  · have misses : ¬Hits commands p store p' depth v := by
      rintro ⟨w, ⟨hcycle, -⟩, -⟩
      exact cycles hcycle
    obtain ⟨effect, hcycle, hp, -⟩ | ⟨vars, rfl⟩ := goes
    · exact absurd ⟨effect, hcycle, hp⟩ cycles
    · exact latches_of_shifts .keeps here stays misses

/-- A selection is opened without a match. -/
theorem fresh_of_step {store' : Store ω} (goes : Goes commands p store p' store')
    (opened : p'.stack = .selection v hit :: p.stack) : hit = false := by
  obtain ⟨effect, hcycle, rfl, -⟩ | ⟨vars, rfl⟩ := goes
  · by_cases value : ∃ w, CaseValue commands p store w
    · obtain ⟨w, value⟩ := value
      rw [stack_of_tried hcycle value, tried] at opened
      -- a case opens no selection
      split at opened
      · cases opened
      · exact absurd opened.symm (List.cons_ne_self _ _)
    · have shifts := stack_of_untried hcycle fun w hw => value ⟨w, hw⟩
      rw [opened] at shifts
      -- any other statement opens one frame at most, and selections without a mark
      generalize hnew : Frame.selection v hit :: p.stack = new at shifts
      cases shifts with
      | keeps => exact absurd hnew (List.cons_ne_self _ _)
      | opens other fresh =>
        cases hnew
        rw [← Bool.not_eq_true]
        rintro rfl
        exact fresh v rfl
      | closes h =>
        have := congrArg List.length h
        rw [← hnew, List.length_cons, List.length_cons] at this
        omega
  · exact absurd opened.symm (List.cons_ne_self _ _)

end Program

/-! ### Histories -/

/-- A program through all time, from its beginning.  Between two cycles the host may write any
variables and do anything to the store, and a history in which the program is left alone from some
time on is one in which only the host still writes. -/
structure History {ι ω : Type} (commands : Commands ι ω) where
  /-- The program after so many steps. -/
  program : Nat → Program ι
  /-- The store that is then found. -/
  store : Nat → Store ω
  /-- The program is new. -/
  begins : ∃ script vars name, program 0 = (Program.ofScript script vars).named name
  /-- Every step is one of those that are possible. -/
  goes : ∀ n, (program n).Goes commands (store n) (program (n + 1)) (store (n + 1))

namespace History

open StepScript.Frame

variable {ι ω : Type} {commands : Commands ι ω} (h : History commands)

/-- A step that tries a case. -/
def Tries (n depth : Nat) (w : Value) : Prop :=
  (h.program n).Tries commands (h.store n) (h.program (n + 1)) depth w

/-- A step that opens a case. -/
def Enters (n depth : Nat) : Prop :=
  (h.program n).Enters (h.program (n + 1)) depth

/-- The place at which a frame is opened in a step. -/
def place (start : Nat) : Nat :=
  (h.program start).stack.length

/-- A selection for the given value is opened in the step `start`, and still open after the step
before `stop`. -/
structure Activation (start stop : Nat) (v : Value) : Prop where
  /-- Time goes on. -/
  lt : start < stop
  /-- The selection is opened. -/
  opens : ∃ hit, (h.program (start + 1)).stack =
    .selection v hit :: (h.program start).stack
  /-- It stays open. -/
  stays : ∀ n, start < n → n ≤ stop → h.place start < (h.program n).stack.length

/-- A step between two others. -/
def Within (start stop n : Nat) : Prop :=
  start < n ∧ n < stop

/-- What has become of a selection until some time. -/
structure FirstMatch (start stop : Nat) (v : Value) : Prop where
  /-- It still has its value, and it is marked exactly if a case has been entered. -/
  frame : ∃ hit, at? (h.program stop).stack (h.place start) = some (.selection v hit) ∧
    (hit = true ↔ ∃ n, Within start stop n ∧ h.Enters n (h.place start))
  /-- At most one case has been entered. -/
  once : ∀ n m, Within start stop n → Within start stop m → h.Enters n (h.place start) →
    h.Enters m (h.place start) → n = m
  /-- A case is entered exactly if it is the first that equals the value. -/
  first : ∀ n, Within start stop n → (h.Enters n (h.place start) ↔
    ∃ w, h.Tries n (h.place start) w ∧ v.equals w = true ∧
      ∀ m w', Within start n m → h.Tries m (h.place start) w' → v.equals w' = false)

/-- The program and the store after a cycle.  If the cycle never ends, they stay as they are. -/
def next (commands : Commands ι ω) : Program ι × Store ω → Program ι × Store ω
  | (p, store) =>
    match p.cycle commands store with
    | some effect => (effect.value.1, effect.store)
    | none => (p, store)

/-- The program and the store after so many cycles without a pause. -/
def after (commands : Commands ι ω) (state : Program ι × Store ω) : Nat → Program ι × Store ω
  | 0 => state
  | n + 1 => next commands (after commands state n)

theorem goes_next (commands : Commands ι ω) (state : Program ι × Store ω) :
    state.1.Goes commands state.2 (next commands state).1 (next commands state).2 := by
  obtain ⟨p, store⟩ := state
  rw [next]
  split
  · next effect hcycle => exact .inl ⟨effect, hcycle, rfl, rfl⟩
  · exact .inr ⟨p.vars, rfl⟩

/-- The history of a script that is executed without a pause. -/
def ofScript (commands : Commands ι ω) (script : Script) (store : Store ω) : History commands where
  program n := (after commands (.ofScript script .initial, store) n).1
  store n := (after commands (.ofScript script .initial, store) n).2
  begins := ⟨script, .initial, Program.defaultName, rfl⟩
  goes n := goes_next commands (after commands _ n)

variable {h} {start stop : Nat} {v : Value}

/-- A step in which a case equals the value of the selection. -/
def Hits (h : History commands) (n depth : Nat) (v : Value) : Prop :=
  (h.program n).Hits commands (h.store n) (h.program (n + 1)) depth v

theorem Activation.earlier (active : h.Activation start stop v) {n : Nat} (later : start < n)
    (le : n ≤ stop) : h.Activation start n v :=
  ⟨later, active.opens, fun m hm hle => active.stays m hm (Nat.le_trans hle le)⟩

/-- **A selection is marked exactly if a case has equalled it.** -/
theorem selection_of_activation (active : h.Activation start stop v) :
    ∃ hit, at? (h.program stop).stack (h.place start) = some (.selection v hit) ∧
      (hit = true ↔ ∃ n, Within start stop n ∧ h.Hits n (h.place start) v) := by
  -- Induction on the steps since the selection was opened.
  obtain ⟨steps, rfl⟩ := Nat.exists_eq_add_of_lt active.lt
  induction steps with
  | zero =>
    obtain ⟨hit, opened⟩ := active.opens
    cases Program.fresh_of_step (h.goes start) opened
    refine ⟨false, by rw [opened]; exact at?_cons_self _ _, ⟨nofun, ?_⟩⟩
    rintro ⟨n, ⟨after, before⟩, -⟩
    omega
  | succ steps ih =>
    have before : start < start + steps + 1 := by omega
    obtain ⟨hit, here, marked⟩ := ih (active.earlier before (Nat.le_succ _))
    have stays := active.stays _ (Nat.lt_succ_of_lt before) (Nat.le_refl _)
    obtain ⟨hit', here', marked', -⟩ := Program.selection_of_step (h.goes _) here stays
    refine ⟨hit', here', ?_⟩
    rw [marked', marked]
    constructor
    · rintro (⟨n, ⟨after, before⟩, hits⟩ | hits)
      · exact ⟨n, ⟨after, Nat.lt_succ_of_lt before⟩, hits⟩
      · exact ⟨_, ⟨before, Nat.lt_succ_self _⟩, hits⟩
    · rintro ⟨n, ⟨after, le⟩, hits⟩
      obtain lt | rfl := Nat.lt_succ_iff_lt_or_eq.mp le
      · exact .inl ⟨n, ⟨after, lt⟩, hits⟩
      · exact .inr hits

/-- A case is entered if no case before it has equalled the selection. -/
theorem enters_iff (active : h.Activation start stop v) {n : Nat} (within : Within start stop n) :
    h.Enters n (h.place start) ↔
      h.Hits n (h.place start) v ∧ ∀ m, Within start n m → ¬h.Hits m (h.place start) v := by
  have earlier := active.earlier within.1 (Nat.le_of_lt within.2)
  obtain ⟨hit, here, marked⟩ := selection_of_activation earlier
  have stays := active.stays (n + 1) (Nat.lt_succ_of_lt within.1) within.2
  obtain ⟨-, -, -, enters⟩ := Program.selection_of_step (h.goes n) here stays
  have unmarked : hit = false ↔ ∀ m, Within start n m → ¬h.Hits m (h.place start) v := by
    rw [← Bool.not_eq_true, marked, not_exists]
    exact forall_congr' fun m => not_and
  exact enters.trans (by rw [unmarked]; exact and_comm)

/-- If cases have equalled a selection, one of them was the first, and it was entered. -/
theorem exists_enters_iff (active : h.Activation start stop v) :
    (∃ n, Within start stop n ∧ h.Enters n (h.place start)) ↔
      ∃ n, Within start stop n ∧ h.Hits n (h.place start) v := by
  constructor
  · rintro ⟨n, within, enters⟩
    exact ⟨n, within, ((enters_iff active within).mp enters).1⟩
  · rintro ⟨n, within, hits⟩
    induction n using Nat.strongRecOn with
    | ind n ih =>
      -- either this is the first hit, or there is an earlier one to start from
      by_cases earlier : ∃ m, Within start n m ∧ h.Hits m (h.place start) v
      · obtain ⟨m, ⟨after, before⟩, hits'⟩ := earlier
        exact ih m before ⟨after, Nat.lt_trans before within.2⟩ hits'
      · refine ⟨n, within, (enters_iff active within).mpr ⟨hits, fun m hm hits' => ?_⟩⟩
        exact earlier ⟨m, hm, hits'⟩

theorem once_of_activation (active : h.Activation start stop v) {n m : Nat}
    (hn : Within start stop n) (hm : Within start stop m) (entersN : h.Enters n (h.place start))
    (entersM : h.Enters m (h.place start)) : ¬n < m := by
  intro lt
  have first := ((enters_iff active hm).mp entersM).2
  exact first n ⟨hn.1, lt⟩ ((enters_iff active hn).mp entersN).1

end History

/-- **A selection enters its first match.**  Whatever the script, the commands and the host: in all
that cycles lead to, every case on the stack belongs to a selection that has matched.  From the step
that opens a selection on, as long as it stays open, it keeps its value; at most one case is entered
for which it is the innermost selection, and that is the first, in the order of execution, whose
value equals that of the selection; and the selection is marked from then on, and not before.  The
wildcard equals every value. -/
theorem selection_enters_its_first_match {ι ω : Type} (commands : Commands ι ω) :
    (∀ p store, Program.Reachable commands p store → Frame.Chosen p.stack) ∧
    (∀ (h : History commands) (start stop : Nat) (v : Value), h.Activation start stop v →
      h.FirstMatch start stop v) ∧
    ∀ v : Value, v.equals .wildcard = true ∧ Value.wildcard.equals v = true := by
  refine ⟨fun p store => Program.chosen_of_reachable, fun h start stop v active => ?_,
    fun v => ⟨v.equals_wildcard_right, v.equals_wildcard_left⟩⟩
  constructor
  case frame =>
    obtain ⟨hit, here, marked⟩ := History.selection_of_activation active
    exact ⟨hit, here, marked.trans (History.exists_enters_iff active).symm⟩
  case once =>
    intro n m hn hm entersN entersM
    have := History.once_of_activation active hn hm entersN entersM
    have := History.once_of_activation active hm hn entersM entersN
    omega
  case first =>
    intro n within
    rw [History.enters_iff active within]
    constructor
    · rintro ⟨⟨w, tries, equal⟩, first⟩
      refine ⟨w, tries, equal, fun m w' hm tries' => ?_⟩
      rw [← Bool.not_eq_true]
      exact fun equal' => first m hm ⟨w', tries', equal'⟩
    · rintro ⟨w, tries, equal, first⟩
      refine ⟨⟨w, tries, equal⟩, fun m hm => ?_⟩
      rintro ⟨w', tries', equal'⟩
      rw [first m w' hm tries'] at equal'
      cases equal'

/-- A selection for `1` with a case for `2` and two for `1`. -/
def threeCases : Script where
  statements := [.header .selection (.literal (.int 1)),
    .header .alternative (.literal (.int 2)), .blockEnd,
    .header .alternative (.literal (.int 1)), .blockEnd,
    .header .alternative (.literal (.int 1)), .blockEnd, .blockEnd].map (⟨·, default⟩)

/-- A place in the execution of the three cases. -/
abbrev threeCasesAt (stack : List Frame) (counter : Nat) : Program Empty × Store Unit :=
  ({ Program.ofScript threeCases .initial with stack, counter }, ⟨.empty, ()⟩)

/-- The second case is entered, and the third is not, although it equals the value as well. -/
theorem selection_enters_its_first_match_threeCases :
    ∃ h : History (.none : Commands Empty Unit), h.Activation 0 5 (.int 1) ∧
      (h.program 3).stack = [.alternative, .selection (.int 1) true] ∧
      (h.program 5).stack = [.selection (.int 1) true] ∧ h.FirstMatch 0 5 (.int 1) := by
  let h : History (.none : Commands Empty Unit) := .ofScript .none threeCases ⟨.empty, ()⟩
  let time : Nat → Program Empty × Store Unit := History.after .none (threeCasesAt [] 0)
  have opened : time 1 = threeCasesAt [.selection (.int 1) false] 1 := rfl
  have skipped : time 2 = threeCasesAt [.selection (.int 1) false] 3 :=
    congrArg (History.next .none) opened
  have entered : time 3 = threeCasesAt [.alternative, .selection (.int 1) true] 4 :=
    congrArg (History.next .none) skipped
  have left : time 4 = threeCasesAt [.selection (.int 1) true] 5 :=
    congrArg (History.next .none) entered
  have passed : time 5 = threeCasesAt [.selection (.int 1) true] 7 :=
    congrArg (History.next .none) left
  have stack (n : Nat) : (h.program n).stack = (time n).1.stack := rfl
  have active : h.Activation 0 5 (.int 1) := by
    refine ⟨by decide, ⟨false, by rw [stack, opened]; rfl⟩, fun n after before => ?_⟩
    have open' : n = 1 ∨ n = 2 ∨ n = 3 ∨ n = 4 ∨ n = 5 := by omega
    rw [stack]
    obtain rfl | rfl | rfl | rfl | rfl := open'
    · rw [opened]; decide
    · rw [skipped]; decide
    · rw [entered]; decide
    · rw [left]; decide
    · rw [passed]; decide
  refine ⟨h, active, ?_, ?_, (selection_enters_its_first_match .none).2.1 h 0 5 _ active⟩
  · rw [stack, entered]
  · rw [stack, passed]

end StepScript
