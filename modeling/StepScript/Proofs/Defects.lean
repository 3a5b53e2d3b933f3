import StepScript.Proofs.Atomicity
import StepScript.Proofs.Builtins
import StepScript.Proofs.Matching

/-!
# Structural faults are defects of the text

Whether a brace closes a block, a block has an end, or a case stands in a selection is checked
while the program runs: on the stack, and by a search for the closing brace.  The checks fail
exactly where the text is at fault, whichever way the program has come there.

## Main definitions

* `Script.Defect` — what is wrong with a statement that fails with a structural fault.
* `Program.StaticFaults` — the structural faults of a program are defects of its script.

## Main results

* `Program.stack_eq_nil_iff`, `Program.matchCase_eq_none_iff_enclosed` — what the checks on the
  stack say about the text.
* `Program.defect_of_reachable` — a program that has failed stands at a defect.
* `Program.structural_faults_are_static_defects` — **structural faults are defects of the text**.
-/

namespace StepScript

/-- What is wrong with the statement at an index if it fails with the given fault.  Faults that are
not about blocks say nothing about the text. -/
def Script.Defect (script : Script) (i : Nat) : Fault → Prop
  | .unmatchedBlockEnd => script.BraceAt i ∧ ∀ h, ¬script.Closes h i
  | .unterminatedBlock kind => script.HeaderAt i kind ∧ ∀ stop, ¬script.Closes i stop
  | .caseWithoutSwitch => script.HeaderAt i .alternative ∧ ∀ h, ¬script.Encloses h .selection i
  | _ => True

namespace Script

variable {script : Script} {i : Nat} {kind : BlockKind}

theorem defect_of_unstructural {fault : Fault} (h : fault.isStructural = false) :
    script.Defect i fault := by
  cases fault with
  | caseWithoutSwitch | unmatchedBlockEnd | unterminatedBlock => cases h
  | _ => trivial

theorem HeaderAt.eq {kind' : BlockKind} (hs : script.HeaderAt i kind)
    (hs' : script.HeaderAt i kind') : kind = kind' := by
  obtain ⟨e, span, hs⟩ := hs
  obtain ⟨e', span', hs'⟩ := hs'
  cases hs.symm.trans hs'
  rfl

/-- In a balanced script whose cases all stand in selections, no structural fault is a defect. -/
theorem Balanced.unstructural (balanced : script.Balanced)
    (hcases : ∀ i, script.HeaderAt i .alternative → ∃ h, script.Encloses h .selection i)
    {fault : Fault} (defect : script.Defect i fault) : fault.isStructural = false := by
  cases fault with
  | unmatchedBlockEnd =>
    obtain ⟨h, closes⟩ := balanced.closes defect.1
    exact absurd closes (defect.2 h)
  | unterminatedBlock =>
    obtain ⟨stop, closes⟩ := balanced.closed defect.1
    exact absurd closes (defect.2 stop)
  | caseWithoutSwitch =>
    obtain ⟨h, encloses⟩ := hcases i defect.1
    exact absurd encloses (defect.2 h)
  | _ => rfl

end Script

namespace Program

variable {ι ω : Type} {p p' : Program ι} {good : ι → Prop}

/-! ### Checks on the stack -/

/-- A case finds no selection if none of the frames is one. -/
theorem matchCase_eq_none_iff {v : Value} {stack : List Frame} :
    matchCase v stack = none ↔ ∀ frame ∈ stack, frame.block ≠ .selection := by
  induction stack with
  | nil => exact ⟨fun _ frame hframe => (List.not_mem_nil hframe).elim, fun _ => rfl⟩
  | cons frame stack ih =>
    cases frame with
    | selection scrutinee hit =>
      refine ⟨fun h => ?_, fun h => absurd rfl (h _ List.mem_cons_self)⟩
      rw [matchCase] at h
      split at h <;> cases h
    | condition | alternative | repetition =>
      change (matchCase v stack).map _ = none ↔ _
      rw [Option.map_eq_none_iff, ih, List.forall_mem_cons]
      exact ⟨fun h => ⟨by rintro ⟨⟩, h⟩, fun h => h.2⟩

/-- There is a frame of some kind if there is an open header of that kind. -/
theorem exists_frame_iff {script : Script} {opens : List Nat} {stack : List Frame}
    {kind : BlockKind} (hopens : List.Forall₂ script.Opens opens stack) :
    (∃ frame ∈ stack, frame.block = kind) ↔ ∃ h ∈ opens, script.HeaderAt h kind := by
  induction hopens with
  | nil =>
    constructor
    · rintro ⟨frame, hframe, -⟩
      cases hframe
    · rintro ⟨h, hmem, -⟩
      cases hmem
  | @cons i frame opens stack hframe hstack ih =>
    have header : frame.block = kind ↔ script.HeaderAt i kind :=
      ⟨fun h => h ▸ hframe.1, fun h => Script.HeaderAt.eq hframe.1 h⟩
    rw [List.exists_mem_cons_iff, List.exists_mem_cons_iff, header, ih]

/-- At a case, no frame is a selection if no selection stands around the case. -/
theorem matchCase_eq_none_iff_enclosed {v : Value} {kind : BlockKind} (nested : p.Nested)
    (hs : p.script.HeaderAt p.counter kind) :
    matchCase v p.stack = none ↔ ∀ h, ¬p.script.Encloses h .selection p.counter := by
  obtain ⟨opens, hopens, hstack⟩ := nested
  have enclosed : (∃ frame ∈ p.stack, frame.block = .selection) ↔
      ∃ h ∈ opens, p.script.HeaderAt h .selection := exists_frame_iff hstack
  rw [matchCase_eq_none_iff]
  constructor
  · intro frameless h encloses
    obtain ⟨frame, hframe, hblock⟩ :=
      enclosed.mpr ⟨h, (Script.encloses_iff hopens hs.not_braceAt).mp encloses⟩
    exact frameless frame hframe hblock
  · intro unenclosed frame hframe hblock
    obtain ⟨h, hmem⟩ := enclosed.mp ⟨frame, hframe, hblock⟩
    exact unenclosed h ((Script.encloses_iff hopens hs.not_braceAt).mpr hmem)

/-- At a brace, the stack is empty if the brace closes nothing. -/
theorem stack_eq_nil_iff (nested : p.Nested) (hs : p.script.BraceAt p.counter) :
    p.stack = [] ↔ ∀ h, ¬p.script.Closes h p.counter := by
  obtain ⟨opens, hopens, hstack⟩ := nested
  constructor
  · intro hnil h closes
    rw [hnil] at hstack
    cases hstack
    have hmem : h ∈ [] := (Script.mem_openHeaders_iff hopens).mpr
      ⟨closes.lt, closes.headerAt, fun stop closes' => Nat.le_of_eq (closes.stop_eq closes')⟩
    cases hmem
  · intro unmatched
    cases opens with
    | nil => exact List.forall₂_nil_left_iff.mp hstack
    | cons h opens => exact absurd (Script.closes_of_openHeaders hs hopens) (unmatched h)

/-! ### Faults -/

section

variable {s : Statement} {fault : Fault} {v : Value}

theorem defect_closed (nested : p.Nested) (hs : p.script.BraceAt p.counter)
    (h : p.closed = .error fault) : p.script.Defect p.counter fault := by
  rw [closed] at h
  split at h
  · next hstack =>
    cases h
    exact ⟨hs, (stack_eq_nil_iff nested hs).mp hstack⟩
  · cases h

theorem defect_skipped {block : BlockKind} (hs : p.script.HeaderAt p.counter block)
    (h : p.skipped block = .error fault) : p.script.Defect p.counter fault := by
  rw [skipped] at h
  split at h
  · next hnone =>
    cases h
    refine ⟨hs, fun stop closes => ?_⟩
    cases closes.closing?.symm.trans hnone
  · cases h

theorem defect_entered {block : BlockKind} (nested : p.Nested)
    (hs : p.script.HeaderAt p.counter block) (h : p.entered block v = .error fault) :
    p.script.Defect p.counter fault := by
  cases block with
  | condition | repetition =>
    rw [entered] at h
    split at h
    · cases h
    · exact defect_skipped hs h
  | selection => cases h
  | alternative =>
    rw [entered] at h
    split at h
    · next hmatch =>
      cases h
      exact ⟨hs, (matchCase_eq_none_iff_enclosed nested hs).mp hmatch⟩
    · cases h
    · exact defect_skipped hs h

/-- A statement that fails after its expression has a value is a defect. -/
theorem defect_completed (nested : p.Nested) (hs : p.current? = some s)
    (h : p.completed s.kind v = .error fault) : p.script.Defect p.counter fault := by
  obtain ⟨kind, span⟩ := s
  cases kind with
  | assignment | expression => cases h
  | header block e => exact defect_entered nested ⟨e, span, hs⟩ h
  | blockEnd => exact defect_closed nested ⟨span, hs⟩ h

end

variable {commands : Commands ι ω} {store : Store ω}
  {effect : Effect ω (Program ι × Except ProgramError Unit)}

/-- A cycle that fails does so at a defect. -/
theorem defect_of_cycle (conforms : commands.Conforms good fun fault => fault.isStructural = false)
    (reachable : Reachable commands p store) (running : p.status = .running)
    (h : p.cycle commands store = some effect) {error : ProgramError}
    (herror : effect.value.2 = .error error) : p.script.Defect p.counter error.fault := by
  have nested := nested_of_reachable reachable
  obtain ⟨s, hs⟩ := exists_current reachable running
  rcases cycle_cases running hs h with ⟨hkind, hvalue, -⟩ | ⟨e, step, -, hresume, hvalue, -⟩
  · rw [hvalue] at herror
    cases hclosed : p.closed with
    | ok q =>
      rw [hclosed] at herror
      cases herror
    | error fault =>
      rw [hclosed] at herror
      cases herror
      exact defect_closed nested ⟨s.span, hkind ▸ hs⟩ hclosed
  · -- The fault comes from the expression, and is not structural, or from what the statement does
    -- with its value.
    have mild := holds_of_resume conforms (holds_of_reachable conforms reachable) hresume
    rw [hvalue] at herror
    cases hstep : step.value with
    | suspended rest =>
      rw [hstep] at herror
      cases herror
    | failed fault rest =>
      rw [hstep] at herror mild
      cases herror
      exact Script.defect_of_unstructural mild
    | complete v =>
      rw [hstep, afterProgress] at herror
      cases hcompleted : completed { p with evaluation := none } s.kind v with
      | ok q =>
        rw [hcompleted] at herror
        cases herror
      | error fault =>
        rw [hcompleted] at herror
        cases herror
        exact defect_completed (p := { p with evaluation := none }) nested hs hcompleted

theorem status_settled_ne_failed (running : p.status = .running) (error : ProgramError) :
    p.settled.status ≠ .failed error := by
  unfold settled
  split
  · rintro ⟨⟩
  · rw [running]
    rintro ⟨⟩

/-- A program that has failed after a cycle has the error that the cycle gives. -/
theorem error_of_status_failed (h : p.cycle commands store = some effect) {error : ProgramError}
    (hstatus : effect.value.1.status = .failed error) : effect.value.2 = .error error := by
  have changes := changes_of_cycle h
  generalize effect.value = value at changes hstatus ⊢
  cases changes with
  | done done => cases done.symm.trans hstatus
  | failed failed =>
    cases failed.symm.trans hstatus
    rfl
  | exhausted => cases hstatus
  | waits running => cases running.symm.trans hstatus
  | fails =>
    cases hstatus
    rfl
  | completes running hs he h =>
    have running' := (moved_of_completed h).status_eq.trans running
    exact absurd hstatus (status_settled_ne_failed running' error)
  | closes running hs hkind h =>
    have running' := (moved_of_closed h).status_eq.trans running
    exact absurd hstatus (status_settled_ne_failed running' error)

/-- **A program that has failed stands at a defect.** -/
theorem defect_of_reachable
    (conforms : commands.Conforms good fun fault => fault.isStructural = false)
    (reachable : Reachable commands p store) {error : ProgramError}
    (hstatus : p.status = .failed error) : p.script.Defect p.counter error.fault := by
  induction reachable with
  | start script vars name store =>
    change (if script.statements.isEmpty then Status.done else .running) = _ at hstatus
    split at hstatus <;> cases hstatus
  | write before vars store' ih => exact ih hstatus
  | @cycle p store effect before hcycle ih =>
    by_cases running : p.status = .running
    · -- A cycle that fails leaves the program where it was.
      have herror := error_of_status_failed hcycle hstatus
      rw [script_of_cycle hcycle, (samePlace_of_cycle hcycle herror).counter]
      exact defect_of_cycle conforms before running hcycle herror
    · rw [cycle_of_ended commands running] at hcycle
      cases hcycle
      exact ih hstatus

/-! ### Structural faults -/

/-- The structural faults of a program are defects of its script, and the other way round. -/
structure StaticFaults (commands : Commands ι ω) (p : Program ι) (store : Store ω) : Prop where
  /-- A program fails where the text is at fault. -/
  failed : ∀ error, p.status = .failed error → p.script.Defect p.counter error.fault
  /-- A brace that closes nothing fails. -/
  brace : p.status = .running → ∀ span, p.current? = some ⟨.blockEnd, span⟩ →
    (∀ h, ¬p.script.Closes h p.counter) →
    ∃ effect, p.cycle commands store = some effect ∧
      effect.value.2 = .error ⟨p.name, span, .unmatchedBlockEnd⟩
  /-- A case that stands in no selection fails once it has a value. -/
  alternative : p.status = .running → ∀ e span,
    p.current? = some ⟨.header .alternative e, span⟩ →
    (∀ h, ¬p.script.Encloses h .selection p.counter) →
    ∀ step v, resume ⟨commands, p.vars⟩ (p.evaluation.getD .fresh) e store = some step →
      step.value = .complete v →
      ∃ effect, p.cycle commands store = some effect ∧
        effect.value.2 = .error ⟨p.name, span, .caseWithoutSwitch⟩
  /-- A script without defects has no structural faults, and leaves no block open. -/
  balanced : p.script.Balanced →
    (∀ i, p.script.HeaderAt i .alternative → ∃ h, p.script.Encloses h .selection i) →
    (∀ error, p.status = .failed error → error.fault.isStructural = false) ∧
      (p.status = .done → p.stack = [])

theorem stack_eq_nil_of_done (reachable : Reachable commands p store)
    (balanced : p.script.Balanced) (done : p.status = .done) : p.stack = [] := by
  have placed := placed_of_reachable reachable
  rw [Placed, done] at placed
  obtain ⟨opens, hopens, hstack⟩ := nested_of_reachable reachable
  rw [placed] at hopens
  cases hopens.symm.trans balanced
  exact List.forall₂_nil_left_iff.mp hstack

/-- **Structural faults are defects of the text.**  The built-in commands have no such faults, on
any machine.  With these, or any other commands that have none, a program that fails with one stands
at a brace that closes nothing, at a header whose block has no end, or at a case that stands in no
selection.  Conversely such braces, and such cases once they have a value, always fail.  A balanced
script whose cases all stand in selections therefore never has such a fault, and if it comes to its
end then with an empty stack. -/
theorem structural_faults_are_static_defects :
    (∀ {δ : Type} (devices : Devices δ),
        (standardCommands devices (builtins devices)).Conforms Instance.Ordinary
          (fun fault => fault.isStructural = false)) ∧
      ∀ {ι ω : Type} {commands : Commands ι ω} {good : ι → Prop} {p : Program ι} {store : Store ω},
        commands.Conforms good (fun fault => fault.isStructural = false) →
          Reachable commands p store → StaticFaults commands p store := by
  refine ⟨conforms_builtins, fun {ι ω commands good p store} conforms reachable => ?_⟩
  have nested := nested_of_reachable reachable
  constructor
  case failed =>
    intro error hstatus
    exact defect_of_reachable conforms reachable hstatus
  case brace =>
    intro running span hs unmatched
    -- no block is open in the text, so that none is on the stack
    have hstack := (stack_eq_nil_iff nested ⟨span, hs⟩).mpr unmatched
    obtain ⟨signals, hcycle, -⟩ := cycle_of_blockEnd commands running hs rfl store
    refine ⟨_, hcycle, ?_⟩
    rw [closed, hstack]
    rfl
  case alternative =>
    intro running e span hs unenclosed step v hresume hvalue
    -- no selection is open in the text, so that the case finds none
    have hmatch : matchCase v p.stack = none :=
      (matchCase_eq_none_iff_enclosed nested ⟨e, span, hs⟩).mpr unenclosed
    obtain ⟨signals, hcycle, -⟩ := cycle_of_resume running hs rfl hresume
    refine ⟨_, hcycle, ?_⟩
    rw [hvalue, afterProgress, completed, entered, hmatch]
    rfl
  case balanced =>
    intro balanced hcases
    refine ⟨fun error hstatus => ?_, stack_eq_nil_of_done reachable balanced⟩
    exact balanced.unstructural hcases (defect_of_reachable conforms reachable hstatus)

/-- A brace too many behind a block fails, and a selection with a case in it comes to its end. -/
theorem structural_faults_are_static_defects_brace :
    let commands := standardCommands Simulation.devices (builtins Simulation.devices)
    let store : Store (World Simulation) := ⟨.empty, ⟨⟨0, mkStdGen⟩, []⟩⟩
    (∃ p, Reachable commands p store ∧ p.status = .failed ⟨"stray", default, .unmatchedBlockEnd⟩ ∧
      StaticFaults commands p store) ∧
    ∃ p, Reachable commands p store ∧ p.status = .done ∧ p.script.Balanced ∧
      (∀ i, p.script.HeaderAt i .alternative → ∃ h, p.script.Encloses h .selection i) ∧
      StaticFaults commands p store := by
  intro commands store
  have conforms := conforms_builtins Simulation.devices
  have stray : Reachable commands _ store :=
    .cycle (.cycle (.cycle (.start ⟨[⟨.header .condition (.literal (.bool true)), default⟩,
      ⟨.blockEnd, default⟩, ⟨.blockEnd, default⟩]⟩ .initial "stray" store) rfl) rfl) rfl
  let script : Script := ⟨[⟨.header .selection (.literal .null), default⟩,
    ⟨.header .alternative (.literal .null), default⟩, ⟨.blockEnd, default⟩, ⟨.blockEnd, default⟩]⟩
  have enclosed : ∀ i, script.HeaderAt i .alternative → ∃ h, script.Encloses h .selection i := by
    rintro (_ | _ | _ | _ | i) ⟨e, span, hs⟩
    · cases hs
    · refine ⟨0, ⟨_, _, rfl⟩, Nat.one_pos, fun stop closes => ?_⟩
      cases closes.closing?
      decide
    · cases hs
    · cases hs
    · cases hs
  have sound : Reachable commands _ store :=
    .cycle (.cycle (.cycle (.cycle (.start script .initial "sound" store) rfl) rfl) rfl) rfl
  exact ⟨⟨_, stray, rfl, structural_faults_are_static_defects.2 conforms stray⟩,
    _, sound, rfl, rfl, enclosed, structural_faults_are_static_defects.2 conforms sound⟩

end Program

end StepScript
