import StepScript.Proofs.Cycle
import StepScript.Proofs.Rules

/-!
# What comes out of commands

What holds of every instance when it is created, and stays true when it is stepped or handed a
value, holds of all instances that a program keeps between two cycles.  In the same way, the faults
of an evaluation are those of its commands and operators, besides texts that cannot be parsed.

## Main definitions

* `Commands.Conforms` — good instances stay good, and all faults are mild.
* `Evaluation.Holds`, `Progress.Holds`, `Program.Holds` — instances that are kept are good, and
  faults that are met are mild.

## Main results

* `holds_of_does` — the rules of evaluation keep instances good and faults mild.
* `Program.holds_of_reachable` — so do cycles.
-/

namespace StepScript

variable {ι ω : Type} {good : ι → Prop} {mild : Fault → Prop}

/-- Instances of commands are created good and stay good.  Commands that refuse their arguments,
instances that fail, operators, and texts that cannot be parsed all have mild faults. -/
structure Commands.Conforms (commands : Commands ι ω) (good : ι → Prop) (mild : Fault → Prop) :
    Prop where
  created : ∀ {name values host command},
    (commands.create name values host).value = .ok command → good command
  refused : ∀ {name values host fault},
    (commands.create name values host).value = .error fault → mild fault
  stepped : ∀ {command host turn}, good command → commands.next command host = some turn →
    good turn.value.2
  failed : ∀ {command host turn fault}, good command → commands.next command host = some turn →
    turn.value.1 = .error fault → mild fault
  supplied : ∀ {command} source v host, good command →
    good (commands.supply command source v host).value
  applied : ∀ {e vars known fault}, Expr.result? vars e known = some (.error fault) → mild fault
  unreadable : ∀ {source error}, mild (.unreadableRequest source error)

/-- All instances in the evaluation are good. -/
def Evaluation.Holds (good : ι → Prop) : Evaluation ι → Prop
  | fresh => True
  | operand _ inner => inner.Holds good
  | calling _ command => good command
  | asking _ command _ _ inner => good command ∧ inner.Holds good

/-- The instances that wait are good, and the fault, if there is one, is mild. -/
def Progress.Holds (good : ι → Prop) (mild : Fault → Prop) : Progress ι → Prop
  | complete _ => True
  | suspended rest => rest.Holds good
  | failed fault _ => mild fault

/-- All that a piece of work is given is good and mild. -/
def Task.Holds (good : ι → Prop) (mild : Fault → Prop) : Task ι → Prop
  | settle _ _ _ => True
  | proceed _ _ _ progress => progress.Holds good mild
  | drive _ command => good command
  | answer _ command _ _ progress => good command ∧ progress.Holds good mild
  | resume evaluation _ => evaluation.Holds good

/-- **The rules of evaluation keep instances good and faults mild.** -/
theorem holds_of_does {ctx : Context ι ω} (conforms : ctx.commands.Conforms good mild)
    {task : Task ι} {s s' : Store ω} {progress : Progress ι} {signals : List Signal}
    (h : Does ctx task s progress s' signals) (holds : task.Holds good mild) :
    progress.Holds good mild := by
  -- Induction on the rules: instances are only created, stepped and supplied.
  induction h with
  | @applied e known s result hresult =>
    cases result with
    | ok v => trivial
    | error fault => exact conforms.applied hresult
  | refused hcreate => exact conforms.refused (congrArg Turn.value hcreate)
  | called hcreate h ih => exact ih (conforms.created (congrArg Turn.value hcreate))
  | operand hx h ihx ih => exact ih (ihx trivial)
  | known h ih => exact ih trivial
  | held | broken => exact holds
  | failed hnext => exact conforms.failed holds hnext rfl
  | finished => trivial
  | suspended hnext => exact conforms.stepped holds hnext
  | warned hnext h ih => exact ih (conforms.stepped holds hnext)
  | unreadable => exact conforms.unreadable
  | requested hnext hparse hx h ihx ih => exact ih ⟨conforms.stepped holds hnext, ihx trivial⟩
  | @supplied name source command command' request v s s' host notes progress signals hsupply h
    ih =>
    have kept := conforms.supplied source v s.host holds.1
    rw [hsupply] at kept
    exact ih kept
  | pending => exact holds
  | denied => exact holds.2
  | begin h ih => exact ih trivial
  | exhausted hes h ih => exact ih trivial
  | resumed hes hx h ihx ih => exact ih (ihx holds)
  | calling h ih => exact ih holds
  | asking hx h ihx ih => exact ih ⟨holds.1, ihx holds.2⟩

namespace Program

variable {commands : Commands ι ω} {p : Program ι} {store : Store ω}

/-- All instances that the program keeps are good. -/
def Holds (good : ι → Prop) (p : Program ι) : Prop :=
  (p.evaluation.getD .fresh).Holds good

theorem holds_of_resume (conforms : commands.Conforms good mild) (holds : p.Holds good) {e : Expr}
    {step : Effect ω (Progress ι)}
    (h : resume ⟨commands, p.vars⟩ (p.evaluation.getD .fresh) e store = some step) :
    step.value.Holds good mild :=
  holds_of_does conforms (does_of_resume h) holds

/-- **All instances that cycles lead to are good.** -/
theorem holds_of_reachable (conforms : commands.Conforms good mild)
    (reachable : Reachable commands p store) : p.Holds good := by
  induction reachable with
  | start => trivial
  | write before vars store' ih => exact ih
  | @cycle p store effect before hcycle ih =>
    rcases resume_of_cycle hcycle with
      ⟨valueless, -, -⟩ | ⟨s, e, step, -, -, -, hresume, hvalue, -, -⟩
    · -- Without an expression nothing is evaluated, and the evaluation stays as it was.
      have changes := changes_of_cycle hcycle
      generalize effect.value = value at changes ⊢
      cases changes with
      | done | failed | exhausted => exact ih
      | waits running hs he => cases (valueless _ running hs).symm.trans he
      | fails => trivial
      | completes running hs he => cases (valueless _ running hs).symm.trans he
      | closes running hs hkind h =>
        rw [Holds, (moved_of_closed h).evaluation_settled]
        exact ih
    · have progress := holds_of_resume conforms ih hresume
      rw [hvalue]
      cases hstep : step.value with
      | complete v =>
        rw [afterProgress]
        cases h : completed { p with evaluation := none } s.kind v with
        | ok p' =>
          rw [outcome, Holds, (moved_of_completed h).evaluation_settled]
          trivial
        | error fault => trivial
      | suspended rest =>
        rw [hstep] at progress
        rw [afterProgress, outcome, Holds, settled]
        split <;> exact progress
      | failed fault rest => trivial

end Program

end StepScript
