import StepScript.Proofs.BlockTree
import StepScript.Proofs.Generator

/-!
# The meaning of a tree of blocks

What a script does, told along its tree of blocks and without a counter, a stack or a search for
closing braces.  Expressions are evaluated directly.  A block is one unit: its header decides
whether the body is executed, and a repetition is the same block once more.

A `switch` opens a cell with its value, which remembers whether a case has matched.  A `case` looks
at the cell of the innermost `switch` around it, whatever other blocks are in between.

The host may change between two cycles, for instance because time passes.  Every statement ends with
such a change, and so does every pause of a command.

## Main definitions

* `Evaluates` — what an expression comes to.
* `Cell`, `Situation` — what statements are executed in.
* `BlockKind.entry` — whether the body of a block is executed.
* `Exec` — what a tree does: **big-step semantics**.
-/

namespace StepScript

/-- The store after the pause between two cycles. -/
def Store.paced {ω : Type} (pause : ω → ω) (store : Store ω) : Store ω :=
  { store with host := pause store.host }

/-- The end of a computation that has a result. -/
def Ending.ofResult {ε α : Type} : Except ε α → Ending ε α
  | .ok a => value a
  | .error error => fault error

section

variable {ι ω : Type} (commands : Commands ι ω) (pause : ω → ω)

/-- Direct evaluation of an expression comes to a result, with as many pauses as its commands ask
for.  The variables stay as they are. -/
def Evaluates (e : Expr) (vars : Variables) (store : Store ω) (result : Except Fault Value)
    (store' : Store ω) (seen : List Signal) : Prop :=
  ∃ pauses marks,
    generate commands .yield e ⟨vars, store, List.replicate pauses ⟨vars, Store.paced pause⟩⟩ =
      some ⟨.ofResult result, ⟨vars, store', []⟩, marks⟩ ∧
    events (signalsOf marks) = seen

/-- The cell of the innermost `switch`, if there is one: its value, and whether a case has
matched. -/
abbrev Cell := Option (Value × Bool)

/-- What statements are executed in. -/
structure Situation (ω : Type) where
  /-- The variables. -/
  vars : Variables
  /-- The store. -/
  store : Store ω
  /-- The cell of the innermost `switch`. -/
  cell : Cell

/-- What comes of statements. -/
inductive Outcome (ω : Type)
  /-- All of them have been executed. -/
  | finished (s : Situation ω)
  /-- The statement with the given index has failed. -/
  | failed (index : Nat) (fault : Fault) (vars : Variables) (store : Store ω)

/-- Whether the body of a block is executed, and in which cell. -/
def BlockKind.entry (v : Value) (cell : Cell) : BlockKind → Except Fault (Option Cell)
  | condition | repetition => .ok (if v.isTruthy then some cell else none)
  | selection => .ok (some (some (v, false)))
  | alternative =>
    match cell with
    | none => .error .caseWithoutSwitch
    | some (scrutinee, hit) =>
      .ok (if !hit && scrutinee.equals v then some (some (scrutinee, true)) else none)

/-- The cell after a block, from the cells around it and at the end of its body. -/
def BlockKind.leave (outer inner : Cell) : BlockKind → Cell
  | selection => outer
  | condition | alternative | repetition => inner

/-- The variables after a statement that is not a header. -/
def assign (vars : Variables) (v : Value) : Option String → Variables
  | some name => vars.set name v
  | none => vars

/-- What a tree does whose first statement has the given index, with the events that can be seen. -/
inductive Exec : BlockTree → Nat → Situation ω → List Signal → Outcome ω → Prop
  /-- Nothing. -/
  | nil {i : Nat} {s : Situation ω} : Exec .nil i s [] (.finished s)
  /-- A statement has its value, and the following ones are executed. -/
  | plain {target : Option String} {e : Expr} {span : Span} {next : BlockTree} {i : Nat}
    {s : Situation ω} {v : Value} {store : Store ω} {seen seen' : List Signal} {out : Outcome ω}
    (value : Evaluates commands pause e s.vars s.store (.ok v) store seen)
    (rest : Exec next (i + 1) ⟨assign s.vars v target, store.paced pause, s.cell⟩ seen' out) :
    Exec (.plain target e span next) i s
      (.line i ⟨.plain target e, span⟩ :: seen ++ seen') out
  /-- A statement has no value. -/
  | plainFails {target : Option String} {e : Expr} {span : Span} {next : BlockTree} {i : Nat}
    {s : Situation ω} {fault : Fault} {store : Store ω} {seen : List Signal}
    (value : Evaluates commands pause e s.vars s.store (.error fault) store seen) :
    Exec (.plain target e span next) i s (.line i ⟨.plain target e, span⟩ :: seen)
      (.failed i fault s.vars (store.paced pause))
  /-- A header has no value. -/
  | headerFails {kind : BlockKind} {e : Expr} {span brace : Span} {body next : BlockTree} {i : Nat}
    {s : Situation ω} {fault : Fault} {store : Store ω} {seen : List Signal}
    (value : Evaluates commands pause e s.vars s.store (.error fault) store seen) :
    Exec (.block kind e span body brace next) i s (.line i ⟨.header kind e, span⟩ :: seen)
      (.failed i fault s.vars (store.paced pause))
  /-- A block must not stand where it does. -/
  | refused {kind : BlockKind} {e : Expr} {span brace : Span} {body next : BlockTree} {i : Nat}
    {s : Situation ω} {v : Value} {fault : Fault} {store : Store ω} {seen : List Signal}
    (value : Evaluates commands pause e s.vars s.store (.ok v) store seen)
    (entry : kind.entry v s.cell = .error fault) :
    Exec (.block kind e span body brace next) i s (.line i ⟨.header kind e, span⟩ :: seen)
      (.failed i fault s.vars (store.paced pause))
  /-- The body of a block is not executed. -/
  | skipped {kind : BlockKind} {e : Expr} {span brace : Span} {body next : BlockTree} {i : Nat}
    {s : Situation ω} {v : Value} {store : Store ω} {seen seen' : List Signal} {out : Outcome ω}
    (value : Evaluates commands pause e s.vars s.store (.ok v) store seen)
    (entry : kind.entry v s.cell = .ok none)
    (rest : Exec next (i + 1 + body.size + 1) ⟨s.vars, store.paced pause, s.cell⟩ seen' out) :
    Exec (.block kind e span body brace next) i s
      (.line i ⟨.header kind e, span⟩ :: seen ++ seen') out
  /-- The body of a block fails. -/
  | bodyFails {kind : BlockKind} {e : Expr} {span brace : Span} {body next : BlockTree} {i j : Nat}
    {s : Situation ω} {v : Value} {inner : Cell} {store store' : Store ω} {vars : Variables}
    {fault : Fault} {seen seen' : List Signal}
    (value : Evaluates commands pause e s.vars s.store (.ok v) store seen)
    (entry : kind.entry v s.cell = .ok (some inner))
    (inside : Exec body (i + 1) ⟨s.vars, store.paced pause, inner⟩ seen'
      (.failed j fault vars store')) :
    Exec (.block kind e span body brace next) i s
      (.line i ⟨.header kind e, span⟩ :: seen ++ seen') (.failed j fault vars store')
  /-- The body of a block is executed once, and then what follows the block. -/
  | passed {kind : BlockKind} {e : Expr} {span brace : Span} {body next : BlockTree} {i : Nat}
    {s s' : Situation ω} {v : Value} {inner : Cell} {store : Store ω}
    {seen seen' seen'' : List Signal} {out : Outcome ω} (once : kind ≠ .repetition)
    (value : Evaluates commands pause e s.vars s.store (.ok v) store seen)
    (entry : kind.entry v s.cell = .ok (some inner))
    (inside : Exec body (i + 1) ⟨s.vars, store.paced pause, inner⟩ seen' (.finished s'))
    (rest : Exec next (i + 1 + body.size + 1)
      ⟨s'.vars, s'.store.paced pause, kind.leave s.cell s'.cell⟩ seen'' out) :
    Exec (.block kind e span body brace next) i s
      (.line i ⟨.header kind e, span⟩ :: seen ++
        (seen' ++ .line (i + 1 + body.size) ⟨.blockEnd, brace⟩ :: seen'')) out
  /-- The body of a repetition is executed, and then the whole block again. -/
  | repeated {e : Expr} {span brace : Span} {body next : BlockTree} {i : Nat}
    {s s' : Situation ω} {v : Value} {inner : Cell} {store : Store ω}
    {seen seen' seen'' : List Signal} {out : Outcome ω}
    (value : Evaluates commands pause e s.vars s.store (.ok v) store seen)
    (entry : BlockKind.repetition.entry v s.cell = .ok (some inner))
    (inside : Exec body (i + 1) ⟨s.vars, store.paced pause, inner⟩ seen' (.finished s'))
    (again : Exec (.block .repetition e span body brace next) i
      ⟨s'.vars, s'.store.paced pause, s'.cell⟩ seen'' out) :
    Exec (.block .repetition e span body brace next) i s
      (.line i ⟨.header .repetition e, span⟩ :: seen ++
        (seen' ++ .line (i + 1 + body.size) ⟨.blockEnd, brace⟩ :: seen'')) out

end

end StepScript
