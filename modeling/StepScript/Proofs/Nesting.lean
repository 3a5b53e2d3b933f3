import Mathlib.Data.List.Forall2
import StepScript.Proofs.Cycle

/-!
# The stack is the nesting of the current statement

The stack of a program is built up and taken down as blocks are entered and left, by three
independent means: a header pushes a frame, a skip counts braces up to the one that closes the
block, and a repetition jumps to an index that it has stored.  All of them agree with a plain scan
of the statements before the current one, which opens a block at every header and closes one at
every brace.

## Main definitions

* `Script.openHeaders` — the headers of the blocks that are open before a statement.
* `Script.Opens` — a frame belongs to the block of a header.
* `Program.Nested` — the stack belongs to the blocks that are open.

## Main results

* `Script.openHeaders_of_closing?` — after a skip the same blocks are open as before.
* `Script.openHeaders_of_cons` — at a header the same blocks are open as around its block.
* `Program.nested_completed`, `Program.nested_of_reachable` — every statement keeps the stack nested,
  and so does every run.
* `Program.stack_is_static_nesting` — **the stack is the nesting of the current statement**, in all
  that cycles lead to.
-/

namespace StepScript

/-! ### Statements at an index -/

section

variable {l rest : List Statement} {i : Nat}

theorem getElem?_of_drop {s : Statement} (h : l.drop i = s :: rest) : l[i]? = some s := by
  rw [← List.head?_drop, h]
  rfl

theorem drop_add_length {first : List Statement} (h : l.drop i = first ++ rest) :
    l.drop (i + first.length) = rest := by
  rw [← List.drop_drop, h, List.drop_left]

theorem drop_succ {s : Statement} (h : l.drop i = s :: rest) : l.drop (i + 1) = rest := by
  rw [← List.tail_drop, h]
  rfl

end

/-! ### Open blocks -/

/-- What the statement with the given index does to the headers of the open blocks, of which the
innermost is the first.  There is nothing if a brace closes a block that is not open. -/
def StatementKind.nest (i : Nat) : StatementKind → List Nat → Option (List Nat)
  | assignment _ _, opens | expression _, opens => some opens
  | header _ _, opens => some (i :: opens)
  | blockEnd, [] => none
  | blockEnd, _ :: opens => some opens

namespace Script

/-- The headers of the blocks that are open before the statement with the given index, the innermost
first. -/
def openHeaders (script : Script) : Nat → Option (List Nat)
  | 0 => some []
  | n + 1 => do
    let opens ← script.openHeaders n
    match script.statements[n]? with
    | none => some opens
    | some s => s.kind.nest n opens

variable {script : Script} {s : Statement} {i n : Nat} {opens : List Nat}

theorem openHeaders_succ (hs : script.statements[n]? = some s) :
    script.openHeaders (n + 1) = (script.openHeaders n).bind (s.kind.nest n) := by
  rw [openHeaders, hs]
  rfl

/-- Once a brace has closed a block that is not open, nothing mends it. -/
theorem openHeaders_add_eq_none (h : script.openHeaders i = none) :
    script.openHeaders (i + n) = none := by
  induction n with
  | zero => exact h
  | succ n ih =>
    rw [← Nat.add_assoc, openHeaders, ih]
    rfl

/-- The header of an open block stands before, and there the same blocks are open as around the
block. -/
theorem openHeaders_of_cons (h : script.openHeaders n = some (i :: opens)) :
    i < n ∧ script.openHeaders i = some opens := by
  induction n using Nat.strongRecOn generalizing i opens with
  | ind n ih =>
    cases n with
    | zero => cases h
    | succ n =>
      rw [openHeaders] at h
      obtain ⟨before, hbefore, hnest⟩ := Option.bind_eq_some_iff.mp h
      cases hs : script.statements[n]? with
      | none =>
        rw [hs] at hnest
        cases hnest
        obtain ⟨hlt, hopens⟩ := ih n (Nat.lt_succ_self n) hbefore
        exact ⟨Nat.lt_succ_of_lt hlt, hopens⟩
      | some s =>
        rw [hs] at hnest
        dsimp only at hnest
        cases hkind : s.kind with
        | assignment | expression =>
          rw [hkind] at hnest
          cases hnest
          obtain ⟨hlt, hopens⟩ := ih n (Nat.lt_succ_self n) hbefore
          exact ⟨Nat.lt_succ_of_lt hlt, hopens⟩
        | header =>
          rw [hkind] at hnest
          cases hnest
          exact ⟨Nat.lt_succ_self _, hbefore⟩
        | blockEnd =>
          rw [hkind] at hnest
          -- The brace closes a block inside, so that the header is one of those open around it.
          cases before with
          | nil => cases hnest
          | cons j before =>
            cases hnest
            obtain ⟨hj, hinner⟩ := ih n (Nat.lt_succ_self n) hbefore
            obtain ⟨hlt, hopens⟩ := ih j (Nat.lt_succ_of_lt hj) hinner
            exact ⟨by omega, hopens⟩

/-! The search for the closing brace, by what it finds first. -/

section

variable {rest : List Statement} {depth : Nat}

theorem closingFrom?_header {block : BlockKind} {e : Expr} (h : s.kind = .header block e) :
    closingFrom? depth i (s :: rest) = closingFrom? (depth + 1) (i + 1) rest := by
  rw [closingFrom?.eq_def]
  simp only [h]

theorem closingFrom?_blockEnd_one (h : s.kind = .blockEnd) :
    closingFrom? 1 i (s :: rest) = some i := by
  rw [closingFrom?.eq_def]
  simp only [h]

theorem closingFrom?_blockEnd (h : s.kind = .blockEnd) :
    closingFrom? (depth + 2) i (s :: rest) = closingFrom? (depth + 1) (i + 1) rest := by
  rw [closingFrom?.eq_def]
  simp only [h]

theorem closingFrom?_assignment {name : String} {e : Expr} (h : s.kind = .assignment name e) :
    closingFrom? depth i (s :: rest) = closingFrom? depth (i + 1) rest := by
  rw [closingFrom?.eq_def]
  simp only [h]

theorem closingFrom?_expression {e : Expr} (h : s.kind = .expression e) :
    closingFrom? depth i (s :: rest) = closingFrom? depth (i + 1) rest := by
  rw [closingFrom?.eq_def]
  simp only [h]

end

theorem openHeaders_of_closingFrom? {rest : List Statement} {depth stop : Nat} {inner : List Nat}
    (hrest : script.statements.drop i = rest)
    (hopens : script.openHeaders i = some (inner ++ opens)) (hdepth : inner.length = depth)
    (hpos : depth ≠ 0) (h : closingFrom? depth i rest = some stop) :
    script.openHeaders (stop + 1) = some opens := by
  -- The invariant: as many blocks are open within as the depth counts.
  induction rest generalizing depth i inner with
  | nil => cases h
  | cons s rest ih =>
    have hrest' := drop_succ hrest
    have hsucc := openHeaders_succ (getElem?_of_drop hrest)
    rw [hopens, Option.bind_some] at hsucc
    cases hkind : s.kind with
    | assignment =>
      rw [closingFrom?_assignment hkind] at h
      rw [hkind] at hsucc
      exact ih hrest' hsucc hdepth hpos h
    | expression =>
      rw [closingFrom?_expression hkind] at h
      rw [hkind] at hsucc
      exact ih hrest' hsucc hdepth hpos h
    | header =>
      -- one more block is open, and the depth is one more
      rw [closingFrom?_header hkind] at h
      rw [hkind, StatementKind.nest, ← List.cons_append] at hsucc
      exact ih hrest' hsucc (congrArg (· + 1) hdepth) (Nat.succ_ne_zero _) h
    | blockEnd =>
      rw [hkind] at hsucc
      -- the brace closes the innermost block; the search ends at the last of them
      cases inner with
      | nil => exact absurd hdepth.symm hpos
      | cons j inner =>
        subst hdepth
        cases inner with
        | nil =>
          rw [List.length_singleton, closingFrom?_blockEnd_one hkind] at h
          cases h
          exact hsucc
        | cons k inner =>
          rw [List.length_cons, List.length_cons, closingFrom?_blockEnd hkind] at h
          exact ih hrest' hsucc rfl (Nat.succ_ne_zero _) h

/-- **After a skip the same blocks are open as before.** -/
theorem openHeaders_of_closing? {block : BlockKind} {e : Expr} {stop : Nat}
    (hs : script.statements[i]? = some s) (hkind : s.kind = .header block e)
    (hopens : script.openHeaders i = some opens) (h : script.closing? i = some stop) :
    script.openHeaders (stop + 1) = some opens := by
  have hdrop : script.statements.drop i = s :: script.statements.drop (i + 1) := by
    obtain ⟨hlt, hget⟩ := List.getElem?_eq_some_iff.mp hs
    rw [List.drop_eq_getElem_cons hlt, hget]
  rw [closing?, hdrop, closingFrom?_header hkind] at h
  have hsucc := openHeaders_succ hs
  rw [hopens, Option.bind_some, hkind, StatementKind.nest, ← List.singleton_append] at hsucc
  exact openHeaders_of_closingFrom? rfl hsucc rfl Nat.one_ne_zero h

/-- A frame belongs to the block that a header opens: it is of the same kind, and a repetition goes
back to the header. -/
def Opens (script : Script) (i : Nat) (frame : Frame) : Prop :=
  (∃ e span, script.statements[i]? = some ⟨.header frame.block e, span⟩) ∧
    ∀ header, frame = .repetition header → header = i

end Script

namespace Program

variable {ι ω : Type} {p p' : Program ι}

/-- The stack belongs to the blocks that are open before the current statement. -/
def Nested (p : Program ι) : Prop :=
  ∃ opens, p.script.openHeaders p.counter = some opens ∧
    List.Forall₂ p.script.Opens opens p.stack

/-- Marking a selection leaves the frames with their blocks. -/
theorem opens_of_matchCase {script : Script} {v : Value} {opens : List Nat}
    {stack stack' : List Frame} {hit : Bool} (h : matchCase v stack = some (hit, stack'))
    (hopens : List.Forall₂ script.Opens opens stack) : List.Forall₂ script.Opens opens stack' := by
  induction hopens generalizing hit stack' with
  | nil => cases h
  | @cons i frame opens stack hframe hstack ih =>
    cases frame with
    | selection scrutinee matched =>
      have marked : ∀ b, script.Opens i (.selection scrutinee b) := fun _ => ⟨hframe.1, nofun⟩
      rw [matchCase] at h
      split at h <;> cases h <;> exact .cons (marked _) hstack
    | condition | alternative | repetition =>
      obtain ⟨⟨hit', inner⟩, hinner, heq⟩ := Option.map_eq_some_iff.mp h
      cases heq
      exact .cons hframe (ih hinner)

theorem nested_opened {s : Statement} {frame : Frame} {e : Expr} {stack : List Frame}
    {opens : List Nat} (hs : p.current? = some s) (hkind : s.kind = .header frame.block e)
    (hframe : ∀ header, frame = .repetition header → header = p.counter)
    (hopens : p.script.openHeaders p.counter = some opens)
    (hstack : List.Forall₂ p.script.Opens opens stack) :
    (opened { p with stack } frame).Nested := by
  refine ⟨p.counter :: opens, ?_, .cons ⟨⟨e, s.span, ?_⟩, hframe⟩ hstack⟩
  · have hsucc := Script.openHeaders_succ hs
    rw [hopens, Option.bind_some, hkind] at hsucc
    exact hsucc
  · rw [← hkind]
    exact hs

theorem nested_skipped {s : Statement} {block : BlockKind} {e : Expr} (hs : p.current? = some s)
    (hkind : s.kind = .header block e) (nested : p.Nested) (h : p.skipped block = .ok p') :
    p'.Nested := by
  obtain ⟨opens, hopens, hstack⟩ := nested
  rw [skipped] at h
  cases hstop : p.script.closing? p.counter with
  | none =>
    rw [hstop] at h
    cases h
  | some stop =>
    rw [hstop] at h
    cases h
    exact ⟨opens, Script.openHeaders_of_closing? hs hkind hopens hstop, hstack⟩

theorem nested_entered {s : Statement} {block : BlockKind} {e : Expr} {v : Value}
    (hs : p.current? = some s) (hkind : s.kind = .header block e) (nested : p.Nested)
    (h : p.entered block v = .ok p') : p'.Nested := by
  have skip : p.skipped block = .ok p' → p'.Nested := nested_skipped hs hkind nested
  obtain ⟨opens, hopens, hstack⟩ := nested
  cases block with
  | condition =>
    rw [entered] at h
    split at h
    · cases h
      exact nested_opened hs hkind (by rintro _ ⟨⟩) hopens hstack
    · exact skip h
  | repetition =>
    rw [entered] at h
    split at h
    · cases h
      -- a repetition remembers its own header
      refine nested_opened hs hkind ?_ hopens hstack
      rintro header ⟨⟩
      rfl
    · exact skip h
  | selection =>
    cases h
    exact nested_opened hs hkind (by rintro _ ⟨⟩) hopens hstack
  | alternative =>
    rw [entered] at h
    split at h
    · cases h
    · -- a case marks the frame of its selection, which opens the same block as before
      next stack hmatch =>
      cases h
      exact nested_opened hs hkind (by rintro _ ⟨⟩) hopens (opens_of_matchCase hmatch hstack)
    · exact skip h

theorem nested_closed {s : Statement} (hs : p.current? = some s) (hkind : s.kind = .blockEnd)
    (nested : p.Nested) (h : p.closed = .ok p') : p'.Nested := by
  obtain ⟨opens, hopens, hstack⟩ := nested
  have hsucc := Script.openHeaders_succ hs
  rw [hopens, Option.bind_some, hkind] at hsucc
  obtain ⟨name, script, vars, stack, counter, evaluation, status⟩ := p
  cases hstack with
  | nil => cases h
  | @cons i frame opens stack hframe hstack =>
    cases h
    refine ⟨opens, ?_, hstack⟩
    cases frame with
    | repetition header =>
      obtain rfl := hframe.2 header rfl
      exact (Script.openHeaders_of_cons hopens).2
    | condition | selection | alternative => exact hsucc

/-- **Every statement keeps the stack nested.** -/
theorem nested_completed {s : Statement} {v : Value} (hs : p.current? = some s) (nested : p.Nested)
    (h : p.completed s.kind v = .ok p') : p'.Nested := by
  cases hkind : s.kind with
  | assignment | expression =>
    rw [hkind] at h
    cases h
    obtain ⟨opens, hopens, hstack⟩ := nested
    have hsucc := Script.openHeaders_succ hs
    rw [hopens, Option.bind_some, hkind] at hsucc
    exact ⟨opens, hsucc, hstack⟩
  | header block e =>
    rw [hkind] at h
    exact nested_entered hs hkind nested h
  | blockEnd =>
    rw [hkind] at h
    exact nested_closed hs hkind nested h

theorem nested_settled (nested : p.Nested) : p.settled.Nested := by
  unfold settled
  split
  · exact nested
  · exact nested

/-- Every cycle keeps the stack nested. -/
theorem nested_cycle {commands : Commands ι ω} {store : Store ω}
    {effect : Effect ω (Program ι × Except ProgramError Unit)}
    (h : p.cycle commands store = some effect) (nested : p.Nested) : effect.value.1.Nested := by
  have changes := changes_of_cycle h
  generalize effect.value = value at changes ⊢
  cases changes with
  | done | failed | exhausted | waits | fails => exact nested
  | completes running hs he h =>
    exact nested_settled (nested_completed (p := { p with evaluation := none }) hs nested h)
  | closes running hs hkind h => exact nested_settled (nested_closed hs hkind nested h)

theorem nested_of_reachable {commands : Commands ι ω} {store : Store ω}
    (reachable : Reachable commands p store) : p.Nested := by
  induction reachable with
  | start => exact ⟨[], rfl, .nil⟩
  | cycle before h ih => exact nested_cycle h ih
  | write before vars store' ih => exact ih

/-- **The stack is the nesting of the current statement.**  Whatever cycles and the host have done,
the scan of the statements before the current one closes no block that is not open, and leaves as
many open as there are frames.  Each frame is of the kind that its header opens, and a repetition
goes back to its own header. -/
theorem stack_is_static_nesting {commands : Commands ι ω} {store : Store ω}
    (reachable : Reachable commands p store) :
    ∃ opens, p.script.openHeaders p.counter = some opens ∧ opens.length = p.stack.length ∧
      List.Forall₂ p.script.Opens opens p.stack := by
  obtain ⟨opens, hopens, hstack⟩ := nested_of_reachable reachable
  exact ⟨opens, hopens, hstack.length_eq, hstack⟩

/-- A script that ends inside two blocks leaves two frames behind. -/
theorem stack_is_static_nesting_unclosed :
    ∃ p : Program Empty, Reachable .none p ⟨.empty, ()⟩ ∧ p.status = .done ∧
      p.stack = [.condition, .repetition 0] ∧
      ∃ opens, p.script.openHeaders p.counter = some opens ∧ opens.length = p.stack.length ∧
        List.Forall₂ p.script.Opens opens p.stack := by
  have reachable : Reachable .none _ _ :=
    .cycle (.cycle (.start ⟨[⟨.header .repetition (.literal (.bool true)), default⟩,
      ⟨.header .condition (.literal (.bool true)), default⟩]⟩ .initial "unclosed" ⟨.empty, ()⟩)
      rfl) rfl
  exact ⟨_, reachable, rfl, rfl, stack_is_static_nesting reachable⟩

end Program

end StepScript
