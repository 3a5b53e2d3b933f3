import StepScript.Proofs.Nesting

/-!
# Scripts as trees of blocks

A script whose headers and closing braces are balanced can be read as a tree of nested blocks.  The
tree is what the script means; the flat list of statements is what a program executes.

## Main definitions

* `Script.Balanced` — every header has its brace, and every brace its header.
* `BlockTree` — statements with their blocks nested.
* `BlockTree.statements` — the same as a flat list.

## Main results

* `Script.balanced_iff` — **a script is balanced exactly if it is a tree of blocks**.
* `BlockTree.closing?_of_drop` — the closing brace of a block stands right after its body.
-/

namespace StepScript

/-- Whether the scan of all statements leaves no block open, and closes none that is not. -/
def Script.Balanced (script : Script) : Prop :=
  script.openHeaders script.size = some []

/-- Statements with their blocks nested. -/
inductive BlockTree
  /-- No statement. -/
  | nil
  /-- A statement that evaluates an expression and may give its value to a variable. -/
  | plain (target : Option String) (value : Expr) (span : Span) (next : BlockTree)
  /-- A block, with its header, its body and its closing brace. -/
  | block (kind : BlockKind) (value : Expr) (span : Span) (body : BlockTree) (brace : Span)
    (next : BlockTree)

/-- The statement that gives the value of an expression to a variable, if there is one. -/
def StatementKind.plain : Option String → Expr → StatementKind
  | some name, e => assignment name e
  | none, e => expression e

namespace BlockTree

/-- The flat list of statements. -/
def statements : BlockTree → List Statement
  | nil => []
  | plain target e span next => ⟨.plain target e, span⟩ :: next.statements
  | block kind e span body brace next =>
    ⟨.header kind e, span⟩ :: (body.statements ++ ⟨.blockEnd, brace⟩ :: next.statements)

/-- The script of a tree. -/
def script (t : BlockTree) : Script :=
  ⟨t.statements⟩

/-- The number of statements. -/
def size (t : BlockTree) : Nat :=
  t.statements.length

@[simp] theorem size_nil : nil.size = 0 := rfl

@[simp] theorem size_plain (target : Option String) (e : Expr) (span : Span) (next : BlockTree) :
    (plain target e span next).size = next.size + 1 := rfl

@[simp] theorem size_block (kind : BlockKind) (e : Expr) (span : Span) (body : BlockTree)
    (brace : Span) (next : BlockTree) :
    (block kind e span body brace next).size = body.size + next.size + 2 := by
  simp only [size, statements, List.length_cons, List.length_append]
  omega

end BlockTree

/-! ### Where the parts of a tree stand -/

section

variable {l rest : List Statement} {i : Nat}

/-- The parts of a block stand one after the other. -/
theorem drop_block {kind : BlockKind} {e : Expr} {span brace : Span} {body next : BlockTree}
    (h : l.drop i = (BlockTree.block kind e span body brace next).statements ++ rest) :
    l.drop i = ⟨.header kind e, span⟩ ::
        (body.statements ++ ⟨.blockEnd, brace⟩ :: (next.statements ++ rest)) ∧
      l.drop (i + 1) = body.statements ++ ⟨.blockEnd, brace⟩ :: (next.statements ++ rest) ∧
      l.drop (i + 1 + body.size) = ⟨.blockEnd, brace⟩ :: (next.statements ++ rest) ∧
      l.drop (i + 1 + body.size + 1) = next.statements ++ rest := by
  have hheader : l.drop i = ⟨.header kind e, span⟩ ::
      (body.statements ++ ⟨.blockEnd, brace⟩ :: (next.statements ++ rest)) := by
    rw [h, BlockTree.statements, List.cons_append, List.append_assoc, List.cons_append]
  have hbody := drop_succ hheader
  have hbrace := drop_add_length hbody
  exact ⟨hheader, hbody, hbrace, drop_succ hbrace⟩

end

namespace BlockTree

/-- The search for a closing brace passes over a tree. -/
theorem closingFrom?_statements (t : BlockTree) (depth i : Nat) (rest : List Statement) :
    Script.closingFrom? (depth + 1) i (t.statements ++ rest) =
      Script.closingFrom? (depth + 1) (i + t.size) rest := by
  induction t generalizing depth i rest with
  | nil => rfl
  | plain target e span next ih =>
    have hplain :
        Script.closingFrom? (depth + 1) i ((plain target e span next).statements ++ rest) =
        Script.closingFrom? (depth + 1) (i + 1) (next.statements ++ rest) := by
      cases target with
      | none => exact Script.closingFrom?_expression rfl
      | some name => exact Script.closingFrom?_assignment rfl
    rw [hplain, ih, size_plain, Nat.add_right_comm, Nat.add_assoc]
  | block kind e span body brace next ihbody ihnext =>
    rw [statements, List.cons_append, List.append_assoc, Script.closingFrom?_header rfl, ihbody,
      List.cons_append, Script.closingFrom?_blockEnd rfl, ihnext, size_block]
    congr 1
    omega

/-- **The closing brace of a block stands right after its body.** -/
theorem closing?_of_drop {s : Script} {i : Nat} {kind : BlockKind} {e : Expr} {span brace : Span}
    {body next : BlockTree} {rest : List Statement}
    (h : s.statements.drop i = (block kind e span body brace next).statements ++ rest) :
    s.closing? i = some (i + 1 + body.size) := by
  obtain ⟨hheader, -, -, -⟩ := drop_block h
  rw [Script.closing?, hheader, Script.closingFrom?_header rfl, closingFrom?_statements,
    Script.closingFrom?_blockEnd_one rfl]

/-- After a tree the same blocks are open as before. -/
theorem openHeaders_add_size {s : Script} (t : BlockTree) {i : Nat} {rest : List Statement}
    {opens : List Nat} (h : s.statements.drop i = t.statements ++ rest)
    (hopens : s.openHeaders i = some opens) : s.openHeaders (i + t.size) = some opens := by
  induction t generalizing i opens rest with
  | nil => exact hopens
  | plain target e span next ih =>
    have hs := getElem?_of_drop h
    have hsucc := Script.openHeaders_succ hs
    have hplain : (StatementKind.plain target e).nest i opens = some opens := by
      cases target <;> rfl
    rw [hopens, Option.bind_some, hplain] at hsucc
    have hnext := ih (drop_succ h) hsucc
    rwa [size_plain, Nat.add_comm next.size, ← Nat.add_assoc]
  | block kind e span body brace next ihbody ihnext =>
    obtain ⟨hheader, hbody, hbrace, hnext⟩ := drop_block h
    have hinside := Script.openHeaders_succ (getElem?_of_drop hheader)
    rw [hopens, Option.bind_some] at hinside
    have hend := Script.openHeaders_succ (getElem?_of_drop hbrace)
    rw [ihbody hbody hinside, Option.bind_some] at hend
    have hafter := ihnext hnext hend
    rw [size_block]
    have harith : i + (body.size + next.size + 2) = i + 1 + body.size + 1 + next.size := by omega
    rwa [harith]

end BlockTree

/-! ### Reading a script -/

/-- The statements are trees with a closing brace between each two of them, with the given number of
braces in all. -/
def Reads : Nat → List Statement → Prop
  | 0, l => ∃ t : BlockTree, l = t.statements
  | depth + 1, l => ∃ (t : BlockTree) (brace : Span) (l' : List Statement),
    l = t.statements ++ ⟨.blockEnd, brace⟩ :: l' ∧ Reads depth l'

namespace Reads

theorem plain {depth : Nat} {l : List Statement} (target : Option String) (e : Expr) (span : Span)
    (h : Reads depth l) : Reads depth (⟨.plain target e, span⟩ :: l) := by
  cases depth with
  | zero =>
    obtain ⟨t, rfl⟩ := h
    exact ⟨.plain target e span t, rfl⟩
  | succ depth =>
    obtain ⟨t, brace, l', rfl, h⟩ := h
    exact ⟨.plain target e span t, brace, l', rfl, h⟩

theorem header {depth : Nat} {l : List Statement} (kind : BlockKind) (e : Expr) (span : Span)
    (h : Reads (depth + 1) l) : Reads depth (⟨.header kind e, span⟩ :: l) := by
  obtain ⟨body, brace, l', rfl, h⟩ := h
  cases depth with
  | zero =>
    obtain ⟨next, rfl⟩ := h
    exact ⟨.block kind e span body brace next, rfl⟩
  | succ depth =>
    obtain ⟨next, brace', l'', rfl, h⟩ := h
    refine ⟨.block kind e span body brace next, brace', l'', ?_, h⟩
    rw [BlockTree.statements, List.cons_append, List.append_assoc, List.cons_append]

end Reads

/-- What follows closes the open blocks, with whole trees in between. -/
theorem reads_of_openHeaders {s : Script} {rest : List Statement} {i : Nat} {opens : List Nat}
    (hrest : s.statements.drop i = rest) (hopens : s.openHeaders i = some opens)
    (hend : s.openHeaders (i + rest.length) = some []) : Reads opens.length rest := by
  induction rest generalizing i opens with
  | nil =>
    obtain rfl : opens = [] := Option.some.inj (hopens.symm.trans hend)
    exact ⟨.nil, rfl⟩
  | cons statement rest ih =>
    have hsucc := Script.openHeaders_succ (getElem?_of_drop hrest)
    rw [hopens, Option.bind_some] at hsucc
    have hend' : s.openHeaders (i + 1 + rest.length) = some [] := by
      rw [← hend, List.length_cons, Nat.add_right_comm, Nat.add_assoc]
    have read {opens} (h : s.openHeaders (i + 1) = some opens) : Reads opens.length rest :=
      ih (drop_succ hrest) h hend'
    obtain ⟨kind, span⟩ := statement
    cases kind with
    | assignment name e => exact (read hsucc).plain (some name) e span
    | expression e => exact (read hsucc).plain none e span
    | header kind e => exact (read hsucc).header kind e span
    | blockEnd =>
      cases opens with
      | nil =>
        rw [Script.openHeaders_add_eq_none hsucc] at hend'
        cases hend'
      | cons j opens => exact ⟨.nil, span, rest, rfl, read hsucc⟩

/-- **A script is balanced exactly if it is a tree of blocks.** -/
theorem Script.balanced_iff {s : Script} : s.Balanced ↔ ∃ t : BlockTree, t.script = s := by
  constructor
  · intro balanced
    have balanced : s.openHeaders (0 + s.statements.length) = some [] := by
      rw [Nat.zero_add]
      exact balanced
    obtain ⟨t, ht⟩ := reads_of_openHeaders rfl rfl balanced
    exact ⟨t, congrArg Script.mk ht.symm⟩
  · rintro ⟨t, rfl⟩
    have h : t.script.openHeaders (0 + t.size) = some [] :=
      t.openHeaders_add_size (List.append_nil _).symm rfl
    rwa [Nat.zero_add] at h

end StepScript
