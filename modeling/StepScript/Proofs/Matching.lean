import StepScript.Proofs.BlockTree

/-!
# Which brace closes which header

Whether a brace closes a header can be read off the text: whole blocks stand between them.  This
makes sense for every script, also for one with braces too many or too few, and no path through the
script matters.  Where the scan of the statements before an index does not break down, the headers
that it finds open are those which nothing has closed yet.

## Main definitions

* `Script.HeaderAt`, `Script.BraceAt` — what stands at an index.
* `Script.Closes` — a brace closes the block of a header.
* `Script.Encloses` — a statement stands in the block of a header.

## Main results

* `Script.Closes.closing?` — the search for a closing brace finds it.
* `Script.closes_of_openHeaders` — a brace closes the innermost of the open blocks.
* `Script.mem_openHeaders_iff` — **the open headers are those that nothing has closed**.
* `Script.Balanced.closes`, `Script.Balanced.closed` — what is missing in no balanced script.
-/

namespace StepScript

/-! ### One tree behind another -/

namespace BlockTree

/-- One tree behind another. -/
def append : BlockTree → BlockTree → BlockTree
  | nil, t => t
  | plain target e span next, t => plain target e span (next.append t)
  | block kind e span body brace next, t => block kind e span body brace (next.append t)

theorem statements_append (t u : BlockTree) :
    (t.append u).statements = t.statements ++ u.statements := by
  induction t with
  | nil => rfl
  | plain target e span next ih => rw [append, statements, statements, ih, List.cons_append]
  | block kind e span body brace next _ ih =>
    rw [append, statements, statements, ih, List.cons_append, List.append_assoc, List.cons_append]

theorem size_append (t u : BlockTree) : (t.append u).size = t.size + u.size := by
  rw [size, statements_append, List.length_append, size, size]

end BlockTree

namespace Script

variable {script : Script} {h i n stop : Nat} {opens : List Nat} {kind : BlockKind}

/-! ### Headers and braces -/

/-- A header of the given kind has this index. -/
def HeaderAt (script : Script) (i : Nat) (kind : BlockKind) : Prop :=
  ∃ e span, script.statements[i]? = some ⟨.header kind e, span⟩

/-- A closing brace has this index. -/
def BraceAt (script : Script) (i : Nat) : Prop :=
  ∃ span, script.statements[i]? = some ⟨.blockEnd, span⟩

/-- The brace at `stop` closes the block of the header at `h`: whole blocks stand between them. -/
def Closes (script : Script) (h stop : Nat) : Prop :=
  ∃ (kind : BlockKind) (body : BlockTree), script.HeaderAt h kind ∧ script.BraceAt stop ∧
    stop = h + 1 + body.size ∧
    script.statements.drop (h + 1) = body.statements ++ script.statements.drop stop

/-- The statement at `i` stands in the block of a header of the given kind, which has the index `h`:
the header stands before it, and no brace up to there closes its block. -/
def Encloses (script : Script) (h : Nat) (kind : BlockKind) (i : Nat) : Prop :=
  script.HeaderAt h kind ∧ h < i ∧ ∀ stop, script.Closes h stop → i < stop

theorem HeaderAt.not_braceAt (hs : script.HeaderAt i kind) : ¬script.BraceAt i := by
  rintro ⟨span, hbrace⟩
  obtain ⟨e, span, hs⟩ := hs
  cases hs.symm.trans hbrace

theorem drop_of_getElem? {l : List Statement} {s : Statement} (hs : l[i]? = some s) :
    l.drop i = s :: l.drop (i + 1) := by
  obtain ⟨hlt, hget⟩ := List.getElem?_eq_some_iff.mp hs
  rw [List.drop_eq_getElem_cons hlt, hget]

theorem Closes.lt (closes : script.Closes h stop) : h < stop := by
  obtain ⟨-, body, -, -, rfl, -⟩ := closes
  omega

theorem Closes.headerAt (closes : script.Closes h stop) : ∃ kind, script.HeaderAt h kind := by
  obtain ⟨kind, -, hheader, -⟩ := closes
  exact ⟨kind, hheader⟩

theorem Closes.braceAt (closes : script.Closes h stop) : script.BraceAt stop := by
  obtain ⟨-, -, -, hbrace, -⟩ := closes
  exact hbrace

/-- From a header to what closes it stands one block. -/
theorem Closes.exists_block (closes : script.Closes h stop) :
    ∃ (kind : BlockKind) (e : Expr) (span : Span) (body : BlockTree) (brace : Span),
      stop = h + 1 + body.size ∧
        script.statements.drop h = (BlockTree.block kind e span body brace .nil).statements ++
          script.statements.drop (stop + 1) := by
  obtain ⟨kind, body, ⟨e, span, hheader⟩, ⟨brace, hbrace⟩, hstop, hbody⟩ := closes
  refine ⟨kind, e, span, body, brace, hstop, ?_⟩
  rw [drop_of_getElem? hheader, hbody, drop_of_getElem? hbrace, BlockTree.statements,
    BlockTree.statements]
  simp

/-- **The search for a closing brace finds it.** -/
theorem Closes.closing? (closes : script.Closes h stop) : script.closing? h = some stop := by
  obtain ⟨kind, e, span, body, brace, rfl, hdrop⟩ := closes.exists_block
  exact BlockTree.closing?_of_drop hdrop

/-- No header is closed twice, since the search for the brace finds only one. -/
theorem Closes.stop_eq {stop' : Nat} (closes : script.Closes h stop)
    (closes' : script.Closes h stop') : stop = stop' :=
  Option.some.inj (closes.closing?.symm.trans closes'.closing?)

/-! ### Open headers -/

/-- What the statement at `n` makes of the open headers. -/
inductive Nests (script : Script) (n : Nat) : List Nat → List Nat → Prop
  /-- There is no such statement. -/
  | none {opens : List Nat} (hs : script.statements[n]? = none) : Nests script n opens opens
  /-- It has to do with no block. -/
  | plain {opens : List Nat} {target : Option String} {e : Expr} {span : Span}
    (hs : script.statements[n]? = some ⟨.plain target e, span⟩) : Nests script n opens opens
  /-- It opens a block. -/
  | header {opens : List Nat} {kind : BlockKind} (hs : script.HeaderAt n kind) :
    Nests script n opens (n :: opens)
  /-- It closes the innermost block. -/
  | brace {opens : List Nat} {j : Nat} (hs : script.BraceAt n) : Nests script n (j :: opens) opens

theorem nests_of_openHeaders (hopens : script.openHeaders (n + 1) = some opens) :
    ∃ before, script.openHeaders n = some before ∧ script.Nests n before opens := by
  rw [openHeaders] at hopens
  obtain ⟨before, hbefore, hnest⟩ := Option.bind_eq_some_iff.mp hopens
  refine ⟨before, hbefore, ?_⟩
  cases hs : script.statements[n]? with
  | none =>
    rw [hs] at hnest
    cases hnest
    exact .none hs
  | some s =>
    obtain ⟨kind, span⟩ := s
    rw [hs] at hnest
    cases kind with
    | assignment name e =>
      cases hnest
      exact @Nests.plain _ _ _ (some name) e span hs
    | expression e =>
      cases hnest
      exact @Nests.plain _ _ _ none e span hs
    | header kind e =>
      cases hnest
      exact .header ⟨e, span, hs⟩
    | blockEnd =>
      cases before with
      | nil => cases hnest
      | cons j before =>
        cases hnest
        exact .brace ⟨span, hs⟩

theorem Nests.eq_cons_of_headerAt {before : List Nat} (nests : script.Nests n before opens)
    (hheader : script.HeaderAt n kind) : opens = n :: before := by
  obtain ⟨e, span, hheader⟩ := hheader
  cases nests with
  | none hs => cases hs.symm.trans hheader
  | @plain _ target e' span' hs =>
    have same := Option.some.inj (hs.symm.trans hheader)
    cases target <;> cases same
  | header => rfl
  | brace hs =>
    obtain ⟨span', hs⟩ := hs
    cases hs.symm.trans hheader

theorem Nests.exists_cons_of_braceAt {before : List Nat} (nests : script.Nests n before opens)
    (hbrace : script.BraceAt n) : ∃ j, before = j :: opens := by
  obtain ⟨span, hbrace⟩ := hbrace
  cases nests with
  | none hs => cases hs.symm.trans hbrace
  | @plain _ target e' span' hs =>
    have same := Option.some.inj (hs.symm.trans hbrace)
    cases target <;> cases same
  | header hs =>
    obtain ⟨e, span', hs⟩ := hs
    cases hs.symm.trans hbrace
  | @brace _ j => exact ⟨j, rfl⟩

/-- An open header is a header, and stands before. -/
theorem headerAt_of_mem (hopens : script.openHeaders n = some opens) (hi : i ∈ opens) :
    i < n ∧ ∃ kind, script.HeaderAt i kind := by
  induction n generalizing opens with
  | zero =>
    cases hopens
    cases hi
  | succ n ih =>
    obtain ⟨before, hbefore, nests⟩ := nests_of_openHeaders hopens
    have older (hi : i ∈ before) : i < n + 1 ∧ ∃ kind, script.HeaderAt i kind :=
      ⟨Nat.lt_succ_of_lt (ih hbefore hi).1, (ih hbefore hi).2⟩
    cases nests with
    | none | plain => exact older hi
    | header hs =>
      rcases List.mem_cons.mp hi with rfl | hi
      · exact ⟨Nat.lt_succ_self i, _, hs⟩
      · exact older hi
    | brace => exact older (List.mem_cons_of_mem _ hi)

/-- What is found open was open all along. -/
theorem mem_of_openHeaders_add {before : List Nat} (hbefore : script.openHeaders n = some before)
    {m : Nat} (hopens : script.openHeaders (n + m) = some opens) (hi : i ∈ opens) (hlt : i < n) :
    i ∈ before := by
  induction m generalizing opens with
  | zero =>
    cases hbefore.symm.trans hopens
    exact hi
  | succ m ih =>
    obtain ⟨mid, hmid, nests⟩ := nests_of_openHeaders hopens
    cases nests with
    | none | plain => exact ih hmid hi
    | header =>
      rcases List.mem_cons.mp hi with rfl | hi
      · exact absurd hlt (Nat.not_lt.mpr (Nat.le_add_right n m))
      · exact ih hmid hi
    | brace => exact ih hmid (List.mem_cons_of_mem _ hi)

theorem exists_openHeaders_of_le (hopens : script.openHeaders n = some opens) (hle : i ≤ n) :
    ∃ before, script.openHeaders i = some before := by
  rw [← Option.isSome_iff_exists, ← Option.ne_none_iff_isSome]
  intro hnone
  obtain ⟨m, rfl⟩ := Nat.exists_eq_add_of_le hle
  rw [openHeaders_add_eq_none hnone] at hopens
  cases hopens

/-- Whole blocks stand behind the innermost of the open headers. -/
theorem exists_body_of_openHeaders (hn : n ≤ script.size)
    (hopens : script.openHeaders n = some (h :: opens)) :
    ∃ body : BlockTree, n = h + 1 + body.size ∧
      script.statements.drop (h + 1) = body.statements ++ script.statements.drop n := by
  induction n using Nat.strongRecOn generalizing h opens with
  | ind n ih =>
    cases n with
    | zero => cases hopens
    | succ n =>
      obtain ⟨before, hbefore, nests⟩ := nests_of_openHeaders hopens
      cases nests with
      | none hs =>
        have := List.getElem?_eq_none_iff.mp hs
        rw [size] at hn
        omega
      | @plain _ target e span hs =>
        obtain ⟨body, hsize, hbody⟩ := ih n (Nat.lt_succ_self n) (by omega) hbefore
        refine ⟨body.append (.plain target e span .nil), ?_, ?_⟩
        · rw [BlockTree.size_append, BlockTree.size_plain, BlockTree.size_nil]
          omega
        · rw [hbody, drop_of_getElem? hs, BlockTree.statements_append]
          simp [BlockTree.statements]
      | header => exact ⟨.nil, rfl, rfl⟩
      | @brace _ j hs =>
        -- the block that is closed here stands behind all that stood behind its own header
        obtain ⟨brace, hs⟩ := hs
        obtain ⟨inner, hsize, hinner⟩ := ih n (Nat.lt_succ_self n) (by omega) hbefore
        obtain ⟨hj, houter⟩ := openHeaders_of_cons hbefore
        obtain ⟨kind, e, span, hheader⟩ := (headerAt_of_mem hbefore List.mem_cons_self).2
        obtain ⟨body, hsize', hbody⟩ := ih j (Nat.lt_succ_of_lt hj) (by omega) houter
        refine ⟨body.append (.block kind e span inner brace .nil), ?_, ?_⟩
        · rw [BlockTree.size_append, BlockTree.size_block, BlockTree.size_nil]
          omega
        · rw [hbody, drop_of_getElem? hheader, hinner, drop_of_getElem? hs,
            BlockTree.statements_append]
          simp [BlockTree.statements]

theorem BraceAt.lt_size (hs : script.BraceAt i) : i < script.size := by
  obtain ⟨span, hs⟩ := hs
  exact (List.getElem?_eq_some_iff.mp hs).1

/-- **A brace closes the innermost of the open blocks.** -/
theorem closes_of_openHeaders (hs : script.BraceAt n)
    (hopens : script.openHeaders n = some (h :: opens)) : script.Closes h n := by
  obtain ⟨-, kind, hheader⟩ := headerAt_of_mem hopens List.mem_cons_self
  obtain ⟨body, hsize, hbody⟩ := exists_body_of_openHeaders (Nat.le_of_lt hs.lt_size) hopens
  exact ⟨kind, body, hheader, hs, hsize, hbody⟩

/-- Behind a block the same headers are open as before it. -/
theorem Closes.openHeaders_succ (closes : script.Closes h stop)
    (hopens : script.openHeaders h = some opens) : script.openHeaders (stop + 1) = some opens := by
  have hstop := closes.closing?
  obtain ⟨kind, body, ⟨e, span, hheader⟩, -, -, -⟩ := closes
  exact openHeaders_of_closing? hheader rfl hopens hstop

/-- **The open headers are those that nothing has closed.** -/
theorem mem_openHeaders_iff (hopens : script.openHeaders n = some opens) :
    i ∈ opens ↔
      i < n ∧ (∃ kind, script.HeaderAt i kind) ∧ ∀ stop, script.Closes i stop → n ≤ stop := by
  constructor
  · intro hi
    obtain ⟨hlt, hheader⟩ := headerAt_of_mem hopens hi
    refine ⟨hlt, hheader, fun stop closes => ?_⟩
    rw [← Nat.not_lt]
    intro hstop
    -- behind the brace only older headers would be open
    obtain ⟨before, hbefore⟩ := exists_openHeaders_of_le hopens (Nat.le_of_lt hlt)
    have hbehind := closes.openHeaders_succ hbefore
    obtain ⟨m, rfl⟩ := Nat.exists_eq_add_of_lt hstop
    rw [Nat.add_right_comm] at hopens
    have hi' := mem_of_openHeaders_add hbehind hopens hi (Nat.lt_succ_of_lt closes.lt)
    exact absurd (headerAt_of_mem hbefore hi').1 (Nat.lt_irrefl i)
  · rintro ⟨hlt, ⟨kind, hheader⟩, unclosed⟩
    induction n generalizing opens with
    | zero => omega
    | succ n ih =>
      obtain ⟨before, hbefore, nests⟩ := nests_of_openHeaders hopens
      rcases Nat.lt_succ_iff_lt_or_eq.mp hlt with hlt | rfl
      · have hi := ih hbefore hlt fun stop closes => Nat.le_of_succ_le (unclosed stop closes)
        cases nests with
        | none | plain => exact hi
        | header => exact List.mem_cons_of_mem _ hi
        | brace hs =>
          rcases List.mem_cons.mp hi with rfl | hi
          · exact absurd (unclosed n (closes_of_openHeaders hs hbefore)) (Nat.not_succ_le_self n)
          · exact hi
      · rw [nests.eq_cons_of_headerAt hheader]
        exact List.mem_cons_self

theorem encloses_iff (hopens : script.openHeaders n = some opens) (hs : ¬script.BraceAt n) :
    script.Encloses h kind n ↔ h ∈ opens ∧ script.HeaderAt h kind := by
  rw [mem_openHeaders_iff hopens]
  constructor
  · rintro ⟨hheader, hlt, unclosed⟩
    exact ⟨⟨hlt, ⟨kind, hheader⟩, fun stop closes => Nat.le_of_lt (unclosed stop closes)⟩, hheader⟩
  · rintro ⟨⟨hlt, -, unclosed⟩, hheader⟩
    refine ⟨hheader, hlt, fun stop closes => Nat.lt_of_le_of_ne (unclosed stop closes) ?_⟩
    rintro rfl
    exact hs closes.braceAt

/-! ### Balanced scripts -/

/-- Every brace of a balanced script closes a header. -/
theorem Balanced.closes (balanced : script.Balanced) (hs : script.BraceAt i) :
    ∃ h, script.Closes h i := by
  obtain ⟨opens, hopens⟩ := exists_openHeaders_of_le balanced hs.lt_size
  obtain ⟨before, hbefore, nests⟩ := nests_of_openHeaders hopens
  obtain ⟨h, rfl⟩ := nests.exists_cons_of_braceAt hs
  exact ⟨h, closes_of_openHeaders hs hbefore⟩

/-- Every header of a balanced script is closed. -/
theorem Balanced.closed (balanced : script.Balanced) (hs : script.HeaderAt i kind) :
    ∃ stop, script.Closes i stop := by
  by_contra unclosed
  have hlt : i < script.size := by
    obtain ⟨e, span, hs⟩ := hs
    exact (List.getElem?_eq_some_iff.mp hs).1
  have hi : i ∈ [] := (mem_openHeaders_iff balanced).mpr
    ⟨hlt, ⟨kind, hs⟩, fun stop closes => absurd ⟨stop, closes⟩ unclosed⟩
  cases hi

end Script

end StepScript
