import Mathlib.Order.Interval.Set.Basic
import StepScript.Proofs.Matching

/-!
# The extents of blocks

A block extends from its header to the brace that closes it.  The search for this brace keeps no
record of headers: it counts them and takes off the braces, until nothing is left.  What it finds is
the brace of the recursive notion all the same, with whole blocks between it and the header, and it
finds nothing only if the braces never make up for the headers.  This is so in every script, also
where headers are left open elsewhere or braces close nothing.  Two blocks of a script never overlap:
one stands in the other, or behind it.

## Main definitions

* `Script.part` — the statements from one index up to another.
* `Script.headers`, `Script.braces` — how many there are.

## Main results

* `Script.closing?_eq_some_iff_closes` — the search finds what closes the header, and nothing else.
* `Script.closes_iff` — a brace closes a header exactly if what stands between them is balanced.
* `Script.closing?_eq_none_iff` — the search fails exactly if headers prevail from the header on.
* `Script.Closes.lt_or_lt` — blocks do not overlap.
* `Script.closing_search_is_bracket_matching` — **the search for a closing brace is bracket
  matching**.
-/

namespace StepScript

/-- Whether the statement opens a block. -/
def Statement.isHeader (s : Statement) : Bool :=
  match s.kind with
  | .header _ _ => true
  | _ => false

/-- Whether the statement closes a block. -/
def Statement.isBrace (s : Statement) : Bool :=
  match s.kind with
  | .blockEnd => true
  | _ => false

namespace Script

variable {script : Script} {h h' i j stop stop' : Nat} {kind : BlockKind}

/-! ### Parts of a script -/

/-- The statements from the index `i` on, up to the one before the index `j`. -/
def part (script : Script) (i j : Nat) : Script :=
  ⟨script.statements.extract i j⟩

theorem getElem?_part {n : Nat} (hn : n < j - i) :
    (script.part i j).statements[n]? = script.statements[i + n]? := by
  rw [part, List.extract_eq_take_drop, List.getElem?_take_of_lt hn, List.getElem?_drop]

theorem size_part : (script.part i j).size = min (j - i) (script.size - i) := by
  rw [size, part, List.extract_eq_take_drop, List.length_take, List.length_drop, size]

theorem part_part {m n : Nat} (hn : n ≤ j - i) :
    (script.part i j).part m n = script.part (i + m) (i + n) := by
  simp only [part, List.extract_eq_take_drop, List.drop_take, List.drop_drop, List.take_take]
  congr 2
  omega

/-- What the statements from an index on begin with is a part. -/
theorem part_of_drop {l rest : List Statement} (hdrop : script.statements.drop i = l ++ rest) :
    script.part i (i + l.length) = ⟨l⟩ := by
  rw [part, List.extract_eq_take_drop, hdrop, Nat.add_sub_cancel_left, List.take_left]

theorem drop_eq_part_append (hle : i ≤ j) :
    script.statements.drop i = (script.part i j).statements ++ script.statements.drop j := by
  have hdrop : script.statements.drop j = (script.statements.drop i).drop (j - i) := by
    rw [List.drop_drop, Nat.add_sub_cancel' hle]
  rw [hdrop, part, List.extract_eq_take_drop, List.take_append_drop]

theorem headerAt_part {n : Nat} (hn : n < j - i) :
    (script.part i j).HeaderAt n kind ↔ script.HeaderAt (i + n) kind := by
  rw [HeaderAt, HeaderAt, getElem?_part hn]

theorem braceAt_part {n : Nat} (hn : n < j - i) :
    (script.part i j).BraceAt n ↔ script.BraceAt (i + n) := by
  rw [BraceAt, BraceAt, getElem?_part hn]

/-! ### What the search finds -/

/-- If the search comes to an end, the statements before the brace close all open blocks but one. -/
theorem exists_reads_of_closingFrom? {l : List Statement} {depth : Nat}
    (hstop : closingFrom? (depth + 1) i l = some stop) :
    ∃ (inner : List Statement) (brace : Span) (rest : List Statement),
      l = inner ++ ⟨.blockEnd, brace⟩ :: rest ∧ stop = i + inner.length ∧ Reads depth inner := by
  induction l generalizing depth i with
  | nil => cases hstop
  | cons s l ih =>
    -- a statement that the search passes by belongs to what is read before the brace
    have pass {d : Nat} (hstop : closingFrom? (d + 1) (i + 1) l = some stop)
        (reads : ∀ {inner}, Reads d inner → Reads depth (s :: inner)) :
        ∃ (inner : List Statement) (brace : Span) (rest : List Statement),
          s :: l = inner ++ ⟨.blockEnd, brace⟩ :: rest ∧ stop = i + inner.length ∧
            Reads depth inner := by
      obtain ⟨inner, brace, rest, rfl, rfl, hinner⟩ := ih hstop
      refine ⟨s :: inner, brace, rest, rfl, ?_, reads hinner⟩
      rw [List.length_cons, Nat.add_right_comm, Nat.add_assoc]
    obtain ⟨kind, span⟩ := s
    cases kind with
    | assignment name e =>
      rw [closingFrom?_assignment rfl] at hstop
      exact pass hstop fun hinner => hinner.plain (some name) e span
    | expression e =>
      rw [closingFrom?_expression rfl] at hstop
      exact pass hstop fun hinner => hinner.plain none e span
    | header kind e =>
      rw [closingFrom?_header rfl] at hstop
      exact pass hstop fun hinner => hinner.header kind e span
    | blockEnd =>
      cases depth with
      | zero =>
        rw [closingFrom?_blockEnd_one rfl] at hstop
        cases hstop
        exact ⟨[], span, l, rfl, rfl, .nil, rfl⟩
      | succ depth =>
        rw [closingFrom?_blockEnd rfl] at hstop
        exact pass hstop fun hinner => ⟨.nil, span, _, rfl, hinner⟩

theorem HeaderAt.closing?_eq (hheader : script.HeaderAt h kind) :
    script.closing? h = closingFrom? 1 (h + 1) (script.statements.drop (h + 1)) := by
  obtain ⟨e, span, hs⟩ := hheader
  rw [closing?, drop_of_getElem? hs, closingFrom?_header rfl]

/-- **The search for a closing brace finds what closes the header**, and nothing else. -/
theorem closing?_eq_some_iff_closes (hheader : script.HeaderAt h kind) :
    script.closing? h = some stop ↔ script.Closes h stop := by
  refine ⟨fun hstop => ?_, Closes.closing?⟩
  rw [hheader.closing?_eq] at hstop
  obtain ⟨_, brace, rest, hdrop, rfl, body, rfl⟩ := exists_reads_of_closingFrom? hstop
  have hbrace := drop_add_length hdrop
  refine ⟨kind, body, hheader, ⟨brace, getElem?_of_drop hbrace⟩, rfl, ?_⟩
  rw [hdrop, hbrace]

/-- **A brace closes a header exactly if what stands between them is balanced.** -/
theorem closes_iff (hheader : script.HeaderAt h kind) :
    script.Closes h stop ↔
      h < stop ∧ script.BraceAt stop ∧ (script.part (h + 1) stop).Balanced := by
  constructor
  · intro closes
    have hlt := closes.lt
    obtain ⟨-, body, -, hbrace, rfl, hbody⟩ := closes
    exact ⟨hlt, hbrace, balanced_iff.mpr ⟨body, (part_of_drop hbody).symm⟩⟩
  · rintro ⟨hlt, hbrace, balanced⟩
    obtain ⟨body, hbody⟩ := balanced_iff.mp balanced
    have hsize : body.size = stop - (h + 1) := by
      have hlength : body.size = (script.part (h + 1) stop).size := congrArg size hbody
      have hstop := hbrace.lt_size
      rw [hlength, size_part]
      omega
    refine ⟨kind, body, hheader, hbrace, by omega, ?_⟩
    rw [drop_eq_part_append hlt, ← hbody]
    rfl

/-! ### What the search does not find -/

/-- The number of headers. -/
def headers (script : Script) : Nat :=
  script.statements.countP Statement.isHeader

/-- The number of closing braces. -/
def braces (script : Script) : Nat :=
  script.statements.countP Statement.isBrace

theorem headers_cons (s : Statement) (l : List Statement) :
    (mk (s :: l)).headers = (mk l).headers + if s.isHeader then 1 else 0 :=
  List.countP_cons

theorem braces_cons (s : Statement) (l : List Statement) :
    (mk (s :: l)).braces = (mk l).braces + if s.isBrace then 1 else 0 :=
  List.countP_cons

theorem headers_append (l l' : List Statement) :
    (mk (l ++ l')).headers = (mk l).headers + (mk l').headers :=
  List.countP_append

theorem braces_append (l l' : List Statement) :
    (mk (l ++ l')).braces = (mk l).braces + (mk l').braces :=
  List.countP_append

/-- A tree has as many braces as headers. -/
theorem braces_eq_headers (t : BlockTree) : t.script.braces = t.script.headers := by
  induction t with
  | nil => rfl
  | plain target e span next ih =>
    rw [BlockTree.script, BlockTree.statements, braces_cons, headers_cons]
    cases target <;> exact ih
  | block kind e span body brace next ihbody ihnext =>
    rw [BlockTree.script] at ihbody ihnext ⊢
    rw [BlockTree.statements, braces_cons, headers_cons, braces_append, headers_append, braces_cons,
      headers_cons, ihbody, ihnext]
    rfl

/-- As long as the search goes on, the braces do not make up for the open blocks and the headers. -/
theorem braces_lt_of_closingFrom? {l : List Statement} {depth : Nat}
    (hnone : closingFrom? (depth + 1) i l = none) (n : Nat) :
    (mk (l.take n)).braces < (mk (l.take n)).headers + (depth + 1) := by
  -- each statement moves the depth as it moves the difference of the two counts
  induction l generalizing depth i n with
  | nil =>
    rw [List.take_nil]
    exact Nat.lt_add_left _ (Nat.succ_pos depth)
  | cons s l ih =>
    cases n with
    | zero => exact Nat.lt_add_left _ (Nat.succ_pos depth)
    | succ n =>
      rw [List.take_succ_cons, braces_cons, headers_cons]
      obtain ⟨kind, span⟩ := s
      cases kind with
      | assignment name e =>
        rw [closingFrom?_assignment rfl] at hnone
        exact ih hnone n
      | expression e =>
        rw [closingFrom?_expression rfl] at hnone
        exact ih hnone n
      | header kind e =>
        rw [closingFrom?_header rfl] at hnone
        have hlt := ih hnone n
        change (mk (l.take n)).braces < (mk (l.take n)).headers + 1 + (depth + 1)
        omega
      | blockEnd =>
        cases depth with
        | zero =>
          rw [closingFrom?_blockEnd_one rfl] at hnone
          cases hnone
        | succ depth =>
          rw [closingFrom?_blockEnd rfl] at hnone
          exact Nat.succ_lt_succ (ih hnone n)

/-- From a header to what closes it stands a tree. -/
theorem Closes.exists_part_eq (closes : script.Closes h stop) :
    ∃ t : BlockTree, script.part h (stop + 1) = t.script := by
  obtain ⟨kind, e, span, body, brace, rfl, hdrop⟩ := closes.exists_block
  refine ⟨.block kind e span body brace .nil, ?_⟩
  have hend : h + 1 + body.size + 1 = h + (BlockTree.block kind e span body brace .nil).size := by
    rw [BlockTree.size_block, BlockTree.size_nil]
    omega
  rw [hend]
  exact part_of_drop hdrop

/-- **The search fails exactly if headers prevail in all that begins with the header.** -/
theorem closing?_eq_none_iff (hheader : script.HeaderAt h kind) :
    script.closing? h = none ↔ ∀ stop, h ≤ stop → stop < script.size →
      (script.part h (stop + 1)).braces < (script.part h (stop + 1)).headers := by
  constructor
  · intro hnone stop hle _
    rw [hheader.closing?_eq] at hnone
    obtain ⟨e, span, hs⟩ := hheader
    obtain ⟨n, rfl⟩ := Nat.exists_eq_add_of_le hle
    rw [part, List.extract_eq_take_drop, drop_of_getElem? hs, Nat.add_assoc,
      Nat.add_sub_cancel_left, List.take_succ_cons, braces_cons, headers_cons]
    exact braces_lt_of_closingFrom? hnone n
  · intro prevail
    rw [Option.eq_none_iff_forall_ne_some]
    intro stop hstop
    -- up to the brace that is found there stands a tree, in which nothing prevails
    have closes := (closing?_eq_some_iff_closes hheader).mp hstop
    have hlt := prevail stop (Nat.le_of_lt closes.lt) closes.braceAt.lt_size
    obtain ⟨t, ht⟩ := closes.exists_part_eq
    rw [ht, braces_eq_headers] at hlt
    exact Nat.lt_irrefl _ hlt

/-! ### Blocks do not overlap -/

/-- What closes a header in a part closes it in the script. -/
theorem Closes.of_part {m n : Nat} (closes : (script.part i j).Closes m n) :
    script.Closes (i + m) (i + n) := by
  have hn : n < j - i := by
    have hlt := closes.braceAt.lt_size
    rw [size_part] at hlt
    omega
  have hm := Nat.lt_trans closes.lt hn
  obtain ⟨kind, hheader⟩ := closes.headerAt
  obtain ⟨hlt, hbrace, balanced⟩ := (closes_iff hheader).mp closes
  rw [part_part (Nat.le_of_lt hn)] at balanced
  exact (closes_iff ((headerAt_part hm).mp hheader)).mpr
    ⟨Nat.add_lt_add_left hlt i, (braceAt_part hn).mp hbrace, balanced⟩

/-- A header in a block is closed in the block. -/
theorem Closes.exists_lt (closes : script.Closes h stop) (hheader : script.HeaderAt h' kind)
    (hlt : h < h') (hlt' : h' < stop) : ∃ stop', script.Closes h' stop' ∧ stop' < stop := by
  obtain ⟨kind', houter⟩ := closes.headerAt
  obtain ⟨-, -, balanced⟩ := (closes_iff houter).mp closes
  -- seen from the block, which is balanced, the header is one of its own
  obtain ⟨n, rfl⟩ := Nat.exists_eq_add_of_le hlt
  obtain ⟨m, inner⟩ := balanced.closed ((headerAt_part (by omega)).mpr hheader)
  refine ⟨h + 1 + m, inner.of_part, ?_⟩
  have hm := inner.braceAt.lt_size
  rw [size_part] at hm
  omega

/-- **Blocks do not overlap**: of two, the later stands behind the other or ends before it. -/
theorem Closes.lt_or_lt (closes : script.Closes h stop) (closes' : script.Closes h' stop')
    (hlt : h < h') : stop < h' ∨ stop' < stop := by
  obtain ⟨kind, hheader⟩ := closes'.headerAt
  rcases Nat.lt_trichotomy stop h' with hbehind | rfl | hin
  · exact .inl hbehind
  · exact absurd closes.braceAt hheader.not_braceAt
  · obtain ⟨stop'', closes'', hend⟩ := closes.exists_lt hheader hlt hin
    rw [closes'.stop_eq closes'']
    exact .inr hend

/-- A brace closes one header only. -/
theorem Closes.header_eq (closes : script.Closes h stop) (closes' : script.Closes h' stop) :
    h = h' := by
  wlog hle : h ≤ h' generalizing h h'
  · exact (this closes' closes (Nat.le_of_not_le hle)).symm
  rcases Nat.eq_or_lt_of_le hle with rfl | hlt
  · rfl
  · -- two headers would need two braces: the later block stands behind the earlier or ends before it
    rcases closes.lt_or_lt closes' hlt with hbehind | hend
    · exact absurd closes'.lt (Nat.lt_asymm hbehind)
    · exact absurd hend (Nat.lt_irrefl stop)

theorem Closes.subset_or_inter_eq_empty (closes : script.Closes h stop)
    (closes' : script.Closes h' stop') :
    Set.Icc h stop ⊆ Set.Icc h' stop' ∨ Set.Icc h' stop' ⊆ Set.Icc h stop ∨
      Set.Icc h stop ∩ Set.Icc h' stop' = ∅ := by
  wlog hle : h ≤ h' generalizing h h' stop stop'
  · rcases this closes' closes (Nat.le_of_not_le hle) with hin | hin | hapart
    · exact .inr (.inl hin)
    · exact .inl hin
    · exact .inr (.inr ((Set.inter_comm _ _).trans hapart))
  rcases Nat.eq_or_lt_of_le hle with rfl | hlt
  · rw [closes.stop_eq closes']
    exact .inl subset_rfl
  · rcases closes.lt_or_lt closes' hlt with hbehind | hend
    · refine .inr (.inr (Set.eq_empty_of_forall_notMem ?_))
      rintro n ⟨hn, hn'⟩
      exact Nat.not_lt.mpr (Nat.le_trans hn'.1 hn.2) hbehind
    · exact .inr (.inl (Set.Icc_subset_Icc hle (Nat.le_of_lt hend)))

/-- **The search for a closing brace is bracket matching.**  From a header it finds a brace exactly
if the statements between are balanced, and none exactly if headers prevail in all that begins with
the header.  No brace is found from two headers, and the stretches from headers to their braces are
nested or apart. -/
theorem closing_search_is_bracket_matching (script : Script) :
    (∀ h kind, script.HeaderAt h kind →
      (∀ stop, script.closing? h = some stop ↔
        h < stop ∧ script.BraceAt stop ∧ (script.part (h + 1) stop).Balanced) ∧
      (script.closing? h = none ↔ ∀ stop, h ≤ stop → stop < script.size →
        (script.part h (stop + 1)).braces < (script.part h (stop + 1)).headers)) ∧
    ∀ h h' kind kind' stop stop', script.HeaderAt h kind → script.HeaderAt h' kind' →
      script.closing? h = some stop → script.closing? h' = some stop' →
        (stop = stop' → h = h') ∧
        (Set.Icc h stop ⊆ Set.Icc h' stop' ∨ Set.Icc h' stop' ⊆ Set.Icc h stop ∨
          Set.Icc h stop ∩ Set.Icc h' stop' = ∅) := by
  constructor
  · intro h kind hheader
    exact ⟨fun stop => (closing?_eq_some_iff_closes hheader).trans (closes_iff hheader),
      closing?_eq_none_iff hheader⟩
  · intro h h' kind kind' stop stop' hheader hheader' hstop hstop'
    have closes := (closing?_eq_some_iff_closes hheader).mp hstop
    have closes' := (closing?_eq_some_iff_closes hheader').mp hstop'
    refine ⟨?_, closes.subset_or_inter_eq_empty closes'⟩
    rintro rfl
    exact closes.header_eq closes'

/-- A script with a brace that closes nothing, a block in another, and a header that nothing
closes. -/
def ragged : Script :=
  ⟨[⟨.blockEnd, default⟩, ⟨.header .repetition (.literal .null), default⟩,
    ⟨.header .condition (.literal .null), default⟩, ⟨.blockEnd, default⟩,
    ⟨.expression (.literal .null), default⟩, ⟨.blockEnd, default⟩,
    ⟨.header .condition (.literal .null), default⟩]⟩

/-- Behind a brace that closes nothing, blocks are matched and nested, and the last header is left
open. -/
theorem closing_search_is_bracket_matching_ragged :
    (ragged.HeaderAt 1 .repetition ∧ ragged.closing? 1 = some 5 ∧
      (ragged.part 2 5).Balanced) ∧
    (ragged.HeaderAt 6 .condition ∧ ragged.closing? 6 = none ∧
      ∀ stop, 6 ≤ stop → stop < ragged.size →
        (ragged.part 6 (stop + 1)).braces < (ragged.part 6 (stop + 1)).headers) ∧
    (ragged.HeaderAt 2 .condition ∧ ragged.closing? 2 = some 3 ∧
      (Set.Icc 1 5 ⊆ Set.Icc 2 3 ∨ Set.Icc 2 3 ⊆ Set.Icc 1 5 ∨
        Set.Icc 1 5 ∩ Set.Icc 2 3 = ∅)) := by
  have outer : ragged.HeaderAt 1 .repetition := ⟨_, _, rfl⟩
  have inner : ragged.HeaderAt 2 .condition := ⟨_, _, rfl⟩
  have last : ragged.HeaderAt 6 .condition := ⟨_, _, rfl⟩
  obtain ⟨search, pairs⟩ := closing_search_is_bracket_matching ragged
  obtain ⟨-, -, balanced⟩ := ((search 1 _ outer).1 5).mp rfl
  exact ⟨⟨outer, rfl, balanced⟩, ⟨last, rfl, (search 6 _ last).2.mp rfl⟩,
    inner, rfl, (pairs 1 2 _ _ 5 3 outer inner rfl rfl).2⟩

end Script

end StepScript
