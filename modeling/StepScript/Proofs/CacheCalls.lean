import Mathlib.Data.List.Dedup
import Mathlib.Data.List.Induction
import StepScript.Script.Cache

/-!
# What a cache holds

A cache is asked for scripts and for expressions, and now and then it is cleared.  Whatever it holds
is what parsing would give, so that the answers of a cache do not depend on what it was asked before.
The number of its texts counts those that were asked for since it was last cleared, and could be
parsed.

Scripts and expressions are kept in the same way, so that all is shown once, of a list of entries and
a way to parse.

## Main definitions

* `Faithful` — entries that hold what parsing gives, one for each text.
* `Cache.Sound` — a cache with faithful entries.
* `CacheCall`, `Cache.after` — what a cache can be asked for, and the cache afterwards.
* `textsRead` — the texts that were parsed since the cache was last cleared.

## Main results

* `Cache.Sound.script_value`, `Cache.Sound.expression_value` — a sound cache gives what parsing gives.
* `Cache.sound_after` — every cache is sound, whatever it was asked for.
* `Cache.size_after` — how many texts a cache holds.
-/

namespace StepScript

/-! ### Entries -/

section

variable {α : Type} {parse : String → Except ParseError α} {entries : List (String × Shared α)}
  {fresh : Nat} {source : String}

/-- Finds a text among the entries, or parses it and enters it under the next number. -/
def fetch (parse : String → Except ParseError α) (entries : List (String × Shared α))
    (fresh : Nat) (source : String) :
    Except ParseError (Shared α) × List (String × Shared α) × Nat :=
  match entries.lookup source with
  | some found => (.ok found, entries, fresh)
  | none =>
    match parse source with
    | .error e => (.error e, entries, fresh)
    | .ok v => (.ok ⟨fresh, v⟩, (source, ⟨fresh, v⟩) :: entries, fresh + 1)

/-- The entries hold what parsing gives, at most once for each text. -/
structure Faithful (parse : String → Except ParseError α) (entries : List (String × Shared α)) :
    Prop where
  /-- No text has two entries. -/
  nodup : (entries.map Prod.fst).Nodup
  /-- An entry is what its text is parsed to. -/
  value : ∀ entry ∈ entries, parse entry.1 = .ok entry.2.value

theorem Faithful.nil : Faithful parse [] :=
  ⟨.nil, by simp⟩

/-- What can be said of a text, once it has been found or parsed. -/
theorem fetch_cases (h : Faithful parse entries) :
    (∃ e, parse source = .error e ∧ fetch parse entries fresh source = (.error e, entries, fresh)) ∨
    (∃ found, parse source = .ok found.value ∧ source ∈ entries.map Prod.fst ∧
      fetch parse entries fresh source = (.ok found, entries, fresh)) ∨
    ∃ v, parse source = .ok v ∧ source ∉ entries.map Prod.fst ∧
      fetch parse entries fresh source =
        (.ok ⟨fresh, v⟩, (source, ⟨fresh, v⟩) :: entries, fresh + 1) := by
  cases hlookup : entries.lookup source with
  | some found =>
    obtain ⟨before, after, rfl, -⟩ := List.lookup_eq_some_iff.mp hlookup
    refine .inr (.inl ⟨found, h.value (source, found) (by simp), by simp, ?_⟩)
    rw [fetch, hlookup]
  | none =>
    have hnew : source ∉ entries.map Prod.fst := by
      intro hmem
      obtain ⟨entry, hentry, rfl⟩ := List.mem_map.mp hmem
      simpa using List.lookup_eq_none_iff.mp hlookup entry hentry
    cases hparse : parse source with
    | error e =>
      refine .inl ⟨e, rfl, ?_⟩
      rw [fetch, hlookup]
      simp only [hparse]
    | ok v =>
      refine .inr (.inr ⟨v, rfl, hnew, ?_⟩)
      rw [fetch, hlookup]
      simp only [hparse]

theorem fetch_of_error (h : Faithful parse entries) {e : ParseError}
    (hparse : parse source = .error e) :
    fetch parse entries fresh source = (.error e, entries, fresh) := by
  rcases fetch_cases h with ⟨e', hparse', hfetch⟩ | ⟨found, hparse', -⟩ | ⟨v, hparse', -⟩
  · rw [hparse] at hparse'
    cases hparse'
    exact hfetch
  · rw [hparse] at hparse'
    cases hparse'
  · rw [hparse] at hparse'
    cases hparse'

/-- A text comes out as parsing gives it. -/
theorem fetch_value (h : Faithful parse entries) :
    (fetch parse entries fresh source).1.map Shared.value = parse source := by
  rcases fetch_cases h with ⟨e, hparse, hfetch⟩ | ⟨found, hparse, -, hfetch⟩ | ⟨v, hparse, -, hfetch⟩
  · rw [hfetch, hparse]
    rfl
  · rw [hfetch, hparse]
    rfl
  · rw [hfetch, hparse]
    rfl

theorem Faithful.fetch (h : Faithful parse entries) :
    Faithful parse (fetch parse entries fresh source).2.1 := by
  rcases fetch_cases h with ⟨e, -, hfetch⟩ | ⟨found, -, -, hfetch⟩ | ⟨v, hparse, hnew, hfetch⟩
  · rw [hfetch]
    exact h
  · rw [hfetch]
    exact h
  · rw [hfetch]
    refine ⟨List.nodup_cons.mpr ⟨hnew, h.nodup⟩, fun entry hentry => ?_⟩
    rcases List.mem_cons.mp hentry with rfl | hentry
    · exact hparse
    · exact h.value entry hentry

/-- A text has an entry if it had one before, or has now been parsed. -/
theorem mem_keys_fetch (h : Faithful parse entries) {text : String} :
    text ∈ (fetch parse entries fresh source).2.1.map Prod.fst ↔
      text ∈ entries.map Prod.fst ∨ text = source ∧ (parse source).isOk = true := by
  rcases fetch_cases h with ⟨e, hparse, hfetch⟩ | ⟨found, hparse, hold, hfetch⟩ |
      ⟨v, hparse, -, hfetch⟩
  · rw [hfetch, hparse]
    simp [Except.isOk, Except.toBool]
  · rw [hfetch, hparse]
    refine ⟨.inl, ?_⟩
    rintro (hmem | ⟨rfl, -⟩)
    · exact hmem
    · exact hold
  · rw [hfetch, hparse]
    simp [Except.isOk, Except.toBool, or_comm]

end

/-! ### Caches -/

namespace Cache

variable {c : Cache} {source : String}

theorem script_eq_fetch (c : Cache) (source : String) :
    c.script source =
      let (found, scripts, fresh) := fetch parseScript c.scripts c.fresh source
      (found, { c with scripts, fresh }) := by
  unfold script fetch
  cases c.scripts.lookup source with
  | some found => rfl
  | none => cases parseScript source <;> rfl

theorem expression_eq_fetch (c : Cache) (source : String) :
    c.expression source =
      let (found, expressions, fresh) := fetch parseExpr c.expressions c.fresh source
      (found, { c with expressions, fresh }) := by
  unfold expression fetch
  cases c.expressions.lookup source with
  | some found => rfl
  | none => cases parseExpr source <;> rfl

/-- A cache that holds what parsing gives. -/
structure Sound (c : Cache) : Prop where
  /-- Its scripts. -/
  scripts : Faithful parseScript c.scripts
  /-- Its expressions. -/
  expressions : Faithful parseExpr c.expressions

theorem sound_empty : empty.Sound := ⟨.nil, .nil⟩

theorem sound_clear (c : Cache) : c.clear.Sound := ⟨.nil, .nil⟩

namespace Sound

theorem script (h : c.Sound) (source : String) : (c.script source).2.Sound := by
  rw [script_eq_fetch]
  exact ⟨h.scripts.fetch, h.expressions⟩

theorem expression (h : c.Sound) (source : String) : (c.expression source).2.Sound := by
  rw [expression_eq_fetch]
  exact ⟨h.scripts, h.expressions.fetch⟩

/-- A sound cache gives what parsing a script gives. -/
theorem script_value (h : c.Sound) (source : String) :
    (c.script source).1.map Shared.value = parseScript source := by
  rw [script_eq_fetch]
  exact fetch_value h.scripts

/-- A sound cache gives what parsing an expression gives. -/
theorem expression_value (h : c.Sound) (source : String) :
    (c.expression source).1.map Shared.value = parseExpr source := by
  rw [expression_eq_fetch]
  exact fetch_value h.expressions

/-- A script that cannot be parsed leaves no trace. -/
theorem script_of_error (h : c.Sound) {e : ParseError} (hparse : parseScript source = .error e) :
    c.script source = (.error e, c) := by
  rw [script_eq_fetch, fetch_of_error h.scripts hparse]

/-- An expression that cannot be parsed leaves no trace. -/
theorem expression_of_error (h : c.Sound) {e : ParseError}
    (hparse : parseExpr source = .error e) : c.expression source = (.error e, c) := by
  rw [expression_eq_fetch, fetch_of_error h.expressions hparse]

end Sound

end Cache

/-! ### Calls -/

/-- What a cache can be asked for. -/
inductive CacheCall
  /-- A script. -/
  | script (source : String)
  /-- An expression. -/
  | expression (source : String)
  /-- To forget all texts. -/
  | clear
  deriving DecidableEq

namespace CacheCall

/-- The text of which a script is asked for. -/
def script? : CacheCall → Option String
  | script source => some source
  | _ => none

/-- The text of which an expression is asked for. -/
def expression? : CacheCall → Option String
  | expression source => some source
  | _ => none

end CacheCall

/-- The cache after a call. -/
def Cache.call (c : Cache) : CacheCall → Cache
  | .script source => (c.script source).2
  | .expression source => (c.expression source).2
  | .clear => c.clear

/-- The cache after some calls. -/
def Cache.after (c : Cache) (calls : List CacheCall) : Cache :=
  calls.foldl Cache.call c

/-- The calls since the cache was last cleared. -/
def sinceClear (calls : List CacheCall) : List CacheCall :=
  (calls.reverse.takeWhile (· != .clear)).reverse

/-- The texts that were asked for since the cache was last cleared, and could be parsed. -/
def textsRead {α : Type} (parse : String → Except ParseError α)
    (asked : CacheCall → Option String) (calls : List CacheCall) : List String :=
  ((sinceClear calls).filterMap asked).filter fun source => (parse source).isOk

@[simp] theorem sinceClear_concat_clear (calls : List CacheCall) :
    sinceClear (calls ++ [.clear]) = [] := by
  simp [sinceClear]

theorem sinceClear_concat (calls : List CacheCall) {call : CacheCall} (h : call ≠ .clear) :
    sinceClear (calls ++ [call]) = sinceClear calls ++ [call] := by
  simp [sinceClear, h]

section

variable {α : Type} {parse : String → Except ParseError α} {asked : CacheCall → Option String}

@[simp] theorem textsRead_concat_clear (calls : List CacheCall) :
    textsRead parse asked (calls ++ [.clear]) = [] := by
  simp [textsRead]

theorem textsRead_concat_of_none (calls : List CacheCall) {call : CacheCall} (h : call ≠ .clear)
    (hasked : asked call = none) :
    textsRead parse asked (calls ++ [call]) = textsRead parse asked calls := by
  simp [textsRead, sinceClear_concat calls h, hasked]

theorem mem_textsRead_concat (calls : List CacheCall) {call : CacheCall} {source text : String}
    (h : call ≠ .clear) (hasked : asked call = some source) :
    text ∈ textsRead parse asked (calls ++ [call]) ↔
      text ∈ textsRead parse asked calls ∨ text = source ∧ (parse source).isOk = true := by
  simp only [textsRead, sinceClear_concat calls h, List.filterMap_append, List.filter_append,
    List.mem_append]
  refine or_congr_right ?_
  simp only [List.filterMap_cons, hasked, List.filterMap_nil, List.mem_filter,
    List.mem_singleton]
  constructor
  · rintro ⟨rfl, hok⟩
    exact ⟨rfl, hok⟩
  · rintro ⟨rfl, hok⟩
    exact ⟨rfl, hok⟩

end

namespace Cache

theorem Sound.call {c : Cache} (h : c.Sound) (call : CacheCall) : (c.call call).Sound := by
  cases call with
  | script source => exact h.script source
  | expression source => exact h.expression source
  | clear => exact sound_clear c

theorem Sound.after {c : Cache} (h : c.Sound) (calls : List CacheCall) : (c.after calls).Sound := by
  induction calls generalizing c with
  | nil => exact h
  | cons call calls ih => exact ih (h.call call)

/-- Every cache is sound, whatever it was asked for. -/
theorem sound_after (calls : List CacheCall) : (empty.after calls).Sound :=
  sound_empty.after calls

theorem after_append (c : Cache) (first second : List CacheCall) :
    c.after (first ++ second) = (c.after first).after second :=
  List.foldl_append

theorem after_concat (c : Cache) (calls : List CacheCall) (call : CacheCall) :
    c.after (calls ++ [call]) = (c.after calls).call call :=
  List.foldl_concat ..

/-- A cache has scripts for just those texts that were read since it was last cleared. -/
theorem mem_scripts_after (calls : List CacheCall) (text : String) :
    text ∈ (empty.after calls).scripts.map Prod.fst ↔
      text ∈ textsRead parseScript CacheCall.script? calls := by
  induction calls using List.reverseRecOn with
  | nil => simp [after, empty, textsRead, sinceClear]
  | append_singleton calls call ih =>
    rw [after_concat]
    cases call with
    | clear => simp [Cache.call, clear]
    | expression source =>
      rw [textsRead_concat_of_none calls (by rintro ⟨⟩) rfl, ← ih, Cache.call, expression_eq_fetch]
    | script source =>
      rw [mem_textsRead_concat calls (by rintro ⟨⟩) rfl, ← ih, Cache.call, script_eq_fetch]
      exact mem_keys_fetch (sound_after calls).scripts

/-- A cache has expressions for just those texts that were read since it was last cleared. -/
theorem mem_expressions_after (calls : List CacheCall) (text : String) :
    text ∈ (empty.after calls).expressions.map Prod.fst ↔
      text ∈ textsRead parseExpr CacheCall.expression? calls := by
  induction calls using List.reverseRecOn with
  | nil => simp [after, empty, textsRead, sinceClear]
  | append_singleton calls call ih =>
    rw [after_concat]
    cases call with
    | clear => simp [Cache.call, clear]
    | script source =>
      rw [textsRead_concat_of_none calls (by rintro ⟨⟩) rfl, ← ih, Cache.call, script_eq_fetch]
    | expression source =>
      rw [mem_textsRead_concat calls (by rintro ⟨⟩) rfl, ← ih, Cache.call, expression_eq_fetch]
      exact mem_keys_fetch (sound_after calls).expressions

/-- **The size of a cache** is the number of texts that were read as scripts since it was last
cleared, and the number of those that were read as expressions. -/
theorem size_after (calls : List CacheCall) :
    (empty.after calls).size =
      (textsRead parseScript CacheCall.script? calls).dedup.length +
        (textsRead parseExpr CacheCall.expression? calls).dedup.length := by
  have sound := sound_after calls
  have hscripts : ((empty.after calls).scripts.map Prod.fst).Perm
      (textsRead parseScript CacheCall.script? calls).dedup := by
    refine (List.perm_ext_iff_of_nodup sound.scripts.nodup (List.nodup_dedup _)).mpr fun text => ?_
    rw [List.mem_dedup]
    exact mem_scripts_after calls text
  have hexpressions : ((empty.after calls).expressions.map Prod.fst).Perm
      (textsRead parseExpr CacheCall.expression? calls).dedup := by
    refine (List.perm_ext_iff_of_nodup sound.expressions.nodup
      (List.nodup_dedup _)).mpr fun text => ?_
    rw [List.mem_dedup]
    exact mem_expressions_after calls text
  rw [size, ← hscripts.length_eq, ← hexpressions.length_eq, List.length_map, List.length_map]

end Cache

end StepScript
