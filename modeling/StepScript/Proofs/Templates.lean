import StepScript.Command.Function
import StepScript.Proofs.Numerals

/-!
# The language of templates

A template is put together from parts: texts, in which every brace is doubled, empty placeholders,
and placeholders with a numeral.  Filling in a template goes through its characters with one
character of lookahead.  Here it is shown to succeed just for the templates that are put together in
this way from parts that all have their argument, and to give what the parts stand for.

## Main definitions

* `IndexNumeral`, `TemplatePart` — what templates are put together from.
* `template` — the characters of some parts.
* `Filler`, `fillers` — what parts stand for: a text, or the argument with some index.
* `filled` — the text that some parts come to.

## Main results

* `fillFrom_template` — a template is filled in part by part.
* `exists_parts_of_fillFrom` — whatever is filled in is put together from parts.
* `format_fills_in_templates` — **the templates that can be filled in, and what they come to**.
-/

namespace StepScript

/-! ### Templates -/

/-- A run of decimal digits. -/
structure IndexNumeral where
  /-- The digits. -/
  digits : List Char
  /-- There is at least one. -/
  nonempty : digits ≠ []
  /-- There is nothing else. -/
  all : AllDigits digits

/-- The number that a numeral denotes. -/
def IndexNumeral.value (n : IndexNumeral) : Nat :=
  Nat.ofDigitChars 10 n.digits 0

/-- A part of a template. -/
inductive TemplatePart
  /-- A text. -/
  | text (cs : List Char)
  /-- An empty placeholder. -/
  | next
  /-- A placeholder with the index of an argument. -/
  | index (n : IndexNumeral)

/-- A character in a text of a template: braces are doubled. -/
def doubled (c : Char) : List Char :=
  if c = '{' ∨ c = '}' then [c, c] else [c]

/-- The characters of a part. -/
def TemplatePart.render : TemplatePart → List Char
  | text cs => cs.flatMap doubled
  | next => ['{', '}']
  | index n => '{' :: n.digits ++ ['}']

/-- The template that some parts make up. -/
def template (parts : List TemplatePart) : List Char :=
  parts.flatMap TemplatePart.render

/-- What a part stands for. -/
inductive Filler
  /-- A text. -/
  | text (cs : List Char)
  /-- The argument with the given index. -/
  | argument (index : Nat)

/-- What the parts stand for, if `taken` empty placeholders came before: an empty placeholder takes
the argument whose index is the number of empty placeholders before it. -/
def fillers : Nat → List TemplatePart → List Filler
  | _, [] => []
  | taken, .text cs :: parts => .text cs :: fillers taken parts
  | taken, .next :: parts => .argument taken :: fillers (taken + 1) parts
  | taken, .index n :: parts => .argument n.value :: fillers taken parts

/-- Whether there is an argument for every placeholder. -/
def Suffice (arguments : List Value) (fillers : List Filler) : Prop :=
  ∀ i, .argument i ∈ fillers → i < arguments.length

/-- The text that a part comes to. -/
def Filler.display (arguments : List Value) : Filler → List Char
  | text cs => cs
  | argument i => (arguments.getD i .null).display.toList

/-- The text that some parts come to. -/
def filled (arguments : List Value) (fillers : List Filler) : List Char :=
  fillers.flatMap (Filler.display arguments)

@[simp] theorem filled_cons (arguments : List Value) (x : Filler) (xs : List Filler) :
    filled arguments (x :: xs) = x.display arguments ++ filled arguments xs := rfl

theorem suffice_cons_text {arguments : List Value} {cs : List Char} {xs : List Filler} :
    Suffice arguments (.text cs :: xs) ↔ Suffice arguments xs := by
  simp [Suffice]

theorem suffice_cons_argument {arguments : List Value} {i : Nat} {xs : List Filler} :
    Suffice arguments (.argument i :: xs) ↔ i < arguments.length ∧ Suffice arguments xs := by
  simp [Suffice]

/-! ### Placeholders -/

section

variable {arguments : List Value} {f f' : Filling}

/-- The filling with the text of an argument added. -/
def Filling.add (f : Filling) (text : List Char) : Filling :=
  { f with text := text.reverse ++ f.text }

theorem select_eq_ok_iff {i : Nat} : f.select arguments i = .ok f' ↔
    i < arguments.length ∧ f' = f.add ((Filler.argument i).display arguments) := by
  unfold Filling.select
  cases h : arguments[i]? with
  | none =>
    rw [List.getElem?_eq_none_iff] at h
    simp only [reduceCtorEq, false_iff]
    omega
  | some v =>
    obtain ⟨hi, -⟩ := List.getElem?_eq_some_iff.mp h
    have hv : arguments.getD i .null = v := by simp [h]
    simp only [Except.ok.injEq, hi, true_and, Filler.display, hv, Filling.add]
    exact eq_comm

/-- An empty placeholder takes the next argument. -/
theorem place_nil : f.place arguments [] =
    Filling.select { f with automatic := f.automatic + 1 } arguments f.automatic := rfl

/-- A placeholder with a numeral takes the argument with this index. -/
theorem place_numeral (fits : arguments.length ≤ UInt64.size) (n : IndexNumeral) :
    f.place arguments n.digits = .ok f' ↔ f.select arguments n.value = .ok f' := by
  have hread : readNat? 10 n.digits = some n.value := by
    rw [readNat?, if_neg (by simpa using n.nonempty), readDigits?_of_allDigits n.all]
    rfl
  unfold Filling.place
  rw [hread]
  dsimp only
  split
  · rfl
  · next huge =>
    -- there are fewer arguments than that
    have hsize : UInt64.size = Nat.pow 2 64 := rfl
    rw [select_eq_ok_iff]
    simp only [reduceCtorEq, false_iff]
    omega

/-! ### One step through a template -/

theorem fillFrom_nil (f : Filling) : fillFrom arguments f none [] = .ok f.text.reverse := rfl

theorem fillFrom_inside_nil (f : Filling) (done : List Char) :
    fillFrom arguments f (some done) [] = .error .invalidPlaceholder := rfl

theorem fillFrom_inside_cons (f : Filling) (done : List Char) (c : Char) (cs : List Char) :
    fillFrom arguments f (some done) (c :: cs) =
      if c = '}' then
        match f.place arguments done.reverse with
        | .ok f => fillFrom arguments f none cs
        | .error e => .error e
      else if c.isDigit then fillFrom arguments f (some (c :: done)) cs
      else .error .invalidPlaceholder := rfl

/-- What a character does that is not the first of a doubled brace. -/
theorem fillFrom_single (f : Filling) {c : Char} {cs : List Char}
    (single : c = '{' ∨ c = '}' → ∀ ds, cs ≠ c :: ds) :
    fillFrom arguments f none (c :: cs) =
      if c = '{' then fillFrom arguments f (some []) cs
      else if c = '}' then .error .unmatchedBrace
      else fillFrom arguments (f.push c) none cs := by
  rw [fillFrom]
  · intro ds hc hcs
    exact single (.inl hc) ds (hc ▸ hcs)
  · intro ds hc hcs
    exact single (.inr hc) ds (hc ▸ hcs)

/-! ### Reading a placeholder -/

/-- A placeholder is read up to its brace. -/
theorem fillFrom_digits {ds done : List Char} (digits : AllDigits ds) (cs : List Char)
    (h : f.place arguments (done.reverse ++ ds) = .ok f') :
    fillFrom arguments f (some done) (ds ++ '}' :: cs) = fillFrom arguments f' none cs := by
  induction ds generalizing done with
  | nil =>
    rw [List.append_nil] at h
    rw [List.nil_append, fillFrom_inside_cons, if_pos rfl, h]
  | cons d ds ih =>
    obtain ⟨hd, hds⟩ := List.forall_mem_cons.mp digits
    have brace : d ≠ '}' := by
      rintro rfl
      cases hd
    rw [List.cons_append, fillFrom_inside_cons, if_neg brace, if_pos hd]
    exact ih hds (by simpa using h)

/-- Whatever is filled in from within a placeholder goes on with digits up to its brace. -/
theorem exists_digits_of_fillFrom {done cs text : List Char}
    (h : fillFrom arguments f (some done) cs = .ok text) :
    ∃ ds rest f', AllDigits ds ∧ cs = ds ++ '}' :: rest ∧
      f.place arguments (done.reverse ++ ds) = .ok f' ∧
      fillFrom arguments f' none rest = .ok text := by
  induction cs generalizing done with
  | nil =>
    rw [fillFrom_inside_nil] at h
    cases h
  | cons c cs ih =>
    rw [fillFrom_inside_cons] at h
    -- a brace ends the placeholder, a digit goes on with it, and all else is refused
    by_cases brace : c = '}'
    · rw [if_pos brace] at h
      cases hplace : f.place arguments done.reverse with
      | error e =>
        rw [hplace] at h
        cases h
      | ok f' =>
        rw [hplace] at h
        have hcs : c :: cs = [] ++ '}' :: cs := by rw [brace, List.nil_append]
        exact ⟨[], cs, f', List.forall_mem_nil _, hcs, by rw [List.append_nil, hplace], h⟩
    · rw [if_neg brace] at h
      by_cases digit : c.isDigit = true
      · rw [if_pos digit] at h
        obtain ⟨ds, rest, f', digits, rfl, hplace, hrest⟩ := ih h
        exact ⟨c :: ds, rest, f', List.forall_mem_cons.mpr ⟨digit, digits⟩, rfl,
          by simpa using hplace, hrest⟩
      · rw [if_neg digit] at h
        cases h

/-! ### Templates part by part -/

theorem fillFrom_doubled (f : Filling) (c : Char) (cs : List Char) :
    fillFrom arguments f none (doubled c ++ cs) = fillFrom arguments (f.push c) none cs := by
  unfold doubled
  split
  · next brace => rcases brace with rfl | rfl <;> rfl
  · next plain =>
    rw [List.singleton_append, fillFrom_single f fun brace => absurd brace plain]
    rw [not_or] at plain
    rw [if_neg plain.1, if_neg plain.2]

theorem fillFrom_text (f : Filling) (text cs : List Char) :
    fillFrom arguments f none (text.flatMap doubled ++ cs) =
      fillFrom arguments (f.add text) none cs := by
  induction text generalizing f with
  | nil => rfl
  | cons c text ih =>
    rw [List.flatMap_cons, List.append_assoc, fillFrom_doubled, ih]
    simp [Filling.add, Filling.push]

/-- A brace that is not doubled opens a placeholder. -/
theorem fillFrom_open (f : Filling) {cs : List Char} (single : ∀ ds, cs ≠ '{' :: ds) :
    fillFrom arguments f none ('{' :: cs) = fillFrom arguments f (some []) cs := by
  rw [fillFrom_single f fun _ => single, if_pos rfl]

theorem fillFrom_placeholder {ds : List Char} (digits : AllDigits ds) (cs : List Char)
    (h : f.place arguments ds = .ok f') :
    fillFrom arguments f none ('{' :: (ds ++ '}' :: cs)) = fillFrom arguments f' none cs := by
  rw [fillFrom_open, fillFrom_digits digits cs h]
  rintro es hes
  cases ds with
  | nil => cases hes
  | cons d ds =>
    cases hes
    cases digits '{' List.mem_cons_self

/-- **A template is filled in part by part.** -/
theorem fillFrom_template (fits : arguments.length ≤ UInt64.size) (parts : List TemplatePart)
    (f : Filling) (suffice : Suffice arguments (fillers f.automatic parts)) :
    fillFrom arguments f none (template parts) =
      .ok (f.text.reverse ++ filled arguments (fillers f.automatic parts)) := by
  -- The filling carries the number of the next argument along.
  induction parts generalizing f with
  | nil => simp [template, fillFrom_nil, fillers, filled]
  | cons part parts ih =>
    cases part with
    | text cs =>
      have hrest := ih (f.add cs) (suffice_cons_text.mp suffice)
      refine (fillFrom_text f cs (template parts)).trans (hrest.trans ?_)
      simp [fillers, Filling.add, Filler.display]
    | next =>
      obtain ⟨hi, hsuffice⟩ := suffice_cons_argument.mp suffice
      have hplace := place_nil.trans (select_eq_ok_iff.mpr ⟨hi, rfl⟩)
      have hrest := ih (.add ⟨f.automatic + 1, f.text⟩
        ((Filler.argument f.automatic).display arguments)) hsuffice
      refine (fillFrom_placeholder (List.forall_mem_nil _) (template parts) hplace).trans
        (hrest.trans ?_)
      simp [fillers, Filling.add]
    | index n =>
      obtain ⟨hi, hsuffice⟩ := suffice_cons_argument.mp suffice
      have hplace := (place_numeral (f := f) fits n).mpr (select_eq_ok_iff.mpr ⟨hi, rfl⟩)
      have hrest := ih (f.add ((Filler.argument n.value).display arguments)) hsuffice
      have hcs : template (.index n :: parts) = '{' :: (n.digits ++ '}' :: template parts) := by
        simp [template, TemplatePart.render]
      rw [hcs, fillFrom_placeholder n.all (template parts) hplace, hrest]
      simp [fillers, Filling.add]

/-! ### Parts of what is filled in -/

/-- What is filled in outside of a placeholder starts with a character of a text, or with a
placeholder. -/
theorem char_or_placeholder_of_fillFrom {c : Char} {cs text : List Char}
    (h : fillFrom arguments f none (c :: cs) = .ok text) :
    (∃ d rest, c :: cs = doubled d ++ rest ∧ fillFrom arguments (f.push d) none rest = .ok text) ∨
      (c = '{' ∧ fillFrom arguments f (some []) cs = .ok text) := by
  by_cases opening : c = '{'
  · subst opening
    by_cases double : ∃ ds, cs = '{' :: ds
    · obtain ⟨ds, rfl⟩ := double
      exact .inl ⟨'{', ds, rfl, (fillFrom_doubled f '{' ds).symm.trans h⟩
    · rw [fillFrom_open f (not_exists.mp double)] at h
      exact .inr ⟨rfl, h⟩
  · by_cases closing : c = '}'
    · subst closing
      by_cases double : ∃ ds, cs = '}' :: ds
      · obtain ⟨ds, rfl⟩ := double
        exact .inl ⟨'}', ds, rfl, (fillFrom_doubled f '}' ds).symm.trans h⟩
      · rw [fillFrom_single f fun _ => not_exists.mp double, if_neg opening, if_pos rfl] at h
        cases h
    · have plain : doubled c = [c] := if_neg (not_or.mpr ⟨opening, closing⟩)
      have hcs : c :: cs = doubled c ++ cs := by rw [plain, List.singleton_append]
      exact .inl ⟨c, cs, hcs, by rwa [hcs, fillFrom_doubled] at h⟩

/-- **Whatever is filled in is put together from parts.** -/
theorem exists_parts_of_fillFrom (fits : arguments.length ≤ UInt64.size) {cs text : List Char}
    (h : fillFrom arguments f none cs = .ok text) :
    ∃ parts, template parts = cs ∧ Suffice arguments (fillers f.automatic parts) ∧
      text = f.text.reverse ++ filled arguments (fillers f.automatic parts) := by
  -- a part may be several characters long
  induction hn : cs.length using Nat.strongRecOn generalizing f cs with
  | ind n ih =>
    subst hn
    cases cs with
    | nil =>
      rw [fillFrom_nil] at h
      cases h
      exact ⟨[], rfl, by simp [Suffice, fillers], by simp [fillers, filled]⟩
    | cons c cs =>
      rcases char_or_placeholder_of_fillFrom h with ⟨d, rest, hcs, hrest⟩ | ⟨rfl, hopen⟩
      · have shorter : rest.length < (c :: cs).length := by
          rw [hcs, List.length_append, doubled]
          split <;> simp
        obtain ⟨parts, rfl, hsuffice, rfl⟩ := ih _ shorter hrest rfl
        refine ⟨.text [d] :: parts, ?_, suffice_cons_text.mpr hsuffice, ?_⟩
        · simp [hcs, template, TemplatePart.render]
        · simp [fillers, Filling.push, Filler.display]
      · obtain ⟨ds, rest, f', digits, rfl, hplace, hrest⟩ := exists_digits_of_fillFrom hopen
        obtain ⟨parts, rfl, hsuffice, rfl⟩ := ih rest.length (by simp; omega) hrest rfl
        rw [List.reverse_nil, List.nil_append] at hplace
        by_cases empty : ds = []
        · subst empty
          rw [place_nil, select_eq_ok_iff] at hplace
          obtain ⟨hi, rfl⟩ := hplace
          refine ⟨.next :: parts, rfl, suffice_cons_argument.mpr ⟨hi, hsuffice⟩, ?_⟩
          simp [fillers, Filling.add]
        · obtain ⟨n, rfl⟩ : ∃ n : IndexNumeral, n.digits = ds := ⟨⟨ds, empty, digits⟩, rfl⟩
          rw [place_numeral fits, select_eq_ok_iff] at hplace
          obtain ⟨hi, rfl⟩ := hplace
          refine ⟨.index n :: parts, ?_, suffice_cons_argument.mpr ⟨hi, hsuffice⟩, ?_⟩
          · simp [template, TemplatePart.render]
          · simp [fillers, Filling.add]

end

/-! ### Formatting -/

theorem format_eq_ok_iff {t : String} {arguments : List Value} {v : Value} :
    Function.format (.str t :: arguments) = .ok v ↔
      ∃ text, fillFrom arguments ⟨0, []⟩ none t.toList = .ok text ∧
        v = .str (String.ofList text) := by
  unfold Function.format fill
  cases h : fillFrom arguments ⟨0, []⟩ none t.toList with
  | error e => simp [h, Except.map, Function.refuse]
  | ok text =>
    simp only [h, Except.map, Except.ok.injEq, exists_eq_left']
    exact eq_comm

/-- **The templates that can be filled in, and what they come to.**  Arguments are counted by words
of 64 bits. -/
theorem format_fills_in_templates (t : String) (arguments : List Value) :
    (arguments.length ≤ UInt64.size → ∀ v, Function.format (.str t :: arguments) = .ok v ↔
      ∃ parts, template parts = t.toList ∧ Suffice arguments (fillers 0 parts) ∧
        v = .str (String.ofList (filled arguments (fillers 0 parts)))) ∧
    ∀ s : String, Function.format (.str (String.ofList (s.toList.flatMap doubled)) :: arguments) =
      .ok (.str s) := by
  refine ⟨fun fits v => ?_, fun s => ?_⟩
  · rw [format_eq_ok_iff]
    constructor
    · rintro ⟨text, htext, rfl⟩
      obtain ⟨parts, hparts, hsuffice, rfl⟩ := exists_parts_of_fillFrom fits htext
      exact ⟨parts, hparts, hsuffice, rfl⟩
    · rintro ⟨parts, hparts, hsuffice, rfl⟩
      exact ⟨_, hparts ▸ fillFrom_template fits parts ⟨0, []⟩ hsuffice, rfl⟩
  · have htext := @fillFrom_text arguments ⟨0, []⟩ s.toList []
    rw [List.append_nil] at htext
    refine format_eq_ok_iff.mpr ⟨s.toList, ?_, by rw [String.ofList_toList]⟩
    rw [String.toList_ofList, htext]
    simp [fillFrom_nil, Filling.add]

/-- Braces stand next to each other, and an index leaves the empty placeholders alone. -/
theorem format_fills_in_templates_braces :
    Function.format [.str "\x7b\x7b\x7b\x7d\x7d\x7d\x7b01\x7d\x7b\x7d", .str "a", .str "b"] =
      .ok (.str "\x7ba\x7dbb") :=
  ((format_fills_in_templates _ _).1 (by decide) _).mpr
    ⟨[.text ['{'], .next, .text ['}'], .index ⟨['0', '1'], by simp, by simp [AllDigits]⟩, .next],
      by decide, by simp [Suffice, fillers, IndexNumeral.value, Nat.ofDigitChars], by decide⟩

end StepScript
