import StepScript.Command.Standard
import StepScript.Proofs.Conformance

/-!
# How the built-in commands fail

Three faults are about the blocks of a script.  Operators and built-in commands have none of these:
they fail for the types, the number or the values of what they are given.  They give nothing at all
only where a text is repeated more often than there is room for.

## Main definitions

* `Fault.isStructural` — the faults about blocks.
* `Unstructural` — a result that is no such fault.
* `Overlong` — values whose product is too long for a text.
* `Instance.Ordinary` — the instances of built-in commands.

## Main results

* `unstructural_unary`, `unstructural_binary` — operators.
* `BinaryOp.apply_eq_none_iff` — where an operator gives nothing.
* `ordinary_of_mem_builtins` — factories of built-in commands.
* `conforms_builtins` — **the built-in commands conform**: no fault of an evaluation is structural.
-/

namespace StepScript

/-- Whether a fault is about the blocks of a script. -/
def Fault.isStructural : Fault → Bool
  | caseWithoutSwitch | unmatchedBlockEnd | unterminatedBlock _ => true
  | _ => false

/-- The result is no structural fault. -/
def Unstructural {α : Type} (result : Except Fault α) : Prop :=
  ∀ fault, result = .error fault → fault.isStructural = false

namespace Unstructural

variable {α β : Type}

theorem ok (a : α) : Unstructural (.ok a) := by
  rintro fault ⟨⟩

theorem error {fault : Fault} (h : fault.isStructural = false) :
    Unstructural (.error fault : Except Fault α) := by
  rintro _ ⟨⟩
  exact h

theorem bind {x : Except Fault α} {f : α → Except Fault β} (hx : Unstructural x)
    (hf : ∀ a, Unstructural (f a)) : Unstructural (x >>= f) := by
  cases x with
  | error fault => exact .error (hx fault rfl)
  | ok a => exact hf a

theorem map {x : Except Fault α} (f : α → β) (hx : Unstructural x) : Unstructural (x.map f) := by
  cases x with
  | error fault => exact .error (hx fault rfl)
  | ok a => exact .ok (f a)

end Unstructural

/-! ### Operators -/

theorem unstructural_exactly (operation : String) (result : Option Int64) :
    Unstructural (exactly operation result) := by
  cases result with
  | none => exact .error rfl
  | some i => exact .ok _

theorem unstructural_unary (op : UnaryOp) (v : Value) : Unstructural (op.apply v) := by
  unfold UnaryOp.apply
  split
  case h_4 => exact unstructural_exactly _ _
  case h_7 => exact .error rfl
  all_goals exact .ok _

section

variable {op : BinaryOp}

theorem unstructural_arithmetic {ints : Int64 → Int64 → Except Fault Value}
    {floats : Float → Float → Except Fault Value} (hints : ∀ i j, Unstructural (ints i j))
    (hfloats : ∀ x y, Unstructural (floats x y)) (a b : Value) :
    Unstructural (Operation.arithmetic op ints floats a b) := by
  unfold Operation.arithmetic
  split
  · exact hints _ _
  · exact hfloats _ _
  · exact .error rfl

theorem unstructural_ite_divisionByZero {p : Prop} [Decidable p] {result : Except Fault Value}
    (h : Unstructural result) : Unstructural (if p then .error .divisionByZero else result) := by
  split
  · exact .error rfl
  · exact h

theorem unstructural_shift (move : Int64 → Nat → Option Int64) (a b : Value) :
    Unstructural (Operation.shift op move a b) := by
  unfold Operation.shift
  split
  · split
    · exact unstructural_exactly _ _
    · exact .error rfl
  · exact .error rfl

theorem unstructural_bitwise (ints : Int64 → Int64 → Int64) (bools : Bool → Bool → Bool)
    (a b : Value) : Unstructural (Operation.bitwise op ints bools a b) := by
  unfold Operation.bitwise
  split
  · exact .ok _
  · exact .ok _
  · exact .error rfl

theorem unstructural_contains (a b : Value) : Unstructural (Operation.contains op a b) := by
  unfold Operation.contains
  split
  · exact .ok _
  · exact .error rfl

end

theorem unstructural_multiply {a b : Value} {result : Except Fault Value}
    (h : Operation.multiply a b = some result) : Unstructural result := by
  rw [Operation.multiply.eq_def] at h
  split at h
  · obtain ⟨text, -, rfl⟩ := Option.map_eq_some_iff.mp h
    exact .ok _
  · obtain ⟨text, -, rfl⟩ := Option.map_eq_some_iff.mp h
    exact .ok _
  · cases h
    exact unstructural_arithmetic (fun _ _ => unstructural_exactly _ _) (fun _ _ => .ok _) _ _

theorem unstructural_binary {op : BinaryOp} {a b : Value} {result : Except Fault Value}
    (h : op.apply a b = some result) : Unstructural result := by
  -- What an operator refuses it refuses for its operands, and these know of no blocks.
  cases op with
  | multiply => exact unstructural_multiply h
  | and | or | compare =>
    cases h
    exact .ok _
  | isIn | notIn =>
    cases h
    exact (unstructural_contains a b).map _
  | add =>
    cases h
    rw [Operation.add.eq_def]
    split
    · exact .ok _
    · exact unstructural_arithmetic (fun _ _ => unstructural_exactly _ _) (fun _ _ => .ok _) a b
  | subtract =>
    cases h
    exact unstructural_arithmetic (fun _ _ => unstructural_exactly _ _) (fun _ _ => .ok _) a b
  | divide =>
    cases h
    rw [Operation.divide]
    split
    · exact unstructural_ite_divisionByZero (.ok _)
    · exact .error rfl
  | floorDivide | modulo =>
    -- on whole numbers and on floats alike, the divisor is looked at first
    cases h
    exact unstructural_arithmetic
      (fun _ _ => unstructural_ite_divisionByZero (unstructural_exactly _ _))
      (fun _ _ => unstructural_ite_divisionByZero (.ok _)) a b
  | power =>
    cases h
    refine unstructural_arithmetic (fun i j => ?_) (fun _ _ => .ok _) a b
    -- a negative exponent makes a float of it
    split
    · exact .ok _
    split
    · exact unstructural_exactly _ _
    · exact .error rfl
  | shiftLeft =>
    cases h
    exact unstructural_shift shiftLeft? a b
  | shiftRight =>
    cases h
    exact unstructural_shift (fun i n => some (StepScript.shiftRight i n)) a b
  | bitAnd | bitXor | bitOr =>
    cases h
    exact unstructural_bitwise _ _ a b

theorem unstructural_result? {e : Expr} {vars : Variables} {known : List Value}
    {result : Except Fault Value} (h : e.result? vars known = some result) :
    Unstructural result := by
  cases e with
  | literal | reference =>
    cases h
    exact .ok _
  | unary op =>
    cases h
    exact unstructural_unary op _
  | binary op => exact unstructural_binary h
  | call => cases h

/-! ### Texts that are too long -/

/-- One of the values is a text and the other one says how often to repeat it, and that is too often
for a text. -/
def Overlong : Value → Value → Prop
  | .str s, .int n | .int n, .str s => textLimit ≤ n.toInt.toNat * s.utf8ByteSize
  | _, _ => False

theorem repeatText?_eq_none_iff {n : Nat} {s : String} :
    repeatText? n s = none ↔ textLimit ≤ n * s.utf8ByteSize := by
  rw [repeatText?]
  split
  · next long => exact iff_of_true rfl long
  · next short => exact iff_of_false (by rintro ⟨⟩) short

theorem multiply_eq_none_iff {a b : Value} : Operation.multiply a b = none ↔ Overlong a b := by
  rw [Operation.multiply.eq_def]
  split
  · rw [Option.map_eq_none_iff, repeatText?_eq_none_iff, Overlong]
  · rw [Option.map_eq_none_iff, repeatText?_eq_none_iff, Overlong]
  · next hleft hright =>
    -- Values that are not a text and a number are never too long.
    refine iff_of_false (by rintro ⟨⟩) fun long => ?_
    rw [Overlong.eq_def] at long
    split at long
    · exact (hleft _ _ rfl rfl).elim
    · exact (hright _ _ rfl rfl).elim
    · exact long.elim

/-- **Only a product can bring down the program**, if it is too long for a text. -/
theorem BinaryOp.apply_eq_none_iff {op : BinaryOp} {a b : Value} :
    op.apply a b = none ↔ op = .multiply ∧ Overlong a b := by
  cases op with
  | multiply => exact multiply_eq_none_iff.trans ⟨fun long => ⟨rfl, long⟩, And.right⟩
  | _ =>
    constructor
    · rintro ⟨⟩
    · rintro ⟨⟨⟩, -⟩

/-! ### Functions -/

namespace Function

theorem unstructural_refuse {α : Type} (command message : String) :
    Unstructural (refuse command message : Except Fault α) :=
  .error rfl

theorem unstructural_one (command : String) (arguments : List Value) :
    Unstructural (one command arguments) := by
  unfold one
  split
  · exact .ok _
  · exact unstructural_refuse _ _

theorem unstructural_two (command : String) (arguments : List Value) :
    Unstructural (two command arguments) := by
  unfold two
  split
  · exact .ok _
  · exact unstructural_refuse _ _

theorem unstructural_text (command : String) (arguments : List Value) :
    Unstructural (text command arguments) := by
  refine (unstructural_one command arguments).bind fun v => ?_
  split
  · exact .ok _
  · exact unstructural_refuse _ _

theorem unstructural_operator {command : String} {op : BinaryOp} {arguments : List Value}
    {result : Except Fault Value} (h : operator command op arguments = some result) :
    Unstructural result := by
  rw [operator] at h
  split at h
  · next fault refused =>
    cases h
    exact .error (unstructural_two command arguments fault refused)
  · exact unstructural_binary h

/-- A function gives nothing where its operator gives nothing for the two arguments. -/
theorem operator_eq_none_iff {command : String} {op : BinaryOp} {arguments : List Value} :
    operator command op arguments = none ↔
      op = .multiply ∧ ∃ a b, arguments = [a, b] ∧ Overlong a b := by
  rw [operator, two.eq_def]
  split
  · next fault refused =>
    refine iff_of_false (by rintro ⟨⟩) ?_
    rintro ⟨-, a, b, rfl, -⟩
    cases refused
  · next a b hpair =>
    split at hpair
    · cases hpair
      rw [BinaryOp.apply_eq_none_iff]
      refine and_congr_right fun _ => ⟨fun long => ⟨a, b, rfl, long⟩, ?_⟩
      rintro ⟨_, _, ⟨⟩, long⟩
      exact long
    · cases hpair

theorem unstructural_abs (arguments : List Value) : Unstructural (abs arguments) := by
  refine (unstructural_one _ arguments).bind fun v => ?_
  split
  · exact unstructural_exactly _ _
  · exact .ok _
  · exact unstructural_refuse _ _

theorem unstructural_better (wanted : Ordering) (best candidate : Value) :
    Unstructural (better wanted best candidate) := by
  unfold better
  split
  · exact .ok _
  · exact .error rfl

theorem unstructural_extreme (command : String) (wanted : Ordering) (arguments : List Value) :
    Unstructural (extreme command wanted arguments) := by
  cases arguments with
  | nil => exact unstructural_refuse _ _
  | cons v vs =>
    rw [extreme]
    -- `v` is the best of the arguments so far, and any of the others may take its place.
    induction vs generalizing v with
    | nil => exact .ok v
    | cons w vs ih =>
      rw [List.foldlM_cons]
      exact (unstructural_better wanted v w).bind ih

theorem unstructural_wholeValue (operation : String) (n : Option Int) :
    Unstructural (wholeValue operation n) := by
  cases n with
  | none => exact .error rfl
  | some n => exact unstructural_exactly _ _

theorem unstructural_roundValue (v : Value) (places : Option Value) :
    Unstructural (roundValue v places) := by
  cases places with
  | none =>
    cases v with
    | int => exact .ok _
    | float => exact unstructural_wholeValue _ _
    | _ => exact unstructural_refuse _ _
  | some places =>
    cases places with
    | null =>
      cases v with
      | int => exact .ok _
      | float => exact unstructural_wholeValue _ _
      | _ => exact unstructural_refuse _ _
    | int d =>
      cases v with
      | int | float => exact .ok _
      | _ => exact unstructural_refuse _ _
    | _ => cases v <;> exact unstructural_refuse _ _

theorem unstructural_round (arguments : List Value) : Unstructural (round arguments) := by
  unfold round
  split
  · exact unstructural_roundValue _ _
  · exact (unstructural_two _ arguments).bind fun _ => unstructural_roundValue _ _

theorem unstructural_toInt (arguments : List Value) : Unstructural (toInt arguments) := by
  refine (unstructural_one _ arguments).bind fun v => ?_
  split
  · exact .ok _
  · exact unstructural_wholeValue _ _
  · exact .ok _
  · split
    · exact .ok _
    · exact unstructural_refuse _ _
  · exact unstructural_refuse _ _

theorem unstructural_toFloat (arguments : List Value) : Unstructural (toFloat arguments) := by
  refine (unstructural_one _ arguments).bind fun v => ?_
  split
  · exact .ok _
  · exact .ok _
  · exact .ok _
  · split
    · exact .ok _
    · exact unstructural_refuse _ _
  · exact unstructural_refuse _ _

theorem unstructural_mapText (command : String) (f : List Char → List Char)
    (arguments : List Value) : Unstructural (mapText command f arguments) :=
  (unstructural_text command arguments).bind fun _ => .ok _

theorem unstructural_format (arguments : List Value) : Unstructural (format arguments) := by
  unfold format
  split
  · split
    · exact .ok _
    · exact unstructural_refuse _ _
  · exact unstructural_refuse _ _
  · exact unstructural_refuse _ _

theorem unstructural_range (arguments : List Value) : Unstructural (range arguments) := by
  refine (unstructural_two _ arguments).bind fun v => ?_
  split
  · split
    · exact unstructural_refuse _ _
    · exact .ok _
  · exact unstructural_refuse _ _

end Function

/-! ### Commands -/

theorem Timer.unstructural_period (arguments : List Value) : Unstructural (period arguments) := by
  unfold period
  -- What number the arguments give does not matter.
  extract_lets milliseconds
  clear_value milliseconds
  cases milliseconds with
  | none => exact .error rfl
  | some ms =>
    dsimp only
    split
    · exact .ok _
    · exact .error rfl

theorem Poll.unstructural_ofArguments (arguments : List Value) :
    Unstructural (ofArguments arguments) := by
  unfold ofArguments
  split
  · exact .ok _
  · exact .error rfl

section

variable {δ : Type}

/-- The product of two arguments. -/
def multiplication : SimpleFunction δ :=
  .ofPure (Function.operator "mul" .multiply)

/-- The function has no structural fault, and gives nothing only if it multiplies. -/
structure SimpleFunction.Ordinary (f : SimpleFunction δ) : Prop where
  unstructural : ∀ {arguments w turn}, f arguments w = some turn → Unstructural turn.value
  eq_multiplication : ∀ {arguments w}, f arguments w = none → f = multiplication

theorem multiplication_eq_none_iff {arguments : List Value} {w : World δ} :
    multiplication arguments w = none ↔ ∃ a b, arguments = [a, b] ∧ Overlong a b := by
  rw [multiplication, SimpleFunction.ofPure, Option.map_eq_none_iff,
    Function.operator_eq_none_iff, and_iff_right rfl]

theorem ordinary_printLine : (printLine : SimpleFunction δ).Ordinary where
  unstructural h := by
    cases h
    exact .ok _
  eq_multiplication h := by cases h

theorem ordinary_randomInt (devices : Devices δ) : (randomInt devices).Ordinary where
  unstructural := by
    intro arguments w turn h
    unfold randomInt at h
    split at h
    · next fault refused =>
      cases h
      exact .error (Function.unstructural_range arguments fault refused)
    · cases h
      exact .ok _
  eq_multiplication := by
    intro arguments w h
    unfold randomInt at h
    split at h <;> cases h

/-- What built-in commands are while they run: ordinary functions, timers and polls. -/
def Instance.Ordinary : Instance δ → Prop
  | simple f _ => f.Ordinary
  | timer _ | poll _ => True
  | playback _ => False

/-- The factory has no structural fault, and creates ordinary instances. -/
def Factory.Ordinary (factory : Factory (Instance δ) (World δ)) : Prop :=
  ∀ arguments w, Unstructural (factory arguments w).value ∧
    ∀ command, (factory arguments w).value = .ok command → command.Ordinary

theorem SimpleFunction.ordinary_factory {f : SimpleFunction δ} (h : f.Ordinary) :
    Factory.Ordinary f.factory := by
  intro arguments w
  refine ⟨.ok _, ?_⟩
  rintro _ ⟨⟩
  exact h

theorem ordinary_pure {f : List Value → Except Fault Value}
    (h : ∀ arguments, Unstructural (f arguments)) (name documentation : String) :
    Factory.Ordinary (Builtin.pure name documentation f : Builtin δ).factory := by
  refine SimpleFunction.ordinary_factory ⟨?_, ?_⟩
  · rintro arguments w _ ⟨⟩
    exact h arguments
  · rintro arguments w ⟨⟩

theorem ordinary_operator {name : String} {op : BinaryOp}
    (hop : op = .multiply → name = "mul") (documentation : String) :
    Factory.Ordinary (Builtin.operator name documentation op : Builtin δ).factory := by
  refine SimpleFunction.ordinary_factory ⟨?_, ?_⟩
  · intro arguments w turn h
    obtain ⟨result, hresult, rfl⟩ := Option.map_eq_some_iff.mp h
    exact Function.unstructural_operator hresult
  · intro arguments w h
    obtain ⟨rfl, -⟩ := Function.operator_eq_none_iff.mp (Option.map_eq_none_iff.mp h)
    rw [hop rfl, multiplication]

theorem ordinary_beginWait (devices : Devices δ) : Factory.Ordinary (beginWait devices) := by
  intro arguments w
  unfold beginWait
  split
  · next fault refused =>
    refine ⟨.error (Timer.unstructural_period arguments fault refused), ?_⟩
    rintro command ⟨⟩
  · refine ⟨.ok _, ?_⟩
    rintro command ⟨⟩
    trivial

theorem ordinary_beginPoll : Factory.Ordinary (beginPoll : Factory (Instance δ) (World δ)) := by
  intro arguments w
  refine ⟨(Poll.unstructural_ofArguments arguments).map _, fun command h => ?_⟩
  rw [beginPoll] at h
  cases hpoll : Poll.ofArguments arguments with
  | error fault =>
    rw [hpoll] at h
    cases h
  | ok p =>
    rw [hpoll] at h
    cases h
    trivial

theorem ordinary_of_mem_builtins (devices : Devices δ) :
    ∀ b ∈ allBuiltins devices, Factory.Ordinary b.factory := by
  have operator {name : String} {op : BinaryOp} {documentation : String}
      (hop : op ≠ .multiply) :
      Factory.Ordinary (Builtin.operator name documentation op : Builtin δ).factory :=
    ordinary_operator (fun h => absurd h hop) documentation
  have mapText (name : String) (f : List Char → List Char) (documentation : String) :
      Factory.Ordinary
        (Builtin.pure name documentation (Function.mapText name f) : Builtin δ).factory :=
    ordinary_pure (Function.unstructural_mapText name f) name documentation
  simp only [allBuiltins, builtinFunctions, builtinCommands, List.forall_mem_cons,
    List.cons_append, List.nil_append]
  -- One entry of the two lists after the other.
  exact ⟨ordinary_pure Function.unstructural_abs _ _,
    operator (by rintro ⟨⟩), operator (by rintro ⟨⟩), ordinary_operator (fun _ => rfl) _,
    operator (by rintro ⟨⟩), operator (by rintro ⟨⟩), operator (by rintro ⟨⟩),
    ordinary_pure (Function.unstructural_extreme _ _) _ _,
    ordinary_pure (Function.unstructural_extreme _ _) _ _,
    ordinary_pure Function.unstructural_round _ _,
    ordinary_pure Function.unstructural_toInt _ _,
    ordinary_pure Function.unstructural_toFloat _ _,
    ordinary_pure (fun _ => (Function.unstructural_one _ _).bind fun _ => .ok _) _ _,
    ordinary_pure (fun _ => (Function.unstructural_one _ _).bind fun _ => .ok _) _ _,
    ordinary_pure (fun _ => (Function.unstructural_text _ _).bind fun _ => .ok _) _ _,
    mapText _ _ _, mapText _ _ _, mapText _ _ _, mapText _ _ _,
    SimpleFunction.ordinary_factory ordinary_printLine,
    ordinary_pure Function.unstructural_format _ _,
    SimpleFunction.ordinary_factory (ordinary_randomInt devices),
    ordinary_beginWait devices, ordinary_beginPoll, List.forall_mem_nil _⟩

/-! ### The registry -/

theorem mem_entries_register {r : Registry (Instance δ) (World δ)} {name : String}
    {factory : Factory (Instance δ) (World δ)} {entry : String × Factory (Instance δ) (World δ)}
    (h : entry ∈ (r.register name factory).entries) :
    entry = (name, factory) ∨ entry ∈ r.entries := by
  rcases List.mem_cons.mp h with rfl | h
  · exact .inl rfl
  · exact .inr (List.mem_filter.mp h).1

theorem mem_entries_foldl {bs : List (Builtin δ)} {r : Registry (Instance δ) (World δ)}
    {entry : String × Factory (Instance δ) (World δ)}
    (h : entry ∈ (bs.foldl (fun r b => r.register b.name b.factory) r).entries) :
    (∃ b ∈ bs, entry = (b.name, b.factory)) ∨ entry ∈ r.entries := by
  induction bs generalizing r with
  | nil => exact .inr h
  | cons b bs ih =>
    rcases ih h with ⟨b', hb', rfl⟩ | h
    · exact .inl ⟨b', List.mem_cons_of_mem b hb', rfl⟩
    rcases mem_entries_register h with rfl | h
    · exact .inl ⟨b, List.mem_cons_self, rfl⟩
    · exact .inr h

/-- The factories that the registry of built-in commands finds are those of built-in commands. -/
theorem ordinary_of_lookup_builtins {devices : Devices δ} {name : String}
    {factory : Factory (Instance δ) (World δ)}
    (h : (builtins devices).entries.lookup name = some factory) : Factory.Ordinary factory := by
  obtain ⟨before, after, hentries, -⟩ := List.lookup_eq_some_iff.mp h
  have hmem : (name, factory) ∈ (builtins devices).entries := by
    rw [hentries]
    exact List.mem_append_right _ List.mem_cons_self
  rcases mem_entries_foldl hmem with ⟨b, hb, hentry⟩ | hnil
  · cases hentry
    exact ordinary_of_mem_builtins devices b hb
  · cases hnil

theorem create_builtins (devices : Devices δ) (name : String) (arguments : List Value)
    (w : World δ) :
    Unstructural ((builtins devices).create name arguments w).value ∧
      ∀ command, ((builtins devices).create name arguments w).value = .ok command →
        command.Ordinary := by
  unfold Registry.create
  split
  case h_1 factory h => exact ordinary_of_lookup_builtins h arguments w
  case h_2 =>
    refine ⟨.error rfl, ?_⟩
    rintro command ⟨⟩

/-- **The built-in commands conform**: their instances are ordinary, and no evaluation has a
structural fault. -/
theorem conforms_builtins (devices : Devices δ) :
    (standardCommands devices (builtins devices)).Conforms Instance.Ordinary
      fun fault => fault.isStructural = false where
  created h := (create_builtins devices _ _ _).2 _ h
  refused h := (create_builtins devices _ _ _).1 _ h
  stepped := by
    -- a function, before and behind its call; a timer; a poll; and a stub, which is not ordinary
    rintro (⟨f, _ | arguments⟩ | t | p | p) host turn good h
    · cases h
      exact good
    · obtain ⟨turn, -, rfl⟩ := Option.map_eq_some_iff.mp h
      exact good
    · cases h
      trivial
    · cases h
      trivial
    · exact good.elim
  failed := by
    rintro (⟨f, _ | arguments⟩ | t | p | p) host turn fault good h hfault
    · cases h
      cases hfault
    · obtain ⟨turn, hturn, rfl⟩ := Option.map_eq_some_iff.mp h
      -- only functions fail, and with the faults of their operators
      exact (good.unstructural hturn).map Reply.finished fault hfault
    · cases h
      cases hfault
    · cases h
      cases hfault
    · exact good.elim
  supplied := by
    rintro (⟨f, arguments⟩ | t | p | p) source v host good
    · exact good
    · trivial
    · trivial
    · exact good
  applied h := unstructural_result? h _ rfl
  unreadable := rfl

end

end StepScript
