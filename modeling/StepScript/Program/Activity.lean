import StepScript.Program.Action

/-!
# Activities

An action always comes to an end.  What a command makes a program do need not: it may warn for ever,
or ask for values whose evaluation asks for further ones.  It may also bring down the program as a
whole.  An `Activity` is like an action, but gives nothing if it never ends or breaks off.

An activity may be defined by any recursion that uses itself only through what it gives.  `recur` is
the least function that satisfies such an equation, so that what holds of all it gives can be shown
as if for one round of the recursion.

## Main definitions

* `Activity` — something done with the store that may give nothing.
* `Below` — one partial function gives all that another gives.
* `recur` — recursion without a bound.
-/

namespace StepScript

/-! ### Recursion without a bound -/

/-- Whatever the first partial function gives, the second gives as well. -/
def Below {σ ρ : Type} (x y : σ → Option ρ) : Prop :=
  ∀ s r, x s = some r → y s = some r

theorem Below.refl {σ ρ : Type} (x : σ → Option ρ) : Below x x :=
  fun _ _ given => given

/-- The least family of partial functions that a round of recursion leaves as it is.  The round
must give no less if it is built on functions that give more. -/
def recur {α σ ρ : Type} (round : (α → σ → Option ρ) → α → σ → Option ρ)
    (monotone : ∀ f g, (∀ a, Below (f a) (g a)) → ∀ a, Below (round f a) (round g a))
    (a : α) (s : σ) : Option ρ :=
  -- the call is applied by a tactic so that no position in the text stays in the term
  round (by apply recur; exact monotone) a s
partial_fixpoint monotonicity by
  intro f g below a s
  have extended : ∀ a, Below (f a) (g a) := by
    intro a s r given
    have related := below a s
    rw [given] at related
    generalize g a s = y at related
    cases related
    rfl
  cases given : round f a s with
  | none =>
    dsimp only
    rw [given]
    exact .bot
  | some r =>
    dsimp only
    rw [given, monotone f g extended a s r given]
    exact .refl

/-- **Induction for recursion without a bound**: what a round gives when it is built on functions
that give only what is wanted, is what the recursion gives. -/
theorem recur_induction {α σ ρ : Type} {round : (α → σ → Option ρ) → α → σ → Option ρ}
    {monotone : ∀ f g, (∀ a, Below (f a) (g a)) → ∀ a, Below (round f a) (round g a)}
    {motive : α → σ → ρ → Prop}
    (step : ∀ f, (∀ a s r, f a s = some r → motive a s r) →
      ∀ a s r, round f a s = some r → motive a s r)
    {a : α} {s : σ} {r : ρ} (given : recur round monotone a s = some r) : motive a s r :=
  recur.partial_correctness round monotone motive step a s r given

/-! ### Activities -/

/-- Something done with the store, which gives nothing if it never ends or breaks off. -/
def Activity (ω α : Type) : Type :=
  Store ω → Option (Effect ω α)

namespace Activity

variable {ω α β : Type}

/-- An action as an activity. -/
def ofAction (x : Action ω α) : Activity ω α :=
  fun s => some (x s)

/-- One activity after another. -/
def andThen (x : Activity ω α) (f : α → Activity ω β) : Activity ω β :=
  fun s => do
    let first ← x s
    let second ← f first.value first.store
    some ⟨second.value, second.store, first.signals ++ second.signals⟩

instance : Monad (Activity ω) where
  pure a := ofAction (.result a)
  bind := andThen

instance : MonadLift (Action ω) (Activity ω) where
  monadLift := ofAction

/-- Sends a signal. -/
def emit (signal : Signal) : Activity ω Unit :=
  ofAction (.emit signal)

/-- Writes to the log. -/
def log (level : LogLevel) (origin : LogOrigin) (message : String) : Activity ω Unit :=
  ofAction (.log level origin message)

/-- Addresses the host. -/
def ask (f : ω → Turn ω α) : Activity ω α :=
  ofAction (.ask f)

/-- A result that may be missing, in which case the activity breaks off. -/
def ofOption (a : Option α) : Activity ω α :=
  fun s => a.map fun a => ⟨a, s, []⟩

/-- Addresses the host, which may give no answer. -/
def await (f : ω → Option (Turn ω α)) : Activity ω α :=
  fun s => (f s.host).map fun turn =>
    ⟨turn.value, { s with host := turn.host }, turn.notes.map .note⟩

/-- Parses an expression, or finds it in the cache. -/
def expression (source : String) : Activity ω (Except ParseError (Shared Expr)) :=
  ofAction (.expression source)

theorem pure_apply (a : α) (s : Store ω) : (pure a : Activity ω α) s = some ⟨a, s, []⟩ := rfl

theorem bind_apply (x : Activity ω α) (f : α → Activity ω β) (s : Store ω) :
    (x >>= f) s = (x s).bind fun first => (f first.value first.store).bind fun second =>
      some ⟨second.value, second.store, first.signals ++ second.signals⟩ := rfl

theorem ofAction_apply (x : Action ω α) (s : Store ω) : ofAction x s = some (x s) := rfl

theorem ofOption_some (a : α) : (ofOption (some a) : Activity ω α) = pure a := rfl

theorem await_apply {f : ω → Option (Turn ω α)} {s : Store ω} {turn : Turn ω α}
    (h : f s.host = some turn) :
    await f s = some ⟨turn.value, ⟨s.cache, turn.host⟩, turn.notes.map .note⟩ := by
  rw [await, h, Option.map_some]

theorem await_eq_none {f : ω → Option (Turn ω α)} {s : Store ω} (h : f s.host = none) :
    await f s = none := by
  rw [await, h, Option.map_none]

instance : LawfulMonad (Activity ω) :=
  LawfulMonad.mk' _
    (fun x => by
      funext s
      show ((x >>= pure) s : Option _) = x s
      cases h : x s <;> simp [bind_apply, pure_apply, h])
    (fun a f => by
      funext s
      cases h : f a s <;> simp [bind_apply, pure_apply, h])
    (fun x f g => by
      funext s
      cases h : x s with
      | none => simp [bind_apply, h]
      | some e =>
        cases h' : f e.value e.store with
        | none => simp [bind_apply, h, h']
        | some e' => cases h'' : g e'.value e'.store <;> simp [bind_apply, h, h', h''])

theorem bind_eq_some_iff {x : Activity ω α} {f : α → Activity ω β} {s : Store ω}
    {e : Effect ω β} :
    (x >>= f) s = some e ↔ ∃ first second, x s = some first ∧
      f first.value first.store = some second ∧
      e = ⟨second.value, second.store, first.signals ++ second.signals⟩ := by
  simp only [bind_apply, Option.bind_eq_some_iff, Option.some.injEq]
  constructor
  · rintro ⟨first, hfirst, second, hsecond, rfl⟩
    exact ⟨first, second, hfirst, hsecond, rfl⟩
  · rintro ⟨first, second, hfirst, hsecond, rfl⟩
    exact ⟨first, hfirst, second, hsecond, rfl⟩

theorem bind_below {x y : Activity ω α} {f g : α → Activity ω β} (h : Below x y)
    (hf : ∀ a, Below (f a) (g a)) : Below (x >>= f) (y >>= g) := by
  intro s e given
  obtain ⟨first, second, hfirst, hsecond, rfl⟩ := bind_eq_some_iff.mp given
  exact bind_eq_some_iff.mpr
    ⟨first, second, h s first hfirst, hf _ _ _ hsecond, rfl⟩

end Activity

end StepScript
