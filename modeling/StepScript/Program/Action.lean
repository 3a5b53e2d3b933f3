import StepScript.Program.Signal
import StepScript.Script.Cache

/-!
# Actions of a program

What a program does in a cycle reads and changes two things beside the program itself, the cache of
parsed texts and the state of the host, and sends signals.  An `Action` is a function that gives
back all of it.

## Main definitions

* `Turn` — what a command of the host gives back when it is addressed.
* `Store` — the cache and the state of the host.
* `Effect`, `Action` — a result with the store after it and the signals sent.
-/

namespace StepScript

/-- What the host gives back when one of its commands is addressed. -/
structure Turn (ω α : Type) where
  /-- The answer. -/
  value : α
  /-- The state of the host after it. -/
  host : ω
  /-- What the command lets see. -/
  notes : List Note

/-- An answer that changes nothing and lets nothing see. -/
def Turn.still {ω α : Type} (value : α) (host : ω) : Turn ω α :=
  ⟨value, host, []⟩

/-- What programs share. -/
structure Store (ω : Type) where
  /-- The parsed texts. -/
  cache : Cache
  /-- The state of the host. -/
  host : ω

/-- A result, the store after it, and the signals sent on the way. -/
structure Effect (ω α : Type) where
  /-- The result. -/
  value : α
  /-- The store afterwards. -/
  store : Store ω
  /-- The signals, in order. -/
  signals : List Signal

/-- Something done with the store. -/
def Action (ω α : Type) : Type :=
  Store ω → Effect ω α

namespace Action

variable {ω α β : Type}

/-- Does nothing. -/
def result (a : α) : Action ω α :=
  fun s => ⟨a, s, []⟩

/-- One action after another. -/
def andThen (x : Action ω α) (f : α → Action ω β) : Action ω β :=
  fun s =>
    let first := x s
    let second := f first.value first.store
    ⟨second.value, second.store, first.signals ++ second.signals⟩

instance : Monad (Action ω) where
  pure := result
  bind := andThen

theorem pure_apply (a : α) (s : Store ω) : (pure a : Action ω α) s = ⟨a, s, []⟩ := rfl

theorem bind_apply (x : Action ω α) (f : α → Action ω β) (s : Store ω) :
    (x >>= f) s = ⟨(f (x s).value (x s).store).value, (f (x s).value (x s).store).store,
      (x s).signals ++ (f (x s).value (x s).store).signals⟩ := rfl

instance : LawfulMonad (Action ω) :=
  LawfulMonad.mk' _ (fun x => by funext s; simp [Functor.map, andThen, result])
    (fun a f => by funext s; simp [bind, andThen, pure, result])
    (fun x f g => by funext s; simp [bind, andThen])

/-- Sends a signal. -/
def emit (signal : Signal) : Action ω Unit :=
  fun s => ⟨(), s, [signal]⟩

/-- Writes to the log. -/
def log (level : LogLevel) (origin : LogOrigin) (message : String) : Action ω Unit :=
  emit (.log ⟨level, origin, message⟩)

/-- Addresses the host. -/
def ask (f : ω → Turn ω α) : Action ω α :=
  fun s =>
    let turn := f s.host
    ⟨turn.value, { s with host := turn.host }, turn.notes.map .note⟩

/-- Parses a script, or finds it in the cache.  Parsing is logged. -/
def script (source : String) : Action ω (Except ParseError (Shared Script)) :=
  fun s =>
    let (found, cache) := s.cache.script source
    let signals :=
      if (s.cache.scripts.lookup source).isSome then []
      else
        [.log ⟨.trace, .cache, "Parsing script of " ++ toString source.utf8ByteSize ++ " bytes"⟩]
    ⟨found, { s with cache }, signals⟩

/-- Parses an expression, or finds it in the cache. -/
def expression (source : String) : Action ω (Except ParseError (Shared Expr)) :=
  fun s =>
    let (found, cache) := s.cache.expression source
    ⟨found, { s with cache }, []⟩

end Action

end StepScript
