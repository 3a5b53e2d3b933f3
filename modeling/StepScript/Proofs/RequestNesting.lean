import Mathlib.Order.WellFounded
import StepScript.Proofs.Builtins
import StepScript.Proofs.CacheCalls
import StepScript.Proofs.RoundTrip
import StepScript.Proofs.ScriptParsing

/-!
# Requests within requests

A command may ask for an expression, and the evaluation of this expression may call commands that
ask in turn, all in one cycle.  Where commands send only so many messages in a row, two things alone
can keep a cycle from its end: requests that are nested without end, and an operator or a command
that gives nothing.  With built-in commands both can happen.  A poll whose expression is a poll for
the same expression never gets its answer, and a text may be repeated more often than there is room
for.

## Main definitions

* `Incident` — what happens in the course of some work.
* `Meets`, `Reaches` — what happens outside of requests, and also within them.
* `Endless` — requests are nested without end.
* `Commands.Brief` — commands that send only so many messages in a row.
* `Program.Multiplies` — in the next cycle two values are multiplied.

## Main results

* `passed_of_does` — work that comes to an end has passed all that happens in it.
* `ends_resume` — work comes to an end if all that happens in it is passed.
* `brief_builtins` — the built-in commands are brief.
* `Program.cycle_eq_none_iff_endless` — **when a cycle gives nothing**, for all brief commands.
* `Program.cycle_ends_unless_requests_are_endless` — **a cycle with built-in commands ends exactly
  if no requests are nested in it without end**, and no product is too long for a text.
* `Program.wait_until_can_ask_for_itself` — a cycle that never ends.
-/

namespace StepScript

variable {ι ω : Type} {ctx : Context ι ω}

/-! ### What happens in the course of work -/

/-- What happens in the course of some work. -/
inductive Incident (ι ω : Type)
  /-- A command asks for the expression `r`, whose evaluation begins in the store `t`. -/
  | request (r : Expr) (t : Store ω)
  /-- A command is stepped. -/
  | step (command : ι) (host : ω)
  /-- A binary operator is applied. -/
  | operation (op : BinaryOp) (a b : Value)

/-- In the course of the work, begun in the store `s`, something happens.  What happens in the
evaluation of a request does not count, unless that one was resumed. -/
inductive Meets (ctx : Context ι ω) : Task ι → Store ω → Incident ι ω → Prop
  /-- The operator of the expression is applied. -/
  | applied {op : BinaryOp} {left right : Expr} {known : List Value} {s : Store ω} :
    Meets ctx (.settle (.binary op left right) known []) s
      (.operation op (known.getD 0 .null) (known.getD 1 .null))
  /-- By the command that is called. -/
  | called {name : String} {arguments : List Expr} {known : List Value} {s : Store ω}
    {command : ι} {host : ω} {notes : List Note} {x : Incident ι ω}
    (hcreate : ctx.commands.create name known s.host = ⟨.ok command, host, notes⟩)
    (h : Meets ctx (.drive name command) ⟨s.cache, host⟩ x) :
    Meets ctx (.settle (.call name arguments) known []) s x
  /-- In the next operand. -/
  | operand {e e' : Expr} {known : List Value} {rest : List Expr} {s : Store ω}
    {x : Incident ι ω} (h : Meets ctx (.start e') s x) :
    Meets ctx (.settle e known (e' :: rest)) s x
  /-- After the next operand. -/
  | further {e e' : Expr} {known : List Value} {rest : List Expr} {s s' : Store ω}
    {inner : Progress ι} {signals : List Signal} {x : Incident ι ω}
    (hx : Does ctx (.start e') s inner s' signals)
    (h : Meets ctx (.proceed e known rest inner) s' x) :
    Meets ctx (.settle e known (e' :: rest)) s x
  /-- After an operand that has a value. -/
  | known {e : Expr} {known : List Value} {rest : List Expr} {v : Value} {s : Store ω}
    {x : Incident ι ω} (h : Meets ctx (.settle e (known ++ [v]) rest) s x) :
    Meets ctx (.proceed e known rest (.complete v)) s x
  /-- A command is stepped. -/
  | stepped {name : String} {command : ι} {s : Store ω} :
    Meets ctx (.drive name command) s (.step command s.host)
  /-- After a warning. -/
  | warned {name message : String} {command command' : ι} {s : Store ω} {host : ω}
    {notes : List Note} {x : Incident ι ω}
    (hnext : ctx.commands.next command s.host =
      some ⟨(.ok (.warning message), command'), host, notes⟩)
    (h : Meets ctx (.drive name command') ⟨s.cache, host⟩ x) :
    Meets ctx (.drive name command) s x
  /-- A command asks for an expression. -/
  | requested {name source : String} {command command' : ι} {s : Store ω} {host : ω}
    {notes : List Note} {request : Shared Expr} {cache : Cache}
    (hnext : ctx.commands.next command s.host =
      some ⟨(.ok (.request source), command'), host, notes⟩)
    (hparse : s.cache.expression source = (.ok request, cache)) :
    Meets ctx (.drive name command) s (.request request.value ⟨cache, host⟩)
  /-- After a request. -/
  | answered {name source : String} {command command' : ι} {s s' : Store ω} {host : ω}
    {notes : List Note} {request : Shared Expr} {cache : Cache} {inner : Progress ι}
    {signals : List Signal} {x : Incident ι ω}
    (hnext : ctx.commands.next command s.host =
      some ⟨(.ok (.request source), command'), host, notes⟩)
    (hparse : s.cache.expression source = (.ok request, cache))
    (hx : Does ctx (.start request.value) ⟨cache, host⟩ inner s' signals)
    (h : Meets ctx (.answer name command' source request.value inner) s' x) :
    Meets ctx (.drive name command) s x
  /-- After the command has got a value. -/
  | supplied {name source : String} {command command' : ι} {request : Expr} {v : Value}
    {s : Store ω} {host : ω} {notes : List Note} {x : Incident ι ω}
    (hsupply : ctx.commands.supply command source v s.host = ⟨command', host, notes⟩)
    (h : Meets ctx (.drive name command') ⟨s.cache, host⟩ x) :
    Meets ctx (.answer name command source request (.complete v)) s x
  /-- In an evaluation that begins. -/
  | begin {e : Expr} {s : Store ω} {x : Incident ι ω} (h : Meets ctx (.start e) s x) :
    Meets ctx (.resume .fresh e) s x
  /-- After operands that are all known. -/
  | exhausted {e : Expr} {known : List Value} {inner : Evaluation ι} {s : Store ω}
    {x : Incident ι ω} (hes : e.operands.drop known.length = [])
    (h : Meets ctx (.settle e known []) s x) : Meets ctx (.resume (.operand known inner) e) s x
  /-- In an operand that is resumed. -/
  | resumed {e e' : Expr} {known : List Value} {rest : List Expr} {evaluation : Evaluation ι}
    {s : Store ω} {x : Incident ι ω} (hes : e.operands.drop known.length = e' :: rest)
    (h : Meets ctx (.resume evaluation e') s x) :
    Meets ctx (.resume (.operand known evaluation) e) s x
  /-- After an operand that is resumed. -/
  | continued {e e' : Expr} {known : List Value} {rest : List Expr} {evaluation : Evaluation ι}
    {s s' : Store ω} {inner : Progress ι} {signals : List Signal} {x : Incident ι ω}
    (hes : e.operands.drop known.length = e' :: rest)
    (hx : Does ctx (.resume evaluation e') s inner s' signals)
    (h : Meets ctx (.proceed e known rest inner) s' x) :
    Meets ctx (.resume (.operand known evaluation) e) s x
  /-- By a command that is stepped again. -/
  | calling {name : String} {command : ι} {e : Expr} {s : Store ω} {x : Incident ι ω}
    (h : Meets ctx (.drive name command) s x) :
    Meets ctx (.resume (.calling name command) e) s x
  /-- In a request that is resumed. -/
  | asking {name source : String} {command : ι} {request e : Expr} {evaluation : Evaluation ι}
    {s : Store ω} {x : Incident ι ω} (h : Meets ctx (.resume evaluation request) s x) :
    Meets ctx (.resume (.asking name command source request evaluation) e) s x
  /-- After a request that is resumed. -/
  | asked {name source : String} {command : ι} {request e : Expr} {evaluation : Evaluation ι}
    {s s' : Store ω} {inner : Progress ι} {signals : List Signal} {x : Incident ι ω}
    (hx : Does ctx (.resume evaluation request) s inner s' signals)
    (h : Meets ctx (.answer name command source request inner) s' x) :
    Meets ctx (.resume (.asking name command source request evaluation) e) s x

/-- Something happens in the course of the work, or in the evaluation of a request, at any
depth. -/
inductive Reaches (ctx : Context ι ω) : Task ι → Store ω → Incident ι ω → Prop
  /-- Outside of requests. -/
  | here {task : Task ι} {s : Store ω} {x : Incident ι ω} (h : Meets ctx task s x) :
    Reaches ctx task s x
  /-- In the evaluation of a request. -/
  | within {task : Task ι} {s t : Store ω} {r : Expr} {x : Incident ι ω}
    (h : Meets ctx task s (.request r t)) (inner : Reaches ctx (.start r) t x) :
    Reaches ctx task s x

/-- The first request is made while the second one is evaluated. -/
def Within (ctx : Context ι ω) (inner outer : Expr × Store ω) : Prop :=
  Meets ctx (.start outer.1) outer.2 (.request inner.1 inner.2)

/-- Requests are nested without end in the evaluation of an expression: there is one, and each has
another one in it. -/
def Endless (ctx : Context ι ω) (r : Expr) (s : Store ω) : Prop :=
  ∃ chain : Nat → Expr × Store ω, chain 0 = (r, s) ∧ ∀ n, Within ctx (chain (n + 1)) (chain n)

theorem endless_iff {r : Expr} {s : Store ω} : Endless ctx r s ↔ ¬Acc (Within ctx) (r, s) :=
  not_acc_iff_exists_descending_chain.symm

/-- A command or an operator gives nothing, which brings down the program. -/
def Incident.Fatal (commands : Commands ι ω) : Incident ι ω → Prop
  | request _ _ => False
  | step command host => commands.next command host = none
  | operation op a b => op.apply a b = none

/-- The work comes to an end. -/
def Ends (ctx : Context ι ω) (task : Task ι) (s : Store ω) : Prop :=
  ∃ progress t signals, Does ctx task s progress t signals

/-- The work can go on after it: a request comes to an end, with no endless requests in it, and a
command or an operator gives something. -/
def Incident.Passed (ctx : Context ι ω) : Incident ι ω → Prop
  | request r t => Ends ctx (.start r) t ∧ Acc (Within ctx) (r, t)
  | step command host => ctx.commands.next command host ≠ none
  | operation op a b => op.apply a b ≠ none

/-! ### Work that ends has passed all that happens in it -/

theorem Does.unique {task : Task ι} {s t t' : Store ω} {progress progress' : Progress ι}
    {signals signals' : List Signal} (h : Does ctx task s progress t signals)
    (h' : Does ctx task s progress' t' signals') : progress = progress' ∧ t = t' := by
  cases (activity_of_does h).symm.trans (activity_of_does h')
  exact ⟨rfl, rfl⟩

/-- **Work that comes to an end has passed all that happens in it.** -/
theorem passed_of_does {task : Task ι} {s s' : Store ω} {progress : Progress ι}
    {signals : List Signal} (h : Does ctx task s progress s' signals) {x : Incident ι ω}
    (meets : Meets ctx task s x) : x.Passed ctx := by
  induction h generalizing x with
  | applied hresult =>
    cases meets with
    | applied => exact Option.ne_none_iff_exists'.mpr ⟨_, hresult⟩
    | called => cases hresult
  | refused hcreate =>
    cases meets with
    | called hcreate' => cases hcreate.symm.trans hcreate'
  | called hcreate h ih =>
    cases meets with
    | called hcreate' meets =>
      cases hcreate.symm.trans hcreate'
      exact ih meets
  | operand hx h ihx ih =>
    cases meets with
    | operand meets => exact ihx meets
    | further hx' meets =>
      -- There is only one way in which the operand can have ended.
      obtain ⟨rfl, rfl⟩ := hx.unique hx'
      exact ih meets
  | known h ih =>
    cases meets with
    | known meets => exact ih meets
  | held | broken | pending | denied => cases meets
  | failed hnext | finished hnext | suspended hnext =>
    cases meets with
    | stepped => exact Option.ne_none_iff_exists'.mpr ⟨_, hnext⟩
    | warned hnext' | requested hnext' | answered hnext' => cases hnext.symm.trans hnext'
  | warned hnext h ih =>
    cases meets with
    | stepped => exact Option.ne_none_iff_exists'.mpr ⟨_, hnext⟩
    | warned hnext' meets =>
      cases hnext.symm.trans hnext'
      exact ih meets
    | requested hnext' | answered hnext' => cases hnext.symm.trans hnext'
  | unreadable hnext hparse =>
    cases meets with
    | stepped => exact Option.ne_none_iff_exists'.mpr ⟨_, hnext⟩
    | warned hnext' => cases hnext.symm.trans hnext'
    | requested hnext' hparse' | answered hnext' hparse' =>
      cases hnext.symm.trans hnext'
      cases hparse.symm.trans hparse'
  | requested hnext hparse hx h ihx ih =>
    cases meets with
    | stepped => exact Option.ne_none_iff_exists'.mpr ⟨_, hnext⟩
    | warned hnext' => cases hnext.symm.trans hnext'
    | requested hnext' hparse' =>
      cases hnext.symm.trans hnext'
      cases hparse.symm.trans hparse'
      -- All that is asked for within this request is accessible, and therefore so is the request.
      exact ⟨⟨_, _, _, hx⟩, .intro _ fun inner within => (ihx within).2⟩
    | answered hnext' hparse' hx' meets =>
      cases hnext.symm.trans hnext'
      cases hparse.symm.trans hparse'
      obtain ⟨rfl, rfl⟩ := hx.unique hx'
      exact ih meets
  | supplied hsupply h ih =>
    cases meets with
    | supplied hsupply' meets =>
      cases hsupply.symm.trans hsupply'
      exact ih meets
  | begin h ih =>
    cases meets with
    | begin meets => exact ih meets
  | exhausted hes h ih =>
    cases meets with
    | exhausted hes' meets => exact ih meets
    | resumed hes' | continued hes' => cases hes.symm.trans hes'
  | resumed hes hx h ihx ih =>
    cases meets with
    | exhausted hes' => cases hes.symm.trans hes'
    | resumed hes' meets =>
      cases hes.symm.trans hes'
      exact ihx meets
    | continued hes' hx' meets =>
      cases hes.symm.trans hes'
      obtain ⟨rfl, rfl⟩ := hx.unique hx'
      exact ih meets
  | calling h ih =>
    cases meets with
    | calling meets => exact ih meets
  | asking hx h ihx ih =>
    cases meets with
    | asking meets => exact ihx meets
    | asked hx' meets =>
      obtain ⟨rfl, rfl⟩ := hx.unique hx'
      exact ih meets

/-- Nothing brings down the program in work that comes to an end, at any depth. -/
theorem not_fatal_of_ends {task : Task ι} {s : Store ω} (ends : Ends ctx task s)
    {x : Incident ι ω} (reaches : Reaches ctx task s x) : ¬x.Fatal ctx.commands := by
  induction reaches with
  | @here task s x meets =>
    obtain ⟨progress, t, signals, h⟩ := ends
    have passed := passed_of_does h meets
    cases x with
    | request r t => exact id
    | step command host => exact passed
    | operation op a b => exact passed
  | within meets _ ih =>
    obtain ⟨progress, t, signals, h⟩ := ends
    exact ih (passed_of_does h meets).1

/-! ### Work comes to an end if all that happens in it is passed -/

/-- All that happens in the course of the work is passed. -/
def Clear (ctx : Context ι ω) (task : Task ι) (s : Store ω) : Prop :=
  ∀ x, Meets ctx task s x → x.Passed ctx

/-- Instances send only so many messages in a row: each of them has a rank, which falls with every
warning, and with every request that is answered. -/
structure Commands.Brief (commands : Commands ι ω) (good : ι → Prop) (rank : ι → Nat) : Prop where
  warned : ∀ {command command' message host host' notes}, good command →
    commands.next command host = some ⟨(.ok (.warning message), command'), host', notes⟩ →
    rank command' < rank command
  requested : ∀ {command command' source host host' notes}, good command →
    commands.next command host = some ⟨(.ok (.request source), command'), host', notes⟩ →
    ∀ v host, rank (commands.supply command' source v host).value < rank command

section

variable {good : ι → Prop} {mild : Fault → Prop} {rank : ι → Nat} {s : Store ω}

theorem ends_answer {name source : String} {command : ι} {request : Expr} {progress : Progress ι}
    (drives : ∀ v command' host notes, progress = .complete v →
      ctx.commands.supply command source v s.host = ⟨command', host, notes⟩ →
      Ends ctx (.drive name command') ⟨s.cache, host⟩) :
    Ends ctx (.answer name command source request progress) s := by
  cases progress with
  | suspended inner => exact ⟨_, _, _, .pending⟩
  | failed fault inner => exact ⟨_, _, _, .denied⟩
  | complete v =>
    rcases hsupply : ctx.commands.supply command source v s.host with ⟨command', host, notes⟩
    obtain ⟨progress, t, signals, h⟩ := drives v command' host notes rfl hsupply
    exact ⟨progress, t, _, .supplied hsupply h⟩

theorem ends_proceed {e : Expr} {known : List Value} {rest : List Expr} {progress : Progress ι}
    (settles : ∀ v, progress = .complete v → Ends ctx (.settle e (known ++ [v]) rest) s) :
    Ends ctx (.proceed e known rest progress) s := by
  cases progress with
  | suspended inner => exact ⟨_, _, _, .held⟩
  | failed fault inner => exact ⟨_, _, _, .broken⟩
  | complete v =>
    obtain ⟨progress, t, signals, h⟩ := settles v rfl
    exact ⟨progress, t, signals, .known h⟩

/-- A brief command comes to an end if all that happens is passed. -/
theorem ends_drive (conforms : ctx.commands.Conforms good mild)
    (brief : ctx.commands.Brief good rank) {name : String} {command : ι} (hgood : good command)
    (hclear : Clear ctx (.drive name command) s) : Ends ctx (.drive name command) s := by
  -- Every message that leaves the command running lowers its rank.
  induction hrank : rank command using Nat.strongRecOn generalizing command s with
  | ind n ih =>
    subst hrank
    rcases hnext : ctx.commands.next command s.host with _ | ⟨⟨reply, command'⟩, host, notes⟩
    · exact absurd hnext (hclear _ .stepped)
    have hgood' : good command' := conforms.stepped hgood hnext
    rcases reply with fault | v | _ | source | message
    · exact ⟨_, _, _, .failed hnext⟩
    · exact ⟨_, _, _, .finished hnext⟩
    · exact ⟨_, _, _, .suspended hnext⟩
    · rcases hparse : s.cache.expression source with ⟨error | request, cache⟩
      · exact ⟨_, _, _, .unreadable hnext hparse⟩
      obtain ⟨inner, s', first, hx⟩ := (hclear _ (.requested hnext hparse)).1
      obtain ⟨progress, t, second, h⟩ : Ends ctx
          (.answer name command' source request.value inner) s' := by
        refine ends_answer fun v command'' host' notes' hv hsupply => ?_
        have lower := brief.requested hgood hnext v s'.host
        have kept := conforms.supplied source v s'.host hgood'
        rw [hsupply] at lower kept
        refine ih _ lower kept (fun x meets => ?_) rfl
        subst hv
        exact hclear x (.answered hnext hparse hx (.supplied hsupply meets))
      exact ⟨progress, t, _, .requested hnext hparse hx h⟩
    · obtain ⟨progress, t, signals, h⟩ := ih _ (brief.warned hgood hnext) hgood'
        (fun x meets => hclear x (.warned hnext meets)) rfl
      exact ⟨progress, t, _, .warned hnext h⟩

theorem ends_settle (conforms : ctx.commands.Conforms good mild)
    (brief : ctx.commands.Brief good rank) {e : Expr} {rest : List Expr}
    (operands : ∀ e' ∈ rest, ∀ s, Clear ctx (.start e') s → Ends ctx (.start e') s)
    {known : List Value} (hclear : Clear ctx (.settle e known rest) s) :
    Ends ctx (.settle e known rest) s := by
  induction rest generalizing known s with
  | nil =>
    -- all operands are known: the expression has a result, or it is a call
    cases hresult : e.result? ctx.vars known with
    | some result => exact ⟨_, _, _, .applied hresult⟩
    | none =>
      cases e with
      | literal | reference | unary => cases hresult
      -- an operator without a result is among what must not be met
      | binary => exact absurd hresult (hclear _ .applied)
      | call name arguments =>
        rcases hcreate : ctx.commands.create name known s.host with ⟨fault | command, host, notes⟩
        · exact ⟨_, _, _, .refused hcreate⟩
        obtain ⟨progress, t, signals, h⟩ := ends_drive conforms brief
          (conforms.created (congrArg Turn.value hcreate))
          fun x meets => hclear x (.called hcreate meets)
        exact ⟨progress, t, _, .called hcreate h⟩
  | cons e' rest ih =>
    -- the next operand, and then the others in the store that it leaves
    obtain ⟨inner, s', first, hx⟩ := operands e' List.mem_cons_self s
      fun x meets => hclear x (.operand meets)
    obtain ⟨progress, t, second, h⟩ : Ends ctx (.proceed e known rest inner) s' := by
      refine ends_proceed fun v hv => ?_
      refine ih (fun y hy => operands y (List.mem_cons_of_mem e' hy)) fun x meets => ?_
      subst hv
      exact hclear x (.further hx (.known meets))
    exact ⟨progress, t, _, .operand hx h⟩

theorem ends_start (conforms : ctx.commands.Conforms good mild)
    (brief : ctx.commands.Brief good rank) {e : Expr} (hclear : Clear ctx (.start e) s) :
    Ends ctx (.start e) s := by
  induction e using Expr.operands_induction generalizing s with
  | step e ih => exact ends_settle conforms brief (fun e' he' s => ih e' he') hclear

/-- **Work comes to an end if all that happens in it is passed.** -/
theorem ends_resume (conforms : ctx.commands.Conforms good mild)
    (brief : ctx.commands.Brief good rank) {evaluation : Evaluation ι} {e : Expr}
    (holds : evaluation.Holds good) (hclear : Clear ctx (.resume evaluation e) s) :
    Ends ctx (.resume evaluation e) s := by
  induction evaluation generalizing e with
  | fresh =>
    obtain ⟨progress, t, signals, h⟩ := ends_start conforms brief
      fun x meets => hclear x (.begin meets)
    exact ⟨progress, t, signals, .begin h⟩
  | operand known inner ih =>
    -- The operands behind the one that is resumed are evaluated from the beginning.
    have settles {rest : List Expr} {known : List Value} {s : Store ω} :
        Clear ctx (.settle e known rest) s → Ends ctx (.settle e known rest) s :=
      ends_settle conforms brief fun _ _ _ => ends_start conforms brief
    cases hes : e.operands.drop known.length with
    | nil =>
      obtain ⟨progress, t, signals, h⟩ := settles fun x meets => hclear x (.exhausted hes meets)
      exact ⟨progress, t, signals, .exhausted hes h⟩
    | cons e' rest =>
      obtain ⟨progress, s', first, hx⟩ := ih holds fun x meets => hclear x (.resumed hes meets)
      obtain ⟨progress', t, second, h⟩ : Ends ctx (.proceed e known rest progress) s' := by
        refine ends_proceed fun v hv => settles fun x meets => ?_
        subst hv
        exact hclear x (.continued hes hx (.known meets))
      exact ⟨progress', t, _, .resumed hes hx h⟩
  | calling name command =>
    obtain ⟨progress, t, signals, h⟩ := ends_drive conforms brief holds
      fun x meets => hclear x (.calling meets)
    exact ⟨progress, t, signals, .calling h⟩
  | asking name command source request inner ih =>
    obtain ⟨progress, s', first, hx⟩ := ih holds.2 fun x meets => hclear x (.asking meets)
    obtain ⟨progress', t, second, h⟩ : Ends ctx
        (.answer name command source request progress) s' := by
      refine ends_answer fun v command' host notes hv hsupply => ?_
      have kept := conforms.supplied source v s'.host holds.1
      rw [hsupply] at kept
      refine ends_drive conforms brief kept fun x meets => ?_
      subst hv
      exact hclear x (.asked hx (.supplied hsupply meets))
    exact ⟨progress', t, _, .asking hx h⟩

/-- All that happens is passed if requests come to an end and nothing is fatal. -/
theorem clear_of_requests {task : Task ι}
    (requests : ∀ r t, Meets ctx task s (.request r t) →
      Ends ctx (.start r) t ∧ Acc (Within ctx) (r, t))
    (safe : ∀ x, Meets ctx task s x → ¬x.Fatal ctx.commands) : Clear ctx task s := by
  intro x meets
  cases x with
  | request r t => exact requests r t meets
  | step command host => exact safe _ meets
  | operation op a b => exact safe _ meets

/-- An expression comes to an end if there are no endless requests and nothing fatal in it. -/
theorem ends_of_acc (conforms : ctx.commands.Conforms good mild)
    (brief : ctx.commands.Brief good rank) {request : Expr × Store ω}
    (acc : Acc (Within ctx) request)
    (safe : ∀ x, Reaches ctx (.start request.1) request.2 x → ¬x.Fatal ctx.commands) :
    Ends ctx (.start request.1) request.2 := by
  induction acc with
  | intro request inner ih =>
    refine ends_start conforms brief (clear_of_requests (fun r t meets => ?_) fun x meets => ?_)
    · exact ⟨ih (r, t) meets fun x reaches => safe x (.within meets reaches), inner (r, t) meets⟩
    · exact safe x (.here meets)

/-- An evaluation gives nothing if requests are nested in it without end, or if something fatal
happens at some depth. -/
theorem resume_eq_none_iff (conforms : ctx.commands.Conforms good mild)
    (brief : ctx.commands.Brief good rank) {evaluation : Evaluation ι} {e : Expr}
    (holds : evaluation.Holds good) :
    resume ctx evaluation e s = none ↔
      (∃ r t, Meets ctx (.resume evaluation e) s (.request r t) ∧ Endless ctx r t) ∨
        ∃ x, Reaches ctx (.resume evaluation e) s x ∧ x.Fatal ctx.commands := by
  constructor
  · intro hnone
    -- Without either obstacle the evaluation ends, by the order in which requests are nested.
    by_contra! finite
    obtain ⟨finite, safe⟩ := finite
    obtain ⟨progress, t, signals, h⟩ : Ends ctx (.resume evaluation e) s := by
      refine ends_resume conforms brief holds
        (clear_of_requests (fun r t meets => ?_) fun x meets => safe x (.here meets))
      have acc : Acc (Within ctx) (r, t) := not_not.mp (mt endless_iff.mpr (finite r t meets))
      exact ⟨ends_of_acc conforms brief acc fun x reaches => safe x (.within meets reaches), acc⟩
    cases hnone.symm.trans (activity_of_does h)
  · intro obstacle
    rw [← Option.not_isSome_iff_eq_none]
    intro hsome
    obtain ⟨effect, given⟩ := Option.isSome_iff_exists.mp hsome
    have does := does_of_resume given
    -- What is done has passed all that it met.
    rcases obstacle with ⟨r, t, meets, endless⟩ | ⟨x, reaches, fatal⟩
    · exact endless_iff.mp endless (passed_of_does does meets).2
    · exact not_fatal_of_ends ⟨_, _, _, does⟩ reaches fatal

end

/-! ### The commands that are stepped -/

/-- A command that is stepped is good. -/
def Incident.Holds (good : ι → Prop) : Incident ι ω → Prop
  | step command _ => good command
  | request _ _ | operation _ _ _ => True

section

variable {good : ι → Prop} {mild : Fault → Prop} {task : Task ι} {s : Store ω} {x : Incident ι ω}

theorem holds_of_meets (conforms : ctx.commands.Conforms good mild) (meets : Meets ctx task s x)
    (holds : task.Holds good mild) : x.Holds good := by
  induction meets with
  | applied | requested => trivial
  | stepped => exact holds
  | called hcreate h ih => exact ih (conforms.created (congrArg Turn.value hcreate))
  | operand h ih | known h ih | begin h ih | exhausted hes h ih => exact ih trivial
  | further hx h ih => exact ih (holds_of_does conforms hx trivial)
  | warned hnext h ih => exact ih (conforms.stepped holds hnext)
  | answered hnext hparse hx h ih =>
    exact ih ⟨conforms.stepped holds hnext, holds_of_does conforms hx trivial⟩
  | @supplied name source command command' request v s host notes x hsupply h ih =>
    have kept := conforms.supplied source v s.host holds.1
    rw [hsupply] at kept
    exact ih kept
  | resumed hes h ih | calling h ih => exact ih holds
  | continued hes hx h ih => exact ih (holds_of_does conforms hx holds)
  | asking h ih => exact ih holds.2
  | asked hx h ih => exact ih ⟨holds.1, holds_of_does conforms hx holds.2⟩

/-- **Commands that are stepped are good**, at any depth of requests. -/
theorem holds_of_reaches (conforms : ctx.commands.Conforms good mild)
    (reaches : Reaches ctx task s x) (holds : task.Holds good mild) : x.Holds good := by
  induction reaches with
  | here meets => exact holds_of_meets conforms meets holds
  | within meets inner ih => exact ih trivial

end

/-! ### Built-in commands -/

/-- How many messages a poll has left to send in this cycle. -/
def Poll.rank (p : Poll) : Nat :=
  match p.phase with
  | .unknown => 2
  | .known _ => 1
  | .abandoned => 0

/-- What a poll answers: it asks for its expression, gives up on it, or stops for this cycle. -/
theorem Poll.next_cases (p : Poll) :
    (p.phase = .unknown ∧ p.next = (.request p.expression, p)) ∨
    (∃ message, p.phase = .known .null ∧
      p.next = (.warning message, { p with phase := .abandoned })) ∨
    (∃ v, p.next.1 = .finished v) ∨ p.next.1 = .suspend := by
  obtain ⟨expression, _ | v | _⟩ := p
  · exact .inl ⟨rfl, rfl⟩
  · by_cases hv : v = .null
    · subst hv
      exact .inr (.inl ⟨_, rfl, rfl⟩)
    · have hnext : (Poll.mk expression (.known v)).next.1 =
          if v.isTruthy then .finished v else .suspend := by
        cases v with
        | null => exact absurd rfl hv
        | _ => rfl
      rw [hnext]
      split
      · exact .inr (.inr (.inl ⟨v, rfl⟩))
      · exact .inr (.inr (.inr rfl))
  · exact .inr (.inr (.inl ⟨.null, rfl⟩))

section

variable {δ : Type} {devices : Devices δ}

namespace Instance

/-- How many messages a built-in command has left to send in this cycle. -/
def rank : Instance δ → Nat
  | poll p => p.rank
  | _ => 0

/-- Of the built-in commands only polls send messages. -/
theorem eq_poll_of_next {i i' : Instance δ} {reply : Reply} {w w' : World δ} {notes : List Note}
    (ordinary : i.Ordinary) (h : i.next devices w = some ⟨(.ok reply, i'), w', notes⟩)
    (hfinished : ∀ v, reply ≠ .finished v) (hsuspend : reply ≠ .suspend) :
    ∃ p, i = poll p ∧ p.next.1 = reply ∧ i' = poll p.next.2 := by
  cases i with
  | simple f arguments =>
    -- a function finishes or fails
    cases arguments with
    | none =>
      cases h
      exact absurd rfl (hfinished .null)
    | some arguments =>
      obtain ⟨turn, -, hturn⟩ := Option.map_eq_some_iff.mp h
      have hvalue : turn.value.map Reply.finished = .ok reply := congrArg (·.value.1) hturn
      cases hresult : turn.value with
      | error fault =>
        rw [hresult] at hvalue
        cases hvalue
      | ok v =>
        rw [hresult] at hvalue
        cases hvalue
        exact absurd rfl (hfinished v)
  | timer t =>
    -- a timer finishes or asks for time
    have hreply : t.reply (w.time devices).1 = reply := by
      cases h
      rfl
    rw [Timer.reply] at hreply
    split at hreply
    · exact absurd hreply.symm (hfinished .null)
    · exact absurd hreply.symm hsuspend
  | poll p =>
    cases h
    exact ⟨p, rfl, rfl, rfl⟩
  | playback p => exact ordinary.elim

/-- A built-in command gives nothing only if it multiplies what is too long for a text. -/
theorem eq_multiplication_of_next {i : Instance δ} {w : World δ} (ordinary : i.Ordinary)
    (h : i.next devices w = none) :
    ∃ a b, i = simple multiplication (some [a, b]) ∧ Overlong a b := by
  cases i with
  | simple f arguments =>
    cases arguments with
    | none => cases h
    | some arguments =>
      have hnone : f arguments w = none := Option.map_eq_none_iff.mp h
      obtain rfl := ordinary.eq_multiplication hnone
      obtain ⟨a, b, rfl, long⟩ := multiplication_eq_none_iff.mp hnone
      exact ⟨a, b, rfl, long⟩
  | timer | poll | playback => cases h

end Instance

/-- **The built-in commands are brief.** -/
theorem brief_builtins (devices : Devices δ) :
    (standardCommands devices (builtins devices)).Brief Instance.Ordinary Instance.rank where
  warned := by
    intro command command' message host host' notes ordinary h
    obtain ⟨p, rfl, hreply, rfl⟩ := Instance.eq_poll_of_next ordinary h
      (by rintro v ⟨⟩) (by rintro ⟨⟩)
    obtain ⟨-, hnext⟩ | ⟨message', hphase, hnext⟩ | ⟨v, hv⟩ | hsuspend := p.next_cases
    · cases (congrArg Prod.fst hnext).symm.trans hreply
    · -- behind its warning, a poll only finishes
      rw [hnext, Instance.rank, Instance.rank, Poll.rank, Poll.rank, hphase]
      exact Nat.one_pos
    · cases hv.symm.trans hreply
    · cases hsuspend.symm.trans hreply
  requested := by
    intro command command' source host host' notes ordinary h v w
    obtain ⟨p, rfl, hreply, rfl⟩ := Instance.eq_poll_of_next ordinary h
      (by rintro v ⟨⟩) (by rintro ⟨⟩)
    obtain ⟨hphase, hnext⟩ | ⟨message', hphase, hnext⟩ | ⟨v, hv⟩ | hsuspend := p.next_cases
    · cases (congrArg Prod.fst hnext).symm.trans hreply
      rw [hnext]
      -- with its value, a poll warns at most, and asks no more in this cycle
      change Poll.rank (p.supply p.expression v) < p.rank
      rw [Poll.supply, if_pos rfl, Poll.rank, Poll.rank, hphase]
      exact Nat.one_lt_two
    · cases (congrArg Prod.fst hnext).symm.trans hreply
    · cases hv.symm.trans hreply
    · cases hsuspend.symm.trans hreply

end

namespace Program

/-! ### Cycles -/

/-- The task is what the next cycle of the program goes on with. -/
def Works (p : Program ι) (task : Task ι) : Prop :=
  p.status = .running ∧ ∃ s e, p.current? = some s ∧ s.kind.value? = some e ∧
    task = .resume (p.evaluation.getD .fresh) e

theorem Works.holds {good : ι → Prop} {mild : Fault → Prop} {p : Program ι} {task : Task ι}
    (works : p.Works task) (holds : p.Holds good) : task.Holds good mild := by
  obtain ⟨-, s, e, -, -, rfl⟩ := works
  exact holds

/-- In the next cycle of the program a command asks for the expression `r`, whose evaluation begins
in the store `t`. -/
def Poses (commands : Commands ι ω) (p : Program ι) (store : Store ω) (r : Expr) (t : Store ω) :
    Prop :=
  ∃ task, p.Works task ∧ Meets ⟨commands, p.vars⟩ task store (.request r t)

/-- In the next cycle of the program something happens, at any depth of requests. -/
def Reaches (commands : Commands ι ω) (p : Program ι) (store : Store ω) (x : Incident ι ω) : Prop :=
  ∃ task, p.Works task ∧ StepScript.Reaches ⟨commands, p.vars⟩ task store x

/-- A cycle gives nothing if the work that it goes on with gives nothing. -/
theorem cycle_eq_none_iff {commands : Commands ι ω} {p : Program ι} {store : Store ω} :
    p.cycle commands store = none ↔
      p.status = .running ∧ ∃ s e, p.current? = some s ∧ s.kind.value? = some e ∧
        resume ⟨commands, p.vars⟩ (p.evaluation.getD .fresh) e store = none := by
  constructor
  · intro h
    -- A cycle that resumes no expression always gives something.
    cases hstatus : p.status with
    | done | failed =>
      simp only [cycle, hstatus] at h
      cases h
    | running =>
      cases hs : p.current? with
      | none =>
        obtain ⟨signals, hcycle, -⟩ := cycle_of_current_eq_none commands hstatus hs store
        cases h.symm.trans hcycle
      | some s =>
        cases he : s.kind.value? with
        | none =>
          have hkind := StatementKind.eq_blockEnd_of_value? he
          obtain ⟨signals, hcycle, -⟩ := cycle_of_blockEnd commands hstatus hs hkind store
          cases h.symm.trans hcycle
        | some e =>
          refine ⟨rfl, s, e, rfl, he, ?_⟩
          cases hresume : resume ⟨commands, p.vars⟩ (p.evaluation.getD .fresh) e store with
          | none => rfl
          | some step =>
            obtain ⟨signals, hcycle, -⟩ := cycle_of_resume hstatus hs he hresume
            cases h.symm.trans hcycle
  · rintro ⟨running, s, e, hs, he, hresume⟩
    exact cycle_eq_none_of_resume running hs he hresume

/-- **A cycle gives nothing if requests are nested in it without end, or if something fatal happens
in it**, and in no other case. -/
theorem cycle_eq_none_iff_endless {good : ι → Prop} {mild : Fault → Prop} {rank : ι → Nat}
    {commands : Commands ι ω} (conforms : commands.Conforms good mild)
    (brief : commands.Brief good rank) {p : Program ι} (holds : p.Holds good) {store : Store ω} :
    p.cycle commands store = none ↔
      (∃ r t, p.Poses commands store r t ∧ Endless ⟨commands, p.vars⟩ r t) ∨
        ∃ x, p.Reaches commands store x ∧ x.Fatal commands := by
  rw [cycle_eq_none_iff]
  constructor
  · rintro ⟨running, s, e, hs, he, hnone⟩
    have works : p.Works (.resume (p.evaluation.getD .fresh) e) := ⟨running, s, e, hs, he, rfl⟩
    rcases (resume_eq_none_iff conforms brief holds).mp hnone with
      ⟨r, t, meets, endless⟩ | ⟨x, reaches, fatal⟩
    · exact .inl ⟨r, t, ⟨_, works, meets⟩, endless⟩
    · exact .inr ⟨x, ⟨_, works, reaches⟩, fatal⟩
  · rintro (⟨r, t, ⟨_, ⟨running, s, e, hs, he, rfl⟩, meets⟩, endless⟩ |
      ⟨x, ⟨_, ⟨running, s, e, hs, he, rfl⟩, reaches⟩, fatal⟩)
    · exact ⟨running, s, e, hs, he,
        (resume_eq_none_iff conforms brief holds).mpr (.inl ⟨r, t, meets, endless⟩)⟩
    · exact ⟨running, s, e, hs, he,
        (resume_eq_none_iff conforms brief holds).mpr (.inr ⟨x, reaches, fatal⟩)⟩

/-- In the next cycle of the program two values are multiplied, by the operator or by the function
`mul`. -/
def Multiplies {δ : Type} (devices : Devices δ) (p : Program (Instance δ)) (store : Store (World δ))
    (a b : Value) : Prop :=
  p.Reaches (standardCommands devices (builtins devices)) store (.operation .multiply a b) ∨
    ∃ w, p.Reaches (standardCommands devices (builtins devices)) store
      (.step (.simple multiplication (some [a, b])) w)

/-- With built-in commands, only products that are too long for a text are fatal. -/
theorem exists_fatal_iff {δ : Type} {devices : Devices δ} {p : Program (Instance δ)}
    {store : Store (World δ)} (holds : p.Holds Instance.Ordinary) :
    (∃ x, p.Reaches (standardCommands devices (builtins devices)) store x ∧
        x.Fatal (standardCommands devices (builtins devices))) ↔
      ∃ a b, p.Multiplies devices store a b ∧ Overlong a b := by
  constructor
  · rintro ⟨x, ⟨task, works, reaches⟩, fatal⟩
    cases x with
    | request r t => exact fatal.elim
    | operation op a b =>
      obtain ⟨rfl, long⟩ := BinaryOp.apply_eq_none_iff.mp fatal
      exact ⟨a, b, .inl ⟨task, works, reaches⟩, long⟩
    | step command w =>
      -- A command of the program is ordinary, so that it gives nothing only if it multiplies.
      have ordinary : command.Ordinary :=
        holds_of_reaches (conforms_builtins devices) reaches (works.holds holds)
      obtain ⟨a, b, rfl, long⟩ := Instance.eq_multiplication_of_next ordinary fatal
      exact ⟨a, b, .inr ⟨w, task, works, reaches⟩, long⟩
  · rintro ⟨a, b, reaches | ⟨w, reaches⟩, long⟩
    · exact ⟨_, reaches, BinaryOp.apply_eq_none_iff.mpr ⟨rfl, long⟩⟩
    · exact ⟨_, reaches, Option.map_eq_none_iff.mpr
        (multiplication_eq_none_iff.mpr ⟨a, b, rfl, long⟩)⟩

end Program

/-! ### A poll for itself -/

theorem derives_selfPoll {poll opening x closing : Token}
    (named : poll.kind = .identifier "wait_until") (opens : opening.kind = .punctuator .leftParen)
    (refers : x.kind = .identifier "x") (closes : closing.kind = .punctuator .rightParen) :
    Derives (.level (.tier .disjunction) (.call "wait_until" [.reference "x"]))
      [poll, opening, x, closing] := by
  have argument := (Derives.reference refers).to_disjunction
  exact (Derives.call named opens (.someArguments (.last argument)) closes).to_disjunction

theorem parseExpr_selfPoll :
    parseExpr "wait_until(x)" = .ok (.call "wait_until" [.reference "x"]) := by
  have kinds : (lex "wait_until(x)").tokens.map Token.kind = [.identifier "wait_until",
      .punctuator .leftParen, .identifier "x", .punctuator .rightParen] := by
    decide +kernel
  simp only [List.map_eq_cons_iff, List.map_eq_nil_iff] at kinds
  obtain ⟨poll, _, whole, named, opening, _, rfl, opens, x, _, rfl, refers, closing, _, rfl, closes,
    rfl⟩ := kinds
  exact parseExpr_eq_ok_iff_derives.mpr
    ⟨by decide +kernel, _, derives_selfPoll named opens refers closes, [], whole, rfl⟩

theorem parseScript_selfPoll : ∃ span, parseScript "wait_until(x);" =
    .ok ⟨[⟨.expression (.call "wait_until" [.reference "x"]), span⟩]⟩ := by
  have kinds : (lex "wait_until(x);").tokens.map Token.kind = [.identifier "wait_until",
      .punctuator .leftParen, .identifier "x", .punctuator .rightParen,
      .punctuator .semicolon] := by
    decide +kernel
  simp only [List.map_eq_cons_iff, List.map_eq_nil_iff] at kinds
  obtain ⟨poll, _, whole, named, opening, _, rfl, opens, x, _, rfl, refers, closing, _, rfl, closes,
    semicolon, _, rfl, ends, rfl⟩ := kinds
  have statement : DerivesKind ([poll, opening, x, closing] ++ [semicolon])
      (.expression (.call "wait_until" [.reference "x"])) :=
    .expression (derives_selfPoll named opens refers closes) ends
  let span : Span := ⟨poll.span.start, semicolon.span.stop⟩
  have script : DerivesScript ([poll, opening, x, closing, semicolon] ++ [])
      [⟨.expression (.call "wait_until" [.reference "x"]), span⟩] :=
    .cons ⟨statement, poll, rfl, semicolon, rfl, rfl⟩ .nil
  exact ⟨span, parseScript_eq_ok_iff.mpr ⟨_, tokens_eq_ok_iff.mpr ⟨by decide +kernel, whole⟩,
    parseStatements_eq_ok_iff.mpr script⟩⟩

/-- The variables with which a poll for `x` is a poll for itself. -/
def selfPollVariables : Variables :=
  Variables.initial.setAll [("x", .str "wait_until(x)")]

section

variable {δ : Type} (devices : Devices δ) {s : Store (World δ)}

/-- A poll for itself asks for itself. -/
theorem meets_selfPoll (sound : s.cache.Sound) :
    ∃ t, t.cache.Sound ∧ Meets ⟨standardCommands devices (builtins devices), selfPollVariables⟩
      (.start (.call "wait_until" [.reference "x"])) s
      (.request (.call "wait_until" [.reference "x"]) t) := by
  have hvalue := sound.expression_value "wait_until(x)"
  rw [parseExpr_selfPoll] at hvalue
  rcases hparse : s.cache.expression "wait_until(x)" with ⟨error | ⟨serial, request⟩, cache⟩
  · rw [hparse] at hvalue
    cases hvalue
  · rw [hparse] at hvalue
    cases hvalue
    have kept := sound.expression "wait_until(x)"
    rw [hparse] at kept
    exact ⟨⟨cache, s.host⟩, kept,
      .further (.applied rfl) (.known (.called rfl (.requested rfl hparse)))⟩

theorem endless_selfPoll (sound : s.cache.Sound) :
    Endless ⟨standardCommands devices (builtins devices), selfPollVariables⟩
      (.call "wait_until" [.reference "x"]) s := by
  rw [endless_iff]
  intro acc
  -- The request within the poll is the poll itself, in a store that may hold more.
  generalize hrequest : (Expr.call "wait_until" [.reference "x"], s) = request at acc
  induction acc generalizing s with
  | intro request _ ih =>
    subst hrequest
    obtain ⟨t, sound', meets⟩ := meets_selfPoll devices sound
    exact ih (_, t) meets sound' rfl

end

namespace Program

section

variable {δ : Type}

/-- The program of the text `wait_until(x);`, where `x` holds the text `wait_until(x)`. -/
def selfPoll (span : Span) : Program (Instance δ) :=
  (ofScript ⟨[⟨.expression (.call "wait_until" [.reference "x"]), span⟩]⟩ selfPollVariables).named
    "poll"

theorem exists_poses_selfPoll (devices : Devices δ) (span : Span) (w : World δ) {cache : Cache}
    (sound : cache.Sound) :
    ∃ r t, (selfPoll span).Poses (standardCommands devices (builtins devices)) ⟨cache, w⟩ r t ∧
      Endless ⟨standardCommands devices (builtins devices), selfPollVariables⟩ r t := by
  obtain ⟨t, sound', meets⟩ := meets_selfPoll devices (s := ⟨cache, w⟩) sound
  exact ⟨_, t, ⟨_, ⟨rfl, _, _, rfl, rfl, rfl⟩, .begin meets⟩, endless_selfPoll devices sound'⟩

/-- The program of the text `"0123456789abcdef" * 9223372036854775807;`. -/
def longProduct : Program (Instance δ) :=
  (ofScript ⟨[⟨.expression (.binary .multiply (.literal (.str "0123456789abcdef"))
    (.literal (.int 9223372036854775807))), default⟩]⟩ .initial).named "product"

theorem multiplies_longProduct (devices : Devices δ) (store : Store (World δ)) :
    longProduct.Multiplies devices store (.str "0123456789abcdef") (.int 9223372036854775807) :=
  .inl ⟨_, ⟨rfl, _, _, rfl, rfl, rfl⟩, .here (.begin (.further (.applied rfl)
    (.known (.further (.applied rfl) (.known .applied)))))⟩

/-- On no machine does the first cycle of a poll for itself come to an end. -/
theorem cycle_selfPoll_eq_none (devices : Devices δ) (span : Span) (w : World δ) :
    (selfPoll span).cycle (standardCommands devices (builtins devices)) ⟨.empty, w⟩ = none := by
  have conforms := conforms_builtins devices
  have reachable : Reachable (standardCommands devices (builtins devices)) (selfPoll span)
      ⟨.empty, w⟩ := .start _ _ _ _
  have holds : (selfPoll span).Holds Instance.Ordinary := holds_of_reachable conforms reachable
  have endless := exists_poses_selfPoll devices span w Cache.sound_empty
  exact (cycle_eq_none_iff_endless conforms (brief_builtins devices) holds).mpr (.inl endless)

end

/-- **A cycle can go on for ever**: a poll whose expression is a poll for the same expression. -/
theorem wait_until_can_ask_for_itself :
    let commands := standardCommands Simulation.devices (builtins Simulation.devices)
    let store : Store (World Simulation) := ⟨.empty, ⟨⟨0, mkStdGen⟩, []⟩⟩
    ∃ p, parseScript "wait_until(x);" = .ok p.script ∧
      p.vars = Variables.initial.setAll [("x", .str "wait_until(x)")] ∧
      Reachable commands p store ∧ p.cycle commands store = none := by
  intro commands store
  obtain ⟨span, hparse⟩ := parseScript_selfPoll
  exact ⟨selfPoll span, hparse, rfl, .start _ _ _ _, cycle_selfPoll_eq_none _ span _⟩

/-- **A cycle with built-in commands comes to an end exactly if no requests are nested in it without
end**, and no text is repeated more often than there is room for.  Operands, warnings and the values
that commands are given do not keep it going, whatever the clock shows and whichever numbers are
drawn. -/
theorem cycle_ends_unless_requests_are_endless {δ : Type} {devices : Devices δ}
    {p : Program (Instance δ)} {store : Store (World δ)}
    (reachable : Reachable (standardCommands devices (builtins devices)) p store) :
    (∃ effect, p.cycle (standardCommands devices (builtins devices)) store = some effect) ↔
      (∀ r t, p.Poses (standardCommands devices (builtins devices)) store r t →
        ¬Endless ⟨standardCommands devices (builtins devices), p.vars⟩ r t) ∧
      ∀ a b, p.Multiplies devices store a b → ¬Overlong a b := by
  have conforms := conforms_builtins devices
  have holds : p.Holds Instance.Ordinary := holds_of_reachable conforms reachable
  rw [← Option.isSome_iff_exists, ← Option.ne_none_iff_isSome, ne_eq,
    cycle_eq_none_iff_endless conforms (brief_builtins devices) holds, exists_fatal_iff holds]
  push Not
  rfl

/-- A poll for itself has endless requests in it, and a text may be repeated too often.  Neither
cycle ends. -/
theorem cycle_ends_unless_requests_are_endless_selfPoll :
    let commands := standardCommands Simulation.devices (builtins Simulation.devices)
    let store : Store (World Simulation) := ⟨.empty, ⟨⟨0, mkStdGen⟩, []⟩⟩
    (Reachable commands (selfPoll default) store ∧
      ¬∃ effect, (selfPoll default).cycle commands store = some effect) ∧
    Reachable commands longProduct store ∧
      ¬∃ effect, longProduct.cycle commands store = some effect := by
  intro commands store
  have poll : Reachable commands (selfPoll default) store := .start _ _ _ _
  have product : Reachable commands longProduct store := .start _ _ _ _
  refine ⟨⟨poll, fun ends => ?_⟩, product, fun ends => ?_⟩
  · obtain ⟨r, t, poses, endless⟩ :=
      exists_poses_selfPoll Simulation.devices default store.host Cache.sound_empty
    exact ((cycle_ends_unless_requests_are_endless poll).mp ends).1 r t poses endless
  · have multiplies := multiplies_longProduct Simulation.devices store
    have long : Overlong (.str "0123456789abcdef") (.int 9223372036854775807) := by
      change textLimit ≤ _
      decide +kernel
    exact ((cycle_ends_unless_requests_are_endless product).mp ends).2 _ _ multiplies long

end Program

end StepScript
