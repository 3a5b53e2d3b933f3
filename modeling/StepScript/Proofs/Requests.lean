import StepScript.Proofs.CacheCalls
import StepScript.Proofs.Cycle
import StepScript.Proofs.Likeness
import StepScript.Proofs.RoundTrip

/-!
# What cycles ask the cache for

A program asks the cache for an expression whenever one of its commands does.  Nothing of this can be
seen from outside, so that commands are watched here: `Commands.noting` answers as before, and keeps
a list of the expressions that were asked for in the state of the host.  A program over commands
that are watched does what it does over the commands themselves.

What the cache gives never depends on what it holds, so that a program does the same whatever the
cache holds, provided that the commands answer without regard to the state of the host.

## Main definitions

* `Commands.SelfContained` — commands that answer without regard to the state of the host.
* `Commands.noting` — commands that are watched.
* `Program.requests` — the expressions that are asked for in a cycle.

## Main results

* `Program.sound_of_cycle` — cycles keep a cache sound.
* `Program.cycle_of_selfContained` — a cycle does not depend on what the cache holds.
* `Program.cache_of_cycle` — the cache after a cycle.
-/

namespace StepScript

variable {ι ω : Type}

/-! ### The same in all respects -/

theorem Evaluation.Like.eq {evaluation evaluation' : Evaluation ι}
    (h : evaluation.Like (· = ·) evaluation') : evaluation = evaluation' := by
  induction h with
  | fresh => rfl
  | operand known h ih => rw [ih]
  | calling name h => rw [h]
  | asking name source request h hx ih => rw [h, ih]

theorem Evaluation.Like.refl (evaluation : Evaluation ι) : evaluation.Like (· = ·) evaluation := by
  induction evaluation with
  | fresh => exact .fresh
  | operand known inner ih => exact .operand known ih
  | calling name command => exact .calling name rfl
  | asking name command source request inner ih => exact .asking name source request rfl ih

theorem Program.Like.eq {p p' : Program ι} (h : p.Like (· = ·) p') : p = p' := by
  obtain ⟨name, script, vars, stack, counter, evaluation, status⟩ := p
  obtain ⟨name', script', vars', stack', counter', evaluation', status'⟩ := p'
  obtain ⟨hname, hscript, hvars, hstack, hcounter, hstatus, hbegun, hevaluation⟩ := h
  cases hname
  cases hscript
  cases hvars
  cases hstack
  cases hcounter
  cases hstatus
  have heq := hevaluation.eq
  cases evaluation with
  | none =>
    cases evaluation' with
    | none => rfl
    | some rest => cases hbegun
  | some rest =>
    cases evaluation' with
    | none => cases hbegun
    | some rest' =>
      have hrest : rest = rest' := heq
      rw [hrest]

theorem Program.Like.refl (p : Program ι) : p.Like (· = ·) p :=
  ⟨rfl, rfl, rfl, rfl, rfl, rfl, rfl, .refl _⟩

theorem likeResult_of_map_eq {ε α β : Type} {f : α → β} {x y : Except ε α}
    (h : x.map f = y.map f) : LikeResult (fun a b => f a = f b) x y := by
  cases x with
  | ok a =>
    cases y with
    | ok b => exact .ok (Except.ok.inj h)
    | error e => cases h
  | error e =>
    cases y with
    | ok b => cases h
    | error e' =>
      cases h
      exact .error e

/-- Sound caches give the same expressions. -/
theorem Cache.Sound.like_expression {c c' : Cache} (h : c.Sound) (h' : c'.Sound)
    {source : String} {found : Except ParseError (Shared Expr)} {cache : Cache}
    (hfound : c.expression source = (found, cache)) :
    ∃ found' cache', c'.expression source = (found', cache') ∧
      LikeResult (fun request request' : Shared Expr => request.value = request'.value)
        found found' ∧ cache.Sound ∧ cache'.Sound := by
  refine ⟨_, _, rfl, likeResult_of_map_eq ?_, ?_, h'.expression source⟩
  · have hvalue := h.expression_value source
    rw [hfound] at hvalue
    exact hvalue.trans (h'.expression_value source).symm
  · have hcache := h.expression source
    rwa [hfound] at hcache

/-! ### Commands that do not regard the host -/

/-- The host gives back the same value, and the same is seen. -/
def Turn.Same {α : Type} (t t' : Turn ω α) : Prop :=
  t.value = t'.value ∧ t.notes = t'.notes

theorem Turn.Same.exists_host {α : Type} {t t' : Turn ω α} (h : t.Same t') {a : α} {host : ω}
    {notes : List Note} (ht : t = ⟨a, host, notes⟩) : ∃ host', t' = ⟨a, host', notes⟩ := by
  subst ht
  obtain ⟨a', host', notes'⟩ := t'
  obtain ⟨hvalue, hnotes⟩ := h
  cases hvalue
  cases hnotes
  exact ⟨host', rfl⟩

/-- The same for a step, which gives something or nothing either way. -/
theorem Turn.Same.exists_host_of_some {α : Type} {t t' : Option (Turn ω α)}
    (h : Option.Rel Turn.Same t t') {a : α} {host : ω} {notes : List Note}
    (ht : t = some ⟨a, host, notes⟩) : ∃ host', t' = some ⟨a, host', notes⟩ := by
  cases h with
  | none => cases ht
  | some same =>
    obtain ⟨host', rfl⟩ := same.exists_host (Option.some.inj ht)
    exact ⟨host', rfl⟩

/-- Commands that answer without regard to the state of the host: only arguments and messages
count. -/
structure Commands.SelfContained (commands : Commands ι ω) : Prop where
  create : ∀ name values host host',
    (commands.create name values host).Same (commands.create name values host')
  next : ∀ command host host',
    Option.Rel Turn.Same (commands.next command host) (commands.next command host')
  supply : ∀ command source v host host',
    (commands.supply command source v host).Same (commands.supply command source v host')

/-- The expression that a reply asks for. -/
def requested : Except Fault Reply → List String
  | .ok (.request source) => [source]
  | _ => []

/-- Commands that are watched: what they ask for is kept with the state of the host. -/
def Commands.noting (commands : Commands ι ω) : Commands ι (ω × List String) where
  create name values host :=
    let turn := commands.create name values host.1
    ⟨turn.value, (turn.host, host.2), turn.notes⟩
  next command host :=
    (commands.next command host.1).map fun turn =>
      ⟨turn.value, (turn.host, host.2 ++ requested turn.value.1), turn.notes⟩
  supply command source v host :=
    let turn := commands.supply command source v host.1
    ⟨turn.value, (turn.host, host.2), turn.notes⟩

/-! ### Likenesses -/

section

variable (commands : Commands ι ω)

/-- Commands are like themselves. -/
theorem Commands.like_self :
    Commands.Like (· = ·) (fun s s' => s = s' ∧ s.cache.Sound) commands commands where
  create := by
    rintro s _ ⟨rfl, sound⟩ name values created host notes h
    exact ⟨created, host, h, likeResult_of_map_eq rfl, rfl, sound⟩
  next := by
    rintro s _ ⟨rfl, sound⟩ command _ rfl reply rest host notes h
    exact ⟨rest, host, h, rfl, rfl, sound⟩
  supply := by
    rintro s _ ⟨rfl, sound⟩ command _ rfl source v rest host notes h
    exact ⟨rest, host, h, rfl, rfl, sound⟩
  expression := by
    rintro s _ ⟨rfl, sound⟩ source found cache h
    have hsound := sound.expression source
    rw [h] at hsound
    exact ⟨found, cache, h, likeResult_of_map_eq rfl, rfl, hsound⟩

/-- Commands that are watched are like the commands. -/
theorem Commands.like_noting :
    Commands.Like (· = ·) (fun s s' => s.cache = s'.cache ∧ s.host = s'.host.1) commands
      commands.noting where
  create := by
    rintro ⟨cache, _⟩ ⟨_, host₀, asked⟩ ⟨rfl, rfl⟩ name values created host notes h
    refine ⟨created, (host, asked), ?_, likeResult_of_map_eq rfl, rfl, rfl⟩
    simp only [noting, h]
  next := by
    rintro ⟨cache, _⟩ ⟨_, host₀, asked⟩ ⟨rfl, rfl⟩ command _ rfl reply rest host notes h
    refine ⟨rest, (host, asked ++ requested reply), ?_, rfl, rfl, rfl⟩
    simp only [noting, h, Option.map_some]
  supply := by
    rintro ⟨cache, _⟩ ⟨_, host₀, asked⟩ ⟨rfl, rfl⟩ command _ rfl source v rest host notes h
    refine ⟨rest, (host, asked), ?_, rfl, rfl, rfl⟩
    simp only [noting, h]
  expression := by
    rintro ⟨_, _⟩ ⟨cache₀, host₀, asked⟩ ⟨rfl, rfl⟩ source found cache h
    exact ⟨found, cache, h, likeResult_of_map_eq rfl, rfl, rfl⟩

variable {commands}

/-- Commands that do not regard the host answer alike over any sound caches. -/
theorem Commands.SelfContained.like (h : commands.SelfContained) :
    Commands.Like (· = ·) (fun s s' => s.cache.Sound ∧ s'.cache.Sound) commands commands where
  create := by
    intro s s' sound name values created host notes hcreate
    obtain ⟨host', hcreate'⟩ := (h.create name values s.host s'.host).exists_host hcreate
    exact ⟨created, host', hcreate', likeResult_of_map_eq rfl, sound⟩
  next := by
    rintro s s' sound command _ rfl reply rest host notes hnext
    obtain ⟨host', hnext'⟩ := Turn.Same.exists_host_of_some (h.next command s.host s'.host) hnext
    exact ⟨rest, host', hnext', rfl, sound⟩
  supply := by
    rintro s s' sound command _ rfl source v rest host notes hsupply
    obtain ⟨host', hsupply'⟩ := (h.supply command source v s.host s'.host).exists_host hsupply
    exact ⟨rest, host', hsupply', rfl, sound⟩
  expression := by
    rintro s s' ⟨sound, sound'⟩ source found cache hfound
    exact sound.like_expression sound' hfound

end

section

variable {ι' ω' : Type} {commands : Commands ι ω} {commands' : Commands ι' ω'} {vars : Variables}
  {s t : Store (ω × List String)} {progress : Progress ι} {signals : List Signal}

theorem Commands.create_of_noting {name : String} {values : List Value} {host host' : ω × List String}
    {created : Except Fault ι} {notes : List Note}
    (h : commands.noting.create name values host = ⟨created, host', notes⟩) :
    commands.create name values host.1 = ⟨created, host'.1, notes⟩ ∧ host'.2 = host.2 := by
  cases h
  exact ⟨rfl, rfl⟩

theorem Commands.next_of_noting {command rest : ι} {host host' : ω × List String}
    {reply : Except Fault Reply} {notes : List Note}
    (h : commands.noting.next command host = some ⟨(reply, rest), host', notes⟩) :
    commands.next command host.1 = some ⟨(reply, rest), host'.1, notes⟩ ∧
      host'.2 = host.2 ++ requested reply := by
  obtain ⟨⟨value, host₁, notes'⟩, hnext, hturn⟩ := Option.map_eq_some_iff.mp h
  cases hturn
  exact ⟨hnext, rfl⟩

theorem Commands.supply_of_noting {command rest : ι} {source : String} {v : Value}
    {host host' : ω × List String} {notes : List Note}
    (h : commands.noting.supply command source v host = ⟨rest, host', notes⟩) :
    commands.supply command source v host.1 = ⟨rest, host'.1, notes⟩ ∧ host'.2 = host.2 := by
  cases h
  exact ⟨rfl, rfl⟩

/-- Commands that answer alike ask for the same. -/
theorem Commands.Like.noting {I : ι → ι' → Prop} {S : Store ω → Store ω' → Prop}
    (alike : Commands.Like I S commands commands') :
    Commands.Like I
      (fun s s' => S ⟨s.cache, s.host.1⟩ ⟨s'.cache, s'.host.1⟩ ∧ s.host.2 = s'.host.2)
      commands.noting commands'.noting where
  create := by
    rintro ⟨cache, host₀, asked⟩ ⟨cache', host₀', _⟩ ⟨hs, rfl⟩ name values created host notes h
    obtain ⟨hcreate, hasked⟩ := Commands.create_of_noting h
    obtain ⟨created', host', hcreate', hcreated, hs'⟩ := alike.create hs name values hcreate
    refine ⟨created', (host', asked), ?_, hcreated, hs', hasked⟩
    simp only [Commands.noting, hcreate']
  next := by
    rintro ⟨cache, host₀, asked⟩ ⟨cache', host₀', _⟩ ⟨hs, rfl⟩ command command' hcommand reply rest
      host notes h
    obtain ⟨hnext, hasked⟩ := Commands.next_of_noting h
    obtain ⟨rest', host', hnext', hrest, hs'⟩ := alike.next hs hcommand hnext
    refine ⟨rest', (host', asked ++ requested reply), ?_, hrest, hs', hasked⟩
    simp only [Commands.noting, hnext', Option.map_some]
  supply := by
    rintro ⟨cache, host₀, asked⟩ ⟨cache', host₀', _⟩ ⟨hs, rfl⟩ command command' hcommand source v rest
      host notes h
    obtain ⟨hsupply, hasked⟩ := Commands.supply_of_noting h
    obtain ⟨rest', host', hsupply', hrest, hs'⟩ := alike.supply hs hcommand source v hsupply
    refine ⟨rest', (host', asked), ?_, hrest, hs', hasked⟩
    simp only [Commands.noting, hsupply']
  expression := by
    rintro s s' ⟨hs, hasked⟩ source found cache h
    obtain ⟨found', cache', h', hfound, hs'⟩ := alike.expression hs source h
    exact ⟨found', cache', h', hfound, hs', hasked⟩

/-! ### The cache after a piece of work -/

/-- Between two stores, the cache was asked for just the expressions that have been noted. -/
def Asks (s t : Store (ω × List String)) : Prop :=
  ∃ sources, t.host.2 = s.host.2 ++ sources ∧
    t.cache = s.cache.after (sources.map CacheCall.expression)

namespace Asks

variable {s t u : Store (ω × List String)}

/-- Nothing has been noted. -/
theorem nothing {host : ω × List String} (hasked : host.2 = s.host.2) : Asks s ⟨s.cache, host⟩ :=
  ⟨[], by rw [hasked, List.append_nil], rfl⟩

theorem refl (s : Store (ω × List String)) : Asks s s :=
  nothing rfl

theorem trans (first : Asks s t) (second : Asks t u) : Asks s u := by
  obtain ⟨sources, hasked, hcache⟩ := first
  obtain ⟨sources', hasked', hcache'⟩ := second
  refine ⟨sources ++ sources', ?_, ?_⟩
  · rw [hasked', hasked, List.append_assoc]
  · rw [hcache', hcache, List.map_append, Cache.after_append]

/-- A reply that asks for nothing. -/
theorem reply {host : ω × List String} {reply : Except Fault Reply}
    (hasked : host.2 = s.host.2 ++ requested reply) (hnone : requested reply = []) :
    Asks s ⟨s.cache, host⟩ :=
  nothing (by rw [hasked, hnone, List.append_nil])

/-- A reply that asks for an expression, which the cache is then asked for. -/
theorem request {host : ω × List String} {source : String}
    {found : Except ParseError (Shared Expr)} {cache : Cache}
    (hasked : host.2 = s.host.2 ++ [source])
    (hfound : s.cache.expression source = (found, cache)) : Asks s ⟨cache, host⟩ := by
  refine ⟨[source], hasked, ?_⟩
  change cache = (s.cache.expression source).2
  rw [hfound]

end Asks

/-- The cache is asked for what the commands ask for, and for nothing else. -/
theorem asks_of_does {task : Task ι} (h : Does ⟨commands.noting, vars⟩ task s progress t signals) :
    Asks s t := by
  induction h with
  | applied | held | broken | pending | denied => exact .refl _
  | refused hcreate => exact .nothing (Commands.create_of_noting hcreate).2
  | called hcreate h ih =>
    exact (Asks.nothing (Commands.create_of_noting hcreate).2).trans ih
  | operand hx h ihx ih | resumed _ hx h ihx ih | asking hx h ihx ih => exact ihx.trans ih
  | known h ih | begin h ih | exhausted _ h ih | calling h ih => exact ih
  | failed hnext | finished hnext | suspended hnext =>
    exact .reply (Commands.next_of_noting hnext).2 rfl
  | warned hnext h ih => exact (Asks.reply (Commands.next_of_noting hnext).2 rfl).trans ih
  | unreadable hnext hparse => exact .request (Commands.next_of_noting hnext).2 hparse
  | requested hnext hparse hx h ihx ih =>
    exact (Asks.request (Commands.next_of_noting hnext).2 hparse).trans (ihx.trans ih)
  | supplied hsupply h ih =>
    exact (Asks.nothing (Commands.supply_of_noting hsupply).2).trans ih

end

/-! ### Cycles -/

namespace Program

variable {commands : Commands ι ω} {p : Program ι} {s : Store ω}

/-- The expressions that commands ask for in a cycle, in order. -/
def requests (commands : Commands ι ω) (p : Program ι) (s : Store ω) : List String :=
  match p.cycle commands.noting ⟨s.cache, (s.host, [])⟩ with
  | some effect => effect.store.host.2
  | none => []

theorem requests_eq {outcome : Program ι × Except ProgramError Unit}
    {t : Store (ω × List String)} {signals : List Signal}
    (h : p.cycle commands.noting ⟨s.cache, (s.host, [])⟩ = some ⟨outcome, t, signals⟩) :
    p.requests commands s = t.host.2 := by
  rw [requests, h]

/-- A cycle keeps the cache sound. -/
theorem sound_of_cycle {effect : Effect ω (Program ι × Except ProgramError Unit)}
    (h : p.cycle commands s = some effect) (sound : s.cache.Sound) :
    effect.store.cache.Sound := by
  have follows := follows_cycle (Commands.like_self commands) (Program.Like.refl p)
  obtain ⟨-, -, -, -, -, hsound⟩ := follows s s _ _ _ ⟨rfl, sound⟩ h
  exact hsound

/-- **The cache after a cycle** has been asked for just what the commands asked for. -/
theorem cache_of_cycle {effect : Effect ω (Program ι × Except ProgramError Unit)}
    (h : p.cycle commands s = some effect) :
    effect.store.cache = s.cache.after ((p.requests commands s).map CacheCall.expression) := by
  have follows := follows_cycle (Commands.like_noting commands) (Program.Like.refl p)
  obtain ⟨outcome, t, hcycle, -, hcache, -⟩ :=
    follows s ⟨s.cache, (s.host, [])⟩ _ _ _ ⟨rfl, rfl⟩ h
  have asks : Asks ⟨s.cache, (s.host, [])⟩ t := by
    rcases resume_of_cycle hcycle with ⟨-, hstore, -⟩ | ⟨_, e, step, -, -, -, hresume, -, hstore, -⟩
    · obtain rfl : t = _ := hstore
      exact .refl _
    · obtain rfl : t = step.store := hstore
      exact asks_of_does (does_of_resume hresume)
  obtain ⟨sources, hasked, hafter⟩ := asks
  rw [hcache, requests_eq hcycle, hasked]
  exact hafter

/-- **A cycle does not depend on what the cache holds**, if the commands do not regard the host. -/
theorem cycle_of_selfContained (selfContained : commands.SelfContained) {s' t : Store ω}
    {outcome : Program ι × Except ProgramError Unit} {signals : List Signal}
    (sound : s.cache.Sound) (sound' : s'.cache.Sound)
    (h : p.cycle commands s = some ⟨outcome, t, signals⟩) :
    ∃ t', p.cycle commands s' = some ⟨outcome, t', signals⟩ ∧
      p.requests commands s = p.requests commands s' := by
  have follows := follows_cycle selfContained.like (Program.Like.refl p)
  obtain ⟨outcome', t', hcycle, ⟨hlike, hresult⟩, -⟩ := follows s s' _ _ _ ⟨sound, sound'⟩ h
  have houtcome : outcome = outcome' := Prod.ext hlike.eq hresult
  refine ⟨t', houtcome ▸ hcycle, ?_⟩
  -- The cycles over commands that are watched exist, and keep the same notes.
  have noted := follows_cycle (Commands.like_noting commands) (Program.Like.refl p)
  obtain ⟨x, u, hx, -, -, -⟩ := noted s ⟨s.cache, (s.host, [])⟩ _ _ _ ⟨rfl, rfl⟩ h
  have same := follows_cycle selfContained.like.noting (Program.Like.refl p)
  obtain ⟨x', u', hx', -, -, hasked⟩ := same ⟨s.cache, (s.host, [])⟩ ⟨s'.cache, (s'.host, [])⟩
    _ _ _ ⟨⟨sound, sound'⟩, rfl⟩ hx
  rw [requests_eq hx, requests_eq hx']
  exact hasked

end Program

/-! ### Commands that ask -/

/-- Commands of which `hold` asks for time once, and all others ask for `hold()`. -/
def Commands.deferring (v : Value) : Commands Nat ω where
  create name _ host := .still (.ok (if name = "hold" then 1 else 2)) host
  next
    | 0, host => some (.still (.ok (.finished v), 0) host)
    | 1, host => some (.still (.ok .suspend, 0) host)
    | n + 2, host => some (.still (.ok (.request "hold()"), n + 2) host)
  supply _ _ _ host := .still 0 host

theorem Commands.selfContained_deferring (v : Value) :
    (Commands.deferring v : Commands Nat ω).SelfContained where
  create _ _ _ _ := ⟨rfl, rfl⟩
  next command _ _ := by
    rcases command with _ | _ | n <;> exact .some ⟨rfl, rfl⟩
  supply _ _ _ _ _ := ⟨rfl, rfl⟩

theorem parseExpr_hold : parseExpr "hold()" = .ok (.call "hold" []) := by
  have kinds : (lex "hold()").tokens.map Token.kind = [.identifier "hold",
      .punctuator .leftParen, .punctuator .rightParen] := by
    decide +kernel
  simp only [List.map_eq_cons_iff, List.map_eq_nil_iff] at kinds
  obtain ⟨hold, _, whole, named, opening, _, rfl, opens, closing, _, rfl, closes, rfl⟩ := kinds
  have call := Derives.call named opens .noArguments closes
  exact parseExpr_eq_ok_iff_derives.mpr
    ⟨by decide +kernel, _, call.to_disjunction, [], whole, rfl⟩

section

variable {v : Value} {vars : Variables} {s : Store ω}

/-- The first step of `ask()` ends within the expression that was asked for. -/
theorem exists_resume_ask (sound : s.cache.Sound) :
    ∃ cache signals, resume ⟨.deferring v, vars⟩ .fresh (.call "ask" []) s =
      some ⟨.suspended (.asking "ask" 2 "hold()" (.call "hold" []) (.calling "hold" 0)),
        ⟨cache, s.host⟩, signals⟩ := by
  have hvalue := sound.expression_value "hold()"
  rw [parseExpr_hold] at hvalue
  rcases hparse : s.cache.expression "hold()" with ⟨error | ⟨serial, request⟩, cache⟩
  · rw [hparse] at hvalue
    cases hvalue
  · rw [hparse] at hvalue
    cases hvalue
    have h : Does ⟨.deferring v, vars⟩ (.resume .fresh (.call "ask" [])) s _ _ _ :=
      .begin (.called rfl (.requested rfl hparse (.called rfl (.suspended rfl)) .pending))
    exact ⟨cache, _, activity_of_does h⟩

/-- The second step completes it. -/
theorem exists_resume_asking :
    ∃ signals, resume ⟨.deferring v, vars⟩
      (.asking "ask" 2 "hold()" (.call "hold" []) (.calling "hold" 0)) (.call "ask" []) s =
        some ⟨.complete v, s, signals⟩ := by
  have h : Does ⟨.deferring v, vars⟩ (.resume (.asking "ask" 2 "hold()" (.call "hold" [])
      (.calling "hold" 0)) (.call "ask" [])) s (.complete v) s _ :=
    .asking (.calling (.finished rfl)) (.supplied rfl (.finished rfl))
  exact ⟨_, activity_of_does h⟩

end

end StepScript
