import StepScript.Proofs.Grammar
import StepScript.Program.Evaluation

/-!
# The tokens of a printed expression

The text of an expression puts every binary operation in parentheses and nothing else.  So the
grammar reads it back unless an operand without parentheses binds too loosely for its place: a
`not` under a sign or under an operator tighter than `and`, or a sign at the base of a power.

A derivation of the printed tokens has to split them where the printer put them together.  This
rests on two counts: parentheses, which every derivation closes, and names with literals, of which
a derivation reads as many as its expression has.

## Main definitions

* `Expr.Part`, `Expr.Everywhere` — the parts of an expression, and what holds of all of them.
* `Expr.printed` — the kinds of the tokens of an expression's text.
* `Expr.LooseNot`, `Expr.UnsignedBase` — an operation has no operand that binds too loosely.
* `Balanced` — parentheses close, and not before they open.

## Main results

* `map_kind_eq_printed` — a derivation does not stop within the printed tokens of its expression.
* `derives_printed_iff` — which expressions the grammar reads from their printed tokens.
-/

namespace StepScript

/-! ### The parts of an expression -/

namespace Expr

/-- `Part x e`: the expression `x` is `e`, or a part of an operand of `e`. -/
inductive Part : Expr → Expr → Prop
  | self (e : Expr) : Part e e
  | within {x y e : Expr} (operand : y ∈ e.operands) (part : Part x y) : Part x e

/-- Every part of an expression has the property. -/
def Everywhere (p : Expr → Prop) (e : Expr) : Prop :=
  ∀ x, Part x e → p x

theorem everywhere_iff {p : Expr → Prop} {e : Expr} :
    Everywhere p e ↔ p e ∧ ∀ y ∈ e.operands, Everywhere p y := by
  constructor
  · intro h
    exact ⟨h e (.self e), fun y hy x hx => h x (.within hy hx)⟩
  · rintro ⟨here, below⟩ x part
    cases part with
    | self => exact here
    | within operand part => exact below _ operand x part

theorem Everywhere.here {p : Expr → Prop} {e : Expr} (h : Everywhere p e) : p e :=
  h e (.self e)

theorem Everywhere.of_mem {p : Expr → Prop} {y e : Expr} (h : Everywhere p e)
    (operand : y ∈ e.operands) : Everywhere p y :=
  (everywhere_iff.mp h).2 y operand

section

variable {p : Expr → Prop}

theorem everywhere_literal_iff {v : Value} : Everywhere p (literal v) ↔ p (literal v) := by
  simp [everywhere_iff (e := literal v), operands]

theorem everywhere_reference_iff {name : String} :
    Everywhere p (reference name) ↔ p (reference name) := by
  simp [everywhere_iff (e := reference name), operands]

theorem everywhere_call_iff {name : String} {es : List Expr} :
    Everywhere p (call name es) ↔ p (call name es) ∧ ∀ e ∈ es, Everywhere p e := by
  rw [everywhere_iff, operands]

theorem everywhere_unary_iff {op : UnaryOp} {x : Expr} :
    Everywhere p (unary op x) ↔ p (unary op x) ∧ Everywhere p x := by
  simp [everywhere_iff (e := unary op x), operands]

theorem everywhere_binary_iff {op : BinaryOp} {l r : Expr} :
    Everywhere p (binary op l r) ↔ p (binary op l r) ∧ Everywhere p l ∧ Everywhere p r := by
  simp [everywhere_iff (e := binary op l r), operands]

end

end Expr

/-! ### Printed tokens -/

/-- The token that writes a literal.  What no literal denotes is shown as a name. -/
def Value.kind : Value → TokenKind
  | .null => .keyword .nothing
  | .bool true => .keyword .truth
  | .bool false => .keyword .falsity
  | .int i => .integer i
  | .float x => .float x
  | .str s => .string s
  | _ => .identifier ""

/-- The token of an operator in front of its operand. -/
def UnaryOp.kind : UnaryOp → TokenKind
  | plus => .punctuator .plus
  | negate => .punctuator .minus
  | complement => .punctuator .tilde
  | not => .keyword .negation

/-- The sign of a comparison. -/
def Comparison.sign : Comparison → Punctuator
  | equal => .equal
  | notEqual => .notEqual
  | greater => .greater
  | greaterEqual => .greaterEqual
  | less => .less
  | lessEqual => .lessEqual

/-- The tokens of an operator between its operands. -/
def BinaryOp.kinds : BinaryOp → List TokenKind
  | power => [.punctuator .doubleStar]
  | multiply => [.punctuator .star]
  | divide => [.punctuator .slash]
  | floorDivide => [.punctuator .doubleSlash]
  | modulo => [.punctuator .percent]
  | add => [.punctuator .plus]
  | subtract => [.punctuator .minus]
  | shiftLeft => [.punctuator .shiftLeft]
  | shiftRight => [.punctuator .shiftRight]
  | bitAnd => [.punctuator .ampersand]
  | bitXor => [.punctuator .caret]
  | bitOr => [.punctuator .bar]
  | compare c => [.punctuator c.sign]
  | isIn => [.keyword .membership]
  | notIn => [.keyword .negation, .keyword .membership]
  | and => [.keyword .conjunction]
  | or => [.keyword .disjunction]

/-- Tokens between a pair of parentheses. -/
def enclosed (ks : List TokenKind) : List TokenKind :=
  .punctuator .leftParen :: (ks ++ [.punctuator .rightParen])

mutual

/-- The kinds of the tokens of an expression's text. -/
def Expr.printed : Expr → List TokenKind
  | .literal v => [v.kind]
  | .reference name => [.identifier name]
  | .call name arguments => .identifier name :: enclosed (printedAll arguments)
  | .unary op operand => op.kind :: operand.printed
  | .binary op left right => enclosed (left.printed ++ (op.kinds ++ right.printed))

/-- The kinds of the tokens of several expressions, with commas between them. -/
def Expr.printedAll : List Expr → List TokenKind
  | [] => []
  | [e] => e.printed
  | e :: e' :: es => e.printed ++ .punctuator .comma :: printedAll (e' :: es)

end

/-- The printed tokens of what a phrase stands for. -/
def Phrase.printed : Phrase → List TokenKind
  | level _ e => e.printed
  | arguments es | list es => Expr.printedAll es

theorem Expr.printedAll_cons {e : Expr} {es : List Expr} (h : es ≠ []) :
    printedAll (e :: es) = e.printed ++ .punctuator .comma :: printedAll es := by
  cases es with
  | nil => exact absurd rfl h
  | cons e' es => rw [printedAll]

theorem Spells.kinds_eq {t : Tier} {ks : List TokenKind} {op : BinaryOp} (h : Spells t ks op) :
    ks = op.kinds := by
  cases h <;> rfl

theorem SpellsLiteral.kind_eq {k : TokenKind} {v : Value} (h : SpellsLiteral k v) : v.kind = k := by
  cases h <;> rfl

theorem SpellsSign.kind_eq {k : TokenKind} {op : UnaryOp} (h : SpellsSign k op) : op.kind = k := by
  cases h <;> rfl

theorem ne_nil_of_derives_list {es : List Expr} {ts : List Token} (h : Derives (.list es) ts) :
    es ≠ [] := by
  cases h with
  | last | more => exact List.cons_ne_nil _ _

/-! ### Parentheses -/

/-- How many parentheses a token opens. -/
def TokenKind.weight : TokenKind → Int
  | .punctuator .leftParen => 1
  | .punctuator .rightParen => -1
  | _ => 0

/-- How many parentheses are open behind the tokens. -/
def depth : List TokenKind → Int
  | [] => 0
  | k :: ks => k.weight + depth ks

@[simp] theorem depth_nil : depth [] = 0 := rfl

@[simp] theorem depth_cons (k : TokenKind) (ks : List TokenKind) :
    depth (k :: ks) = k.weight + depth ks := rfl

@[simp] theorem depth_append (ks ls : List TokenKind) :
    depth (ks ++ ls) = depth ks + depth ls := by
  induction ks with
  | nil => simp
  | cons k ks ih => simp [ih, Int.add_assoc]

/-- Every parenthesis that opens is closed, and none closes before it opens. -/
structure Balanced (ks : List TokenKind) : Prop where
  closed : depth ks = 0
  nonneg : ∀ p, p <+: ks → 0 ≤ depth p

theorem Balanced.nil : Balanced [] :=
  ⟨rfl, fun p hp => by simp [List.prefix_nil.mp hp]⟩

theorem Balanced.append {ks ls : List TokenKind} (hk : Balanced ks) (hl : Balanced ls) :
    Balanced (ks ++ ls) := by
  refine ⟨by simp [hk.closed, hl.closed], ?_⟩
  rintro p ⟨s, hs⟩
  rcases List.append_eq_append_iff.mp hs with ⟨m, rfl, _⟩ | ⟨m, rfl, hm⟩
  · exact hk.nonneg p (List.prefix_append p m)
  · have := hl.nonneg m ⟨s, hm.symm⟩
    simp only [depth_append, hk.closed]
    omega

theorem Balanced.cons {k : TokenKind} {ks : List TokenKind} (flat : k.weight = 0)
    (h : Balanced ks) : Balanced (k :: ks) := by
  refine ⟨by simp [flat, h.closed], ?_⟩
  intro p hp
  rcases List.prefix_cons_iff.mp hp with rfl | ⟨q, rfl, hq⟩
  · simp
  · have := h.nonneg q hq
    simp only [depth_cons, flat]
    omega

theorem Balanced.of_flat {ks : List TokenKind} (flat : ∀ k ∈ ks, k.weight = 0) : Balanced ks := by
  induction ks with
  | nil => exact .nil
  | cons k ks ih =>
    rw [List.forall_mem_cons] at flat
    exact .cons flat.1 (ih flat.2)

/-- Within a pair of parentheses at least one is open. -/
theorem one_le_depth_of_prefix_enclosed {ks p : List TokenKind} (h : Balanced ks)
    (hp : p <+: enclosed ks) (empty : p ≠ []) (whole : p ≠ enclosed ks) : 1 ≤ depth p := by
  rcases List.prefix_cons_iff.mp hp with rfl | ⟨q, rfl, hq⟩
  · exact absurd rfl empty
  rcases List.prefix_concat_iff.mp hq with rfl | hq
  · exact absurd rfl whole
  · have := h.nonneg q hq
    simp only [depth_cons, TokenKind.weight]
    omega

theorem Balanced.enclosed {ks : List TokenKind} (h : Balanced ks) : Balanced (enclosed ks) := by
  have closed : depth (StepScript.enclosed ks) = 0 := by
    simp [StepScript.enclosed, TokenKind.weight, h.closed]
  refine ⟨closed, ?_⟩
  intro p hp
  by_cases empty : p = []
  · simp [empty]
  by_cases whole : p = StepScript.enclosed ks
  · simp [whole, closed]
  have := one_le_depth_of_prefix_enclosed h hp empty whole
  omega

theorem Spells.flat {t : Tier} {ks : List TokenKind} {op : BinaryOp} (h : Spells t ks op) :
    ∀ k ∈ ks, k.weight = 0 := by
  cases h <;> simp [TokenKind.weight]

theorem BinaryOp.flat_kinds (op : BinaryOp) : ∀ k ∈ op.kinds, k.weight = 0 := by
  cases op with
  | compare c => cases c <;> simp [kinds, Comparison.sign, TokenKind.weight]
  | _ => simp [kinds, TokenKind.weight]

theorem UnaryOp.weight_kind (op : UnaryOp) : op.kind.weight = 0 := by
  cases op <;> rfl

theorem SpellsNot.weight_eq {k : TokenKind} (h : SpellsNot k) : k.weight = 0 := by
  cases h <;> rfl

theorem Value.weight_kind (v : Value) : v.kind.weight = 0 := by
  cases v with
  | bool b => cases b <;> rfl
  | _ => rfl

/-- The parentheses of a derivation close. -/
theorem balanced_of_derives {phrase : Phrase} {ts : List Token} (h : Derives phrase ts) :
    Balanced (ts.map Token.kind) := by
  induction h with
  | operand _ _ ih | plain _ ih | unsigned _ ih | base _ ih | someArguments _ ih | last _ ih =>
    exact ih
  | chain _ _ spells _ ihl ihr =>
    simp only [List.map_append]
    exact ihl.append (.append (.of_flat spells.flat) ihr)
  | negated spells _ ih => exact ih.cons spells.weight_eq
  | signed spells _ ih => exact ih.cons (spells.kind_eq ▸ UnaryOp.weight_kind _)
  | raised _ star _ ihl ihr =>
    simp only [List.map_append, List.map_cons, star]
    exact ihl.append (ihr.cons rfl)
  | literal spells => exact Balanced.nil.cons (spells.kind_eq ▸ Value.weight_kind _)
  | reference named =>
    simp only [List.map_cons, List.map_nil, named]
    exact Balanced.nil.cons rfl
  | call named opens _ closes ih =>
    simp only [List.map_cons, List.map_append, List.map_nil, named, opens, closes]
    exact ih.enclosed.cons rfl
  | parens opens _ closes ih =>
    simp only [List.map_cons, List.map_append, List.map_nil, opens, closes]
    exact ih.enclosed
  | noArguments => exact .nil
  | more _ separates _ ihl ihr =>
    simp only [List.map_append, List.map_cons, separates]
    exact ihl.append (ihr.cons rfl)

theorem balanced_printedAll {es : List Expr} (h : ∀ e ∈ es, Balanced e.printed) :
    Balanced (Expr.printedAll es) := by
  induction es with
  | nil => exact .nil
  | cons e es ih =>
    rw [List.forall_mem_cons] at h
    by_cases last : es = []
    · simp [last, Expr.printedAll, h.1]
    · rw [Expr.printedAll_cons last]
      exact h.1.append ((ih h.2).cons rfl)

theorem balanced_printed (e : Expr) : Balanced e.printed := by
  induction e using Expr.operands_induction with
  | step e ih =>
    cases e with
    | literal v => exact Balanced.nil.cons v.weight_kind
    | reference name => exact Balanced.nil.cons rfl
    | call name es => exact (balanced_printedAll ih).enclosed.cons rfl
    | unary op x => exact (ih x (by simp [Expr.operands])).cons op.weight_kind
    | binary op l r =>
      have left := ih l (by simp [Expr.operands])
      have right := ih r (by simp [Expr.operands])
      exact (left.append (.append (.of_flat op.flat_kinds) right)).enclosed

/-- Where two lists go together up to the parenthesis that closes them, they are the same. -/
theorem eq_of_enclosed_comparable {ks ls : List TokenKind} (hk : Balanced ks) (hl : Balanced ls)
    (h : enclosed ks <+: enclosed ls ∨ enclosed ls <+: enclosed ks) : ks = ls := by
  -- the shorter one would close a parenthesis that the longer one has not opened
  have aux {as bs : List TokenKind} (ha : Balanced as) (hb : Balanced bs)
      (hp : enclosed as <+: enclosed bs) : as = bs := by
    rcases List.prefix_concat_iff.mp (List.cons_prefix_cons.mp hp).2 with same | shorter
    · exact List.append_cancel_right same
    · have := hb.nonneg _ shorter
      simp [TokenKind.weight, ha.closed] at this
  rcases h with h | h
  · exact aux hk hl h
  · exact (aux hl hk h).symm

/-! ### Names and literals -/

/-- Whether the token is a name or a literal. -/
def TokenKind.isAtom : TokenKind → Bool
  | .keyword .nothing | .keyword .truth | .keyword .falsity => true
  | .keyword _ | .punctuator _ => false
  | _ => true

/-- How many of the tokens are names or literals. -/
def atoms (ks : List TokenKind) : Nat :=
  ks.countP TokenKind.isAtom

@[simp] theorem atoms_nil : atoms [] = 0 := rfl

@[simp] theorem atoms_append (ks ls : List TokenKind) : atoms (ks ++ ls) = atoms ks + atoms ls :=
  List.countP_append

theorem atoms_cons_of_isAtom {k : TokenKind} (h : k.isAtom = true) (ks : List TokenKind) :
    atoms (k :: ks) = atoms ks + 1 :=
  List.countP_cons_of_pos h

theorem atoms_cons_of_not_isAtom {k : TokenKind} (h : k.isAtom = false) (ks : List TokenKind) :
    atoms (k :: ks) = atoms ks :=
  List.countP_cons_of_neg (by simp [h])

@[simp] theorem atoms_identifier (name : String) (ks : List TokenKind) :
    atoms (.identifier name :: ks) = atoms ks + 1 :=
  atoms_cons_of_isAtom rfl ks

@[simp] theorem atoms_punctuator (p : Punctuator) (ks : List TokenKind) :
    atoms (.punctuator p :: ks) = atoms ks :=
  atoms_cons_of_not_isAtom rfl ks

@[simp] theorem atoms_enclosed (ks : List TokenKind) : atoms (enclosed ks) = atoms ks := by
  simp [enclosed]

theorem Value.isAtom_kind (v : Value) : v.kind.isAtom = true := by
  cases v with
  | bool b => cases b <;> rfl
  | _ => rfl

theorem UnaryOp.isAtom_kind (op : UnaryOp) : op.kind.isAtom = false := by
  cases op <;> rfl

theorem SpellsNot.isAtom_eq {k : TokenKind} (h : SpellsNot k) : k.isAtom = false := by
  cases h <;> rfl

/-- A derivation reads as many names and literals as are printed of what it derives. -/
theorem atoms_of_derives {phrase : Phrase} {ts : List Token} (h : Derives phrase ts) :
    atoms (ts.map Token.kind) = atoms phrase.printed := by
  -- Neither signs nor parentheses count, and these are all that printing may add.
  induction h with
  | operand _ _ ih | plain _ ih | unsigned _ ih | base _ ih | someArguments _ ih =>
    exact ih
  | last _ ih => simpa only [Phrase.printed, Expr.printedAll] using ih
  | chain _ _ spells _ ihl ihr =>
    simp only [Phrase.printed] at ihl ihr
    simp only [Phrase.printed, Expr.printed, List.map_append, atoms_append, atoms_enclosed, ihl,
      ihr, spells.kinds_eq]
  | negated spells _ ih =>
    simp only [Phrase.printed, Expr.printed, List.map_cons] at ih ⊢
    rw [atoms_cons_of_not_isAtom spells.isAtom_eq, ih,
      atoms_cons_of_not_isAtom (UnaryOp.isAtom_kind _)]
  | signed spells _ ih =>
    simp only [Phrase.printed, Expr.printed, List.map_cons, ← spells.kind_eq] at ih ⊢
    rw [atoms_cons_of_not_isAtom (UnaryOp.isAtom_kind _), ih,
      atoms_cons_of_not_isAtom (UnaryOp.isAtom_kind _)]
  | raised _ star _ ihl ihr =>
    simp only [Phrase.printed] at ihl ihr
    simp [Phrase.printed, Expr.printed, BinaryOp.kinds, star, ihl, ihr]
  | literal spells => simp [Phrase.printed, Expr.printed, spells.kind_eq]
  | reference named => simp [Phrase.printed, Expr.printed, named]
  | call named opens _ closes ih =>
    simp only [Phrase.printed] at ih
    simp [Phrase.printed, Expr.printed, named, opens, closes, ih]
  | parens opens _ closes ih =>
    simp only [Phrase.printed] at ih
    simp [Phrase.printed, opens, closes, ih]
  | noArguments => rfl
  | more _ separates others ihl ihr =>
    simp only [Phrase.printed] at ihl ihr
    simp [Phrase.printed, Expr.printedAll_cons (ne_nil_of_derives_list others), separates, ihl, ihr]

theorem atoms_printed_pos (e : Expr) : 0 < atoms e.printed := by
  induction e using Expr.operands_induction with
  | step e ih =>
    cases e with
    | literal v => simp [Expr.printed, atoms_cons_of_isAtom v.isAtom_kind]
    | reference name => simp [Expr.printed]
    | call name es => simp [Expr.printed]
    | unary op x =>
      rw [Expr.printed, atoms_cons_of_not_isAtom op.isAtom_kind]
      exact ih x (by simp [Expr.operands])
    | binary op l r =>
      have := ih l (by simp [Expr.operands])
      simp only [Expr.printed, atoms_enclosed, atoms_append]
      omega

theorem printed_ne_nil (e : Expr) : e.printed ≠ [] := by
  intro h
  have := atoms_printed_pos e
  simp [h] at this

/-! ### The last step of a derivation -/

theorem Chains.sign_rank_le {t : Tier} {l : Level} (h : Chains t l) :
    Level.sign.rank ≤ l.rank := by
  cases h <;> decide

/-- `Joins op l l'`: the operands of `op` are of the levels `l` and `l'`. -/
inductive Joins : BinaryOp → Level → Level → Prop
  | chain {t : Tier} {l : Level} {op : BinaryOp} (chains : Chains t l) (spells : Spells t op.kinds op) :
      Joins op (.tier t) l
  | power : Joins .power .primary .sign

/-- `Shape l e ts`: how the tokens `ts` of the expression `e` of the level `l` are made up, with the
levels that only pass an expression on left out. -/
inductive Shape (l : Level) : Expr → List Token → Prop
  | literal {t : Token} {v : Value} (spells : SpellsLiteral t.kind v) : Shape l (.literal v) [t]
  | reference {t : Token} {name : String} (named : t.kind = .identifier name) :
      Shape l (.reference name) [t]
  | call {t opening closing : Token} {name : String} {es : List Expr} {ts : List Token}
      (named : t.kind = .identifier name) (opens : opening.kind = .punctuator .leftParen)
      (inner : Derives (.arguments es) ts) (closes : closing.kind = .punctuator .rightParen) :
      Shape l (.call name es) (t :: opening :: (ts ++ [closing]))
  | parens {opening closing : Token} {e : Expr} {ts : List Token}
      (opens : opening.kind = .punctuator .leftParen)
      (inner : Derives (.level (.tier .disjunction) e) ts)
      (closes : closing.kind = .punctuator .rightParen) : Shape l e (opening :: (ts ++ [closing]))
  | negated {n : Token} {e : Expr} {ts : List Token} (loose : Level.negation.rank ≤ l.rank)
      (inner : Derives (.level .negation e) ts) : Shape l (.unary .not e) (n :: ts)
  | signed {s : Token} {op : UnaryOp} {e : Expr} {ts : List Token} (loose : Level.sign.rank ≤ l.rank)
      (sign : op ≠ .not) (inner : Derives (.level .sign e) ts) : Shape l (.unary op e) (s :: ts)
  | joined {op : BinaryOp} {la lb : Level} {a b : Expr} {ls ops rs : List Token}
      (joins : Joins op la lb) (left : Derives (.level la a) ls)
      (spells : ops.map Token.kind = op.kinds) (right : Derives (.level lb b) rs) :
      Shape l (.binary op a b) (ls ++ (ops ++ rs))

theorem Shape.mono {l l' : Level} {e : Expr} {ts : List Token} (h : Shape l e ts)
    (loose : l.rank ≤ l'.rank) : Shape l' e ts := by
  cases h with
  | literal spells => exact .literal spells
  | reference named => exact .reference named
  | call named opens inner closes => exact .call named opens inner closes
  | parens opens inner closes => exact .parens opens inner closes
  | negated h inner => exact .negated (Nat.le_trans h loose) inner
  | signed h sign inner => exact .signed (Nat.le_trans h loose) sign inner
  | joined joins left spells right => exact .joined joins left spells right

theorem SpellsSign.ne_not {k : TokenKind} {op : UnaryOp} (h : SpellsSign k op) : op ≠ .not := by
  cases h <;> decide

theorem shape_of_derives {phrase : Phrase} {ts : List Token} (h : Derives phrase ts) :
    ∀ l e, phrase = .level l e → Shape l e ts := by
  induction h with
  | operand chains _ ih =>
    rintro _ _ ⟨⟩
    exact (ih _ _ rfl).mono (Nat.le_of_lt chains.rank_lt)
  | plain _ ih | unsigned _ ih | base _ ih =>
    rintro _ _ ⟨⟩
    exact (ih _ _ rfl).mono (by decide)
  | chain chains left spells right =>
    rintro _ _ ⟨⟩
    exact .joined (.chain chains (spells.kinds_eq ▸ spells)) left spells.kinds_eq right
  | negated _ inner => rintro _ _ ⟨⟩; exact .negated (Nat.le_refl _) inner
  | signed spells inner => rintro _ _ ⟨⟩; exact .signed (Nat.le_refl _) spells.ne_not inner
  | @raised p _ _ ls rs left star right =>
    rintro _ _ ⟨⟩
    have spells : [p].map Token.kind = BinaryOp.power.kinds := by simp [star, BinaryOp.kinds]
    exact .joined .power left spells right
  | literal spells => rintro _ _ ⟨⟩; exact .literal spells
  | reference named => rintro _ _ ⟨⟩; exact .reference named
  | call named opens inner closes => rintro _ _ ⟨⟩; exact .call named opens inner closes
  | parens opens inner closes => rintro _ _ ⟨⟩; exact .parens opens inner closes
  | noArguments | someArguments | last | more => rintro _ _ ⟨⟩

/-! ### Where a derivation of printed tokens ends -/

/-- One of the lists begins with the other. -/
def Comparable (ks ls : List TokenKind) : Prop :=
  ks <+: ls ∨ ls <+: ks

theorem Comparable.cons {k k' : TokenKind} {ks ls : List TokenKind}
    (h : Comparable (k :: ks) (k' :: ls)) : k = k' ∧ Comparable ks ls := by
  rcases h with h | h
  · exact ⟨(List.cons_prefix_cons.mp h).1, .inl (List.cons_prefix_cons.mp h).2⟩
  · exact ⟨(List.cons_prefix_cons.mp h).1.symm, .inr (List.cons_prefix_cons.mp h).2⟩

theorem Comparable.of_eq {ks ls : List TokenKind} (h : ks = ls) : Comparable ks ls :=
  .inl (h ▸ List.prefix_rfl)

/-- Two ways to begin one list. -/
theorem Comparable.of_append_eq {ks ks' ls ls' : List TokenKind} (h : ks ++ ks' = ls ++ ls') :
    Comparable ks ls := by
  rcases List.append_eq_append_iff.mp h with ⟨m, rfl, _⟩ | ⟨m, rfl, _⟩
  · exact .inl (List.prefix_append ks m)
  · exact .inr (List.prefix_append ls m)

theorem Comparable.shorten {ks ks' ls : List TokenKind} (h : Comparable ks ls)
    (hp : ks' <+: ks) : Comparable ks' ls := by
  rcases h with h | h
  · exact .inl (hp.trans h)
  · exact List.prefix_or_prefix_of_prefix hp h

theorem map_kind_enclosed {opening closing : Token} {ts : List Token}
    (opens : opening.kind = .punctuator .leftParen)
    (closes : closing.kind = .punctuator .rightParen) :
    (opening :: (ts ++ [closing])).map Token.kind = enclosed (ts.map Token.kind) := by
  simp [enclosed, opens, closes]

theorem balanced_operation (op : BinaryOp) (a b : Expr) :
    Balanced (a.printed ++ (op.kinds ++ b.printed)) :=
  (balanced_printed a).append (.append (.of_flat op.flat_kinds) (balanced_printed b))

/-- The printed tokens of an operation cannot be read without their parentheses. -/
theorem not_comparable_of_left {op : BinaryOp} {a b : Expr} {la : Level} {ls us : List Token}
    (left : Derives (.level la a) ls) :
    ¬Comparable ((ls ++ us).map Token.kind) (Expr.binary op a b).printed := by
  intro h
  have hls : atoms (ls.map Token.kind) = atoms a.printed := atoms_of_derives left
  -- the left operand does not reach behind them, since it has fewer names and literals
  have short : ¬(Expr.binary op a b).printed <+: ls.map Token.kind := by
    rintro ⟨s, hs⟩
    have total := congrArg atoms hs
    have hb := atoms_printed_pos b
    simp only [atoms_append, Expr.printed, atoms_enclosed] at total
    omega
  -- nor does it end within them, where a parenthesis is open
  have hp : ls.map Token.kind <+: (ls ++ us).map Token.kind := by simp
  have inside := (h.shorten hp).resolve_right short
  have empty : ls.map Token.kind ≠ [] := by
    obtain ⟨first, us, rfl, _⟩ := exists_first_of_derives left _ rfl
    simp
  have deep := one_le_depth_of_prefix_enclosed (balanced_operation op a b) inside empty
    fun same => short (same ▸ List.prefix_rfl)
  have flat := (balanced_of_derives left).closed
  omega

/-- **A derivation does not stop within the printed tokens of its expression**, nor does it go on
behind them. -/
theorem map_kind_eq_printed {l : Level} {e : Expr} {ts : List Token} (d : Derives (.level l e) ts)
    (h : Comparable (ts.map Token.kind) e.printed) : ts.map Token.kind = e.printed := by
  induction e using Expr.operands_induction generalizing l ts with
  | step e ih =>
    cases shape_of_derives d _ _ rfl with
    | literal spells => simp [Expr.printed, spells.kind_eq]
    | reference named => simp [Expr.printed, named]
    | @call t _ _ name es us named opens inner closes =>
      rw [List.map_cons, map_kind_enclosed opens closes, named] at h ⊢
      have balanced : Balanced (Expr.printedAll es) :=
        balanced_printedAll fun x _ => balanced_printed x
      rw [Expr.printed, eq_of_enclosed_comparable (balanced_of_derives inner) balanced h.cons.2]
    | negated _ inner | signed _ _ inner =>
      obtain ⟨first, rest⟩ := h.cons
      have same := ih _ (by simp [Expr.operands]) inner rest
      rw [List.map_cons, same, first, Expr.printed]
    | joined _ left => exact absurd h (not_comparable_of_left left)
    | @parens opening closing _ us opens inner closes =>
      rw [map_kind_enclosed opens closes] at h ⊢
      -- only the text of an operation begins with a parenthesis
      cases e with
      | literal v =>
        have first := h.cons.1
        have flat := v.weight_kind
        rw [← first] at flat
        cases flat
      | reference name | call name es => cases h.cons.1
      | unary op x =>
        have first := h.cons.1
        have flat := op.weight_kind
        rw [← first] at flat
        cases flat
      | binary op a b =>
        rw [Expr.printed, eq_of_enclosed_comparable (balanced_of_derives inner)
          (balanced_operation op a b) h]

/-! ### Operands that bind too loosely -/

namespace Expr

/-- Whether the expression is a negation. -/
def isNot : Expr → Bool
  | unary .not _ => true
  | _ => false

/-- Whether the expression is an operand with `+`, `-` or `~` in front. -/
def isSigned : Expr → Bool
  | unary .not _ => false
  | unary _ _ => true
  | _ => false

/-- The expression does not put a negation under `+`, `-` or `~`, nor under a binary operator other
than `and` and `or`. -/
def LooseNot : Expr → Prop
  | unary op x => op ≠ .not → x.isNot = false
  | binary op l r => op ≠ .and → op ≠ .or → l.isNot = false ∧ r.isNot = false
  | _ => True

/-- The expression does not raise an operand with `+`, `-` or `~` in front to a power. -/
def UnsignedBase : Expr → Prop
  | binary .power l _ => l.isSigned = false
  | _ => True

/-- The tightest level that the printed tokens of an expression are of. -/
def tightest (e : Expr) : Level :=
  if e.isNot then .negation else if e.isSigned then .sign else .primary

/-- From the level of signs on, only a negation can bind too loosely. -/
theorem tightest_rank_le_iff {e : Expr} {l : Level} (h : Level.sign.rank ≤ l.rank) :
    e.tightest.rank ≤ l.rank ↔ (l.rank < Level.negation.rank → e.isNot = false) := by
  unfold tightest
  split
  · simp_all
  · split
    · simp_all
    · simp_all [Level.rank]

theorem tightest_rank_le_primary_iff {e : Expr} :
    e.tightest.rank ≤ Level.primary.rank ↔ e.isNot = false ∧ e.isSigned = false := by
  unfold tightest
  split
  · simp_all [Level.rank]
  · split <;> simp_all [Level.rank]

end Expr

/-- What the levels of its operands ask of an operation. -/
theorem Joins.fits_iff {op : BinaryOp} {la lb : Level} (h : Joins op la lb) (a b : Expr) :
    a.tightest.rank ≤ la.rank ∧ b.tightest.rank ≤ lb.rank ↔
      (Expr.binary op a b).LooseNot ∧ (Expr.binary op a b).UnsignedBase := by
  cases h with
  | chain chains spells =>
    have sign := chains.sign_rank_le
    rw [Expr.tightest_rank_le_iff (Nat.le_trans sign (Nat.le_of_lt chains.rank_lt)),
      Expr.tightest_rank_le_iff sign]
    generalize op.kinds = ks at spells
    cases spells <;> cases chains <;> simp [Expr.LooseNot, Expr.UnsignedBase, Level.rank]
  | power =>
    rw [Expr.tightest_rank_le_primary_iff, Expr.tightest_rank_le_iff (Nat.le_refl _)]
    simp [Expr.LooseNot, Expr.UnsignedBase, Level.rank, and_right_comm]

/-- No operand of the expression binds too loosely. -/
def Expr.Fits (e : Expr) : Prop :=
  e.LooseNot ∧ e.UnsignedBase

theorem Expr.everywhere_fits_iff {e : Expr} :
    e.Everywhere Fits ↔ e.Everywhere LooseNot ∧ e.Everywhere UnsignedBase :=
  ⟨fun h => ⟨fun x hx => (h x hx).1, fun x hx => (h x hx).2⟩,
    fun ⟨h, h'⟩ x hx => ⟨h x hx, h' x hx⟩⟩

/-! ### What is read fits -/

/-- Each argument in a printed list is read from its own printed tokens. -/
theorem exists_derives_of_mem_printedAll {es : List Expr} {ts : List Token}
    (d : Derives (.list es) ts) (h : ts.map Token.kind = Expr.printedAll es) :
    ∀ x ∈ es, ∃ us, Derives (.level (.tier .disjunction) x) us ∧ us.map Token.kind = x.printed := by
  induction es generalizing ts with
  | nil => intro x hx; cases hx
  | cons e es ih =>
    cases d with
    | last inner =>
      intro x hx
      cases List.mem_singleton.mp hx
      exact ⟨ts, inner, by simpa only [Expr.printedAll] using h⟩
    | @more comma _ _ us vs first separates others =>
      rw [Expr.printedAll_cons (ne_nil_of_derives_list others), List.map_append] at h
      have same := map_kind_eq_printed first (.of_append_eq h)
      have rest := List.append_cancel_left (same ▸ h)
      have hvs : vs.map Token.kind = Expr.printedAll es := (List.cons.inj rest).2
      exact List.forall_mem_cons.mpr ⟨⟨us, first, same⟩, ih others hvs⟩

theorem fits_of_derives {l : Level} {e : Expr} {ts : List Token} (d : Derives (.level l e) ts)
    (h : ts.map Token.kind = e.printed) :
    e.tightest.rank ≤ l.rank ∧ e.Everywhere Expr.Fits := by
  induction e using Expr.operands_induction generalizing l ts with
  | step e ih =>
    cases e with
    | literal v => exact ⟨Nat.zero_le _, Expr.everywhere_literal_iff.mpr ⟨trivial, trivial⟩⟩
    | reference name => exact ⟨Nat.zero_le _, Expr.everywhere_reference_iff.mpr ⟨trivial, trivial⟩⟩
    | call name es =>
      refine ⟨Nat.zero_le _, Expr.everywhere_call_iff.mpr ⟨⟨trivial, trivial⟩, ?_⟩⟩
      intro x hx
      cases shape_of_derives d _ _ rfl with
      | parens opens =>
        rw [List.map_cons, opens, Expr.printed] at h
        cases h
      | @call _ _ _ _ _ us _ opens inner closes =>
        rw [List.map_cons, map_kind_enclosed opens closes, Expr.printed] at h
        have hus : us.map Token.kind = Expr.printedAll es :=
          List.append_cancel_right (List.cons.inj (List.cons.inj h).2).2
        cases inner with
        | noArguments => cases hx
        | someArguments inner =>
          obtain ⟨vs, dx, hvs⟩ := exists_derives_of_mem_printedAll inner hus x hx
          exact (ih x hx dx hvs).2
    | unary op x =>
      have operand : x ∈ (Expr.unary op x).operands := List.mem_singleton.mpr rfl
      rw [Expr.everywhere_unary_iff]
      cases shape_of_derives d _ _ rfl with
      | parens opens =>
        rw [List.map_cons, opens, Expr.printed] at h
        have flat := op.weight_kind
        rw [← (List.cons.inj h).1] at flat
        cases flat
      | negated loose inner =>
        have below := (ih x operand inner (List.cons.inj h).2).2
        exact ⟨loose, ⟨fun sign => absurd rfl sign, trivial⟩, below⟩
      | signed loose sign inner =>
        obtain ⟨tight, below⟩ := ih x operand inner (List.cons.inj h).2
        have hx : x.isNot = false :=
          (Expr.tightest_rank_le_iff (Nat.le_refl _)).mp tight (by decide)
        refine ⟨?_, ⟨fun _ => hx, trivial⟩, below⟩
        have negation : (Expr.unary op x).isNot = false := by cases op <;> simp_all [Expr.isNot]
        exact Nat.le_trans ((Expr.tightest_rank_le_iff (Nat.le_refl _)).mpr fun _ => negation) loose
    | binary op a b =>
      refine ⟨Nat.zero_le _, Expr.everywhere_binary_iff.mpr ?_⟩
      cases shape_of_derives d _ _ rfl with
      | joined _ left => exact absurd (.of_eq h) (not_comparable_of_left left)
      | @parens _ _ _ us opens inner closes =>
        rw [map_kind_enclosed opens closes, Expr.printed] at h
        have hus : us.map Token.kind = a.printed ++ (op.kinds ++ b.printed) :=
          List.append_cancel_right (List.cons.inj h).2
        cases shape_of_derives inner _ _ rfl with
        | @parens _ _ _ vs opens' inner' closes' =>
          -- the left operand, with its parentheses closed, ends before these do
          rw [map_kind_enclosed opens' closes'] at hus
          have inside : a.printed <+: enclosed (vs.map Token.kind) := hus ▸ List.prefix_append _ _
          have short : a.printed ≠ enclosed (vs.map Token.kind) := by
            intro same
            have := congrArg atoms hus
            have hb := atoms_printed_pos b
            rw [← same] at this
            simp only [atoms_append] at this
            omega
          have deep := one_le_depth_of_prefix_enclosed (balanced_of_derives inner') inside
            (printed_ne_nil a) short
          have flat := (balanced_printed a).closed
          omega
        | @joined _ la lb _ _ ls ops rs joins left spells right =>
          rw [List.map_append, List.map_append, spells] at hus
          have hls := map_kind_eq_printed left (.of_append_eq hus)
          rw [hls] at hus
          have hrs := List.append_cancel_left (List.append_cancel_left hus)
          obtain ⟨fitsa, belowa⟩ := ih a (by simp [Expr.operands]) left hls
          obtain ⟨fitsb, belowb⟩ := ih b (by simp [Expr.operands]) right hrs
          exact ⟨(joins.fits_iff a b).mp ⟨fitsa, fitsb⟩, belowa, belowb⟩

/-! ### What fits is read -/

/-- A literal stands for a value that a token denotes. -/
def Expr.Written : Expr → Prop
  | .literal v => SpellsLiteral v.kind v
  | _ => True

theorem Level.rank_injective {l l' : Level} (h : l.rank = l'.rank) : l = l' := by
  rcases l with t | _ | _ | _ | _ <;> rcases l' with t' | _ | _ | _ | _
  all_goals
    try cases t
  all_goals
    try cases t'
  all_goals first | rfl | cases h

/-- Every level but the tightest passes on the expressions of the next tighter one. -/
theorem exists_passes {l : Level} (h : l ≠ .primary) : ∃ l', l.rank = l'.rank + 1 ∧
    ∀ e ts, Derives (.level l' e) ts → Derives (.level l e) ts := by
  cases l with
  | tier t =>
    cases t
    · exact ⟨_, rfl, fun _ _ d => .operand .disjunction d⟩
    · exact ⟨_, rfl, fun _ _ d => .operand .conjunction d⟩
    · exact ⟨_, rfl, fun _ _ d => .operand .comparison d⟩
    · exact ⟨_, rfl, fun _ _ d => .operand .bitwise d⟩
    · exact ⟨_, rfl, fun _ _ d => .operand .shift d⟩
    · exact ⟨_, rfl, fun _ _ d => .operand .sum d⟩
    · exact ⟨_, rfl, fun _ _ d => .operand .product d⟩
  | negation => exact ⟨_, rfl, fun _ _ d => .plain d⟩
  | sign => exact ⟨_, rfl, fun _ _ d => .unsigned d⟩
  | power => exact ⟨_, rfl, fun _ _ d => .base d⟩
  | primary => exact absurd rfl h

theorem Derives.loosen {l l' : Level} {e : Expr} {ts : List Token} (d : Derives (.level l e) ts)
    (loose : l.rank ≤ l'.rank) : Derives (.level l' e) ts := by
  obtain ⟨n, hn⟩ := Nat.exists_eq_add_of_le loose
  induction n generalizing l' with
  | zero => exact Level.rank_injective hn ▸ d
  | succ n ih =>
    have looser : l' ≠ .primary := by
      rintro rfl
      cases hn
    obtain ⟨m, hm, passes⟩ := exists_passes looser
    exact passes e ts (ih (by omega) (by omega))

theorem Derives.to_disjunction {l : Level} {e : Expr} {ts : List Token}
    (d : Derives (.level l e) ts) : Derives (.level (.tier .disjunction) e) ts :=
  d.loosen (Nat.le_of_lt_succ l.rank_lt)

theorem BinaryOp.exists_joins (op : BinaryOp) : ∃ la lb, Joins op la lb := by
  cases op with
  | power => exact ⟨_, _, .power⟩
  | or => exact ⟨_, _, .chain .disjunction .or⟩
  | and => exact ⟨_, _, .chain .conjunction .and⟩
  | compare c =>
    cases c with
    | equal => exact ⟨_, _, .chain .comparison .equal⟩
    | notEqual => exact ⟨_, _, .chain .comparison .notEqual⟩
    | greater => exact ⟨_, _, .chain .comparison .greater⟩
    | greaterEqual => exact ⟨_, _, .chain .comparison .greaterEqual⟩
    | less => exact ⟨_, _, .chain .comparison .less⟩
    | lessEqual => exact ⟨_, _, .chain .comparison .lessEqual⟩
  | isIn => exact ⟨_, _, .chain .comparison .isIn⟩
  | notIn => exact ⟨_, _, .chain .comparison .notIn⟩
  | bitAnd => exact ⟨_, _, .chain .bitwise .bitAnd⟩
  | bitXor => exact ⟨_, _, .chain .bitwise .bitXor⟩
  | bitOr => exact ⟨_, _, .chain .bitwise .bitOr⟩
  | shiftLeft => exact ⟨_, _, .chain .shift .shiftLeft⟩
  | shiftRight => exact ⟨_, _, .chain .shift .shiftRight⟩
  | add => exact ⟨_, _, .chain .sum .add⟩
  | subtract => exact ⟨_, _, .chain .sum .subtract⟩
  | multiply => exact ⟨_, _, .chain .product .multiply⟩
  | divide => exact ⟨_, _, .chain .product .divide⟩
  | floorDivide => exact ⟨_, _, .chain .product .floorDivide⟩
  | modulo => exact ⟨_, _, .chain .product .modulo⟩

theorem Joins.derives {op : BinaryOp} {la lb : Level} {a b : Expr} {ls ops rs : List Token}
    (joins : Joins op la lb) (left : Derives (.level la a) ls)
    (spells : ops.map Token.kind = op.kinds) (right : Derives (.level lb b) rs) :
    Derives (.level (.tier .disjunction) (.binary op a b)) (ls ++ (ops ++ rs)) := by
  cases joins with
  | chain chains h => exact (Derives.chain chains left (spells ▸ h) right).to_disjunction
  | power =>
    obtain ⟨p, _, rfl, star, rest⟩ := List.map_eq_cons_iff.mp spells
    cases List.map_eq_nil_iff.mp rest
    exact (Derives.raised left star right).to_disjunction

/-- Tokens whose kinds stand between parentheses. -/
theorem exists_of_map_kind_eq_enclosed {ts : List Token} {ks : List TokenKind}
    (h : ts.map Token.kind = enclosed ks) : ∃ opening us closing, ts = opening :: (us ++ [closing]) ∧
      opening.kind = .punctuator .leftParen ∧ us.map Token.kind = ks ∧
      closing.kind = .punctuator .rightParen := by
  obtain ⟨opening, _, rfl, opens, h⟩ := List.map_eq_cons_iff.mp h
  obtain ⟨us, _, rfl, hus, h⟩ := List.map_eq_append_iff.mp h
  obtain ⟨closing, _, rfl, closes, h⟩ := List.map_eq_cons_iff.mp h
  cases List.map_eq_nil_iff.mp h
  exact ⟨opening, us, closing, rfl, opens, hus, closes⟩

theorem derives_list_of_printedAll {es : List Expr} {ts : List Token} (filled : es ≠ [])
    (h : ts.map Token.kind = Expr.printedAll es)
    (each : ∀ x ∈ es, ∀ us : List Token, us.map Token.kind = x.printed →
      Derives (.level (.tier .disjunction) x) us) : Derives (.list es) ts := by
  induction es generalizing ts with
  | nil => exact absurd rfl filled
  | cons e es ih =>
    rw [List.forall_mem_cons] at each
    by_cases last : es = []
    · subst last
      exact .last (each.1 ts (by simpa only [Expr.printedAll] using h))
    · rw [Expr.printedAll_cons last] at h
      obtain ⟨us, _, rfl, hus, h⟩ := List.map_eq_append_iff.mp h
      obtain ⟨comma, vs, rfl, separates, hvs⟩ := List.map_eq_cons_iff.mp h
      exact .more (each.1 us hus) separates (ih last hvs each.2)

theorem UnaryOp.spellsSign {op : UnaryOp} (h : op ≠ .not) : SpellsSign op.kind op := by
  cases op with
  | plus => exact .plus
  | negate => exact .minus
  | complement => exact .tilde
  | not => exact absurd rfl h

theorem derives_of_fits {e : Expr} {ts : List Token} (written : e.Everywhere Expr.Written)
    (fits : e.Everywhere Expr.Fits) (h : ts.map Token.kind = e.printed) :
    Derives (.level e.tightest e) ts := by
  induction e using Expr.operands_induction generalizing ts with
  | step e ih =>
    -- the operands, each at the tightest level that it has
    have below {x : Expr} (hx : x ∈ e.operands) {us : List Token}
        (hus : us.map Token.kind = x.printed) : Derives (.level x.tightest x) us :=
      ih x hx (written.of_mem hx) (fits.of_mem hx) hus
    cases e with
    | literal v =>
      obtain ⟨t, _, rfl, ht, rest⟩ := List.map_eq_cons_iff.mp h
      cases List.map_eq_nil_iff.mp rest
      exact .literal (ht ▸ written.here)
    | reference name =>
      obtain ⟨t, _, rfl, ht, rest⟩ := List.map_eq_cons_iff.mp h
      cases List.map_eq_nil_iff.mp rest
      exact .reference ht
    | call name es =>
      obtain ⟨t, _, rfl, named, rest⟩ := List.map_eq_cons_iff.mp h
      obtain ⟨opening, us, closing, rfl, opens, hus, closes⟩ := exists_of_map_kind_eq_enclosed rest
      refine .call named opens ?_ closes
      -- the arguments are delimited, so that they may bind as loosely as they like
      by_cases empty : es = []
      · subst empty
        cases List.map_eq_nil_iff.mp hus
        exact .noArguments
      · refine .someArguments (derives_list_of_printedAll empty hus fun x hx vs hvs => ?_)
        exact (below hx hvs).to_disjunction
    | unary op x =>
      obtain ⟨t, us, rfl, spelled, hus⟩ := List.map_eq_cons_iff.mp h
      have inner := below (List.mem_singleton.mpr rfl) hus
      -- a negation takes any operand, and a sign one that fits
      by_cases negation : op = .not
      · subst negation
        refine .negated (spelled ▸ .word) (inner.loosen ?_)
        exact (Expr.tightest_rank_le_iff (by decide)).mpr fun tighter => absurd tighter (by decide)
      · have tight : (Expr.unary op x).tightest = .sign := by
          cases op with
          | not => exact absurd rfl negation
          | plus | negate | complement => rfl
        rw [tight]
        refine .signed (spelled ▸ UnaryOp.spellsSign negation) (inner.loosen ?_)
        exact (Expr.tightest_rank_le_iff (Nat.le_refl _)).mpr fun _ => fits.here.1 negation
    | binary op a b =>
      obtain ⟨opening, us, closing, rfl, opens, hus, closes⟩ := exists_of_map_kind_eq_enclosed h
      obtain ⟨ls, _, rfl, hls, rest⟩ := List.map_eq_append_iff.mp hus
      obtain ⟨ops, rs, rfl, spells, hrs⟩ := List.map_eq_append_iff.mp rest
      -- the operator says how tightly its sides have to bind
      obtain ⟨la, lb, joins⟩ := op.exists_joins
      obtain ⟨fitsa, fitsb⟩ := (joins.fits_iff a b).mpr fits.here
      have left := (below (by simp [Expr.operands]) hls).loosen fitsa
      have right := (below (by simp [Expr.operands]) hrs).loosen fitsb
      exact .parens opens (joins.derives left spells right) closes

/-- **The grammar reads an expression from its printed tokens if and only if no operand of it binds
too loosely.** -/
theorem derives_printed_iff {e : Expr} {ts : List Token} (written : e.Everywhere Expr.Written)
    (h : ts.map Token.kind = e.printed) :
    Derives (.level (.tier .disjunction) e) ts ↔ e.Everywhere Expr.Fits :=
  ⟨fun d => (fits_of_derives d h).2, fun fits => (derives_of_fits written fits h).to_disjunction⟩

end StepScript
