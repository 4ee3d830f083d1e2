import RecordRules.Proofs.Grammar.Outcome

/-!
# The parser reads derivations

The parser, given the tokens of a derivation and after them tokens with which the derived phrase cannot go on,
reads exactly the derived tokens and returns the meaning of the derivation; if the nesting of the derivation
is above the limit it fails, and with the error about nesting. So which of the two happens depends on the
nesting alone, whatever the parser meets first.
-/
namespace RecordRules.Grammar

open RecordRules.Parser

/-- The parser of a phrase over a parser of unary expressions. -/
def Phrase.parser (unary : Parser Expr) : Phrase → Parser Expr
  | .unary => unary
  | .binary .product => chain productOp? unary
  | .binary .sum => chain sumOp? (chain productOp? unary)
  | .binary .comparison => chain comparisonOp? (chain sumOp? (chain productOp? unary))
  | .binary .conjunction =>
      chain andOp? (chain comparisonOp? (chain sumOp? (chain productOp? unary)))
  | .binary .disjunction => expr unary

theorem Phrase.parser_binary (unary : Parser Expr) (l : Level) :
    (Phrase.binary l).parser unary = chain l.op? (l.operand.parser unary) := by
  have h1 : productOp? = Level.product.op? := by funext s; cases s <;> rfl
  have h2 : sumOp? = Level.sum.op? := by funext s; cases s <;> rfl
  have h3 : comparisonOp? = Level.comparison.op? := by funext s; cases s <;> rfl
  have h4 : andOp? = Level.conjunction.op? := by funext s; cases s <;> rfl
  have h5 : orOp? = Level.disjunction.op? := by funext s; cases s <;> rfl
  cases l <;> simp only [Phrase.parser, Level.operand, Parser.expr, h1, h2, h3, h4, h5]

/-! ## Where a phrase ends -/

/-- How tightly a symbol binds to the phrase on its left: operators by their level, an opening parenthesis
tightest of all. -/
def binding? : Symbol → Option Nat
  | .orOr => some 0
  | .andAnd => some 1
  | .eqEq | .ne | .lt | .le | .gt | .ge => some 2
  | .plus | .minus => some 3
  | .star | .slash => some 4
  | .lparen => some 5
  | _ => none

/-- The loosest binding that belongs to a phrase. -/
def Phrase.rank : Phrase → Nat
  | .binary .disjunction => 0
  | .binary .conjunction => 1
  | .binary .comparison => 2
  | .binary .sum => 3
  | .binary .product => 4
  | .unary => 5

/-- Whether a phrase could go on with a token: an operator of its level or a tighter one, a parenthesis that
would make a call of a name, or a name that would make a typed list of an empty one. -/
def Phrase.goesOn (p : Phrase) : Token → Bool
  | .ident _ => true
  | .symbol s => (binding? s).any fun k => p.rank ≤ k
  | _ => false

/-- A phrase ends before these tokens. -/
def Phrase.Ends (p : Phrase) (rest : List Token) : Prop := ∀ t r, rest = t :: r → p.goesOn t = false

theorem Phrase.ends_nil (p : Phrase) : p.Ends [] := fun _ _ h => nomatch h

theorem Phrase.ends_cons {p : Phrase} {t : Token} {r : List Token} :
    p.Ends (t :: r) ↔ p.goesOn t = false := by
  constructor
  · exact fun h => h t r rfl
  · rintro h t' r' ⟨⟩
    exact h

/-- Where a level ends, its operands end. -/
theorem Phrase.Ends.operand {l : Level} {rest : List Token} (h : (Phrase.binary l).Ends rest) :
    l.operand.Ends rest := by
  intro t r hr
  have h1 := h t r hr
  cases t with
  | symbol s => cases l <;> cases s <;> first | rfl | simp [goesOn, binding?, rank] at h1
  | ident name => exact h1
  | _ => rfl

/-- An operand ends before an operator of its level. -/
theorem Phrase.operand_ends_op {l : Level} {s : Symbol} {op : BinaryOp} (h : l.op? s = some op)
    (r : List Token) : l.operand.Ends (.symbol s :: r) := by
  rw [Phrase.ends_cons]
  cases l <;> cases s <;> first | rfl | simp [Level.op?] at h

/-- No operator of a level stands where the level ends. -/
theorem Phrase.Ends.op?_eq_none {l : Level} {rest : List Token} (h : (Phrase.binary l).Ends rest)
    (s : Symbol) (r : List Token) (hr : rest = .symbol s :: r) : l.op? s = none := by
  have h1 := h _ r hr
  cases l <;> cases s <;> first | rfl | simp [goesOn, binding?, rank] at h1

/-- The first operand of a level ends before the tail of the level. -/
theorem ends_tail {l : Level} (d : Derivation (.tail l)) {rest : List Token}
    (h : (Phrase.binary l).Ends rest) : l.operand.Ends (d.tokens ++ rest) := by
  cases d with
  | done => exact h.operand
  | more s op hop right d => exact Phrase.operand_ends_op hop _

/-- The symbols that close a call or a list. -/
def isCloser : Symbol → Bool
  | .rparen | .rbracket | .rbrace => true
  | _ => false

theorem Phrase.ends_closer (p : Phrase) {close : Symbol} (h : isCloser close = true) (r : List Token) :
    p.Ends (.symbol close :: r) := by
  rw [Phrase.ends_cons]
  cases close <;> first | rfl | simp [isCloser] at h

theorem Phrase.ends_comma (p : Phrase) (r : List Token) : p.Ends (.symbol .comma :: r) :=
  Phrase.ends_cons.2 rfl

/-! ## Where a phrase starts -/

/-- A token that starts a primary expression. -/
def startsPrimary : Token → Bool
  | .symbol s => s == .lparen || s == .lbracket
  | _ => true

/-- A token that starts a phrase. -/
def startsPhrase (t : Token) : Bool := startsPrimary t || t == .symbol .bang || t == .symbol .minus

/-- Derived phrases and primary expressions have a first token, and of the right kind. -/
def Starts : {n : Nonterminal} → Derivation n → Prop
  | .phrase _, d => ∃ t r, d.tokens = t :: r ∧ startsPhrase t = true
  | .primary, d => ∃ t r, d.tokens = t :: r ∧ startsPrimary t = true
  | _, _ => True

theorem starts {n : Nonterminal} (d : Derivation n) : Starts d := by
  induction d with
  | chain first rest ih _ =>
      obtain ⟨t, r, ht, hs⟩ := ih
      exact ⟨t, r ++ rest.tokens, by simp [ht], hs⟩
  | not operand _ => exact ⟨_, _, rfl, rfl⟩
  | neg operand _ => exact ⟨_, _, rfl, rfl⟩
  | base p ih =>
      obtain ⟨t, r, ht, hs⟩ := ih
      exact ⟨t, r, ht, by simp [startsPhrase, hs]⟩
  | done | more | none | last | item => trivial
  | _ => exact ⟨_, _, rfl, rfl⟩

theorem ne_closer_of_startsPhrase {t : Token} (h : startsPhrase t = true) {close : Symbol}
    (hc : isCloser close = true) : t ≠ .symbol close := by
  rintro rfl
  cases close <;> first | exact absurd hc (by decide) | exact absurd h (by decide)

/-- A derived primary expression starts with neither of the unary operators. -/
theorem base_ne_unary (p : Derivation .primary) {s : Symbol} (hs : s = .bang ∨ s = .minus)
    (ts rest : List Token) : p.tokens ++ rest ≠ .symbol s :: ts := by
  obtain ⟨t, r, ht, hp⟩ := starts p
  rw [ht, List.cons_append]
  intro h
  obtain rfl := (List.cons.inj h).1
  rcases hs with rfl | rfl <;> exact absurd hp (by decide)

/-- A derived expression starts with no closing symbol. -/
theorem expr_ne_closer (e : Derivation .expr) {close : Symbol} (hc : isCloser close = true)
    (ts rest : List Token) : e.tokens ++ rest ≠ .symbol close :: ts := by
  obtain ⟨t, r, ht, hs⟩ := starts e
  rw [ht, List.cons_append]
  exact fun h => ne_closer_of_startsPhrase hs hc (List.cons.inj h).1

/-! ## Reading -/

/-- What a parser with a limit on nesting returns for something of the given nesting. -/
def limited {α : Type} (depth nesting : Nat) (x : α × List Token) : Except ParseError (α × List Token) :=
  if nesting ≤ depth then .ok x else .error .tooDeep

section
variable {α β : Type} {depth m n : Nat}

theorem limited_bind {x : α × List Token} {y : β × List Token}
    {f : α × List Token → Except ParseError (β × List Token)} (h : f x = limited depth n y) :
    limited depth m x >>= f = limited depth (max m n) y := by
  unfold limited at h ⊢
  by_cases hm : m ≤ depth
  · by_cases hn : n ≤ depth
    · rw [if_pos hm, if_pos (by omega)]
      rw [if_pos hn] at h
      exact h
    · rw [if_pos hm, if_neg (by omega)]
      rw [if_neg hn] at h
      exact h
  · rw [if_neg hm, if_neg (by omega)]
    rfl

theorem limited_map {x : α × List Token} {y : β × List Token}
    {f : α × List Token → Except ParseError (β × List Token)} (h : f x = .ok y) :
    limited depth m x >>= f = limited depth m y := by
  unfold limited
  split
  · exact h
  · rfl

theorem limited_succ {x : α × List Token} : limited (depth + 1) (m + 1) x = limited depth m x := by
  simp [limited]

end

/-- The parser of a nonterminal reads a derivation, whatever follows that the derived text cannot go on with. -/
def Reads (depth : Nat) : {n : Nonterminal} → Derivation n → Prop
  | .phrase p, d => ∀ rest, p.Ends rest →
      outcome (p.parser (unary depth) (d.tokens ++ rest)) = limited depth d.nesting (d.meaning, rest)
  | .tail l, d => ∀ left rest, (Phrase.binary l).Ends rest →
      outcome (chainFrom l.op? (l.operand.parser (unary depth)) left (d.tokens ++ rest)) =
        limited depth d.nesting (d.meaning left, rest)
  | .primary, d => ∀ rest, Phrase.unary.Ends rest →
      outcome (primary (expr (unary depth)) (d.tokens ++ rest)) = limited depth d.nesting (d.meaning, rest)
  | .items, d => ∀ close rest, isCloser close = true →
      outcome (items (expr (unary depth)) close (d.tokens ++ .symbol close :: rest)) =
        limited depth d.nesting (d.meaning, rest)

/-- The items of a list in brackets are not taken for the start of a typed list. -/
theorem not_typed_start (d : Derivation .items) {rest : List Token} (h : Phrase.unary.Ends rest)
    (kind : String) (r : List Token) :
    d.tokens ++ .symbol .rbracket :: rest ≠ .symbol .rbracket :: .ident kind :: .symbol .lbrace :: r := by
  cases d with
  | none =>
      intro he
      simp only [Derivation.tokens, List.nil_append, List.cons.injEq, true_and] at he
      have hends := h _ _ he
      simp [Phrase.goesOn] at hends
  | last e => exact expr_ne_closer e rfl _ _
  | item e rest =>
      rw [Derivation.tokens, List.append_assoc]
      exact expr_ne_closer e rfl _ _

/-- Reading one item and what follows it. -/
theorem Reads.beforeFollow {depth : Nat} {e : Derivation .expr} (he : Reads depth e) {close : Symbol}
    (hc : isCloser close = true) {follow : List Token} (hf : (Phrase.binary .disjunction).Ends follow)
    {es : List Expr} {rest : List Token} {n : Nat}
    (h : afterItem (expr (unary depth)) close e.meaning follow = limited depth n (es, rest)) :
    outcome (items (expr (unary depth)) close (e.tokens ++ follow)) =
      limited depth (max e.nesting n) (es, rest) := by
  obtain ⟨t, r, ht, hs⟩ := starts e
  have h1 := he follow hf
  rw [ht, List.cons_append] at h1 ⊢
  rw [outcome_items_cons _ _ (ne_closer_of_startsPhrase hs hc)]
  exact (congrArg (· >>= _) h1).trans (limited_bind h)

namespace Reads

variable {depth : Nat} {l : Level} {first right : Derivation (.phrase l.operand)}
  {rest : Derivation (.tail l)} {operand : Derivation (.phrase .unary)} {p : Derivation .primary}
  {e : Derivation .expr} {items : Derivation .items} {name : String}

theorem chain (ihf : Reads depth first) (ihr : Reads depth rest) : Reads depth (.chain first rest) := by
  intro ts hends
  rw [Phrase.parser_binary, outcome_chain, Derivation.tokens, List.append_assoc,
    ihf _ (ends_tail rest hends)]
  exact limited_bind (ihr first.meaning ts hends)

theorem done : Reads depth (.done : Derivation (.tail l)) := by
  intro left ts hends
  rw [Derivation.tokens, List.nil_append, outcome_chainFrom_stop _ _ _ hends.op?_eq_none]
  rfl

theorem more {s : Symbol} {op : BinaryOp} (h : l.op? s = some op) (ihr : Reads depth right)
    (ih : Reads depth rest) : Reads depth (.more s op h right rest) := by
  intro left ts hends
  rw [Derivation.tokens, List.cons_append, outcome_chainFrom_op _ _ h, List.append_assoc,
    ihr _ (ends_tail rest hends)]
  exact limited_bind (ih (.binary op left right.meaning) ts hends)

-- A unary expression uses up one of the levels that its operand or primary expression is read within.

theorem not (ih : ∀ depth, Reads depth operand) : Reads depth (.not operand) := by
  intro ts hends
  cases depth with
  | zero => rfl
  | succ depth =>
      rw [Phrase.parser, Derivation.tokens, List.cons_append, outcome_unary_not, Derivation.nesting,
        limited_succ]
      exact (congrArg (· >>= _) (ih depth ts hends)).trans (limited_map rfl)

theorem neg (ih : ∀ depth, Reads depth operand) : Reads depth (.neg operand) := by
  intro ts hends
  cases depth with
  | zero => rfl
  | succ depth =>
      rw [Phrase.parser, Derivation.tokens, List.cons_append, outcome_unary_neg, Derivation.nesting,
        limited_succ]
      exact (congrArg (· >>= _) (ih depth ts hends)).trans (limited_map rfl)

theorem base (ih : ∀ depth, Reads depth p) : Reads depth (.base p) := by
  intro ts hends
  cases depth with
  | zero => rfl
  | succ depth =>
      rw [Phrase.parser, Derivation.tokens, outcome_unary_primary depth
        (fun u => base_ne_unary p (.inl rfl) u ts) (fun u => base_ne_unary p (.inr rfl) u ts),
        Derivation.nesting, limited_succ]
      exact ih depth ts hends

theorem field (h : word? name = none) : Reads depth (.field name h) := by
  intro ts hends
  have hparen : ∀ r, ts ≠ .symbol .lparen :: r := by
    rintro r rfl
    exact absurd (hends _ _ rfl) (by decide)
  exact (outcome_primary_name _ h ts).trans (outcome_named_field _ name hparen)

theorem call (h : word? name = none) (ih : Reads depth items) : Reads depth (.call name h items) := by
  intro ts _
  rw [Derivation.tokens, List.cons_append, List.cons_append, List.append_assoc,
    outcome_primary_name _ h, outcome_named_call]
  exact (congrArg (· >>= _) (ih .rparen ts rfl)).trans (limited_map rfl)

theorem group (ih : Reads depth e) : Reads depth (.group e) := by
  intro ts _
  rw [Derivation.tokens, List.cons_append, List.append_assoc, outcome_primary_group]
  refine (congrArg (· >>= _) (ih _ (Phrase.ends_closer _ rfl _))).trans (limited_map ?_)
  exact congrArg (· >>= _) (outcome_expect_self .rparen ts)

theorem list (ih : Reads depth items) : Reads depth (.list items) := by
  intro ts hends
  rw [Derivation.tokens, List.cons_append, List.append_assoc, outcome_primary_list, List.singleton_append,
    outcome_listRest_plain _ (not_typed_start items hends)]
  exact (congrArg (· >>= _) (ih .rbracket ts rfl)).trans (limited_map rfl)

theorem typed (kind : String) (ih : Reads depth items) : Reads depth (.typed kind items) := by
  intro ts _
  rw [Derivation.tokens, List.cons_append, List.cons_append, List.cons_append, List.cons_append,
    List.append_assoc, outcome_primary_list, outcome_listRest_typed]
  exact (congrArg (· >>= _) (ih .rbrace ts rfl)).trans (limited_map rfl)

theorem last (ih : Reads depth e) : Reads depth (.last e) := by
  intro close rest hc
  have hafter : afterItem (expr (unary depth)) close e.meaning (.symbol close :: rest) =
      limited depth 0 ([e.meaning], rest) := by
    cases close <;> first | rfl | exact absurd hc (by decide)
  exact (ih.beforeFollow hc (Phrase.ends_closer _ hc _) hafter).trans
    (by rw [Nat.max_zero]; rfl)

theorem item (ihe : Reads depth e) (ihr : Reads depth items) : Reads depth (.item e items) := by
  intro close ts hc
  rw [Derivation.tokens, List.append_assoc, List.cons_append]
  refine ihe.beforeFollow hc (Phrase.ends_comma _ _) ?_
  exact (congrArg (· >>= _) (ihr close ts hc)).trans (limited_map rfl)

end Reads

/-- The parser reads every derivation. -/
theorem reads {n : Nonterminal} (d : Derivation n) (depth : Nat) : Reads depth d := by
  induction d generalizing depth with
  | chain first rest ihf ihr => exact .chain (ihf depth) (ihr depth)
  | done => exact .done
  | more s op h right rest ihr ih => exact .more h (ihr depth) (ih depth)
  | not operand ih => exact .not ih
  | neg operand ih => exact .neg ih
  | base p ih => exact .base ih
  | int n => exact fun _ _ => rfl
  | float x => exact fun _ _ => rfl
  | str s => exact fun _ _ => rfl
  | word name v h => exact fun ts _ => outcome_primary_word _ h ts
  | field name h => exact .field h
  | call name h args ih => exact .call h (ih depth)
  | group inner ih => exact .group (ih depth)
  | list items ih => exact .list (ih depth)
  | typed kind items ih => exact .typed kind (ih depth)
  | none => exact fun close rest _ => outcome_items_close _ close rest
  | last e ih => exact .last (ih depth)
  | item e rest ihe ihr => exact .item (ihe depth) (ihr depth)

end RecordRules.Grammar
