import RecordRules.Proofs.Failure
import RecordRules.Proofs.Grammar.Reading
import RecordRules.Proofs.Lexer.Pieces

/-!
# The parser accepts exactly the grammar

Every parser finds a derivation of what it reads, and a list of tokens has at most one derivation. With the
reading of derivations this gives the main statement: a text whose tokens have a derivation within the limit
on nesting is accepted with the tree of that derivation, and no other text is accepted.
-/
namespace RecordRules.Grammar

open RecordRules.Parser

/-! ## What is read has a derivation -/

/-- Some derivation within a limit on nesting derives the tokens up to `rest` and means `m`. -/
def Derives (n : Nonterminal) (depth : Nat) (ts : List Token) (m : n.Meaning) (rest : List Token) : Prop :=
  ∃ d : Derivation n, d.tokens ++ rest = ts ∧ d.meaning = m ∧ d.nesting ≤ depth

/-- What a parser reads is derived from a phrase. -/
def Sound (p : Phrase) (depth : Nat) : Prop :=
  ∀ ts e r, outcome (p.parser (unary depth) ts) = .ok (e, r) → Derives (.phrase p) depth ts e r

/-- A parser leaves fewer tokens than it was given. -/
theorem length_lt_of_outcome {α : Type} {p : Parser α} {ts r : List Token} {a : α}
    (h : outcome (p ts) = .ok (a, r)) : r.length < ts.length := by
  cases hp : p ts with
  | error e => simp [hp] at h
  | ok y =>
      rw [hp] at h
      simp only [outcome, Except.map, Except.ok.injEq, Prod.mk.injEq] at h
      exact h.2 ▸ y.2.2

theorem chainFrom_sound {l : Level} {depth : Nat} (hop : Sound l.operand depth) {left e : Expr}
    {ts r : List Token}
    (h : outcome (chainFrom l.op? (l.operand.parser (unary depth)) left ts) = .ok (e, r)) :
    ∃ d : Derivation (.tail l), d.tokens ++ r = ts ∧ d.meaning left = e ∧ d.nesting ≤ depth := by
  induction hn : ts.length using Nat.strongRecOn generalizing left ts with
  | ind n ih =>
      by_cases hs : ∃ s u op, ts = .symbol s :: u ∧ l.op? s = some op
      · obtain ⟨s, u, op, rfl, hop?⟩ := hs
        rw [outcome_chainFrom_op _ _ hop?] at h
        obtain ⟨⟨right, r1⟩, hr, h⟩ := exists_of_bind_eq_ok h
        have hlen := length_lt_of_outcome hr
        obtain ⟨dr, htr, hmr, hnr⟩ := hop _ _ _ hr
        obtain ⟨d, ht, hm, hd⟩ := ih r1.length (by simp only [List.length_cons] at hn; omega) h rfl
        refine ⟨.more s op hop? dr d, ?_, ?_, Nat.max_le.2 ⟨hnr, hd⟩⟩
        · simp [ht, htr]
        · rw [← hm, ← hmr]
          rfl
      · have hstop : ∀ s u, ts = .symbol s :: u → l.op? s = none := by
          intro s u he
          cases ho : l.op? s with
          | none => rfl
          | some op => exact absurd ⟨s, u, op, he, ho⟩ hs
        rw [outcome_chainFrom_stop _ _ _ hstop] at h
        simp only [Except.ok.injEq, Prod.mk.injEq] at h
        exact ⟨.done, h.2.symm, h.1, Nat.zero_le _⟩

theorem Sound.binary {l : Level} {depth : Nat} (hop : Sound l.operand depth) :
    Sound (.binary l) depth := by
  intro ts e r h
  rw [Phrase.parser_binary, outcome_chain] at h
  obtain ⟨⟨first, r1⟩, hf, h⟩ := exists_of_bind_eq_ok h
  obtain ⟨df, htf, hmf, hnf⟩ := hop _ _ _ hf
  obtain ⟨d, ht, hm, hd⟩ := chainFrom_sound hop h
  refine ⟨.chain df d, ?_, ?_, Nat.max_le.2 ⟨hnf, hd⟩⟩
  · rw [Derivation.tokens, List.append_assoc, ht, htf]
  · rw [← hm, ← hmf]
    rfl

/-- If the parser of unary expressions finds derivations, the parsers of all phrases over it do. -/
theorem Sound.of_unary {depth : Nat} (h : Sound .unary depth) (p : Phrase) : Sound p depth := by
  have product : Sound (.binary .product) depth := .binary h
  have sum : Sound (.binary .sum) depth := .binary product
  have comparison : Sound (.binary .comparison) depth := .binary sum
  have conjunction : Sound (.binary .conjunction) depth := .binary comparison
  cases p with
  | unary => exact h
  | binary l =>
      cases l with
      | product => exact product
      | sum => exact sum
      | comparison => exact comparison
      | conjunction => exact conjunction
      | disjunction => exact .binary conjunction

theorem items_sound {depth : Nat} (he : Sound (.binary .disjunction) depth) {close : Symbol}
    {ts r : List Token} {es : List Expr}
    (h : outcome (items (expr (unary depth)) close ts) = .ok (es, r)) :
    Derives .items depth ts es (.symbol close :: r) := by
  induction hn : ts.length using Nat.strongRecOn generalizing ts es with
  | ind n ih =>
      cases ts with
      | nil =>
          rw [outcome_items_nil] at h
          obtain ⟨⟨e, r1⟩, hx, -⟩ := exists_of_bind_eq_ok h
          exact absurd (length_lt_of_outcome hx) (Nat.not_lt_zero _)
      | cons t u =>
          by_cases ht : t = .symbol close
          · rw [ht, outcome_items_close] at h
            simp only [Except.ok.injEq, Prod.mk.injEq] at h
            exact ⟨.none, by rw [ht, h.2]; rfl, h.1, Nat.zero_le _⟩
          · rw [outcome_items_cons _ _ ht] at h
            obtain ⟨⟨e, r1⟩, hx, h⟩ := exists_of_bind_eq_ok h
            have hlen := length_lt_of_outcome hx
            obtain ⟨d, htd, hmd, hnd⟩ := he _ _ _ hx
            unfold afterItem at h
            split at h
            · rename_i r2 hr1
              obtain ⟨⟨es', r3⟩, hy, h⟩ := exists_of_bind_eq_ok h
              obtain ⟨rfl, rfl⟩ : e :: es' = es ∧ r3 = r := by simpa using h
              have hr1' : r1 = .symbol .comma :: r2 := hr1
              have hlt : r2.length < n := by
                simp only [hr1', List.length_cons] at hlen
                simp only [List.length_cons] at hn
                omega
              obtain ⟨ds, hts, hms, hns⟩ := ih r2.length hlt hy rfl
              refine ⟨.item d ds, ?_, ?_, Nat.max_le.2 ⟨hnd, hns⟩⟩
              · rw [← htd, Derivation.tokens, List.append_assoc, List.cons_append, hts, hr1']
              · rw [← hmd, ← hms]
                rfl
            · obtain ⟨⟨v, r2⟩, hy, h⟩ := exists_of_bind_eq_ok h
              simp only [Except.ok.injEq, Prod.mk.injEq] at h
              refine ⟨.last d, ?_, ?_, hnd⟩
              · rw [← htd, ← h.2, Derivation.tokens]
                exact congrArg _ (eq_cons_of_expect hy).symm
              · rw [← h.1, ← hmd]
                rfl

section
variable {depth : Nat} (he : Sound (.binary .disjunction) depth) {ts r : List Token} {e : Expr}
include he

theorem name_sound {name : String}
    (h : outcome (primary (expr (unary depth)) (.ident name :: ts)) = .ok (e, r)) :
    Derives .primary depth (.ident name :: ts) e r := by
  cases hw : word? name with
  | some v =>
      rw [outcome_primary_word _ hw] at h
      obtain ⟨rfl, rfl⟩ : .literal v = e ∧ ts = r := by simpa using h
      exact ⟨.word name v hw, rfl, rfl, Nat.zero_le _⟩
  | none =>
      rw [outcome_primary_name _ hw] at h
      by_cases hp : ∃ u, ts = .symbol .lparen :: u
      · obtain ⟨u, rfl⟩ := hp
        rw [outcome_named_call] at h
        obtain ⟨⟨args, r1⟩, hi, h⟩ := exists_of_bind_eq_ok h
        obtain ⟨rfl, rfl⟩ : .call name args = e ∧ r1 = r := by simpa using h
        obtain ⟨d, ht, hm, hn⟩ := items_sound he hi
        exact ⟨.call name hw d, by simp [ht], by rw [← hm]; rfl, hn⟩
      · rw [outcome_named_field _ name fun u hu => hp ⟨u, hu⟩] at h
        obtain ⟨rfl, rfl⟩ : .ident name = e ∧ ts = r := by simpa using h
        exact ⟨.field name hw, rfl, rfl, Nat.zero_le _⟩

theorem group_sound
    (h : outcome (primary (expr (unary depth)) (.symbol .lparen :: ts)) = .ok (e, r)) :
    Derives .primary depth (.symbol .lparen :: ts) e r := by
  rw [outcome_primary_group] at h
  obtain ⟨⟨e', r1⟩, hx, h⟩ := exists_of_bind_eq_ok h
  obtain ⟨⟨v, r2⟩, hy, h⟩ := exists_of_bind_eq_ok h
  obtain ⟨rfl, rfl⟩ : e' = e ∧ r2 = r := by simpa using h
  obtain ⟨d, ht, hm, hn⟩ := he _ _ _ hx
  have hr1 : r1 = .symbol .rparen :: r2 := eq_cons_of_expect hy
  exact ⟨.group d, by simp [← ht, hr1], hm, hn⟩

theorem list_sound
    (h : outcome (primary (expr (unary depth)) (.symbol .lbracket :: ts)) = .ok (e, r)) :
    Derives .primary depth (.symbol .lbracket :: ts) e r := by
  rw [outcome_primary_list] at h
  by_cases hk : ∃ kind u, ts = .symbol .rbracket :: .ident kind :: .symbol .lbrace :: u
  · obtain ⟨kind, u, rfl⟩ := hk
    rw [outcome_listRest_typed] at h
    obtain ⟨⟨es, r1⟩, hi, h⟩ := exists_of_bind_eq_ok h
    obtain ⟨rfl, rfl⟩ : .list es = e ∧ r1 = r := by simpa using h
    obtain ⟨d, ht, hm, hn⟩ := items_sound he hi
    exact ⟨.typed kind d, by simp [ht], by rw [← hm]; rfl, hn⟩
  · rw [outcome_listRest_plain _ fun kind u hu => hk ⟨kind, u, hu⟩] at h
    obtain ⟨⟨es, r1⟩, hi, h⟩ := exists_of_bind_eq_ok h
    obtain ⟨rfl, rfl⟩ : .list es = e ∧ r1 = r := by simpa using h
    obtain ⟨d, ht, hm, hn⟩ := items_sound he hi
    exact ⟨.list d, by simp [ht], by rw [← hm]; rfl, hn⟩

theorem primary_sound (h : outcome (primary (expr (unary depth)) ts) = .ok (e, r)) :
    Derives .primary depth ts e r := by
  match ts with
  | [] => exact nomatch h
  | .int n :: u =>
      obtain ⟨rfl, rfl⟩ := Prod.mk.inj (Except.ok.inj h)
      exact ⟨.int n, rfl, rfl, Nat.zero_le _⟩
  | .float x :: u =>
      obtain ⟨rfl, rfl⟩ := Prod.mk.inj (Except.ok.inj h)
      exact ⟨.float x, rfl, rfl, Nat.zero_le _⟩
  | .str s :: u =>
      obtain ⟨rfl, rfl⟩ := Prod.mk.inj (Except.ok.inj h)
      exact ⟨.str s, rfl, rfl, Nat.zero_le _⟩
  | .ident name :: u => exact name_sound he h
  | .symbol s :: u =>
      cases s with
      | lparen => exact group_sound he h
      | lbracket => exact list_sound he h
      | _ => exact nomatch h

end

/-- Every parser of phrases finds derivations. -/
theorem sound (depth : Nat) : ∀ p : Phrase, Sound p depth := by
  induction depth with
  | zero => exact Sound.of_unary fun ts e r h => nomatch h
  | succ depth ih =>
      refine Sound.of_unary fun ts e r h => ?_
      by_cases hb : ∃ u, ts = .symbol .bang :: u
      · obtain ⟨u, rfl⟩ := hb
        rw [Phrase.parser, outcome_unary_not] at h
        obtain ⟨⟨e', r1⟩, hx, h⟩ := exists_of_bind_eq_ok h
        obtain ⟨rfl, rfl⟩ : .unary .not e' = e ∧ r1 = r := by simpa using h
        obtain ⟨d, ht, hm, hn⟩ := ih .unary _ _ _ hx
        exact ⟨.not d, by rw [← ht]; rfl, by rw [← hm]; rfl, Nat.succ_le_succ hn⟩
      · by_cases hm : ∃ u, ts = .symbol .minus :: u
        · obtain ⟨u, rfl⟩ := hm
          rw [Phrase.parser, outcome_unary_neg] at h
          obtain ⟨⟨e', r1⟩, hx, h⟩ := exists_of_bind_eq_ok h
          obtain ⟨rfl, rfl⟩ : .unary .neg e' = e ∧ r1 = r := by simpa using h
          obtain ⟨d, ht, hm, hn⟩ := ih .unary _ _ _ hx
          exact ⟨.neg d, by rw [← ht]; rfl, by rw [← hm]; rfl, Nat.succ_le_succ hn⟩
        · rw [Phrase.parser, outcome_unary_primary depth (fun u hu => hb ⟨u, hu⟩)
            (fun u hu => hm ⟨u, hu⟩)] at h
          obtain ⟨d, ht, hm, hn⟩ := primary_sound (ih _) h
          exact ⟨.base d, ht, hm, Nat.succ_le_succ hn⟩

/-! ## A list of tokens has one derivation -/

/-- What can stand after the text derived from a nonterminal. -/
def Follows : Nonterminal → List Token → Prop
  | .phrase p, rest => p.Ends rest
  | .tail l, rest => (Phrase.binary l).Ends rest
  | .primary, rest => Phrase.unary.Ends rest
  | .items, rest => ∃ close r, isCloser close = true ∧ rest = .symbol close :: r

/-- A derivation is determined by its tokens, and so is where they end. -/
def Determined {n : Nonterminal} (d : Derivation n) : Prop :=
  ∀ (d' : Derivation n) (r r' : List Token), Follows n r → Follows n r' →
    d.tokens ++ r = d'.tokens ++ r' → d = d' ∧ r = r'

namespace Determined

variable {l : Level} {first right : Derivation (.phrase l.operand)} {rest : Derivation (.tail l)}
  {operand : Derivation (.phrase .unary)} {p : Derivation .primary} {e : Derivation .expr}
  {items : Derivation .items} {name : String}

theorem chain (ihf : Determined first) (ihr : Determined rest) : Determined (.chain first rest) := by
  intro d' r r' hr hr' h
  cases d' with
  | chain first' rest' =>
      simp only [Derivation.tokens, List.append_assoc] at h
      obtain ⟨rfl, h1⟩ := ihf first' _ _ (ends_tail rest hr) (ends_tail rest' hr') h
      obtain ⟨rfl, h2⟩ := ihr rest' r r' hr hr' h1
      exact ⟨rfl, h2⟩

theorem done : Determined (.done : Derivation (.tail l)) := by
  intro d' r r' hr hr' h
  cases d' with
  | done => exact ⟨rfl, h⟩
  | more s op hop right rest => exact absurd (hr.op?_eq_none s _ h) (by simp [hop])

theorem more {s : Symbol} {op : BinaryOp} (hop : l.op? s = some op) (ihr : Determined right)
    (ih : Determined rest) : Determined (.more s op hop right rest) := by
  intro d' r r' hr hr' h
  cases d' with
  | done => exact absurd (hr'.op?_eq_none s _ h.symm) (by simp [hop])
  | more s' op' hop' right' rest' =>
      simp only [Derivation.tokens, List.cons_append, List.append_assoc, List.cons.injEq,
        Token.symbol.injEq] at h
      obtain ⟨rfl, h1⟩ := h
      obtain rfl : op = op' := Option.some.inj (hop.symm.trans hop')
      obtain ⟨rfl, h2⟩ := ihr right' _ _ (ends_tail rest hr) (ends_tail rest' hr') h1
      obtain ⟨rfl, h3⟩ := ih rest' r r' hr hr' h2
      exact ⟨rfl, h3⟩

theorem not (ih : Determined operand) : Determined (.not operand) := by
  intro d' r r' hr hr' h
  cases d' with
  | not operand' =>
      obtain ⟨rfl, h1⟩ := ih operand' r r' hr hr' (List.cons.inj h).2
      exact ⟨rfl, h1⟩
  | neg operand' => simp at h
  | base p => exact absurd h.symm (base_ne_unary p (.inl rfl) _ _)

theorem neg (ih : Determined operand) : Determined (.neg operand) := by
  intro d' r r' hr hr' h
  cases d' with
  | not operand' => simp at h
  | neg operand' =>
      obtain ⟨rfl, h1⟩ := ih operand' r r' hr hr' (List.cons.inj h).2
      exact ⟨rfl, h1⟩
  | base p => exact absurd h.symm (base_ne_unary p (.inr rfl) _ _)

theorem base (ih : Determined p) : Determined (.base p) := by
  intro d' r r' hr hr' h
  cases d' with
  | not operand' => exact absurd h (base_ne_unary p (.inl rfl) _ _)
  | neg operand' => exact absurd h (base_ne_unary p (.inr rfl) _ _)
  | base p' =>
      obtain ⟨rfl, h1⟩ := ih p' r r' hr hr' h
      exact ⟨rfl, h1⟩

theorem int (x : Int64) : Determined (.int x) := by
  intro d' r r' hr hr' h
  cases d' <;> simp at h ⊢
  exact h

theorem float (x : Float) : Determined (.float x) := by
  intro d' r r' hr hr' h
  cases d' <;> simp at h ⊢
  exact h

theorem str (x : String) : Determined (.str x) := by
  intro d' r r' hr hr' h
  cases d' <;> simp at h ⊢
  exact h

theorem word {v : Value} (hv : word? name = some v) : Determined (.word name v hv) := by
  intro d' r r' hr hr' h
  cases d' with
  | word name' v' hv' =>
      simp only [Derivation.tokens, List.cons_append, List.nil_append, List.cons.injEq,
        Token.ident.injEq] at h
      obtain ⟨rfl, h1⟩ := h
      obtain rfl : v = v' := Option.some.inj (hv.symm.trans hv')
      exact ⟨rfl, h1⟩
  | field name' hv' | call name' hv' args' =>
      simp only [Derivation.tokens, List.cons_append, List.nil_append, List.cons.injEq,
        Token.ident.injEq] at h
      obtain ⟨rfl, -⟩ := h
      exact absurd (hv.symm.trans hv') (by simp)
  | _ => simp at h

theorem field (hv : word? name = none) : Determined (.field name hv) := by
  intro d' r r' hr hr' h
  cases d' with
  | word name' v' hv' =>
      simp only [Derivation.tokens, List.cons_append, List.nil_append, List.cons.injEq,
        Token.ident.injEq] at h
      obtain ⟨rfl, -⟩ := h
      exact absurd (hv.symm.trans hv') (by simp)
  | field name' hv' =>
      simp only [Derivation.tokens, List.cons_append, List.nil_append, List.cons.injEq,
        Token.ident.injEq] at h
      obtain ⟨rfl, h1⟩ := h
      exact ⟨rfl, h1⟩
  | call name' hv' args' =>
      exact absurd (hr _ _ (List.cons.inj h).2) (by decide)
  | _ => simp at h

theorem call (hv : word? name = none) (ih : Determined items) : Determined (.call name hv items) := by
  intro d' r r' hr hr' h
  cases d' with
  | word name' v' hv' =>
      simp only [Derivation.tokens, List.cons_append, List.nil_append, List.cons.injEq,
        Token.ident.injEq] at h
      obtain ⟨rfl, -⟩ := h
      exact absurd (hv.symm.trans hv') (by simp)
  | field name' hv' =>
      exact absurd (hr' _ _ (List.cons.inj h).2.symm) (by decide)
  | call name' hv' args' =>
      simp only [Derivation.tokens, List.cons_append, List.append_assoc, List.nil_append,
        List.cons.injEq, Token.ident.injEq, true_and] at h
      obtain ⟨rfl, h1⟩ := h
      obtain ⟨rfl, h2⟩ := ih args' _ _ ⟨_, r, rfl, rfl⟩ ⟨_, r', rfl, rfl⟩ h1
      exact ⟨rfl, (List.cons.inj h2).2⟩
  | _ => simp at h

theorem group (ih : Determined e) : Determined (.group e) := by
  intro d' r r' hr hr' h
  cases d' with
  | group e' =>
      simp only [Derivation.tokens, List.cons_append, List.append_assoc, List.nil_append,
        List.cons.injEq, true_and] at h
      obtain ⟨rfl, h1⟩ := ih e' _ _ (Phrase.ends_closer _ rfl r) (Phrase.ends_closer _ rfl r') h
      exact ⟨rfl, (List.cons.inj h1).2⟩
  | _ => simp at h

theorem list (ih : Determined items) : Determined (.list items) := by
  intro d' r r' hr hr' h
  cases d' with
  | list items' =>
      simp only [Derivation.tokens, List.cons_append, List.append_assoc, List.nil_append,
        List.cons.injEq, true_and] at h
      obtain ⟨rfl, h1⟩ := ih items' _ _ ⟨_, r, rfl, rfl⟩ ⟨_, r', rfl, rfl⟩ h
      exact ⟨rfl, (List.cons.inj h1).2⟩
  | typed kind' items' =>
      simp only [Derivation.tokens, List.cons_append, List.append_assoc, List.nil_append,
        List.cons.injEq, true_and] at h
      exact absurd h (not_typed_start items hr _ _)
  | _ => simp at h

theorem typed (kind : String) (ih : Determined items) : Determined (.typed kind items) := by
  intro d' r r' hr hr' h
  cases d' with
  | list items' =>
      simp only [Derivation.tokens, List.cons_append, List.append_assoc, List.nil_append,
        List.cons.injEq, true_and] at h
      exact absurd h.symm (not_typed_start items' hr' _ _)
  | typed kind' items' =>
      simp only [Derivation.tokens, List.cons_append, List.append_assoc, List.nil_append,
        List.cons.injEq, Token.ident.injEq, true_and] at h
      obtain ⟨rfl, h1⟩ := h
      obtain ⟨rfl, h2⟩ := ih items' _ _ ⟨_, r, rfl, rfl⟩ ⟨_, r', rfl, rfl⟩ h1
      exact ⟨rfl, (List.cons.inj h2).2⟩
  | _ => simp at h

theorem none : Determined (.none) := by
  intro d' r r' hr hr' h
  obtain ⟨close, u, hc, rfl⟩ := hr
  cases d' with
  | none => exact ⟨rfl, h⟩
  | last e' => exact absurd h.symm (expr_ne_closer e' hc _ _)
  | item e' rest' =>
      simp only [Derivation.tokens, List.nil_append, List.append_assoc] at h
      exact absurd h.symm (expr_ne_closer e' hc _ _)

theorem last (ih : Determined e) : Determined (.last e) := by
  intro d' r r' hr hr' h
  obtain ⟨close, u, hc, rfl⟩ := hr
  obtain ⟨close', u', hc', rfl⟩ := hr'
  cases d' with
  | none => exact absurd h (expr_ne_closer e hc' _ _)
  | last e' =>
      obtain ⟨rfl, h1⟩ := ih e' _ _ (Phrase.ends_closer _ hc _) (Phrase.ends_closer _ hc' _) h
      exact ⟨rfl, h1⟩
  | item e' rest' =>
      rw [Derivation.tokens, Derivation.tokens, List.append_assoc, List.cons_append] at h
      obtain ⟨-, h1⟩ := ih e' _ _ (Phrase.ends_closer _ hc _) (Phrase.ends_comma _ _) h
      simp only [List.cons.injEq, Token.symbol.injEq] at h1
      exact absurd hc (by rw [h1.1]; decide)

theorem item {rest : Derivation .items} (ihe : Determined e) (ihr : Determined rest) :
    Determined (.item e rest) := by
  intro d' r r' hr hr' h
  cases d' with
  | none =>
      obtain ⟨close', u', hc', rfl⟩ := hr'
      simp only [Derivation.tokens, List.nil_append, List.append_assoc] at h
      exact absurd h (expr_ne_closer e hc' _ _)
  | last e' =>
      obtain ⟨close', u', hc', rfl⟩ := hr'
      rw [Derivation.tokens, Derivation.tokens, List.append_assoc, List.cons_append] at h
      obtain ⟨-, h1⟩ := ihe e' _ _ (Phrase.ends_comma _ _) (Phrase.ends_closer _ hc' _) h
      simp only [List.cons.injEq, Token.symbol.injEq] at h1
      exact absurd hc' (by rw [← h1.1]; decide)
  | item e' rest' =>
      simp only [Derivation.tokens, List.append_assoc, List.cons_append] at h
      obtain ⟨rfl, h1⟩ := ihe e' _ _ (Phrase.ends_comma _ _) (Phrase.ends_comma _ _) h
      obtain ⟨rfl, h2⟩ := ihr rest' r r' hr hr' (List.cons.inj h1).2
      exact ⟨rfl, h2⟩

end Determined

/-- Every derivation is determined by its tokens. -/
theorem determined {n : Nonterminal} (d : Derivation n) : Determined d := by
  induction d with
  | chain first rest ihf ihr => exact .chain ihf ihr
  | done => exact .done
  | more s op hop right rest ihr ih => exact .more hop ihr ih
  | not operand ih => exact .not ih
  | neg operand ih => exact .neg ih
  | base p ih => exact .base ih
  | int n => exact .int n
  | float x => exact .float x
  | str s => exact .str s
  | word name v hv => exact .word hv
  | field name hv => exact .field hv
  | call name hv args ih => exact .call hv ih
  | group inner ih => exact .group ih
  | list items ih => exact .list ih
  | typed kind items ih => exact .typed kind ih
  | none => exact .none
  | last e ih => exact .last ih
  | item e rest ihe ihr => exact .item ihe ihr

/-- Derivations of one nonterminal with the same tokens are the same. -/
theorem eq_of_tokens_eq {d d' : Derivation .expr} (h : d.tokens = d'.tokens) : d = d' :=
  (determined d d' [] [] (Phrase.ends_nil _) (Phrase.ends_nil _) (congrArg (· ++ []) h)).1

/-! ## Whole expressions -/

theorem ofTokens_eq (ts : List Token) :
    Expr.ofTokens ts = outcome (expr (unary maxNesting) ts) >>= fun x =>
      match x.2 with
      | [] => .ok x.1
      | t :: _ => .error (.trailing t) := by
  unfold Expr.ofTokens
  cases expr (unary maxNesting) ts <;> rfl

/-- The outcome for derived tokens depends on the nesting of the derivation alone. -/
theorem ofTokens_tokens (d : Derivation .expr) :
    Expr.ofTokens d.tokens = if d.nesting ≤ maxNesting then .ok d.tree else .error .tooDeep := by
  have h := reads d maxNesting [] (Phrase.ends_nil _)
  rw [List.append_nil] at h
  rw [ofTokens_eq]
  refine (congrArg (· >>= _) h).trans ?_
  unfold limited
  split <;> rfl

/-- Accepted tokens have a derivation within the limit on nesting. -/
theorem exists_of_ofTokens {ts : List Token} {e : Expr} (h : Expr.ofTokens ts = .ok e) :
    ∃ d : Derivation .expr, d.tokens = ts ∧ d.nesting ≤ maxNesting ∧ d.tree = e := by
  rw [ofTokens_eq] at h
  obtain ⟨⟨e', r⟩, hx, h⟩ := exists_of_bind_eq_ok h
  obtain ⟨d, ht, hm, hn⟩ := sound maxNesting (.binary .disjunction) _ _ _ hx
  cases r with
  | cons t r => exact nomatch h
  | nil => exact ⟨d, by rw [← ht, List.append_nil], hn, hm.trans (Except.ok.inj h)⟩

/-- The outcome for a text with derived tokens. -/
theorem parse_of_tokens {s : String} {d : Derivation .expr} (h : Expr.tokens s = .ok d.tokens) :
    Expr.parse s = if d.nesting ≤ maxNesting then .ok d.tree else .error .tooDeep := by
  rw [Expr.parse, h]
  exact ofTokens_tokens d

/-- A text that has tokens is accepted if and only if they have a derivation whose unary expressions nest
within the limit; the tree is that of the derivation, and there is no other derivation. -/
theorem parse_eq_ok_iff_derivation {s : String} {ts : List Token} (h : Expr.tokens s = .ok ts) :
    (∀ e, Expr.parse s = .ok e ↔
      ∃ d : Derivation .expr, d.tokens = ts ∧ d.nesting ≤ maxNesting ∧ d.tree = e) ∧
    ∀ d d' : Derivation .expr, d.tokens = ts → d'.tokens = ts → d = d' := by
  constructor
  · intro e
    constructor
    · intro he
      rw [Expr.parse, h] at he
      exact exists_of_ofTokens he
    · rintro ⟨d, rfl, hn, rfl⟩
      rw [parse_of_tokens h, if_pos hn]
  · rintro d d' rfl hd'
    exact eq_of_tokens_eq hd'.symm

theorem parse_eq_ok_iff_derivation_call :
    Expr.tokens "-f(a, b) * c" = .ok [.symbol .minus, .ident "f", .symbol .lparen, .ident "a", .symbol .comma,
        .ident "b", .symbol .rparen, .symbol .star, .ident "c"] ∧
      Expr.parse "-f(a, b) * c" = .ok (.binary (.value (.compute .mul))
        (.unary .neg (.call "f" [.ident "a", .ident "b"])) (.ident "c")) := by
  have letter {s : String} {c : Char} (hs : s.toList = [c]) (hc : Token.isNameStart c = true) :
      Token.Lexes s.toList [.ident s] := .name ⟨c, [], hs, hc, nofun⟩
  have hf : Token.Lexes "f".toList [.ident "f"] := letter rfl (by decide)
  have ha : Token.Lexes "a".toList [.ident "a"] := letter rfl (by decide)
  have hb : Token.Lexes "b".toList [.ident "b"] := letter rfl (by decide)
  have hc : Token.Lexes "c".toList [.ident "c"] := letter rfl (by decide)
  have hlex : Token.Lexes "-f(a, b) * c".toList [.symbol .minus, .ident "f", .symbol .lparen, .ident "a",
      .symbol .comma, .ident "b", .symbol .rparen, .symbol .star, .ident "c"] :=
    (hf.call (ha.comma hb)).minus.operation (.value (.compute .mul)) hc
  refine ⟨hlex.tokens, ((parse_eq_ok_iff_derivation hlex.tokens).1 _).2 ⟨.ofProduct (.chain
    (.neg (.base (.call "f" rfl
      (.item (.ofUnary (.base (.field "a" rfl))) (.last (.ofUnary (.base (.field "b" rfl))))))))
    (.more .star (.value (.compute .mul)) rfl (.base (.field "c" rfl)) .done)), rfl, by decide, rfl⟩⟩

end RecordRules.Grammar
