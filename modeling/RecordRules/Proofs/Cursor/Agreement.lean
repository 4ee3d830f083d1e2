import RecordRules.Proofs.Cursor.Basic
import RecordRules.Proofs.Grammar.Acceptance

/-!
# The cursor does what the parser does

From every position and at every depth a routine of the cursor gives the answer that the parser of the library gives
for the tokens that stand there, read with the nesting that the depth leaves of the limit. The cursor then stands
where the tokens start that the parser left, no mark of the end lies behind it, and the depth is what it was. As the
parser always returns, so does the cursor.

The proofs follow the routines. Only two of them need an induction, over the tokens that are left: the loops. The
recursion from unary expressions back to unary expressions is an induction on what is left of the limit.
-/
namespace RecordRules.Cursor

open Grammar

section
variable (tokens : List (Option Token))

/-- The tokens from a position up to the next mark of the end. -/
def rest (i : Nat) : List Token := ((tokens.drop i).takeWhile Option.isSome).reduceOption

/-- From one position to another stand only tokens, no mark of the end. -/
def Ahead (i j : Nat) : Prop := i ≤ j ∧ ∀ k, i ≤ k → k < j → tokenAt tokens k ≠ none

/-- The answer of a run that started at a position and a depth, beside what a parser makes of the tokens that stood
there. -/
inductive Agrees {α : Type} (i d : Nat) :
    Option (Except ParseError (α × Cursor)) → Except ParseError (α × List Token) → Prop
  | failed (e : ParseError) : Agrees i d (some (.error e)) (.error e)
  | done (a : α) {j : Nat} (h : Ahead tokens i j) :
      Agrees i d (some (.ok (a, ⟨j, d⟩))) (.ok (a, rest tokens j))

/-- A run does at this depth what a parser does, wherever it starts. -/
def Tracks {α : Type} {P : List Token → List Token → Prop} (run : Run α) (d : Nat)
    (p : (ts : List Token) → Except ParseError (α × { r : List Token // P ts r })) : Prop :=
  ∀ i, Agrees tokens i d (run ⟨i, d⟩) (outcome (p (rest tokens i)))

end

variable {tokens : List (Option Token)} {α β : Type} {i j k d : Nat} {t : Token}

/-! ## Positions -/

theorem drop_eq_cons (h : tokenAt tokens i = some t) : tokens.drop i = some t :: tokens.drop (i + 1) := by
  have hget : tokens[i]? = some (some t) := Option.join_eq_some_iff.1 h
  obtain ⟨hi, hget⟩ := List.getElem?_eq_some_iff.1 hget
  rw [List.drop_eq_getElem_cons hi, hget]

theorem rest_of_some (h : tokenAt tokens i = some t) : rest tokens i = t :: rest tokens (i + 1) := by
  rw [rest, drop_eq_cons h]
  rfl

theorem rest_of_none (h : tokenAt tokens i = none) : rest tokens i = [] := by
  cases hdrop : tokens.drop i with
  | nil => rw [rest, hdrop]; rfl
  | cons t r =>
      have hget : tokens[i]? = some t := by
        rw [← List.head?_drop, hdrop]
        rfl
      rw [tokenAt, hget] at h
      obtain rfl : t = none := h
      rw [rest, hdrop]
      rfl

theorem of_rest_eq_cons {r : List Token} (h : rest tokens i = t :: r) :
    tokenAt tokens i = some t ∧ rest tokens (i + 1) = r := by
  cases ht : tokenAt tokens i with
  | none => exact nomatch (rest_of_none ht).symm.trans h
  | some t' =>
      rw [rest_of_some ht] at h
      obtain ⟨rfl, rfl⟩ := List.cons.inj h
      exact ⟨rfl, rfl⟩

namespace Ahead

theorem refl (i : Nat) : Ahead tokens i i := ⟨Nat.le_refl i, fun _ h h' => absurd h' (Nat.not_lt.2 h)⟩

theorem trans (h : Ahead tokens i j) (h' : Ahead tokens j k) : Ahead tokens i k := by
  refine ⟨Nat.le_trans h.1 h'.1, fun m hi hk => ?_⟩
  rcases Nat.lt_or_ge m j with hm | hm
  · exact h.2 m hi hm
  · exact h'.2 m hm hk

theorem step (h : tokenAt tokens i = some t) : Ahead tokens i (i + 1) := by
  refine ⟨Nat.le_succ i, fun k hi hk => ?_⟩
  obtain rfl : k = i := by omega
  simp [h]

end Ahead

/-! ## Answers -/

namespace Agrees

theorem after {x : Option (Except ParseError (α × Cursor))} {o : Except ParseError (α × List Token)}
    (h : Ahead tokens i j) (hx : Agrees tokens j d x o) : Agrees tokens i d x o := by
  cases hx with
  | failed e => exact .failed e
  | done a h' => exact .done a (h.trans h')

/-- One run after another, and one parser after another. The second run starts where the first parser stopped. -/
theorem bind {run : Run α} {f : α → Run β} {o : Except ParseError (α × List Token)}
    {g : α × List Token → Except ParseError (β × List Token)} (h : Agrees tokens i d (run ⟨i, d⟩) o)
    (hf : ∀ a j, o = .ok (a, rest tokens j) → Agrees tokens j d (f a ⟨j, d⟩) (g (a, rest tokens j))) :
    Agrees tokens i d ((run >>= f) ⟨i, d⟩) (o >>= g) := by
  change Agrees tokens i d (ExceptT.bind (run ⟨i, d⟩) fun x => f x.1 x.2) _
  generalize run ⟨i, d⟩ = x at h
  cases h with
  | failed e => exact .failed e
  | done a h => exact .after h (hf a _ rfl)

/-- What is read is wrapped up. -/
theorem wrap {run : Run α} {o : Except ParseError (α × List Token)} (h : Agrees tokens i d (run ⟨i, d⟩) o)
    (f : α → β) :
    Agrees tokens i d ((do let a ← run; return f a : Run β) ⟨i, d⟩) (o >>= fun x => .ok (f x.1, x.2)) :=
  h.bind fun a j _ => .done (f a) (.refl j)

/-- The depth that a run was entered with is there again after it is left. -/
theorem leave {run : Run α} {o : Except ParseError (α × List Token)}
    (h : Agrees tokens i (d + 1) (run ⟨i, d + 1⟩) o) :
    Agrees tokens i d ((do let a ← run; Cursor.leave; return a : Run α) ⟨i, d + 1⟩) o := by
  change Agrees tokens i d
    (ExceptT.bind (run ⟨i, d + 1⟩) fun x => (do Cursor.leave; return x.1 : Run α) x.2) _
  generalize run ⟨i, d + 1⟩ = x at h
  cases h with
  | failed e => exact .failed e
  | done a h => exact .done a h

end Agrees

/-! ## Routines -/

theorem expect_tracks (close : Symbol) : Tracks tokens (expect tokens close) d (Parser.expect close) := by
  intro i
  rw [expect, advance_bind]
  cases h : tokenAt tokens i with
  | none =>
      rw [rest_of_none h, if_neg nofun]
      exact .failed _
  | some t =>
      rw [rest_of_some h]
      by_cases ht : t = .symbol close
      · obtain rfl := ht
        rw [if_pos rfl, outcome_expect_self]
        exact .done () (.step h)
      · rw [if_neg fun he => ht (Option.some.inj he)]
        cases t with
        | symbol s =>
            have hs : s ≠ close := fun hs => ht (congrArg _ hs)
            rw [Parser.expect, if_neg hs]
            exact .failed _
        | int _ | float _ | str _ | ident _ => exact .failed _

section
variable {u : Parser Expr}

/-- Where no operator of a level stands, its loop stops. -/
theorem operands_stop {l : Level} (left : Expr) (h : binaryOp? l (tokenAt tokens i) = none) :
    run tokens (.operands l left) ⟨i, d⟩ = some (.ok (left, ⟨i, d⟩)) := by
  rw [run_eq, body, peek_bind, h]
  rfl

theorem operands_step {l : Level} {op : BinaryOp} (left : Expr) (h : binaryOp? l (tokenAt tokens i) = some op) :
    run tokens (.operands l left) ⟨i, d⟩ =
      (do let right ← run tokens (.phrase l.operand); run tokens (.operands l (.binary op left right)) : Run Expr)
        ⟨i + 1, d⟩ := by
  rw [run_eq, body, peek_bind, h]
  rfl

theorem operands_tracks {l : Level}
    (h : Tracks tokens (run tokens (.phrase l.operand)) d (l.operand.parser u)) (left : Expr) :
    Tracks tokens (run tokens (.operands l left)) d (Parser.chainFrom l.op? (l.operand.parser u) left) := by
  intro i
  induction hn : (rest tokens i).length using Nat.strongRecOn generalizing left i with
  | ind n ih =>
      cases hop : binaryOp? l (tokenAt tokens i) with
      | some op =>
          obtain ⟨s, ht, hs⟩ := binaryOp?_eq_some.1 hop
          have hrest := rest_of_some ht
          rw [operands_step left hop, hrest, outcome_chainFrom_op _ _ hs]
          refine .after (.step ht) ((h (i + 1)).bind fun right j ho => ih _ ?_ _ _ rfl)
          have hlen := length_lt_of_outcome ho
          rw [hrest, List.length_cons] at hn
          omega
      | none =>
          rw [operands_stop left hop, outcome_chainFrom_stop]
          · exact .done left (.refl i)
          · intro s r hr
            rw [(of_rest_eq_cons hr).1] at hop
            exact hop

theorem phrase_tracks (h : Tracks tokens (run tokens (.phrase .unary)) d u) (p : Phrase) :
    Tracks tokens (run tokens (.phrase p)) d (p.parser u) := by
  have level {l : Level} (h : Tracks tokens (run tokens (.phrase l.operand)) d (l.operand.parser u)) :
      Tracks tokens (run tokens (.phrase (.binary l))) d ((Phrase.binary l).parser u) := by
    intro i
    rw [run_eq, body, Phrase.parser_binary, outcome_chain]
    exact (h i).bind fun left j _ => operands_tracks h left j
  have base : Tracks tokens (run tokens (.phrase .unary)) d (Phrase.unary.parser u) := h
  have product : Tracks tokens (run tokens (.phrase (.binary .product))) d _ := level base
  have sum : Tracks tokens (run tokens (.phrase (.binary .sum))) d _ := level product
  have comparison : Tracks tokens (run tokens (.phrase (.binary .comparison))) d _ := level sum
  have conjunction : Tracks tokens (run tokens (.phrase (.binary .conjunction))) d _ := level comparison
  cases p with
  | unary => exact base
  | binary l =>
      cases l with
      | product => exact product
      | sum => exact sum
      | comparison => exact comparison
      | conjunction => exact conjunction
      | disjunction => exact level conjunction

theorem afterItem_stop {expr : Parser Expr} {close : Symbol} {ts : List Token} (e : Expr)
    (h : ∀ r, ts ≠ .symbol .comma :: r) :
    afterItem expr close e ts = outcome (Parser.expect close ts) >>= fun y => .ok ([e], y.2) := by
  unfold afterItem
  split
  · exact absurd rfl (h _)
  · rfl

section
variable (h : Tracks tokens (run tokens (.phrase (.binary .disjunction))) d (Parser.expr u))
include h

/-- The loop over items and the closing symbol behind it, with some items read before. -/
theorem collect_agrees (close : Symbol) (es : List Expr) (i : Nat) :
    Agrees tokens i d
      ((do let all ← run tokens (.collect close es); expect tokens close; return all : Run (List Expr)) ⟨i, d⟩)
      (outcome (Parser.items (Parser.expr u) close (rest tokens i)) >>= fun x => .ok (es ++ x.1, x.2)) := by
  have closing (all : List Expr) (j : Nat) : Agrees tokens j d
      ((do expect tokens close; return all : Run (List Expr)) ⟨j, d⟩)
      (outcome (Parser.expect close (rest tokens j)) >>= fun x => .ok (all, x.2)) :=
    (expect_tracks close j).wrap fun _ => all
  obtain ⟨n, hn⟩ : ∃ n, (rest tokens i).length = n := ⟨_, rfl⟩
  induction n using Nat.strongRecOn generalizing es i with
  | ind n ih =>
      rw [run_eq, body, bind_assoc, peek_bind]
      by_cases hclose : tokenAt tokens i = some (.symbol close)
      · have hend := closing es i
        rw [rest_of_some hclose, outcome_expect_self] at hend
        rw [if_pos hclose, pure_bind, rest_of_some hclose, outcome_items_close]
        change Agrees tokens i d _ (.ok (es ++ [], rest tokens (i + 1)))
        rw [List.append_nil]
        exact hend
      · rw [if_neg hclose, bind_assoc]
        have hi := h i
        cases ht : tokenAt tokens i with
        | none =>
            rw [rest_of_none ht] at hi ⊢
            rw [outcome_items_nil, bind_assoc]
            exact hi.bind fun e j ho => absurd (length_lt_of_outcome ho) (Nat.not_lt_zero _)
        | some t =>
            have hne : t ≠ .symbol close := fun he => hclose (ht.trans (congrArg some he))
            have hrest := rest_of_some ht
            rw [hrest] at hi hn ⊢
            rw [outcome_items_cons _ _ hne, bind_assoc]
            refine hi.bind fun e j ho => ?_
            have hlen := length_lt_of_outcome ho
            rw [bind_assoc, peek_bind]
            by_cases hcomma : tokenAt tokens j = some (.symbol .comma)
            · have hmore := rest_of_some hcomma
              rw [hmore, List.length_cons] at hlen
              have hnext := ih _ (by omega) (es ++ [e]) (j + 1) rfl
              rw [if_pos hcomma, bind_assoc, skip_bind, hmore]
              simp only [List.append_assoc] at hnext
              refine .after (.step hcomma) ?_
              simp only [afterItem, bind_assoc]
              exact hnext
            · have hstop : ∀ r, rest tokens j ≠ .symbol .comma :: r :=
                fun r hr => hcomma (of_rest_eq_cons hr).1
              rw [if_neg hcomma, pure_bind]
              dsimp only
              rw [afterItem_stop e hstop, bind_assoc]
              exact closing (es ++ [e]) j

theorem items_tracks (close : Symbol) :
    Tracks tokens (run tokens (.items close)) d (Parser.items (Parser.expr u) close) := by
  intro i
  have hcollect := collect_agrees h close [] i
  rw [run_eq, body]
  simp only [List.nil_append] at hcollect
  cases ho : outcome (Parser.items (Parser.expr u) close (rest tokens i)) with
  | error e | ok x => rwa [ho] at hcollect

theorem list_tracks : Tracks tokens (run tokens .list) d (Parser.listRest (Parser.expr u)) := by
  intro i
  rw [run_eq, body, peek_bind, peekAt_bind, peekAt_bind]
  by_cases htyped : opensTyped (tokenAt tokens i) (tokenAt tokens (i + 1)) (tokenAt tokens (i + 2)) = true
  · obtain ⟨h0, ⟨kind, h1⟩, h2⟩ := opensTyped_iff.1 htyped
    have hahead : Ahead tokens i (i + 3) := ((Ahead.step h0).trans (.step h1)).trans (.step h2)
    rw [if_pos htyped, skip_bind, rest_of_some h0, rest_of_some h1, rest_of_some h2, outcome_listRest_typed]
    exact .after hahead ((items_tracks h .rbrace (i + 3)).wrap Expr.list)
  · have hplain : ∀ kind r, rest tokens i ≠ .symbol .rbracket :: .ident kind :: .symbol .lbrace :: r := by
      intro kind r hr
      obtain ⟨h0, h1⟩ := of_rest_eq_cons hr
      obtain ⟨h1, h2⟩ := of_rest_eq_cons h1
      exact htyped (opensTyped_iff.2 ⟨h0, ⟨kind, h1⟩, (of_rest_eq_cons h2).1⟩)
    rw [if_neg htyped, outcome_listRest_plain _ hplain]
    exact (items_tracks h .rbracket i).wrap Expr.list

/-- What a name is read as, once it is taken. -/
theorem named_agrees (name : String) (i : Nat) :
    Agrees tokens i d (named tokens (run tokens) name ⟨i, d⟩)
      (outcome (Parser.primary (Parser.expr u) (.ident name :: rest tokens i))) := by
  rw [named]
  cases hword : word? name with
  | some v =>
      rw [outcome_primary_word _ hword]
      exact .done _ (.refl i)
  | none =>
      rw [outcome_primary_name _ hword]
      dsimp only
      rw [peek_bind]
      by_cases hparen : tokenAt tokens i = some (.symbol .lparen)
      · rw [if_pos hparen, skip_bind, rest_of_some hparen, outcome_named_call]
        exact .after (.step hparen) ((items_tracks h .rparen (i + 1)).wrap (Expr.call name))
      · rw [if_neg hparen, outcome_named_field]
        · exact .done _ (.refl i)
        · exact fun r hr => hparen (of_rest_eq_cons hr).1

theorem primary_tracks : Tracks tokens (run tokens .primary) d (Parser.primary (Parser.expr u)) := by
  intro i
  rw [run_eq, body, advance_bind]
  cases ht : tokenAt tokens i with
  | none =>
      rw [rest_of_none ht]
      exact .failed _
  | some t =>
      have hahead := Ahead.step ht
      rw [rest_of_some ht]
      cases t with
      | int _ | float _ | str _ => exact .done _ hahead
      | ident name => exact .after hahead (named_agrees h name (i + 1))
      | symbol s =>
          dsimp only
          by_cases hparen : s = .lparen
          · obtain rfl := hparen
            rw [if_pos rfl, outcome_primary_group]
            refine .after hahead ((h (i + 1)).bind fun e j _ => ?_)
            exact (expect_tracks .rparen j).wrap fun _ => e
          by_cases hbracket : s = .lbracket
          · obtain rfl := hbracket
            rw [if_neg hparen, if_pos rfl, outcome_primary_list]
            exact .after hahead (list_tracks h (i + 1))
          · rw [if_neg hparen, if_neg hbracket]
            cases s with
            | lparen => exact absurd rfl hparen
            | lbracket => exact absurd rfl hbracket
            | _ => exact .failed _

end

end

/-! ## Unary expressions -/

/-- What a run reads between entering a level and leaving it. -/
theorem signed_agrees {n : Nat} (hunary : Tracks tokens (run tokens (.phrase .unary)) d (Parser.unary n)) (i : Nat) :
    Agrees tokens i d (signed tokens (run tokens) ⟨i, d⟩) (outcome (Parser.unary (n + 1) (rest tokens i))) := by
  rw [signed, peek_bind]
  by_cases hbang : tokenAt tokens i = some (.symbol .bang)
  · rw [hbang, rest_of_some hbang, outcome_unary_not]
    exact .after (.step hbang) ((hunary (i + 1)).wrap (Expr.unary .not))
  by_cases hminus : tokenAt tokens i = some (.symbol .minus)
  · rw [hminus, rest_of_some hminus, outcome_unary_neg]
    exact .after (.step hminus) ((hunary (i + 1)).wrap (Expr.unary .neg))
  have hnone : unaryOp? (tokenAt tokens i) = none := by
    generalize tokenAt tokens i = t at hbang hminus
    unfold unaryOp?
    split
    · exact absurd rfl hbang
    · exact absurd rfl hminus
    · rfl
  rw [hnone, outcome_unary_primary n (fun r hr => hbang (of_rest_eq_cons hr).1)
    (fun r hr => hminus (of_rest_eq_cons hr).1)]
  exact primary_tracks (phrase_tracks hunary (.binary .disjunction)) i

/-- The depth and the nesting that the parser may still use add up to the limit, or the limit is passed already. -/
theorem unary_tracks (n d : Nat) (h : maxNesting - d = n) :
    Tracks tokens (run tokens (.phrase .unary)) d (Parser.unary n) := by
  induction n generalizing d with
  | zero =>
      intro i
      rw [run_unary, if_pos (by omega)]
      exact .failed _
  | succ n ih =>
      intro i
      rw [run_unary, if_neg (by omega)]
      exact (signed_agrees (ih (d + 1) (by omega)) i).leave

end RecordRules.Cursor
