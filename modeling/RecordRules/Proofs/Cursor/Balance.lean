import RecordRules.Proofs.Cursor.Agreement

/-!
# Every run of the cursor ends and gives back the depth

Whatever the tokens are, as long as the end is marked, and from every position and depth: each routine ends; where it
succeeds it has taken at least one token and no mark of the end, and the depth is what it was. The loops end as well,
and they enter each operand and each item with the depth that they were entered with themselves. So what one of them
uses up is not charged to those behind it, however many there are.
-/
namespace RecordRules.Cursor

open Grammar

variable {tokens : List (Option Token)} {α β : Type} {i j d : Nat}

/-! ## Routines -/

/-- A run that agrees with a parser ends, and reads what the parser reads. -/
theorem Agrees.exists_same {x : Option (Except ParseError (α × Cursor))} {o : Except ParseError (α × List Token)}
    (h : Agrees tokens i d x o) :
    ∃ answer, x = some answer ∧ answer.map (fun y => (y.1, rest tokens y.2.position)) = o := by
  cases h with
  | failed e => exact ⟨.error e, rfl, rfl⟩
  | done a _ => exact ⟨_, rfl, rfl⟩

theorem Agrees.exists_answer {x : Option (Except ParseError (α × Cursor))}
    {o : Except ParseError (α × List Token)} (h : Agrees tokens i d x o) : ∃ answer, x = some answer := by
  obtain ⟨answer, hx, -⟩ := h.exists_same
  exact ⟨answer, hx⟩

/-- What a run that succeeds does to the cursor, if it agrees with a parser that leaves fewer tokens. -/
theorem Agrees.moves {x : Option (Except ParseError (α × Cursor))} {o : Except ParseError (α × List Token)}
    (h : Agrees tokens i d x o) (hless : ∀ a r, o = .ok (a, r) → r.length < (rest tokens i).length) {a : α}
    {c : Cursor} (hx : x = some (.ok (a, c))) :
    ∃ j, c = ⟨j, d⟩ ∧ i < j ∧ Ahead tokens i j ∧ (rest tokens j).length < (rest tokens i).length := by
  cases h with
  | failed e => cases hx
  | @done a j hahead =>
      cases hx
      have hlen := hless a _ rfl
      refine ⟨j, rfl, ?_, hahead, hlen⟩
      rcases Nat.lt_or_eq_of_le hahead.1 with hij | rfl
      · exact hij
      · exact absurd hlen (Nat.lt_irrefl _)

/-- A list leaves fewer tokens than stand behind its opening bracket. -/
theorem length_lt_of_listRest {expr : Parser Expr} {ts r : List Token} {e : Expr}
    (h : outcome (Parser.listRest expr ts) = .ok (e, r)) : r.length < ts.length := by
  by_cases htyped : ∃ kind u, ts = .symbol .rbracket :: .ident kind :: .symbol .lbrace :: u
  · obtain ⟨kind, u, rfl⟩ := htyped
    rw [outcome_listRest_typed] at h
    obtain ⟨x, hx, h⟩ := exists_of_bind_eq_ok h
    obtain ⟨-, rfl⟩ := Prod.mk.inj (Except.ok.inj h)
    have hlen := length_lt_of_outcome hx
    simp only [List.length_cons]
    omega
  · rw [outcome_listRest_plain _ fun kind u hts => htyped ⟨kind, u, hts⟩] at h
    obtain ⟨x, hx, h⟩ := exists_of_bind_eq_ok h
    obtain ⟨-, rfl⟩ := Prod.mk.inj (Except.ok.inj h)
    exact length_lt_of_outcome hx

theorem expr_tracks (d : Nat) :
    Tracks tokens (run tokens (.phrase (.binary .disjunction))) d (Parser.expr (Parser.unary (maxNesting - d))) :=
  phrase_tracks (unary_tracks _ d rfl) (.binary .disjunction)

/-- What a routine that succeeds does to the cursor. -/
theorem Routine.moves {r : Routine} {a : r.Result} {c : Cursor} (hr : r.isLoop = false)
    (h : run tokens r ⟨i, d⟩ = some (.ok (a, c))) :
    ∃ j, c = ⟨j, d⟩ ∧ i < j ∧ Ahead tokens i j ∧ (rest tokens j).length < (rest tokens i).length := by
  cases r with
  | phrase p => exact (phrase_tracks (unary_tracks _ d rfl) p i).moves (fun _ _ => length_lt_of_outcome) h
  | primary => exact (primary_tracks (expr_tracks d) i).moves (fun _ _ => length_lt_of_outcome) h
  | list => exact (list_tracks (expr_tracks d) i).moves (fun _ _ => length_lt_of_listRest) h
  | items close => exact (items_tracks (expr_tracks d) close i).moves (fun _ _ => length_lt_of_outcome) h
  | operands _ _ | collect _ _ => cases hr

/-! ## Loops -/

section
variable (tokens : List (Option Token))

/-- The operators and operands of a level from a position on, up to where no operator of the level stands. Each
operand is read from the same depth, and joined to what stands left of it. -/
inductive Chained (l : Level) (d : Nat) : Expr → Nat → Expr → Nat → Prop
  | stop (left : Expr) {i : Nat} (h : binaryOp? l (tokenAt tokens i) = none) : Chained l d left i left i
  | step {left right e : Expr} {i j k : Nat} {op : BinaryOp} (hop : binaryOp? l (tokenAt tokens i) = some op)
      (hright : run tokens (.phrase l.operand) ⟨i + 1, d⟩ = some (.ok (right, ⟨j, d⟩)))
      (hmore : Chained l d (.binary op left right) j e k) : Chained l d left i e k

/-- The items from a position on, up to the closing symbol or an item that no comma follows. Each item is read from
the same depth. -/
inductive Listed (close : Symbol) (d : Nat) : Nat → List Expr → Nat → Prop
  | stop {i : Nat} (h : tokenAt tokens i = some (.symbol close)) : Listed close d i [] i
  | last {e : Expr} {i j : Nat} (h : tokenAt tokens i ≠ some (.symbol close))
      (he : run tokens (.phrase (.binary .disjunction)) ⟨i, d⟩ = some (.ok (e, ⟨j, d⟩)))
      (hj : tokenAt tokens j ≠ some (.symbol .comma)) : Listed close d i [e] j
  | item {e : Expr} {es : List Expr} {i j k : Nat} (h : tokenAt tokens i ≠ some (.symbol close))
      (he : run tokens (.phrase (.binary .disjunction)) ⟨i, d⟩ = some (.ok (e, ⟨j, d⟩)))
      (hj : tokenAt tokens j = some (.symbol .comma)) (hmore : Listed close d (j + 1) es k) :
      Listed close d i (e :: es) k

end

/-- If one run after another succeeds, the first one does, and the second one from where the first one stopped. -/
theorem exists_of_run_bind {x : Run α} {f : α → Run β} {b : β} {c c' : Cursor}
    (h : (x >>= f) c = some (.ok (b, c'))) : ∃ a c₁, x c = some (.ok (a, c₁)) ∧ f a c₁ = some (.ok (b, c')) := by
  rcases bind_eq_some.1 h with ⟨_, -, he⟩ | hok
  · cases he
  · exact hok

theorem run_bind {x : Run α} {f : α → Run β} {a : α} {c c' : Cursor} (h : x c = some (.ok (a, c'))) :
    (x >>= f) c = f a c' := by
  change ExceptT.bind (x c) (fun y => f y.1 y.2) = _
  rw [h]
  rfl

/-- The loop of a level reads what is chained, and gives back the depth. -/
theorem operands_iff {l : Level} {left e : Expr} {c : Cursor} :
    run tokens (.operands l left) ⟨i, d⟩ = some (.ok (e, c)) ↔
      c.depth = d ∧ Chained tokens l d left i e c.position := by
  constructor
  · intro h
    induction hn : (rest tokens i).length using Nat.strongRecOn generalizing left i with
    | ind n ih =>
        cases hop : binaryOp? l (tokenAt tokens i) with
        | some op =>
            rw [operands_step left hop] at h
            obtain ⟨right, c₁, hright, h⟩ := exists_of_run_bind h
            obtain ⟨j, rfl, -, -, hlen⟩ := Routine.moves (r := .phrase l.operand) rfl hright
            obtain ⟨s, ht, -⟩ := binaryOp?_eq_some.1 hop
            rw [rest_of_some ht, List.length_cons] at hn
            obtain ⟨hdepth, hmore⟩ := ih _ (by omega) h rfl
            exact ⟨hdepth, .step hop hright hmore⟩
        | none =>
            rw [operands_stop left hop] at h
            obtain ⟨rfl, rfl⟩ := Prod.mk.inj (Except.ok.inj (Option.some.inj h))
            exact ⟨rfl, .stop left hop⟩
  · obtain ⟨k, d'⟩ := c
    rintro ⟨rfl, h⟩
    dsimp only at h
    induction h with
    | stop left h => exact operands_stop left h
    | step hop hright _ ih => rw [operands_step _ hop, run_bind hright, ih]

section
variable {close : Symbol} {e : Expr} {es : List Expr}

theorem collect_stop (es : List Expr) (h : tokenAt tokens i = some (.symbol close)) :
    run tokens (.collect close es) ⟨i, d⟩ = some (.ok (es, ⟨i, d⟩)) := by
  rw [run_eq, body, peek_bind, if_pos h]
  rfl

/-- An item that succeeds is behind the loop, and the loop goes on if a comma follows. -/
theorem collect_item (es : List Expr) (h : tokenAt tokens i ≠ some (.symbol close))
    (he : run tokens (.phrase (.binary .disjunction)) ⟨i, d⟩ = some (.ok (e, ⟨j, d⟩))) :
    run tokens (.collect close es) ⟨i, d⟩ =
      if tokenAt tokens j = some (.symbol .comma) then run tokens (.collect close (es ++ [e])) ⟨j + 1, d⟩
      else some (.ok (es ++ [e], ⟨j, d⟩)) := by
  rw [run_eq, body, peek_bind, if_neg h, run_bind he, peek_bind]
  split
  · rfl
  · rfl

theorem exists_of_collect {all : List Expr} {c : Cursor} (h : tokenAt tokens i ≠ some (.symbol close))
    (hall : run tokens (.collect close es) ⟨i, d⟩ = some (.ok (all, c))) :
    ∃ e j, run tokens (.phrase (.binary .disjunction)) ⟨i, d⟩ = some (.ok (e, ⟨j, d⟩)) ∧
      (rest tokens j).length < (rest tokens i).length := by
  rw [run_eq, body, peek_bind, if_neg h] at hall
  obtain ⟨e, c₁, he, -⟩ := exists_of_run_bind hall
  obtain ⟨j, rfl, -, -, hlen⟩ := Routine.moves (r := .phrase (.binary .disjunction)) rfl he
  exact ⟨e, j, he, hlen⟩

/-- The loop over items reads what is listed, and gives back the depth. -/
theorem collect_iff {all : List Expr} {c : Cursor} :
    run tokens (.collect close es) ⟨i, d⟩ = some (.ok (all, c)) ↔
      c.depth = d ∧ ∃ more, all = es ++ more ∧ Listed tokens close d i more c.position := by
  constructor
  · intro h
    induction hn : (rest tokens i).length using Nat.strongRecOn generalizing es i with
    | ind n ih =>
        by_cases hclose : tokenAt tokens i = some (.symbol close)
        · rw [collect_stop es hclose] at h
          obtain ⟨rfl, rfl⟩ := Prod.mk.inj (Except.ok.inj (Option.some.inj h))
          exact ⟨rfl, [], (List.append_nil _).symm, .stop hclose⟩
        · obtain ⟨e, j, he, hlen⟩ := exists_of_collect hclose h
          rw [collect_item es hclose he] at h
          by_cases hcomma : tokenAt tokens j = some (.symbol .comma)
          · rw [if_pos hcomma] at h
            rw [rest_of_some hcomma, List.length_cons] at hlen
            obtain ⟨hdepth, more, rfl, hmore⟩ := ih _ (by omega) h rfl
            exact ⟨hdepth, e :: more, by simp, .item hclose he hcomma hmore⟩
          · rw [if_neg hcomma] at h
            obtain ⟨rfl, rfl⟩ := Prod.mk.inj (Except.ok.inj (Option.some.inj h))
            exact ⟨rfl, [e], rfl, .last hclose he hcomma⟩
  · obtain ⟨k, d'⟩ := c
    rintro ⟨rfl, more, rfl, h⟩
    dsimp only at h
    induction h generalizing es with
    | stop h => rw [collect_stop es h, List.append_nil]
    | last h he hj => rw [collect_item es h he, if_neg hj]
    | item h he hj _ ih => rw [collect_item es h he, if_pos hj, ih, List.append_assoc]; rfl

end

/-! ## Every run -/

/-- Every routine ends. -/
theorem exists_answer (tokens : List (Option Token)) (r : Routine) (i d : Nat) :
    ∃ answer, run tokens r ⟨i, d⟩ = some answer := by
  have hphrase (p : Phrase) : Tracks tokens (run tokens (.phrase p)) d (p.parser (Parser.unary (maxNesting - d))) :=
    phrase_tracks (unary_tracks _ d rfl) p
  have hexpr : Tracks tokens (run tokens (.phrase (.binary .disjunction))) d _ := expr_tracks d
  cases r with
  | phrase p => exact (hphrase p i).exists_answer
  | operands l left => exact (operands_tracks (hphrase l.operand) left i).exists_answer
  | primary => exact (primary_tracks hexpr i).exists_answer
  | list => exact (list_tracks hexpr i).exists_answer
  | items close => exact (items_tracks hexpr close i).exists_answer
  | collect close es =>
      -- The loop is read here with the closing symbol behind it, as the parser of the library reads it.
      obtain ⟨answer, h⟩ := (collect_agrees hexpr close es i).exists_answer
      rcases bind_eq_some.1 h with ⟨e, he, -⟩ | ⟨all, c, hall, -⟩
      · exact ⟨_, he⟩
      · exact ⟨_, hall⟩

theorem tokenAt_of_items {close : Symbol} {es : List Expr} {c : Cursor}
    (h : run tokens (.items close) ⟨i, d⟩ = some (.ok (es, c))) :
    tokenAt tokens (c.position - 1) = some (.symbol close) := by
  rw [run_eq, body] at h
  obtain ⟨es', ⟨j, d'⟩, -, h⟩ := exists_of_run_bind h
  obtain ⟨_, c', hexpect, h⟩ := exists_of_run_bind h
  obtain ⟨-, rfl⟩ := Prod.mk.inj (Except.ok.inj (Option.some.inj h))
  rw [expect, advance_bind] at hexpect
  by_cases ht : tokenAt tokens j = some (.symbol close)
  · rw [if_pos ht] at hexpect
    obtain ⟨-, rfl⟩ := Prod.mk.inj (Except.ok.inj (Option.some.inj hexpect))
    exact ht
  · rw [if_neg ht] at hexpect
    cases Option.some.inj hexpect

/-- A cursor that has taken only tokens does not stand behind the last mark of the end. -/
theorem Ahead.lt_length (hend : tokens.getLast? = some none) (h : Ahead tokens i j) (hij : i < j) :
    j < tokens.length := by
  have hlast : tokens[tokens.length - 1]? = some none := by rw [← List.getLast?_eq_getElem?, hend]
  have htaken : tokenAt tokens (j - 1) ≠ none := h.2 (j - 1) (by omega) (by omega)
  rcases Nat.lt_or_ge (j - 1) tokens.length with hlt | hge
  · have hne : j - 1 ≠ tokens.length - 1 := by
      intro he
      rw [tokenAt, he, hlast] at htaken
      exact htaken rfl
    omega
  · rw [tokenAt, List.getElem?_eq_none hge] at htaken
    exact absurd rfl htaken

/-- The cursor neither runs forever nor loses count. From every position and depth in tokens with the end marked,
each routine ends, the loops too. One that is no loop, if it succeeds, has taken at least one token, has not passed the
mark of the end, and has given back the depth; behind the items of a list or a call stands their closing symbol. What
a loop reads is read from one depth, operand by operand and item by item, and it gives back that depth as well. The
answers are those of the parser of the library. -/
theorem runs_end_balanced {tokens : List (Option Token)} (hend : tokens.getLast? = some none) (i d : Nat) :
    (∀ r, ∃ answer, run tokens r ⟨i, d⟩ = some answer) ∧
    (∀ r a c, r.isLoop = false → run tokens r ⟨i, d⟩ = some (.ok (a, c)) →
      i < c.position ∧ c.position < tokens.length ∧ c.depth = d) ∧
    (∀ close es c, run tokens (.items close) ⟨i, d⟩ = some (.ok (es, c)) →
      tokenAt tokens (c.position - 1) = some (.symbol close)) ∧
    (∀ l left e c, run tokens (.operands l left) ⟨i, d⟩ = some (.ok (e, c)) ↔
      c.depth = d ∧ Chained tokens l d left i e c.position) ∧
    (∀ close es all c, run tokens (.collect close es) ⟨i, d⟩ = some (.ok (all, c)) ↔
      c.depth = d ∧ ∃ more, all = es ++ more ∧ Listed tokens close d i more c.position) ∧
    ∀ p, ∃ answer, run tokens (.phrase p) ⟨i, d⟩ = some answer ∧
      answer.map (fun x => (x.1, rest tokens x.2.position)) =
        outcome (p.parser (Parser.unary (maxNesting - d)) (rest tokens i)) := by
  refine ⟨fun r => exists_answer tokens r i d, fun r a c hr h => ?_, fun _ _ _ => tokenAt_of_items,
    fun _ _ _ _ => operands_iff, fun _ _ _ _ => collect_iff,
    fun p => (phrase_tracks (unary_tracks _ d rfl) p i).exists_same⟩
  obtain ⟨j, rfl, hij, hahead, -⟩ := Routine.moves hr h
  exact ⟨hij, hahead.lt_length hend hij, rfl⟩

/-- The tokens of a call whose two arguments nest equally deep. -/
def twoNegations : List (Option Token) :=
  [some (.ident "f"), some (.symbol .lparen), some (.symbol .minus), some (.ident "a"), some (.symbol .comma),
    some (.symbol .minus), some (.ident "a"), some (.symbol .rparen), none]

/-- Each of the two arguments reaches the limit, which leaves nothing for the second if the first is charged. -/
theorem runs_end_balanced_twoNegations :
    twoNegations.getLast? = some none ∧ run twoNegations (.phrase (.binary .disjunction)) ⟨0, maxNesting - 3⟩ =
      some (.ok (.call "f" [.unary .neg (.ident "a"), .unary .neg (.ident "a")], ⟨8, maxNesting - 3⟩)) := by
  have hend : twoNegations.getLast? = some none := rfl
  refine ⟨hend, ?_⟩
  obtain ⟨-, hmoves, -, -, -, hagrees⟩ := runs_end_balanced hend 0 (maxNesting - 3)
  obtain ⟨answer, hrun, hsame⟩ := hagrees (.binary .disjunction)
  let argument : Derivation .expr := .ofUnary (.neg (.base (.field "a" rfl)))
  let call : Derivation .expr := .ofUnary (.base (.call "f" rfl (.item argument (.last argument))))
  have hlimit : maxNesting - (maxNesting - 3) = 3 := rfl
  have htokens : rest twoNegations 0 = call.tokens ++ [] := by decide
  have hparse : outcome (Parser.expr (Parser.unary 3) (call.tokens ++ [])) = .ok (call.tree, []) :=
    reads call 3 [] (Phrase.ends_nil _)
  rw [hlimit, htokens] at hsame
  have hread := hsame.trans hparse
  cases answer with
  | error e => exact nomatch hread
  | ok x =>
      obtain ⟨e, k, d⟩ := x
      obtain ⟨rfl, hrest⟩ := Prod.mk.inj (Except.ok.inj hread)
      obtain ⟨-, hlt, rfl⟩ := hmoves _ _ _ rfl hrun
      have hbefore : ∀ k < 8, (rest twoNegations k).isEmpty = false := by decide
      have hk : k = 8 := by
        rcases Nat.lt_or_ge k 8 with hk | hk
        · have hempty := hbefore k hk
          rw [show rest twoNegations k = [] from hrest] at hempty
          exact nomatch hempty
        · have : k < 9 := hlt
          omega
      rw [← hk]
      exact hrun

end RecordRules.Cursor
