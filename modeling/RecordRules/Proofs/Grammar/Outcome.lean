import RecordRules.Proofs.Grammar.Derivation

/-!
# What the parsers return

A parser returns the tokens that are left together with a proof that they are fewer. `outcome` drops the
proof, and the equations of this module say what each parser returns in terms of the parsers it calls. The
theorems about the grammar use these equations and never unfold a parser.
-/
namespace RecordRules.Grammar

open RecordRules.Parser

/-- What a parser read and the tokens that are left, without the proof that they are fewer. -/
def outcome {α : Type} {P : List Token → Prop} (r : Except ParseError (α × { ts : List Token // P ts })) :
    Except ParseError (α × List Token) :=
  r.map fun x => (x.1, x.2.1)

section
variable {α β : Type} {P Q : List Token → Prop}

@[simp] theorem outcome_ok (a : α) (r : { ts : List Token // P ts }) :
    outcome (.ok (a, r)) = .ok (a, r.1) := rfl

@[simp] theorem outcome_error (e : ParseError) :
    outcome (.error e : Except ParseError (α × { ts : List Token // P ts })) = .error e := rfl

/-- Parsers one after the other. -/
theorem outcome_bind {x : Except ParseError (α × { ts : List Token // P ts })}
    {f : α × { ts : List Token // P ts } → Except ParseError (β × { ts : List Token // Q ts })}
    {g : α × List Token → Except ParseError (β × List Token)}
    (h : ∀ a r, outcome (f (a, r)) = g (a, r.1)) : outcome (x >>= f) = outcome x >>= g := by
  cases x with
  | error e => rfl
  | ok y => exact h y.1 y.2

/-- Only the proof about the tokens that are left changes. -/
theorem outcome_bind_same {x : Except ParseError (α × { ts : List Token // P ts })}
    {f : α × { ts : List Token // P ts } → Except ParseError (α × { ts : List Token // Q ts })}
    (h : ∀ a r, outcome (f (a, r)) = .ok (a, r.1)) : outcome (x >>= f) = outcome x := by
  cases x with
  | error e => rfl
  | ok y => exact h y.1 y.2

end

section
variable (op? : Symbol → Option BinaryOp) (operand : Parser Expr)

theorem outcome_chainFrom_op {op : BinaryOp} {s : Symbol} (h : op? s = some op) (left : Expr)
    (r : List Token) :
    outcome (chainFrom op? operand left (.symbol s :: r)) =
      outcome (operand r) >>= fun x => outcome (chainFrom op? operand (.binary op left x.1) x.2) := by
  rw [chainFrom, h]
  exact outcome_bind fun _ _ => outcome_bind_same fun _ _ => rfl

theorem outcome_chainFrom_stop (left : Expr) {ts : List Token}
    (h : ∀ s r, ts = .symbol s :: r → op? s = none) :
    outcome (chainFrom op? operand left ts) = .ok (left, ts) := by
  rw [chainFrom.eq_def]
  split
  · rename_i s r
    rw [h s r rfl]
    rfl
  · rfl

theorem outcome_chain (ts : List Token) :
    outcome (chain op? operand ts) =
      outcome (operand ts) >>= fun x => outcome (chainFrom op? operand x.1 x.2) := by
  unfold chain
  exact outcome_bind fun _ _ => outcome_bind_same fun _ _ => rfl

end

theorem outcome_expect_self (wanted : Symbol) (r : List Token) :
    outcome (expect wanted (.symbol wanted :: r)) = .ok ((), r) := by
  simp [expect]

/-- A symbol that is taken was there. -/
theorem eq_cons_of_expect {wanted : Symbol} {ts r : List Token} {u : Unit}
    (h : outcome (expect wanted ts) = .ok (u, r)) : ts = .symbol wanted :: r := by
  unfold expect at h
  split at h
  · split at h
    · rename_i hs
      simp only [outcome_ok, Except.ok.injEq, Prod.mk.injEq] at h
      rw [hs, h.2]
    · simp at h
  · simp at h
  · simp at h

section
variable (expr : Parser Expr) (close : Symbol)

theorem outcome_items_close (r : List Token) :
    outcome (items expr close (.symbol close :: r)) = .ok ([], r) := by
  rw [items, if_pos rfl]
  rfl

/-- Where no item stands, the parser of items fails as the parser of expressions does. -/
theorem outcome_items_nil : outcome (items expr close []) = outcome (expr []) >>= fun x => .ok ([], x.2) := by
  rw [items]
  exact outcome_bind fun _ _ => rfl

/-- After an item either a comma and more items follow, or the closing symbol. -/
def afterItem (e : Expr) : List Token → Except ParseError (List Expr × List Token)
  | .symbol .comma :: r => outcome (items expr close r) >>= fun y => .ok (e :: y.1, y.2)
  | r => outcome (expect close r) >>= fun y => .ok ([e], y.2)

theorem outcome_items_cons {t : Token} {r : List Token} (h : t ≠ .symbol close) :
    outcome (items expr close (t :: r)) =
      outcome (expr (t :: r)) >>= fun x => afterItem expr close x.1 x.2 := by
  rw [items, if_neg h]
  refine outcome_bind fun e r1 => ?_
  dsimp only
  unfold afterItem
  split
  · rename_i r2 hr
    simp only [hr]
    exact outcome_bind fun _ _ => rfl
  · rename_i hr
    split
    · rename_i r2 hr2
      exact absurd hr2 (hr r2)
    · exact outcome_bind fun _ _ => rfl

theorem outcome_named_call (name : String) (r : List Token) :
    outcome (named expr name (.symbol .lparen :: r)) =
      outcome (items expr .rparen r) >>= fun x => .ok (.call name x.1, x.2) := by
  unfold named
  exact outcome_bind fun _ _ => rfl

theorem outcome_named_field (name : String) {ts : List Token} (h : ∀ r, ts ≠ .symbol .lparen :: r) :
    outcome (named expr name ts) = .ok (.ident name, ts) := by
  unfold named
  split
  · exact absurd rfl (h _)
  · rfl

theorem outcome_listRest_typed (kind : String) (r : List Token) :
    outcome (listRest expr (.symbol .rbracket :: .ident kind :: .symbol .lbrace :: r)) =
      outcome (items expr .rbrace r) >>= fun x => .ok (.list x.1, x.2) := by
  unfold listRest
  exact outcome_bind fun _ _ => rfl

theorem outcome_listRest_plain {ts : List Token}
    (h : ∀ kind r, ts ≠ .symbol .rbracket :: .ident kind :: .symbol .lbrace :: r) :
    outcome (listRest expr ts) = outcome (items expr .rbracket ts) >>= fun x => .ok (.list x.1, x.2) := by
  unfold listRest
  split
  · exact absurd rfl (h _ _)
  · exact outcome_bind fun _ _ => rfl

theorem outcome_primary_word {name : String} {v : Value} (h : word? name = some v) (r : List Token) :
    outcome (primary expr (.ident name :: r)) = .ok (.literal v, r) := by
  unfold word? at h
  unfold primary
  split at h
  · simp_all
  · split at h
    · simp_all
    · split at h
      · simp_all
      · simp at h

theorem outcome_primary_name {name : String} (h : word? name = none) (r : List Token) :
    outcome (primary expr (.ident name :: r)) = outcome (named expr name r) := by
  have h1 : name ≠ "true" := fun he => by simp [word?, he] at h
  have h2 : name ≠ "false" := fun he => by simp [word?, he] at h
  have h3 : name ≠ "nil" := fun he => by simp [word?, he] at h
  unfold primary
  simp only [if_neg h1, if_neg h2, if_neg h3]
  exact outcome_bind_same fun _ _ => rfl

theorem outcome_primary_group (r : List Token) :
    outcome (primary expr (.symbol .lparen :: r)) =
      outcome (expr r) >>= fun x => outcome (expect .rparen x.2) >>= fun y => .ok (x.1, y.2) := by
  exact outcome_bind fun _ _ => outcome_bind fun _ _ => rfl

theorem outcome_primary_list (r : List Token) :
    outcome (primary expr (.symbol .lbracket :: r)) = outcome (listRest expr r) := by
  exact outcome_bind_same fun _ _ => rfl

end

theorem outcome_unary_not (depth : Nat) (r : List Token) :
    outcome (unary (depth + 1) (.symbol .bang :: r)) =
      outcome (unary depth r) >>= fun x => .ok (.unary .not x.1, x.2) := by
  exact outcome_bind fun _ _ => rfl

theorem outcome_unary_neg (depth : Nat) (r : List Token) :
    outcome (unary (depth + 1) (.symbol .minus :: r)) =
      outcome (unary depth r) >>= fun x => .ok (.unary .neg x.1, x.2) := by
  exact outcome_bind fun _ _ => rfl

theorem outcome_unary_primary (depth : Nat) {ts : List Token} (hb : ∀ r, ts ≠ .symbol .bang :: r)
    (hm : ∀ r, ts ≠ .symbol .minus :: r) :
    outcome (unary (depth + 1) ts) = outcome (primary (expr (unary depth)) ts) := by
  rw [unary]
  dsimp only
  split
  · exact absurd rfl (hb _)
  · exact absurd rfl (hm _)
  · rfl

end RecordRules.Grammar
