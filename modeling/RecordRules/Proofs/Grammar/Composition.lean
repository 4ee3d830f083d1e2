import RecordRules.Proofs.Evaluation.Text
import RecordRules.Proofs.Grammar.Writing

/-!
# Composing texts

Texts that the parser accepts can be put together like trees. In parentheses, each of them is an operand of any
operator, whatever its author wrote; the tree of the whole has the trees of the parts as operands. The one thing
that can go wrong is nesting, to which parentheses add a level and a prefix operator another.
-/
namespace RecordRules.Grammar

open RecordRules.Parser

/-- The parser accepts the text even if no more than the given number of unary expressions may stand inside each
other. -/
def NestsWithin (s : String) (n : Nat) : Prop :=
  ∃ ts e, Expr.tokens s = .ok ts ∧ outcome (expr (unary n) ts) = .ok (e, [])

/-! ## Accepted texts as parts -/

/-- An accepted text writes its tree, also as a part of a longer text. -/
theorem writes_of_parse {s : String} {e : Expr} (h : Expr.parse s = .ok e) :
    ∃ k, Writes (.binary .disjunction) s.toList e k := by
  obtain ⟨d, hscan, -, rfl⟩ := Expr.exists_derivation_of_parse h
  have hstart : d.tokens.head? ≠ some (.symbol .eqEq) := by
    obtain ⟨t, r, ht, hstart⟩ := starts d
    rw [ht]
    rintro ⟨⟩
    exact nomatch hstart
  exact ⟨d.nesting, d, rfl, rfl, Token.lexes_of_scan hscan hstart⟩

variable {s t : String} {e f : Expr} {k : Nat}

/-- In parentheses, a text is an operand of every operator. -/
theorem Writes.enclosed (h : Writes (.binary .disjunction) s.toList e k) :
    Writes .unary ("(" ++ s ++ ")").toList e (k + 1) := by
  simpa using h.parens.unary

theorem Writes.nestsWithin_iff (h : Writes (.binary .disjunction) s.toList e k) (n : Nat) :
    NestsWithin s n ↔ k ≤ n := by
  obtain ⟨d, rfl, rfl, hlex⟩ := h
  have hread := reads d n [] (Phrase.ends_nil _)
  rw [List.append_nil] at hread
  constructor
  · rintro ⟨ts, e, hts, he⟩
    obtain rfl := Except.ok.inj (hlex.tokens.symm.trans hts)
    obtain ⟨d', htokens, -, hnesting⟩ := sound n (.binary .disjunction) _ _ _ he
    rw [List.append_nil] at htokens
    rwa [← eq_of_tokens_eq htokens]
  · intro hn
    refine ⟨d.tokens, d.meaning, hlex.tokens, hread.trans ?_⟩
    rw [limited, if_pos hn]

theorem Writes.parse_eq_ok_iff (h : Writes (.binary .disjunction) s.toList e k) :
    Expr.parse s = .ok e ↔ k ≤ maxNesting := by
  have hparse := h.parse
  rw [String.ofList_toList] at hparse
  rw [hparse]
  split_ifs with hk
  · exact iff_of_true rfl hk
  · exact iff_of_false nofun hk

theorem parse_operation_iff (hs : Expr.parse s = .ok e) (ht : Expr.parse t = .ok f) (op : BinaryOp) :
    Expr.parse ("(" ++ s ++ ") " ++ op.symbol ++ " (" ++ t ++ ")") = .ok (.binary op e f) ↔
      NestsWithin s 511 ∧ NestsWithin t 511 := by
  obtain ⟨k, hws⟩ := writes_of_parse hs
  obtain ⟨m, hwt⟩ := writes_of_parse ht
  have hwrites : Writes (.binary .disjunction) ("(" ++ s ++ ") " ++ op.symbol ++ " (" ++ t ++ ")").toList
      (.binary op e f) (max (k + 1) (m + 1)) := by
    have h := Writes.operation op (hws.enclosed.of_unary _) (hwt.enclosed.of_unary _)
    simpa using h.expr
  rw [hwrites.parse_eq_ok_iff, hws.nestsWithin_iff, hwt.nestsWithin_iff, maxNesting]
  omega

/-- A prefix operator adds a level of its own to that of the parentheses. -/
theorem parse_prefixed_iff {u : String} {g : Expr} (hs : Expr.parse s = .ok e)
    (hwrites : ∀ k, Writes .unary ("(" ++ s ++ ")").toList e k → Writes .unary u.toList g (k + 1)) :
    Expr.parse u = .ok g ↔ NestsWithin s 510 := by
  obtain ⟨k, hws⟩ := writes_of_parse hs
  have hwhole : Writes (.binary .disjunction) u.toList g (k + 2) := (hwrites _ hws.enclosed).expr
  rw [hwhole.parse_eq_ok_iff, hws.nestsWithin_iff, maxNesting]
  omega

theorem parse_not_iff (hs : Expr.parse s = .ok e) :
    Expr.parse ("!(" ++ s ++ ")") = .ok (.unary .not e) ↔ NestsWithin s 510 :=
  parse_prefixed_iff hs fun _ henclosed => by simpa using henclosed.not

theorem parse_neg_iff (hs : Expr.parse s = .ok e) :
    Expr.parse ("-(" ++ s ++ ")") = .ok (.unary .neg e) ↔ NestsWithin s 510 :=
  parse_prefixed_iff hs fun _ henclosed => by simpa using henclosed.neg

/-! ## Truth -/

theorem apply_not_eq_ok_iff {v w : Value} :
    UnaryOp.not.apply v = .ok w ↔ ∃ b, v.toBool = .ok b ∧ w = .bool (!b) := by
  rw [UnaryOp.apply]
  cases hv : v.toBool with
  | error _ => simp [ofCast, bind, Except.bind, Except.mapError]
  | ok b => simp [ofCast, bind, Except.bind, Except.mapError, eq_comm]

/-- A negated text holds where the text itself is found not to hold, and conversely. -/
theorem holds_not_iff (hs : Expr.parse s = .ok e) (hn : NestsWithin s 510) {registry : Registry}
    {context : Context} {b : Bool} :
    Expr.holds registry ("!(" ++ s ++ ")") (some context) = .ok (!b) ↔
      Expr.holds registry s (some context) = .ok b := by
  have heval : (Expr.unary .not e).eval registry context = e.eval registry context >>= UnaryOp.not.apply := rfl
  rw [Expr.holds_of_parse ((parse_not_iff hs).2 hn), Expr.holds_of_parse hs, Expr.verdict_eq_ok_iff,
    Expr.verdict_eq_ok_iff, heval]
  constructor
  · rintro ⟨w, hw, hb⟩
    obtain ⟨v, hv, happly⟩ := exists_of_bind_eq_ok hw
    obtain ⟨b', hb', rfl⟩ := apply_not_eq_ok_iff.1 happly
    have hbool : (!b') = !b := Except.ok.inj hb
    exact ⟨v, hv, by rw [hb', Bool.not_inj hbool]⟩
  · rintro ⟨v, hv, hb⟩
    refine ⟨.bool (!b), ?_, rfl⟩
    rw [hv]
    exact apply_not_eq_ok_iff.2 ⟨b, hb, rfl⟩

/-- Accepted texts are put together like their trees. In parentheses they are the operands of any operator, unless
they nest too deep for the parentheses around them, and the negation of a text holds where the text does not. -/
theorem parse_composed (hs : Expr.parse s = .ok e) (ht : Expr.parse t = .ok f) :
    (∀ op : BinaryOp, Expr.parse ("(" ++ s ++ ") " ++ op.symbol ++ " (" ++ t ++ ")") = .ok (.binary op e f) ↔
      NestsWithin s 511 ∧ NestsWithin t 511) ∧
    (Expr.parse ("!(" ++ s ++ ")") = .ok (.unary .not e) ↔ NestsWithin s 510) ∧
    (Expr.parse ("-(" ++ s ++ ")") = .ok (.unary .neg e) ↔ NestsWithin s 510) ∧
    (NestsWithin s 510 → ∀ (registry : Registry) (context : Context) (b : Bool),
      Expr.holds registry ("!(" ++ s ++ ")") (some context) = .ok (!b) ↔
        Expr.holds registry s (some context) = .ok b) := by
  refine ⟨?_, ?_, ?_, ?_⟩
  · exact parse_operation_iff hs ht
  · exact parse_not_iff hs
  · exact parse_neg_iff hs
  · intro hn registry context b
    exact holds_not_iff hs hn

theorem parse_composed_choice :
    Expr.parse "a || b" = .ok (.binary (.logic .or) (.ident "a") (.ident "b")) ∧
      Expr.parse "-c" = .ok (.unary .neg (.ident "c")) ∧ NestsWithin "a || b" 1 ∧ NestsWithin "-c" 2 ∧
      Expr.parse "(a || b) && (-c)" = .ok (.binary (.logic .and)
        (.binary (.logic .or) (.ident "a") (.ident "b")) (.unary .neg (.ident "c"))) ∧
      Expr.parse "!(a || b)" = .ok (.unary .not (.binary (.logic .or) (.ident "a") (.ident "b"))) ∧
      ∀ registry context, Expr.holds registry "!(a || b)" (some context) = .ok (!true) ↔
        Expr.holds registry "a || b" (some context) = .ok true := by
  have field {s : String} {c : Char} (hs : s.toList = [c]) (hc : Token.isNameStart c = true)
      (hw : word? s = none) : Writes .unary s.toList (.ident s) 1 :=
    (WritesPrimary.field ⟨c, [], hs, hc, nofun⟩ hw).unary
  have ha : Writes .unary "a".toList (.ident "a") 1 := field rfl (by decide) (by decide)
  have hb : Writes .unary "b".toList (.ident "b") 1 := field rfl (by decide) (by decide)
  have hc : Writes .unary "c".toList (.ident "c") 1 := field rfl (by decide) (by decide)
  have hor : Writes (.binary .disjunction) "a || b".toList (.binary (.logic .or) (.ident "a") (.ident "b")) 1 :=
    .operation (.logic .or) (ha.of_unary _) (hb.of_unary _)
  have hneg : Writes (.binary .disjunction) "-c".toList (.unary .neg (.ident "c")) 2 := hc.neg.of_unary _
  have hparse := hor.parse_eq_ok_iff.2 (by decide)
  have hparse' := hneg.parse_eq_ok_iff.2 (by decide)
  obtain ⟨hoperation, hnot, -, hholds⟩ := parse_composed hparse hparse'
  have hshallow : NestsWithin "a || b" 510 := (hor.nestsWithin_iff 510).2 (by decide)
  have hone : NestsWithin "a || b" 1 := (hor.nestsWithin_iff 1).2 (by decide)
  have htwo : NestsWithin "-c" 2 := (hneg.nestsWithin_iff 2).2 (by decide)
  refine ⟨hparse, hparse', hone, htwo, ?_, ?_, ?_⟩
  · apply (hoperation (.logic .and)).2
    constructor
    · exact (hor.nestsWithin_iff 511).2 (by decide)
    · exact (hneg.nestsWithin_iff 511).2 (by decide)
  · exact hnot.2 hshallow
  · intro registry context
    exact hholds hshallow registry context true

end RecordRules.Grammar
