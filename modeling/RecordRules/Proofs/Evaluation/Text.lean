import RecordRules.Expr.Eval
import RecordRules.Proofs.Grammar.Acceptance
import RecordRules.Proofs.Lexer.Continuation
import RecordRules.Proofs.Lexer.Tokens

/-!
# Evaluating accepted text

A text that the parser accepts has the value of its tree, and it is never blank, so that it holds where that
value is true.
-/
namespace RecordRules.Expr

open Grammar

variable {s : String} {e : Expr}

/-- The tokens of an accepted text, which the lexer cuts to the last character, have a derivation of its tree. -/
theorem exists_derivation_of_parse (h : parse s = .ok e) :
    ∃ d : Derivation .expr, Token.scan s.toList = .ok d.tokens ∧ d.nesting ≤ maxNesting ∧ d.tree = e := by
  obtain ⟨ts, htokens, h⟩ := exists_of_bind_eq_ok h
  obtain ⟨d, rfl, hnesting, htree⟩ := exists_of_ofTokens h
  exact ⟨d, Token.scan_of_tokens htokens, hnesting, htree⟩

/-- A blank in front changes nothing. -/
theorem parse_blank_append (h : parse s = .ok e) : parse (" " ++ s) = .ok e := by
  obtain ⟨d, hscan, hnesting, rfl⟩ := exists_derivation_of_parse h
  have htokens : tokens (" " ++ s) = .ok d.tokens := by
    have hchars : (" " ++ s).toList = ' ' :: s.toList := by simp
    rw [tokens, hchars, Token.scan_gap rfl hscan]
  rw [parse_of_tokens htokens, if_pos hnesting]

theorem trim_ne_nil_of_parse (h : parse s = .ok e) : Text.trim s.toList ≠ [] := by
  intro hblank
  obtain ⟨d, hscan, -, -⟩ := exists_derivation_of_parse h
  have hnil := (Token.scan_eq_ok_iff.1 hscan).eq_nil_of_blank (Token.isBlank_of_trim_eq_nil hblank)
  obtain ⟨t, r, ht, -⟩ := starts d
  exact nomatch ht.symm.trans hnil

theorem evaluate_of_parse (h : parse s = .ok e) (registry : Registry) (context : Context) :
    evaluate registry s context = e.eval registry context := by
  rw [evaluate, parseToEval, h]
  rfl

/-- The truth of a value as that of a whole text. -/
def verdict (outcome : Except EvalError Value) : Except EvalError Bool := do
  let v ← outcome
  match v.toBool with
  | .ok b => .ok b
  | .error _ => .error (.notTruth v)

/-- Whether an accepted text holds is the truth of its value. -/
theorem holds_of_parse (h : parse s = .ok e) (registry : Registry) (context : Context) :
    holds registry s (some context) = verdict (e.eval registry context) := by
  rw [holds, if_neg (trim_ne_nil_of_parse h), evaluate_of_parse h]
  rfl

theorem holds_of_evaluate {registry : Registry} {context : Context} {v : Value}
    (h : evaluate registry s context = .ok v) : holds registry s (some context) = verdict (.ok v) := by
  obtain ⟨e, hparse, heval⟩ := exists_of_bind_eq_ok h
  rw [holds_of_parse (mapError_eq_ok_iff.1 hparse), heval]

theorem verdict_eq_ok_iff {outcome : Except EvalError Value} {b : Bool} :
    verdict outcome = .ok b ↔ ∃ v, outcome = .ok v ∧ v.toBool = .ok b := by
  cases outcome with
  | error _ => simp [verdict, bind, Except.bind]
  | ok v => cases hv : v.toBool <;> simp [verdict, bind, Except.bind, hv]

end RecordRules.Expr
