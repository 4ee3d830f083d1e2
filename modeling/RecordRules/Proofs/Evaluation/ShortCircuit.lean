import RecordRules.Proofs.Evaluation.Connectives

/-!
# Short-circuit evaluation

What a chain of operands evaluates to under one connective, with the errors of the operands: however it is bracketed,
its outcome is that of the first operand that fails, has no truth, or decides, and what stands behind that operand does
not matter. The laws of De Morgan and the distributive law hold with errors too.
-/
namespace RecordRules

namespace Connective

/-- The outcome of an operand leaves the decision to the next operand. -/
def Passes (op : Connective) (outcome : Except EvalError Value) : Prop := truth outcome = .ok op.neutral

/-- The outcome of an operand settles the whole: the operand fails, its value has no truth, or its truth decides. -/
inductive Settles (op : Connective) : Except EvalError Value → Except EvalError Value → Prop
  | failed (e : EvalError) : Settles op (.error e) (.error e)
  | untrue {v : Value} {e : CastError} : v.toBool = .error e → Settles op (.ok v) (.error (.cast e))
  | decided {v : Value} {b : Bool} : v.toBool = .ok b → op.decidedBy b = true → Settles op (.ok v) (.ok (.bool b))

variable {op : Connective} {outcome whole : Except EvalError Value}

/-- Each operand leaves the decision to the next one or settles the whole. -/
theorem passes_or_settles (op : Connective) (outcome : Except EvalError Value) :
    op.Passes outcome ∨ ∃ whole, op.Settles outcome whole := by
  cases outcome with
  | error e => exact .inr ⟨_, .failed e⟩
  | ok v =>
      cases hv : v.toBool with
      | error e => exact .inr ⟨_, .untrue hv⟩
      | ok b =>
          by_cases hb : op.decidedBy b = true
          · exact .inr ⟨_, .decided hv hb⟩
          · left
            rw [Passes, truth_ok, hv]
            cases op <;> cases b <;> first | rfl | exact absurd rfl hb

theorem Settles.join (h : op.Settles outcome whole) (rest : Except EvalError Bool) :
    (op.join (truth outcome) rest).map .bool = whole := by
  cases h with
  | failed e => rfl
  | untrue hv =>
      rw [truth_ok, hv]
      rfl
  | decided hv hb =>
      rw [truth_ok, hv]
      change (if _ then _ else rest).map Value.bool = _
      rw [if_pos hb]
      rfl

theorem ofAll_append_of_passes {outcomes : List (Except EvalError Value)} (h : ∀ o ∈ outcomes, op.Passes o)
    (rest : List (Except EvalError Value)) : op.ofAll (outcomes ++ rest) = op.ofAll rest := by
  induction outcomes with
  | nil => rfl
  | cons o outcomes ih =>
      obtain ⟨ho, hothers⟩ := List.forall_mem_cons.1 h
      rw [List.cons_append, ofAll, ho, op.neutral_join, ih hothers]

theorem ofAll_of_passes {outcomes : List (Except EvalError Value)} (h : ∀ o ∈ outcomes, op.Passes o) :
    op.ofAll outcomes = .ok op.neutral := by
  rw [← List.append_nil outcomes, ofAll_append_of_passes h]
  rfl

theorem ofAll_of_settles {before : List (Except EvalError Value)} (hbefore : ∀ o ∈ before, op.Passes o)
    (h : op.Settles outcome whole) (behind : List (Except EvalError Value)) :
    (op.ofAll (before ++ outcome :: behind)).map .bool = whole := by
  rw [ofAll_append_of_passes hbefore]
  exact h.join _

/-! ## The dual connective -/

def dual : Connective → Connective
  | and => or
  | or => and

theorem map_not_join (op : Connective) (s t : Except EvalError Bool) :
    (op.join s t).map (!·) = op.dual.join (s.map (!·)) (t.map (!·)) := by
  cases s with
  | error e => rfl
  | ok b => cases op <;> cases b <;> rfl

theorem join_dual_join (op : Connective) (s t u : Except EvalError Bool) :
    op.join s (op.dual.join t u) = op.dual.join (op.join s t) (op.join s u) := by
  cases s with
  | error e => rfl
  | ok b => cases op <;> cases b <;> rfl

end Connective

namespace Expr

variable {env : Environment} {context : Context} {op : Connective} {es : List Expr} {e : Expr}

/-- A chain of operands is passed through to its end, or settled by one of them. -/
theorem exists_settling (op : Connective) (evaluate : Expr → Except EvalError Value) (es : List Expr) :
    (∀ d ∈ es, op.Passes (evaluate d)) ∨ ∃ before d behind whole, es = before ++ d :: behind ∧
      (∀ p ∈ before, op.Passes (evaluate p)) ∧ op.Settles (evaluate d) whole := by
  induction es with
  | nil => exact .inl nofun
  | cons d es ih =>
      rcases op.passes_or_settles (evaluate d) with hd | ⟨whole, hd⟩
      · rcases ih with hall | ⟨before, d', behind, whole, rfl, hbefore, hd'⟩
        · exact .inl (List.forall_mem_cons.2 ⟨hd, hall⟩)
        · exact .inr ⟨d :: before, d', behind, whole, rfl, List.forall_mem_cons.2 ⟨hd, hbefore⟩, hd'⟩
      · exact .inr ⟨[], d, es, whole, rfl, nofun, hd⟩

theorem Bracketing.evalIn_of_passes (h : Bracketing op es e) (hlength : 1 < es.length)
    (hall : ∀ d ∈ es, op.Passes (d.evalIn env context)) : e.evalIn env context = .ok (.bool op.neutral) := by
  rw [h.evalIn_eq hlength, Connective.ofAll_of_passes (List.forall_mem_map.2 hall)]
  rfl

theorem Bracketing.evalIn_of_settles {before behind : List Expr} {d : Expr} {whole : Except EvalError Value}
    (h : Bracketing op (before ++ d :: behind) e) (hlength : 1 < (before ++ d :: behind).length)
    (hbefore : ∀ p ∈ before, op.Passes (p.evalIn env context)) (hd : op.Settles (d.evalIn env context) whole) :
    e.evalIn env context = whole := by
  rw [h.evalIn_eq hlength, List.map_append, List.map_cons]
  exact Connective.ofAll_of_settles (List.forall_mem_map.2 hbefore) hd _

/-- Two bracketings of the same operands have the same outcome. -/
theorem Bracketing.evalIn_unique {e' : Expr} (h : Bracketing op es e) (h' : Bracketing op es e') :
    e'.evalIn env context = e.evalIn env context := by
  by_cases hlength : 1 < es.length
  · rw [h.evalIn_eq hlength, h'.evalIn_eq hlength]
  · have hone := h.eq_of_length_le (Nat.le_of_not_lt hlength)
    have hone' := h'.eq_of_length_le (Nat.le_of_not_lt hlength)
    rw [List.singleton_inj.1 (hone.symm.trans hone')]

/-- Negation exchanges the connectives. -/
theorem evalIn_not_logic (env : Environment) (context : Context) (op : Connective) (a b : Expr) :
    (unary .not (binary (.logic op) a b)).evalIn env context =
      (binary (.logic op.dual) (unary .not a) (unary .not b)).evalIn env context := by
  rw [evalIn_not, evalIn_logic, evalIn_logic, evalIn_not, evalIn_not, truth_map_bool, truth_map_bool, truth_map_bool,
    op.map_not_join]

/-- A connective distributes over the other one from the left. -/
theorem evalIn_logic_dual (env : Environment) (context : Context) (op : Connective) (a b c : Expr) :
    (binary (.logic op) a (binary (.logic op.dual) b c)).evalIn env context =
      (binary (.logic op.dual) (binary (.logic op) a b) (binary (.logic op) a c)).evalIn env context := by
  simp only [evalIn_logic, truth_map_bool, op.join_dual_join]

/-- Short-circuit evaluation with the errors of the operands. All bracketings of a chain of operands have one outcome.
If there are several operands, either all of them leave the decision to the next one and the whole has the truth that
decides nothing; or the first one that does not fails, has no truth or decides, and settles the whole, whatever
operands stand behind it. Negation exchanges the connectives, and each distributes over the other. -/
theorem shortCircuit_coherent (registry : Registry) (context : Context) :
    (∀ op es e, Bracketing op es e →
      (∀ e', Bracketing op es e' → e'.eval registry context = e.eval registry context) ∧
      (1 < es.length →
        ((∀ d ∈ es, op.Passes (d.eval registry context)) ∧ e.eval registry context = .ok (.bool op.neutral)) ∨
        ∃ before d behind, es = before ++ d :: behind ∧ (∀ p ∈ before, op.Passes (p.eval registry context)) ∧
          op.Settles (d.eval registry context) (e.eval registry context) ∧
          ∀ behind' e', Bracketing op (before ++ d :: behind') e' → 1 < (before ++ d :: behind').length →
            e'.eval registry context = e.eval registry context)) ∧
    (∀ op a b, (unary .not (binary (.logic op) a b)).eval registry context =
      (binary (.logic op.dual) (unary .not a) (unary .not b)).eval registry context) ∧
    (∀ op a b c, (binary (.logic op) a (binary (.logic op.dual) b c)).eval registry context =
      (binary (.logic op.dual) (binary (.logic op) a b) (binary (.logic op) a c)).eval registry context) := by
  simp only [eval_eq_evalIn]
  generalize (⟨registry, evalWithin registry (callLimit - 1)⟩ : Environment) = env
  refine ⟨fun op es e h => ⟨fun e' h' => h.evalIn_unique h', fun hlength => ?_⟩, evalIn_not_logic env context,
    evalIn_logic_dual env context⟩
  rcases exists_settling op (fun d => d.evalIn env context) es with hall | ⟨before, d, behind, whole, rfl, hbefore, hd⟩
  · exact .inl ⟨hall, h.evalIn_of_passes hlength hall⟩
  · have he := h.evalIn_of_settles hlength hbefore hd
    refine .inr ⟨before, d, behind, rfl, hbefore, he.symm ▸ hd, fun behind' e' h' hlength' => ?_⟩
    rw [he]
    exact h'.evalIn_of_settles hlength' hbefore hd

/-- An operand that holds, one without a truth, and a call of a function that is not there. -/
def failingChain : List Expr := [.literal (.bool true), .literal (.int 5), .call "missing" []]

/-- Joined from either side, the chain ends in the error of its second operand. -/
theorem shortCircuit_coherent_failingChain (registry : Registry) (context : Context) :
    (binary (.logic .and) (.literal (.bool true)) (binary (.logic .and) (.literal (.int 5)) (.call "missing" []))).eval
        registry context = .error (.cast (.unsupported .int .bool)) ∧
      (binary (.logic .and) (binary (.logic .and) (.literal (.bool true)) (.literal (.int 5)))
        (.call "missing" [])).eval registry context = .error (.cast (.unsupported .int .bool)) := by
  have hfirst : Bracketing .and [.literal (.bool true)] (.literal (.bool true)) := .operand _
  have hsecond : Bracketing .and [.literal (.int 5)] (.literal (.int 5)) := .operand _
  have hthird : Bracketing .and [.call "missing" []] (.call "missing" []) := .operand _
  have hright := hfirst.pair (hsecond.pair hthird)
  have hleft := (hfirst.pair hsecond).pair hthird
  have hsame := ((shortCircuit_coherent registry context).1 .and failingChain _ hleft).1 _ hright
  exact ⟨hsame.trans rfl, rfl⟩

end Expr

end RecordRules
