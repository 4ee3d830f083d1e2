import Mathlib.Tactic.SplitIfs
import RecordRules.Expr.Eval

/-!
# Connectives

How a connective joins the truths of its operands: the first operand that fails or decides settles the whole, with
its error or its truth, and if there is none the whole has the truth that decides nothing. Joining is associative, so
that the brackets in a chain of operands make no difference.
-/
namespace RecordRules

/-- The truth of an outcome. -/
def truth (outcome : Except EvalError Value) : Except EvalError Bool := do ofCast (← outcome).toBool

@[simp] theorem truth_ok (v : Value) : truth (.ok v) = ofCast v.toBool := rfl

/-- A truth is its own truth. -/
theorem truth_map_bool (t : Except EvalError Bool) : truth (t.map .bool) = t := by
  cases t <;> rfl

namespace Connective

/-- Joins two truths; the second only counts if the first does not decide. -/
def join (op : Connective) (left right : Except EvalError Bool) : Except EvalError Bool := do
  let b ← left
  if op.decidedBy b then .ok b else right

/-- The truth of no children at all, the one that decides nothing. -/
def neutral : Connective → Bool
  | and => true
  | or => false

/-- Joins the truths of several outcomes from the left. -/
def ofAll (op : Connective) : List (Except EvalError Value) → Except EvalError Bool
  | [] => .ok op.neutral
  | outcome :: rest => op.join (truth outcome) (op.ofAll rest)

theorem join_neutral (op : Connective) (t : Except EvalError Bool) : op.join t (.ok op.neutral) = t := by
  cases t with
  | error e => rfl
  | ok b => cases op <;> cases b <;> rfl

theorem neutral_join (op : Connective) (t : Except EvalError Bool) : op.join (.ok op.neutral) t = t := by
  cases op <;> rfl

theorem join_assoc (op : Connective) (s t u : Except EvalError Bool) :
    op.join (op.join s t) u = op.join s (op.join t u) := by
  cases s with
  | error e => rfl
  | ok b => cases op <;> cases b <;> rfl

theorem ofAll_append (op : Connective) (xs ys : List (Except EvalError Value)) :
    op.ofAll (xs ++ ys) = op.join (op.ofAll xs) (op.ofAll ys) := by
  induction xs with
  | nil => exact (op.neutral_join _).symm
  | cons x xs ih => rw [List.cons_append, ofAll, ofAll, ih, join_assoc]

end Connective

namespace Expr

variable {env : Environment} {context : Context} {op : Connective}

theorem evalIn_logic (env : Environment) (context : Context) (op : Connective) (left right : Expr) :
    (binary (.logic op) left right).evalIn env context =
      (op.join (truth (left.evalIn env context)) (truth (right.evalIn env context))).map .bool := by
  have hnode : (binary (.logic op) left right).evalIn env context = (do
      let l ← truth (left.evalIn env context)
      if op.decidedBy l then .ok (.bool l) else do .ok (.bool (← truth (right.evalIn env context)))) := by
    rw [evalIn, truth, truth]
    simp only [bind_assoc]
  rw [hnode]
  cases truth (left.evalIn env context) with
  | error e => rfl
  | ok l =>
      change (if op.decidedBy l then _ else _) = (if op.decidedBy l then _ else _ : Except _ Bool).map Value.bool
      split_ifs
      · rfl
      · cases truth (right.evalIn env context) <;> rfl

theorem evalIn_not (env : Environment) (context : Context) (e : Expr) :
    (unary .not e).evalIn env context = ((truth (e.evalIn env context)).map (!·)).map .bool := by
  rw [evalIn]
  cases e.evalIn env context with
  | error e => rfl
  | ok v =>
      change (do .ok (.bool (!(← ofCast v.toBool)))) = ((ofCast v.toBool).map (!·)).map Value.bool
      cases v.toBool <;> rfl

/-! ## Chains of operands -/

/-- The tree joins the operands in their order by one connective, with brackets set in some way. An operand may be
joined by the same connective itself. -/
inductive Bracketing (op : Connective) : List Expr → Expr → Prop
  | operand (e : Expr) : Bracketing op [e] e
  | pair {es fs : List Expr} {left right : Expr} : Bracketing op es left → Bracketing op fs right →
      Bracketing op (es ++ fs) (binary (.logic op) left right)

theorem Bracketing.length_pos {es : List Expr} {e : Expr} (h : Bracketing op es e) : 0 < es.length := by
  induction h with
  | operand e => exact Nat.one_pos
  | pair _ _ ihl _ => exact List.length_append ▸ Nat.add_pos_left ihl _

/-- A single operand leaves no choice. -/
theorem Bracketing.eq_of_length_le {es : List Expr} {e : Expr} (h : Bracketing op es e) (hlength : es.length ≤ 1) :
    es = [e] := by
  cases h with
  | operand e => rfl
  | pair hl hr =>
      have hleft := hl.length_pos
      have hright := hr.length_pos
      rw [List.length_append] at hlength
      omega

theorem Bracketing.truth_evalIn {es : List Expr} {e : Expr} (h : Bracketing op es e) :
    truth (e.evalIn env context) = op.ofAll (es.map fun d => d.evalIn env context) := by
  induction h with
  | operand e => exact (op.join_neutral _).symm
  | pair _ _ ihl ihr => rw [evalIn_logic, truth_map_bool, ihl, ihr, List.map_append, op.ofAll_append]

/-- Two or more operands give a truth, however they are bracketed. -/
theorem Bracketing.evalIn_eq {es : List Expr} {e : Expr} (h : Bracketing op es e) (hlength : 1 < es.length) :
    e.evalIn env context = (op.ofAll (es.map fun d => d.evalIn env context)).map .bool := by
  cases h with
  | operand e => exact absurd hlength (Nat.lt_irrefl 1)
  | pair hl hr => rw [evalIn_logic, hl.truth_evalIn, hr.truth_evalIn, ← op.ofAll_append, ← List.map_append]

/-- The brackets of operands that are joined from the left. -/
theorem Bracketing.foldl {es : List Expr} {e : Expr} (h : Bracketing op es e) (rest : List Expr) :
    Bracketing op (es ++ rest) (rest.foldl (binary (.logic op)) e) := by
  induction rest generalizing es e with
  | nil => rwa [List.append_nil]
  | cons d rest ih =>
      have hd := ih (h.pair (.operand d))
      rwa [List.append_assoc] at hd

end Expr

end RecordRules
