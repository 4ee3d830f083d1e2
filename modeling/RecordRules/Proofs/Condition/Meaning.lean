import RecordRules.Proofs.Condition.Text
import RecordRules.Proofs.Evaluation.Connectives

/-!
# What compiled conditions mean

The value of a condition over a record, found on the condition itself: a leaf applies its operator to a field
and a value, a group joins the values of its children by its connective, from the left and no further than
needed, and `NOT` negates the last child. Evaluating the text that a condition compiles to gives the same value
or the same error, as long as the values of its leaves survive being written and read.
-/
namespace RecordRules

open Grammar Number

/-! ## Values -/

/-- A value whose literal form is that of an expression with this value: a truth value, a text, an integer that
has a negative, or a finite floating-point number that is not whole or beyond the 64-bit range. -/
def Value.IsExact : Value → Prop
  | .bool _ | .str _ => True
  | .int n => n ≠ Int64.minValue
  | .float x => x.isFinite = true ∧ ((¬∃ n : ℤ, exact x = n) ∨ 2 ^ 63 ≤ |exact x|)
  | .nil | .list _ => False

theorem not_isIntPattern_of_isExact {x : Float} (h : (Value.float x).IsExact) : ¬IsIntPattern (pattern x) := by
  rintro ⟨⟨n, hn⟩, hlt⟩
  rw [← abs_exact, Nat.cast_pow, Nat.cast_ofNat] at hlt
  rcases h.2 with hwhole | hlarge
  · rw [← abs_exact, abs_eq n.cast_nonneg] at hn
    rcases hn with hn | hn
    · exact hwhole ⟨n, by rw [hn, Int.cast_natCast]⟩
    · exact hwhole ⟨-n, by rw [hn, Int.cast_neg, Int.cast_natCast]⟩
  · exact absurd hlt (not_lt.2 hlarge)

theorem evalIn_signed (env : Environment) (context : Context) (negative : Bool) (v : Value) :
    (Expr.signed negative (.literal v)).evalIn env context = if negative then v.negate else .ok v := by
  cases negative <;> rfl

/-- The literal form of an exact value has that value. -/
theorem evalIn_reread (env : Environment) (context : Context) {v : Value} (h : v.IsExact) :
    v.reread.evalIn env context = .ok v := by
  cases v with
  | nil => exact h.elim
  | bool b => rfl
  | int n =>
      have hmin : Int64.minValue.toInt = -2 ^ 63 := by decide
      have hmax : Int64.maxValue.toInt = 2 ^ 63 - 1 := by decide
      have hlow : Int64.minValue.toInt < n.toInt :=
        lt_of_le_of_ne (Int64.le_toInt n) fun heq => h (Int64.toInt_inj.1 heq.symm)
      have hhigh := Int64.toInt_le n
      have hwhole : Value.ofWhole n.toInt.natAbs = .int (Int64.ofInt n.toInt.natAbs) := by
        rw [Value.ofWhole, if_pos (by omega)]
      rw [Value.reread, hwhole, evalIn_signed]
      split_ifs with hneg
      · have hnegate (m : Int64) : (Value.int m).negate = .ok (.int (-m)) := rfl
        rw [decide_eq_true_eq] at hneg
        rw [hnegate, Int.ofNat_natAbs_of_nonpos hneg.le, Int64.ofInt_neg, Int64.ofInt_toInt, Int64.neg_neg]
      · rw [decide_eq_true_eq, not_lt] at hneg
        rw [Int.natAbs_of_nonneg hneg, Int64.ofInt_toInt]
  | float x =>
      have hnan := isNaN_of_isFinite h.1
      have hfin := pattern_lt_infinity h.1
      have hvalue := Value.ofMagnitude_float hfin (not_isIntPattern_of_isExact h)
      have hx := ofPattern_pattern hnan
      rw [Value.reread, hnan, if_neg Bool.false_ne_true, if_pos h.1, hvalue, evalIn_signed]
      split_ifs with hneg
      · rw [hneg] at hx
        have hnegate : (Value.float (ofPattern false (pattern x))).negate =
            .ok (.float (-ofPattern false (pattern x))) := rfl
        rw [hnegate, neg_ofPattern false hfin.le, Bool.not_false, hx]
      · rw [Bool.eq_false_of_not_eq_true hneg] at hx
        rw [hx]
  | str s => rfl
  | list items => exact h.elim

/-! ## Conditions -/

/-- The outcome of a group from those of its children. -/
def Connector.outcome : Connector → List (Except EvalError Value) → Except EvalError Value
  | _, [] => .ok .nil
  | .not, first :: rest => do .ok (.bool (!(← truth (rest.getLastD first))))
  | _, [only] => only
  | .and, children => (Connective.and.ofAll children).map .bool
  | .or, children => (Connective.or.ofAll children).map .bool
  | .blank, first :: _ => first

namespace Condition

mutual
/-- The value of a condition over a record. -/
def outcome : Condition → Evaluator
  | leaf op field value, context => ((context.get? field).getD .nil).apply op value
  | group connector children, context => connector.outcome (outcomes children context)
termination_by structural c => c

/-- The values of several conditions over a record. -/
def outcomes : List Condition → Context → List (Except EvalError Value)
  | [], _ => []
  | c :: rest, context => c.outcome context :: outcomes rest context
termination_by structural cs => cs
end

/-- The values of all leaves survive being written and read. -/
def IsExact (c : Condition) : Prop := c.Every (fun _ _ value => value.IsExact) fun _ _ => True

variable {env : Environment} {context : Context}

theorem evalIn_trees {cs : List Condition} (h : ∀ c ∈ cs, c.tree.evalIn env context = c.outcome context) :
    (trees cs).map (fun e => e.evalIn env context) = outcomes cs context := by
  induction cs with
  | nil => rfl
  | cons c rest ih =>
      obtain ⟨hc, hrest⟩ := List.forall_mem_cons.1 h
      rw [trees, List.map_cons, hc, ih hrest, outcomes]

/-- The tree of a group has the outcome of its children joined. -/
theorem evalIn_connector (connector : Connector) (es : List Expr) :
    (connector.tree es).evalIn env context = connector.outcome (es.map fun e => e.evalIn env context) := by
  have hchain (op : Connective) (e d : Expr) (rest : List Expr) :
      ((d :: rest).foldl (.binary (.logic op)) e).evalIn env context =
        (op.ofAll ((e :: d :: rest).map fun e => e.evalIn env context)).map .bool :=
    ((Expr.Bracketing.operand e).foldl (d :: rest)).evalIn_eq (by simp)
  cases es with
  | nil => cases connector <;> rfl
  | cons e rest =>
      cases connector with
      | not =>
          rw [List.map_cons, Connector.outcome, List.getLastD_map, Connector.tree, Expr.evalIn]
          cases (rest.getLastD e).evalIn env context <;> rfl
      | and =>
          cases rest with
          | nil => rfl
          | cons d rest => exact hchain _ e d rest
      | or =>
          cases rest with
          | nil => rfl
          | cons d rest => exact hchain _ e d rest
      | blank =>
          cases rest with
          | nil => rfl
          | cons d rest => rfl

/-- Evaluating the tree of a condition gives its value. -/
theorem evalIn_tree {c : Condition} (h : c.IsExact) : c.tree.evalIn env context = c.outcome context := by
  induction c using Condition.induction with
  | leaf op field value =>
      rw [tree, Expr.evalIn, evalIn_reread env context h]
      rfl
  | group connector children ih =>
      obtain ⟨-, hchildren⟩ := every_group.1 h
      rw [tree, evalIn_connector, evalIn_trees fun c hc => ih c hc (hchildren c hc), outcome]

/-- The text that a condition compiles to is nested too deep for the parser, or is parsed and has the value of
the condition over every record. -/
theorem evaluate_compiled {j : Json} {c : Condition} {text : String} (hj : ofJson j = .ok c)
    (htext : compile j = .ok text) (hnamed : c.IsNamed) (hexact : c.IsExact) :
    Expr.parse text = .error .tooDeep ∨
      (∃ e, Expr.parse text = .ok e) ∧
        ∀ registry context, Expr.evaluate registry text context = c.outcome context := by
  have hcompiled : c.compiled = .ok text := by
    rw [← htext, compile, hj]
    rfl
  have htoExpression : c.toExpression = text := by
    unfold compiled at hcompiled
    split_ifs at hcompiled
    exact Except.ok.inj hcompiled
  have hparse := parse_toExpression (isRead_of_ofJson hj) hnamed
  rw [htoExpression] at hparse
  split_ifs at hparse
  · refine .inr ⟨⟨_, hparse⟩, fun registry context => ?_⟩
    have heval : Expr.evaluate registry text context = c.tree.eval registry context := by
      rw [Expr.evaluate, Expr.parseToEval, hparse]
      rfl
    rw [heval, ← evalIn_tree hexact]
    rfl
  · exact .inl hparse

/-- A choice under `NOT`, with a negative number and a text that needs escapes. -/
def negatedChoice : Condition :=
  .group .not [.group .or
    [.leaf (.compare .gt) "age" (.int (-1)), .leaf (.compare .eq) "name" (.str "a\"b")]]

/-- The JSON data of `negatedChoice`. -/
def negatedChoiceJson : Json :=
  .object [("children", .array [.object [("children", .array
      [.object [("field", .string "age"), ("op", .string "GT"), ("value", .number (.int (-1)))],
        .object [("field", .string "name"), ("op", .string "EQ"), ("value", .string "a\"b")]]),
      ("connector", .string "OR")]]), ("connector", .string "NOT")]

theorem evaluate_compiled_negatedChoice :
    ofJson negatedChoiceJson = .ok negatedChoice ∧
      compile negatedChoiceJson = .ok "!(age > -1 || name == \"a\\\"b\")" ∧
      negatedChoice.IsNamed ∧ negatedChoice.IsExact ∧
      ∀ registry context, Expr.evaluate registry "!(age > -1 || name == \"a\\\"b\")" context =
        negatedChoice.outcome context := by
  have hj : ofJson negatedChoiceJson = .ok negatedChoice := rfl
  have htoExpression : negatedChoice.toExpression = "!(age > -1 || name == \"a\\\"b\")" := rfl
  have htext : compile negatedChoiceJson = .ok "!(age > -1 || name == \"a\\\"b\")" := rfl
  have hnamed : negatedChoice.IsNamed := by
    have hage : IsField "age" := isField_of_isName (Token.isName_of_chars rfl (by decide)) (by decide)
    have hname : IsField "name" := isField_of_isName (Token.isName_of_chars rfl (by decide)) (by decide)
    exact ⟨nofun, ⟨nofun, hage, hname, trivial⟩, trivial⟩
  have hexact : negatedChoice.IsExact := by
    have hint : (-1 : Int64) ≠ Int64.minValue := by decide
    exact ⟨trivial, ⟨trivial, hint, trivial, trivial⟩, trivial⟩
  refine ⟨hj, htext, hnamed, hexact, ?_⟩
  rcases evaluate_compiled hj htext hnamed hexact with hdeep | ⟨-, heval⟩
  · have hshallow : negatedChoice.places.deepest Value.signCost ≤ maxNesting := by decide
    have hparse := parse_toExpression (isRead_of_ofJson hj) hnamed
    rw [if_pos hshallow, htoExpression, hdeep] at hparse
    exact nomatch hparse
  · exact heval

end Condition

end RecordRules
