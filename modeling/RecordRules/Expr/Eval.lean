import RecordRules.Expr.Arithmetic
import RecordRules.Expr.Function

/-!
# Evaluating expressions

The value of an expression over a record. A missing field is nil; the connectives leave their right operand
unevaluated when the left one decides; a call looks its function up and hands it the arguments unevaluated.

Evaluation recurs on the tree. Only a function that evaluates text of its own can start an evaluation that is
not on a part of the tree; such evaluations inside each other are counted and bounded by `callLimit`. The bound takes
the place of the end of the stack: `tooManyCalls` is what is said of an evaluation that would have none. Like any
other error of an argument or a rule it counts as no match. It cannot occur with functions that evaluate nothing but
their arguments (`Expr.evalWithin_eq_eval`), as the built-in one.
-/
namespace RecordRules

/-- What the evaluation of calls needs: the functions, and the evaluator for text that functions bring along. -/
structure Environment where
  registry : Registry
  reenter : Expr → Evaluator

/-- Whether the truth of the left operand decides the whole. -/
def Connective.decidedBy (op : Connective) (left : Bool) : Bool :=
  match op with
  | .and => !left
  | .or => left

def UnaryOp.apply (op : UnaryOp) (v : Value) : Except EvalError Value :=
  match op with
  | .not => do .ok (.bool (!(← ofCast v.toBool)))
  | .neg => v.negate

namespace Expr

mutual
/-- The value of a tree over a record. -/
def evalIn (env : Environment) : Expr → Evaluator
  | literal v, _ => .ok v
  | ident name, context => .ok (context.read name)
  | unary op operand, context => do op.apply (← operand.evalIn env context)
  | binary (.logic op) left right, context => do
      let l ← ofCast (← left.evalIn env context).toBool
      if op.decidedBy l then .ok (.bool l)
      else do
        let r ← ofCast (← right.evalIn env context).toBool
        .ok (.bool r)
  | binary (.value op) left right, context => do
      let l ← left.evalIn env context
      let r ← right.evalIn env context
      l.apply op r
  | call name args, context =>
      match env.registry.get? name with
      | some f => f env.reenter (arguments env args) context
      | none => .error (.unknownFunction name)
  | list items, context => (evalAll env items context).map .list
termination_by structural e => e

/-- The values of the trees of a list, or the error of the first that fails. -/
def evalAll (env : Environment) : List Expr → Context → Except EvalError (List Value)
  | [], _ => .ok []
  | e :: rest, context => do
      let v ← e.evalIn env context
      let vs ← evalAll env rest context
      .ok (v :: vs)
termination_by structural es => es

def arguments (env : Environment) : List Expr → List Argument
  | [] => []
  | e :: rest => ⟨e, e.evalIn env, e.elements env⟩ :: arguments env rest
termination_by structural es => es

def elements (env : Environment) : Expr → Option (List Evaluator)
  | list items => some (evaluators env items)
  | _ => none
termination_by structural e => e

/-- The evaluators of the trees of a list. -/
def evaluators (env : Environment) : List Expr → List Evaluator
  | [] => []
  | e :: rest => e.evalIn env :: evaluators env rest
termination_by structural es => es
end

/-- How many evaluations of text that functions bring along may stand inside each other, in place of a limit on the
stack. -/
def callLimit : Nat := 10000

/-- Evaluation with at most the given number of evaluations inside each other. -/
def evalWithin (registry : Registry) : Nat → Expr → Evaluator
  | 0 => evalIn ⟨registry, fun _ _ => .error .tooManyCalls⟩
  | n + 1 => evalIn ⟨registry, evalWithin registry n⟩

/-- The value of a tree over a record. -/
def eval (registry : Registry) (e : Expr) : Evaluator := e.evalWithin registry callLimit

/-- Evaluation is one run of the evaluator proper. -/
theorem eval_eq_evalIn (registry : Registry) (e : Expr) (context : Context) :
    e.eval registry context = e.evalIn ⟨registry, evalWithin registry (callLimit - 1)⟩ context := rfl

/-- The tree of a text, as a step of its evaluation. -/
def parseToEval (text : String) : Except EvalError Expr := (parse text).mapError .parse

def evaluate (registry : Registry) (text : String) (context : Context) : Except EvalError Value := do
  let e ← parseToEval text
  e.eval registry context

/-- Whether an expression text holds for a record. Blank text always holds. Without a record nothing else
holds, and the text is not looked at. -/
def holds (registry : Registry) (text : String) (context : Option Context) : Except EvalError Bool :=
  if Text.trim text.toList = [] then .ok true
  else match context with
    | none => .ok false
    | some context => do
        let v ← evaluate registry text context
        match v.toBool with
        | .ok b => .ok b
        | .error _ => .error (.notTruth v)

end Expr

end RecordRules
