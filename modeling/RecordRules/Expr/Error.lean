import RecordRules.Expr.Parser
import RecordRules.Value.Cast

/-!
# Evaluation errors

The causes for which the evaluation of an expression fails, and their texts.
-/
namespace RecordRules

inductive EvalError where
  /-- The text is not an expression. -/
  | parse (e : ParseError)
  | cast (e : CastError)
  | unknownFunction (name : String)
  | divisionByZero
  /-- The comparison needs an order, and the two values have none. -/
  | unordered (op : Comparison) (left right : ValueType)
  /-- The value of a whole expression is no truth value. -/
  | notTruth (v : Value)
  /-- A function refuses its arguments. -/
  | invalidArgument (function reason : String)
  /-- Functions that evaluate expression text called each other too often. This is the end of the stack and no fault
  of the expression; the other errors are those of the language. -/
  | tooManyCalls

def EvalError.message : EvalError → String
  | parse e => "parse error: " ++ e.message
  | cast e => e.message
  | unknownFunction name => "unknown function: " ++ name
  | divisionByZero => "division by zero"
  | unordered op left right =>
      "type mismatch: cannot apply " ++ op.symbol ++ " to " ++ left.name ++ " and " ++ right.name
  | notTruth v =>
      "type mismatch: expression must produce a bool, got " ++ v.type.name ++ " " ++ v.text
  | invalidArgument function reason => "invalid argument to " ++ function ++ ": " ++ reason
  | tooManyCalls => "call nesting limit reached"

/-- The outcome of a cast as the outcome of an evaluation. -/
def ofCast {α : Type} (r : Except CastError α) : Except EvalError α := r.mapError .cast

end RecordRules
