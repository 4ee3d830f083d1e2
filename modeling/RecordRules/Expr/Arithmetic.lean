import RecordRules.Expr.Comparison

/-!
# Arithmetic on values

If one of the operands is a floating-point number or the text of one, both are cast to floating-point numbers;
otherwise both are cast to integers, and the result is taken modulo `2 ^ 64` into the signed range. Integer
division goes toward zero. Dividing by zero is an error for both kinds of numbers.
-/
namespace RecordRules

namespace Arithmetic

def onInts (op : Arithmetic) (a b : Int64) : Except EvalError Value :=
  match op with
  | add => .ok (.int (a + b))
  | sub => .ok (.int (a - b))
  | mul => .ok (.int (a * b))
  | div => if b = 0 then .error .divisionByZero else .ok (.int (a / b))

def onFloats (op : Arithmetic) (x y : Float) : Except EvalError Value :=
  match op with
  | add => .ok (.float (x + y))
  | sub => .ok (.float (x - y))
  | mul => .ok (.float (x * y))
  | div => if y == 0.0 then .error .divisionByZero else .ok (.float (x / y))

end Arithmetic

namespace Value

/-- Whether the value is a floating-point number or the text of one that is no integer. -/
def isFloatLike (v : Value) : Bool := v.numericKind == some .float

def compute (op : Arithmetic) (l r : Value) : Except EvalError Value :=
  if l.isFloatLike || r.isFloatLike then do
    op.onFloats (← ofCast l.toFloat) (← ofCast r.toFloat)
  else do
    op.onInts (← ofCast l.toInt64) (← ofCast r.toInt64)

def negate (v : Value) : Except EvalError Value :=
  if v.isFloatLike then do .ok (float (-(← ofCast v.toFloat)))
  else do .ok (int (-(← ofCast v.toInt64)))

def apply (op : ValueOp) (l r : Value) : Except EvalError Value :=
  match op with
  | .compare c => (compare c l r).map bool
  | .compute a => compute a l r

end Value

end RecordRules
