import RecordRules.Expr.Error

/-!
# Comparing values

How two values are compared. If at least one of them is a number and the other counts as one, they are
compared as numbers: as floating-point numbers if one of them is, otherwise as integers. Texts are compared by
their code points, and nil counts as the empty text beside a text. Two values without an order can still be
equal; nil equals false.
-/
namespace RecordRules

/-- How a value takes part in arithmetic. -/
inductive NumericKind where
  | int
  | float
deriving DecidableEq, Repr

/-- How two numbers stand to each other; none if one of them is NaN. -/
def compareFloats (x y : Float) : Option Ordering :=
  if x < y then some .lt else if y < x then some .gt else if x == y then some .eq else none

/-- How two integers stand to each other. -/
def compareInts (a b : Int64) : Ordering := compare a.toInt b.toInt

/-- How two texts stand to each other. -/
def compareTexts (s t : String) : Ordering :=
  if s < t then .lt else if t < s then .gt else .eq

namespace Value

/-- How the value takes part in arithmetic; none if it is no number and no text of one. -/
def numericKind : Value → Option NumericKind
  | int _ | nil => some .int
  | float _ => some .float
  | str s =>
      if (int64OfText? s).isSome then some .int
      else if (floatOfText? s).isSome then some .float
      else none
  | _ => none

/-- As what kind of number two values are compared, if as numbers at all. -/
def comparisonKind (l r : Value) : Option NumericKind :=
  if l.isNumber || r.isNumber then
    match l.numericKind, r.numericKind with
    | some .int, some .int => some .int
    | some _, some _ => some .float
    | _, _ => none
  else none

/-- The order of two values, if they have one. -/
def ordering (l r : Value) : Except CastError (Option Ordering) :=
  match comparisonKind l r with
  | some .float => do .ok (compareFloats (← l.toFloat) (← r.toFloat))
  | some .int => do .ok (some (compareInts (← l.toInt64) (← r.toInt64)))
  | none =>
      match l, r with
      | str s, str t => .ok (some (compareTexts s t))
      | str s, nil => .ok (some (compareTexts s ""))
      | nil, str t => .ok (some (compareTexts "" t))
      | nil, nil => .ok (some .eq)
      | _, _ => .ok none

/-- Whether two values are equal, given their order. -/
def equal (order : Option Ordering) (l r : Value) : Bool :=
  match order, l, r with
  | some o, _, _ => o == .eq
  | none, bool b, nil => !b
  | none, nil, bool b => !b
  | none, l, r => l.same r

/-- What an order says about a comparison. -/
def holdsFor (op : Comparison) (o : Ordering) : Bool :=
  match op with
  | .eq => o == .eq
  | .ne => o != .eq
  | .lt => o == .lt
  | .le => o != .gt
  | .gt => o == .gt
  | .ge => o != .lt

/-- Compares two values. Equality is defined for all of them, the other comparisons for those with an
order. -/
def compare (op : Comparison) (l r : Value) : Except EvalError Bool := do
  let order ← ofCast (ordering l r)
  match op, order with
  | .eq, _ => .ok (equal order l r)
  | .ne, _ => .ok (!equal order l r)
  | op, some o => .ok (holdsFor op o)
  | op, none => .error (.unordered op l.type r.type)

end Value

end RecordRules
