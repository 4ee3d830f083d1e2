import RecordRules.Expr.Eval

/-!
# A small library of functions

Ready-made functions to register: constants, functions of their arguments as written, functions of their
values, and functions given by an expression text. Functions that report errors of their own are told the name
they are registered under.
-/
namespace RecordRules.Function

def constant (v : Value) : Function := fun _ _ _ => .ok v

def count : Function := fun _ args _ => .ok (.int (Int64.ofNat args.length))

/-- Evaluates the argument at a position, counted from zero. -/
def evalAt (name : String) (position : Nat) (args : List Argument) : Evaluator := fun context =>
  match args[position]? with
  | some a => a.value context
  | none => .error (.invalidArgument name ("missing argument " ++ toString position))

/-- Gives the value of the argument at a position. -/
def argument (name : String) (position : Nat) : Function := fun _ args context =>
  evalAt name position args context

/-- Gives the written forms of the arguments. -/
def written : Function := fun _ args _ => .ok (.list (args.map fun a => .str a.tree.text))

def isEven (name : String) : Function := fun _ args context => do
  let n ← ofCast (← evalAt name 0 args context).toInt64
  .ok (.bool (n % 2 == 0))

/-- The number of characters of the first argument as text. -/
def textLength (name : String) : Function := fun _ args context => do
  let s ← ofCast (← evalAt name 0 args context).toText
  .ok (.int (Int64.ofNat s.length))

def failing (name reason : String) : Function := fun _ _ _ => .error (.invalidArgument name reason)

/-- The record with the values of the arguments added as `arg0`, `arg1` and so on. -/
def bindArguments (args : List Argument) (context : Context) : Except EvalError Context := do
  let values ← args.mapM fun a => a.value context
  .ok (values.zipIdx.foldl (fun c (v, i) => c.insert ("arg" ++ toString i) v) context)

/-- Evaluates an expression text over the record with the arguments added. -/
def ofText (text : String) : Function := fun reenter args context => do
  let bound ← bindArguments args context
  let e ← Expr.parseToEval text
  reenter e bound

end RecordRules.Function
