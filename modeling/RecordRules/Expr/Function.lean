import RecordRules.Expr.Error
import RecordRules.Value.Context

/-!
# Functions and their registry

A function gets its arguments unevaluated, together with the record. It sees each argument as a tree and can
evaluate it, whole or element by element if it is a list literal, so it decides itself what is evaluated. It
is also handed an evaluator for other trees, with which it may evaluate text that it brings along.

A registry holds functions by name; registering a name again replaces its function.
-/
namespace RecordRules

/-- Gives a value for every record, or fails. -/
abbrev Evaluator := Context → Except EvalError Value

/-- An argument of a call. -/
structure Argument where
  /-- The argument as it was written. -/
  tree : Expr
  value : Evaluator
  /-- The elements, if the argument is a list literal. -/
  elements : Option (List Evaluator)

/-- A function that expressions can call. -/
def Function := (reenter : Expr → Evaluator) → List Argument → Evaluator

namespace Function

/-- Whether the value of an element of a list is the value looked for: integers are compared with it as an
integer, texts as a text, and other elements never match. -/
def isElement (needle item : Value) : Bool :=
  match item with
  | .int n =>
      match needle.toInt64 with
      | .ok m => m == n
      | .error _ => false
  | .str s =>
      match needle.toText with
      | .ok t => t == s
      | .error _ => false
  | _ => false

/-- Whether an element of the list evaluates to the value looked for. Elements that fail are passed over. -/
def anyElement (needle : Value) (elements : List Evaluator) (context : Context) : Bool :=
  elements.any fun element =>
    match element context with
    | .ok item => isElement needle item
    | .error _ => false

/-- Membership in a list literal. Only a wrong shape of the arguments is an error: if the value looked for
fails to evaluate, it is in no list. -/
def inArray : Function := fun _ args context =>
  match args with
  | [needle, haystack] =>
      match haystack.elements with
      | some elements =>
          match needle.value context with
          | .ok v => .ok (.bool (anyElement v elements context))
          | .error _ => .ok (.bool false)
      | none => .error (.invalidArgument "in_array" "second argument must be a list literal")
  | _ =>
      .error (.invalidArgument "in_array" ("expected 2 arguments, got " ++ toString args.length))

end Function

/-- A table of functions. -/
structure Registry where
  functions : SortedMap Function

namespace Registry

/-- The table without functions. -/
def empty : Registry := ⟨SortedMap.empty⟩

/-- Adds or replaces a function. -/
def register (r : Registry) (name : String) (f : Function) : Registry := ⟨r.functions.insert name f⟩

/-- The table of the built-in functions. -/
def builtin : Registry := empty.register "in_array" Function.inArray

/-- The function of a name. -/
def get? (r : Registry) (name : String) : Option Function := r.functions.get? name

/-- Whether a name has a function. -/
def contains (r : Registry) (name : String) : Bool := r.functions.contains name

/-- The registered names in ascending order. -/
def names (r : Registry) : List String := r.functions.keys

/-- A line that shows the registered names. -/
def describe (r : Registry) : String :=
  "FunctionRegistry \x7b functions: [" ++ String.intercalate ", " (r.names.map Text.quote) ++ "] \x7d"

@[simp] theorem get?_register_self (r : Registry) (name : String) (f : Function) :
    (r.register name f).get? name = some f :=
  SortedMap.get?_insert_self r.functions name f

theorem get?_register_of_ne (r : Registry) {name other : String} (f : Function) (h : other ≠ name) :
    (r.register name f).get? other = r.get? other :=
  SortedMap.get?_insert_of_ne r.functions f h

end Registry

end RecordRules
