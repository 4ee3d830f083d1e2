import RecordRules.Expr.Eval

/-!
# Sessions

A session keeps a record that is built up field by field, the registry that expression text uses, and further
registries by name. The further registries do not take part in evaluation; their functions are called
directly.
-/
namespace RecordRules

structure Session where
  /-- The record, if there is one. -/
  context : Option Context
  /-- The functions that expression text can call. -/
  registry : Registry
  /-- Further registries by name. -/
  standalone : SortedMap Registry

namespace Session

def start : Session := ⟨none, .builtin, .empty⟩

/-- The record, without fields if there is none. -/
def record (s : Session) : Context := s.context.getD .empty

/-- Sets a field of the record, which comes into being if there is none. -/
def setField (s : Session) (key : String) (j : Json) : Except CastError Session := do
  let v ← Value.ofJson j
  .ok { s with context := some (s.record.insert key v) }

def unsetField (s : Session) (key : String) : Session :=
  { s with context := s.context.map (·.erase key) }

def clear (s : Session) : Session := { s with context := some .empty }

def forget (s : Session) : Session := { s with context := none }

def register (s : Session) (name : String) (f : Function) : Session :=
  { s with registry := s.registry.register name f }

def evaluate (s : Session) (text : String) : Except EvalError Value :=
  Expr.evaluate s.registry text s.record

def holds (s : Session) (text : String) : Except EvalError Bool :=
  Expr.holds s.registry text s.context

/-- Stores a further registry under a name. -/
def store (s : Session) (slot : String) (r : Registry) : Session :=
  { s with standalone := s.standalone.insert slot r }

/-- The further registry of a name; an empty one if there is none. -/
def slot (s : Session) (name : String) : Registry := (s.standalone.get? name).getD .empty

def registerIn (s : Session) (slot : String) (name : String) (f : Function) : Session :=
  s.store slot ((s.slot slot).register name f)

/-- Calls a function with trees as its arguments. Within them, calls use the functions of expression text. -/
def call (s : Session) (f : Function) (args : List Expr) : Except EvalError Value :=
  let env : Environment := ⟨s.registry, Expr.eval s.registry⟩
  f env.reenter (Expr.arguments env args) s.record

end Session

end RecordRules
