import RecordRules.Expr.Operator
import RecordRules.FieldNames
import RecordRules.Value.Basic

/-!
# Condition trees

A condition is a tree whose leaves compare or combine a field with a value, and whose groups join their
children by a connector.
-/
namespace RecordRules

/-- How a group joins its children. -/
inductive Connector where
  | and
  | or
  | not
  /-- No connector, or one that is not known: the children are joined without a symbol. -/
  | blank
deriving DecidableEq, Repr

namespace Connector

/-- The connector of a name. -/
def ofName (name : String) : Connector :=
  if name = "AND" then and
  else if name = "OR" then or
  else if name = "NOT" then not
  else blank

/-- The symbol that stands between the children. -/
def symbol : Connector → String
  | and => "&&"
  | or => "||"
  | not => "!"
  | blank => ""

end Connector

/-- The operators of leaves, with their names. -/
def leafOpNames : List (String × ValueOp) :=
  [("EQ", .compare .eq), ("NE", .compare .ne), ("GT", .compare .gt), ("LT", .compare .lt),
    ("GE", .compare .ge), ("LE", .compare .le), ("ADD", .compute .add), ("SUB", .compute .sub),
    ("MUL", .compute .mul), ("QUO", .compute .div)]

/-- The operator of a leaf by its name. -/
def ValueOp.ofName? (name : String) : Option ValueOp := leafOpNames.lookup name

/-- Every value operator can stand in a leaf. -/
theorem ValueOp.exists_name (op : ValueOp) : ∃ name, ValueOp.ofName? name = some op := by
  rcases op with c | a
  · cases c
    · exact ⟨"EQ", by decide⟩
    · exact ⟨"NE", by decide⟩
    · exact ⟨"LT", by decide⟩
    · exact ⟨"LE", by decide⟩
    · exact ⟨"GT", by decide⟩
    · exact ⟨"GE", by decide⟩
  · cases a
    · exact ⟨"ADD", by decide⟩
    · exact ⟨"SUB", by decide⟩
    · exact ⟨"MUL", by decide⟩
    · exact ⟨"QUO", by decide⟩

/-- A condition. -/
inductive Condition where
  | leaf (op : ValueOp) (field : String) (value : Value)
  | group (connector : Connector) (children : List Condition)

namespace Condition

mutual
/-- Adds the fields of the leaves to those met before, in the order of the leaves. -/
def addFields (names : List String) : Condition → List String
  | leaf _ field _ => addName names field
  | group _ children => addAllFields names children
termination_by structural c => c

/-- Adds the fields of the leaves of several conditions to those met before. -/
def addAllFields (names : List String) : List Condition → List String
  | [] => names
  | c :: rest => addAllFields (c.addFields names) rest
termination_by structural cs => cs
end

/-- The fields of the leaves, each once, in the order of their first occurrence. -/
def fields (c : Condition) : List String := c.addFields []

end Condition

end RecordRules
