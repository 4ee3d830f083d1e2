import RecordRules.Condition.Basic
import RecordRules.Value.Context

/-!
# Reading condition trees

A condition is given as JSON data. A node with a member `children` is a group, any other node a leaf; the root
is always a group. The reader checks each node before its children and the children in order, and reports the
first fault with the path of its node.
-/
namespace RecordRules

/-- What is wrong with a node. -/
inductive TreeFault where
  | notObject
  | tooFewKeys (found : Nat)
  | connectorNotText (found : Json)
  | missingChildren
  | childrenNotArray
  | emptyChildren
  | childNotObject
  | missingKey (key : String)
  | unknownOperator (found : Json)
  | invalidValue (found : Json)
  | tooDeep

/-- A fault and the node it was found at: the positions of the children on the way from the root. -/
structure TreeError where
  path : List Nat
  fault : TreeFault

namespace TreeError

/-- The path of a node as messages write it. -/
def pathText (path : List Nat) : String :=
  path.foldl (fun text i => text ++ ".children[" ++ toString i ++ "]") "root"

/-- The text of a tree error. -/
def message (e : TreeError) : String :=
  let node := "'" ++ pathText e.path ++ "'"
  match e.fault with
  | .notObject => "invalid node " ++ node ++ ": expected an object"
  | .tooFewKeys found =>
      "invalid node " ++ node ++ ": expected at least 2 keys, found " ++ toString found
  | .connectorNotText found =>
      "invalid node " ++ node ++ ": connector must be a string, got " ++ found.text
  | .missingChildren => "node " ++ node ++ " has no children"
  | .childrenNotArray => "children of " ++ node ++ " is not an array"
  | .emptyChildren => "children of " ++ node ++ " is empty"
  | .childNotObject => "child " ++ node ++ " is not an object"
  | .missingKey key => "leaf " ++ node ++ " is missing '" ++ key ++ "'"
  | .unknownOperator (.string name) => "leaf " ++ node ++ " has unknown operator '" ++ name ++ "'"
  | .unknownOperator found => "leaf " ++ node ++ " has unknown operator '" ++ found.text ++ "'"
  | .invalidValue found =>
      "leaf " ++ node ++ " has invalid value: expected a string, number or bool, got " ++ found.text
  | .tooDeep => "condition tree is nested too deeply at " ++ node

end TreeError

namespace Condition

/-- How deep groups may nest, the root not counted. -/
def maxDepth : Nat := 128

/-- The connector of a group. -/
def connectorOf (members : List (String × Json)) : Except TreeFault Connector :=
  match members.lookup "connector" with
  | none | some .null => .ok .blank
  | some (.string name) => .ok (.ofName name)
  | some j => .error (.connectorNotText j)

/-- The connector of a group and its children, still unread. -/
def groupParts (j : Json) : Except TreeFault (Connector × List Json) :=
  match j with
  | .object members =>
      if members.length < 2 then .error (.tooFewKeys members.length)
      else match members.lookup "children" with
        | none => .error .missingChildren
        | some (.array []) => .error .emptyChildren
        | some (.array children) => (connectorOf members).map fun c => (c, children)
        | some _ => .error .childrenNotArray
  | _ => .error .notObject

/-- The operator of a leaf. -/
def leafOp (members : List (String × Json)) : Except TreeFault ValueOp :=
  match members.lookup "op" with
  | none | some .null => .error (.missingKey "op")
  | some (.string name) =>
      match ValueOp.ofName? name with
      | some op => .ok op
      | none => .error (.unknownOperator (.string name))
  | some j => .error (.unknownOperator j)

/-- The field of a leaf. -/
def leafField (members : List (String × Json)) : Except TreeFault String :=
  match members.lookup "field" with
  | some (.string field) => if field = "" then .error (.missingKey "field") else .ok field
  | _ => .error (.missingKey "field")

/-- The value of a leaf. -/
def leafValue (members : List (String × Json)) : Except TreeFault Value :=
  match members.lookup "value" with
  | none => .error (.missingKey "value")
  | some (.bool b) => .ok (.bool b)
  | some (.number n) => .ok n.toValue
  | some (.string s) => .ok (.str s)
  | some j => .error (.invalidValue j)

/-- A leaf. -/
def ofLeaf (members : List (String × Json)) : Except TreeFault Condition := do
  let op ← leafOp members
  let field ← leafField members
  let value ← leafValue members
  .ok (.leaf op field value)

/-- Whether an object has a member. -/
def hasMember (members : List (String × Json)) (key : String) : Bool := (members.lookup key).isSome

/-- A child of a group, given the reader of groups. -/
def ofChild (group : List Nat → Json → Except TreeError Condition) (path : List Nat) (j : Json) :
    Except TreeError Condition :=
  match j with
  | .object members =>
      if hasMember members "children" then group path j
      else (ofLeaf members).mapError (⟨path, ·⟩)
  | _ => .error ⟨path, .childNotObject⟩

/-- The children of a group from the given position on. -/
def ofChildren (group : List Nat → Json → Except TreeError Condition) (path : List Nat) :
    Nat → List Json → Except TreeError (List Condition)
  | _, [] => .ok []
  | i, j :: rest => do
      let c ← ofChild group (path ++ [i]) j
      let cs ← ofChildren group path (i + 1) rest
      .ok (c :: cs)

/-- A group, with at most the given number of groups inside each other. -/
def ofGroup : Nat → List Nat → Json → Except TreeError Condition
  | 0, path, _ => .error ⟨path, .tooDeep⟩
  | depth + 1, path, j => do
      let (connector, children) ← (groupParts j).mapError (⟨path, ·⟩)
      let cs ← ofChildren (ofGroup depth) path 0 children
      .ok (.group connector cs)

/-- The condition that JSON data describes. -/
def ofJson (j : Json) : Except TreeError Condition := ofGroup (maxDepth + 1) [] j

end Condition

end RecordRules
