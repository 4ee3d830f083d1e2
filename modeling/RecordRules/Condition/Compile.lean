import RecordRules.Condition.Reader
import RecordRules.Expr.Parser
import RecordRules.Json.Reader

/-!
# Compiling conditions

The expression text of a condition. The children of a group are joined from the left: the first stands alone,
and each later one yields a parenthesised pair. Under `NOT` each child replaces what stood before by its
negation, so that only the last child counts. A fragment knows whether it can be negated without parentheses
and how deep its parser will nest; text that would nest too deep is refused.
-/
namespace RecordRules

/-- Rendered expression text. -/
structure Fragment where
  text : String
  /-- It can be negated without parentheses. -/
  grouped : Bool
  /-- The nesting that the parser reaches when it reads the text. -/
  depth : Nat
deriving DecidableEq, Repr

namespace Fragment

/-- The negation of a fragment. -/
def negated (f : Fragment) : Fragment :=
  if f.grouped then ⟨"!" ++ f.text, true, f.depth + 1⟩
  else ⟨"!(" ++ f.text ++ ")", true, f.depth + 2⟩

/-- Two fragments joined by a connector. -/
def pair (connector : Connector) (left right : Fragment) : Fragment :=
  ⟨"(" ++ left.text ++ " " ++ connector.symbol ++ " " ++ right.text ++ ")", true,
    max left.depth right.depth + 1⟩

/-- What stands after one more child of a group. -/
def join (connector : Connector) (before : Option Fragment) (child : Fragment) : Fragment :=
  match connector, before with
  | .not, _ => child.negated
  | _, none => child
  | connector, some f => pair connector f child

end Fragment

namespace Condition

mutual
/-- The expression text of a condition. -/
def render : Condition → Fragment
  | leaf op field value => ⟨field ++ " " ++ op.symbol ++ " " ++ value.text, false, 1⟩
  | group connector children => (renderAll connector none children).getD ⟨"", true, 0⟩
termination_by structural c => c

/-- What stands after all children of a group, given what stands before them. -/
def renderAll (connector : Connector) (before : Option Fragment) : List Condition → Option Fragment
  | [] => before
  | c :: rest => renderAll connector (some (Fragment.join connector before c.render)) rest
termination_by structural cs => cs
end

/-- The expression text of a condition. -/
def toExpression (c : Condition) : String := c.render.text

/-- The expression text of a condition, if it does not nest too deep. -/
def compiled (c : Condition) : Except TreeError String :=
  if maxNesting < c.render.depth then .error ⟨[], .tooDeep⟩ else .ok c.render.text

/-- The expression text of the condition that JSON data describes. -/
def compile (j : Json) : Except TreeError String := do (← ofJson j).compiled

/-- The fields of the condition that JSON data describes. -/
def exportFields (j : Json) : Except TreeError (List String) := do .ok (← ofJson j).fields

end Condition

/-- Why a text is not compiled: it is not JSON, or not a condition. -/
inductive CompileError where
  | notJson
  | tree (e : TreeError)

/-- The expression text of the condition that a JSON text describes. -/
def Condition.compileText (s : String) : Except CompileError String :=
  match Json.ofText? s with
  | none => .error .notJson
  | some j => (compile j).mapError .tree

end RecordRules
