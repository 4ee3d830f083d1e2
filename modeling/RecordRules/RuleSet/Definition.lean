import RecordRules.Json.Path

/-!
# Rule set definitions

Rule sets as they are written down: named rules, each with an expression text or a condition tree, and a
default. A definition is read from JSON data. A record in it is an object, or an array of its members in
order; unknown members are ignored, and null stands for an optional member that is not there. Rule files are
read leniently: scalars may stand for texts, arrays may have spare elements, and the members of the whole may
be named by paths, so that `rules[0].name` names the first rule.
-/
namespace RecordRules

structure RuleDefinition where
  name : String
  expr : Option String
  condition : Option Json
  value : Option String

structure RuleSetDefinition where
  rules : List RuleDefinition
  default : Option String

/-- How definitions are read. -/
inductive Strictness where
  | strict
  | lenient
deriving DecidableEq, Repr

namespace Strictness

/-- A number that stands for a text. -/
def numberText : JsonNumber → String
  | .int n => Number.int64Text n
  | .large n _ => String.ofList (Number.intText n.toNat)
  | .float x _ => Number.floatText .plain x

/-- The text that a member gives. -/
def text? (s : Strictness) (j : Json) : Option String :=
  match s, j with
  | _, .string t => some t
  | lenient, .bool b => some (if b then "true" else "false")
  | lenient, .number n => some (numberText n)
  | _, _ => none

/-- The text that an optional member gives. -/
def optionalText? (s : Strictness) (j : Option Json) : Option (Option String) :=
  match j with
  | none | some .null => some none
  | some j => (s.text? j).map some

/-- How the members of a record with the given number of members are found, by position or by name. -/
def record? (s : Strictness) (width : Nat) (j : Json) : Option (Nat → String → Option Json) :=
  match j with
  | .object members => some fun _ name => members.lookup name
  | .array items =>
      if s = strict ∧ width < items.length then none else some fun position _ => items[position]?
  | _ => none

end Strictness

def RuleDefinition.ofJson? (s : Strictness) (j : Json) : Option RuleDefinition := do
  let member ← s.record? 4 j
  let name ← (member 0 "name").bind s.text?
  let expr ← s.optionalText? (member 1 "expr")
  let condition := (member 2 "condition").filter fun
    | .null => false
    | _ => true
  let value ← s.optionalText? (member 3 "value")
  some ⟨name, expr, condition, value⟩

namespace RuleSetDefinition

def ofJson? (s : Strictness) (j : Json) : Option RuleSetDefinition := do
  let member ← s.record? 2 j
  let rules ← match member 0 "rules" with
    | some (.array items) => items.mapM (RuleDefinition.ofJson? s)
    | _ => none
  let default ← s.optionalText? (member 1 "default")
  some ⟨rules, default⟩

/-- The rule set that the JSON data of a rule file defines. The data must be an object. -/
def ofFile? (j : Json) : Option RuleSetDefinition :=
  match j with
  | .object members => ofJson? .lenient (Json.assemble members)
  | _ => none

end RuleSetDefinition

end RecordRules
