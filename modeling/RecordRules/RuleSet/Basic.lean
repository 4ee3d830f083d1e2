import RecordRules.Condition.Compile
import RecordRules.Expr.Eval
import RecordRules.RuleSet.Definition

/-!
# Rule sets

A rule set holds rules in order, each as expression text that is known to parse. It is compiled from its
definition; the first rule that is not valid is reported with its position and name. Against a record a rule
set lists every rule that matches, or gives the value of the first one and otherwise its default. A rule that
fails to evaluate does not match.
-/
namespace RecordRules

structure Rule where
  name : String
  expression : String
  /-- The fields that the expression reads. -/
  fields : List String
  /-- What the rule gives when it is the first to match. -/
  value : String

/-- What is wrong with the definition of a rule. -/
inductive RuleFault where
  | parse (e : ParseError)
  | compile (e : TreeError)
  /-- The fields of a condition that compiles cannot be told. -/
  | fields (e : TreeError)
  | twoSources
  | noSource

/-- A fault and the rule it was found in, counted from one. -/
structure RuleError where
  position : Nat
  name : String
  fault : RuleFault

/-- The text of a rule error. It names the rule, except where the fields of a condition are at fault. -/
def RuleError.message (e : RuleError) : String :=
  let rule := toString e.position ++ " ('" ++ e.name ++ "')"
  match e.fault with
  | .parse p => "Error parsing rule " ++ rule ++ ": " ++ p.message
  | .compile t => "Error compiling rule " ++ rule ++ ": " ++ t.message
  | .fields t => t.message
  | .twoSources => "Rule " ++ rule ++ " has both 'expr' and 'condition'"
  | .noSource => "Rule " ++ rule ++ " needs either 'expr' or 'condition'"

namespace Rule

/-- The expression text of a rule and the fields that it reads. -/
def source (d : RuleDefinition) : Except RuleFault (String × List String) :=
  match d.expr, d.condition with
  | some text, none =>
      match Expr.parse text with
      | .ok e => .ok (text, e.identifiers)
      | .error e => .error (.parse e)
  | none, some tree => do
      let text ← (Condition.compile tree).mapError .compile
      let fields ← (Condition.exportFields tree).mapError .fields
      match Expr.parse text with
      | .ok _ => .ok (text, fields)
      | .error e => .error (.parse e)
  | some _, some _ => .error .twoSources
  | none, none => .error .noSource

/-- Compiles a rule. Its value is its name unless another is given. -/
def compile (d : RuleDefinition) : Except RuleFault Rule := do
  let (text, fields) ← source d
  .ok ⟨d.name, text, fields, d.value.getD d.name⟩

def isMatch (registry : Registry) (context : Option Context) (r : Rule) : Bool :=
  match Expr.holds registry r.expression context with
  | .ok b => b
  | .error _ => false

end Rule

structure RuleSet where
  rules : List Rule
  default : Option String

namespace RuleSet

/-- Compiles rules, the first of them at the given position. -/
def compileFrom (position : Nat) : List RuleDefinition → Except RuleError (List Rule)
  | [] => .ok []
  | d :: rest => do
      let r ← (Rule.compile d).mapError (⟨position, d.name, ·⟩)
      let rs ← compileFrom (position + 1) rest
      .ok (r :: rs)

def compile (d : RuleSetDefinition) : Except RuleError RuleSet := do
  .ok ⟨← compileFrom 1 d.rules, d.default⟩

/-- The names of all rules that match, in order. -/
def matching (registry : Registry) (s : RuleSet) (context : Option Context) : List String :=
  (s.rules.filter (Rule.isMatch registry context)).map Rule.name

/-- The value of the first of the rules that matches, or the default. -/
def firstOf (registry : Registry) (context : Option Context) (default : Option String) :
    List Rule → Option String
  | [] => default
  | r :: rest =>
      if r.isMatch registry context then some r.value else firstOf registry context default rest

/-- The value of the first rule that matches, or the default. -/
def first (registry : Registry) (s : RuleSet) (context : Option Context) : Option String :=
  firstOf registry context s.default s.rules

/-- The fields that the rules read, each once, in the order of their first occurrence. -/
def fields (s : RuleSet) : List String :=
  s.rules.foldl (fun names r => addNames names r.fields) []

end RuleSet

end RecordRules
