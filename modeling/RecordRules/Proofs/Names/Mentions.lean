import RecordRules.Condition.Basic
import RecordRules.Expr.Basic

/-!
# The names in expressions and conditions

The fields that an expression mentions and the functions that it calls, and the fields of the leaves of a
condition, each in the order of the text and with repetitions. The lists that the library collects with an
accumulator are these lists with the repetitions dropped, so that the theorems about names need not follow the
accumulator.
-/
namespace RecordRules

theorem addNames_append (names more rest : List String) :
    addNames names (more ++ rest) = addNames (addNames names more) rest := List.foldl_append

theorem mem_addNames_nil {names : List String} {name : String} : name ∈ addNames [] names ↔ name ∈ names := by
  rw [mem_addNames]
  exact ⟨fun h => h.resolve_left List.not_mem_nil, .inr⟩

namespace Expr

/-- Induction over trees: a call or a list has a property if all its arguments or items have it. -/
theorem induction {P : Expr → Prop} (literal : ∀ v, P (.literal v)) (ident : ∀ name, P (.ident name))
    (unary : ∀ op operand, P operand → P (.unary op operand))
    (binary : ∀ op left right, P left → P right → P (.binary op left right))
    (call : ∀ name args, (∀ a ∈ args, P a) → P (.call name args))
    (list : ∀ items, (∀ e ∈ items, P e) → P (.list items)) (e : Expr) : P e :=
  match e with
  | .literal v => literal v
  | .ident name => ident name
  | .unary op operand => unary op operand (induction literal ident unary binary call list operand)
  | .binary op left right =>
      binary op left right (induction literal ident unary binary call list left)
        (induction literal ident unary binary call list right)
  | .call name args => call name args fun a _ => induction literal ident unary binary call list a
  | .list items => list items fun e _ => induction literal ident unary binary call list e
termination_by sizeOf e

/-! ## Fields -/

mutual
/-- The fields that a tree mentions. -/
def mentions : Expr → List String
  | literal _ => []
  | ident name => [name]
  | unary _ operand => operand.mentions
  | binary _ left right => left.mentions ++ right.mentions
  | call _ args => allMentions args
  | list items => allMentions items
termination_by structural e => e

/-- The fields that several trees mention. -/
def allMentions : List Expr → List String
  | [] => []
  | e :: rest => e.mentions ++ allMentions rest
termination_by structural es => es
end

theorem mem_allMentions {es : List Expr} {name : String} :
    name ∈ allMentions es ↔ ∃ e ∈ es, name ∈ e.mentions := by
  induction es with
  | nil => simp [allMentions]
  | cons e rest ih => simp [allMentions, ih]

theorem addAllIdentifiers_eq {es : List Expr}
    (h : ∀ e ∈ es, ∀ names, e.addIdentifiers names = addNames names e.mentions) (names : List String) :
    addAllIdentifiers names es = addNames names (allMentions es) := by
  induction es generalizing names with
  | nil => rfl
  | cons e rest ih =>
      obtain ⟨he, hrest⟩ := List.forall_mem_cons.1 h
      rw [addAllIdentifiers, allMentions, addNames_append, he, ih hrest]

theorem addIdentifiers_eq (e : Expr) (names : List String) :
    e.addIdentifiers names = addNames names e.mentions := by
  induction e using Expr.induction generalizing names with
  | literal v => rfl
  | ident name => rfl
  | unary op operand ih => exact ih names
  | binary op left right ihl ihr => rw [addIdentifiers, mentions, addNames_append, ihl, ihr]
  | call name args ih => exact addAllIdentifiers_eq ih names
  | list items ih => exact addAllIdentifiers_eq ih names

theorem identifiers_eq (e : Expr) : e.identifiers = addNames [] e.mentions := addIdentifiers_eq e []

theorem mem_identifiers {e : Expr} {name : String} : name ∈ e.identifiers ↔ name ∈ e.mentions := by
  rw [identifiers_eq, mem_addNames_nil]

/-! ## Functions -/

mutual
/-- The names under which a tree calls functions. -/
def called : Expr → List String
  | literal _ | ident _ => []
  | unary _ operand => operand.called
  | binary _ left right => left.called ++ right.called
  | call name args => name :: allCalled args
  | list items => allCalled items
termination_by structural e => e

/-- The names under which several trees call functions. -/
def allCalled : List Expr → List String
  | [] => []
  | e :: rest => e.called ++ allCalled rest
termination_by structural es => es
end

theorem mem_allCalled {es : List Expr} {name : String} :
    name ∈ allCalled es ↔ ∃ e ∈ es, name ∈ e.called := by
  induction es with
  | nil => simp [allCalled]
  | cons e rest ih => simp [allCalled, ih]

end Expr

/-! ## Conditions -/

namespace Condition

mutual
/-- The fields of the leaves of a condition. -/
def leafFields : Condition → List String
  | leaf _ field _ => [field]
  | group _ children => allLeafFields children
termination_by structural c => c

/-- The fields of the leaves of several conditions. -/
def allLeafFields : List Condition → List String
  | [] => []
  | c :: rest => c.leafFields ++ allLeafFields rest
termination_by structural cs => cs
end

theorem mem_allLeafFields {cs : List Condition} {name : String} :
    name ∈ allLeafFields cs ↔ ∃ c ∈ cs, name ∈ c.leafFields := by
  induction cs with
  | nil => simp [allLeafFields]
  | cons c rest ih => simp [allLeafFields, ih]

mutual
theorem addFields_eq (c : Condition) (names : List String) : c.addFields names = addNames names c.leafFields := by
  cases c with
  | leaf op field value => rfl
  | group connector children => exact addAllFields_eq children names
termination_by structural c

theorem addAllFields_eq (cs : List Condition) (names : List String) :
    addAllFields names cs = addNames names (allLeafFields cs) := by
  cases cs with
  | nil => rfl
  | cons c rest => rw [addAllFields, allLeafFields, addNames_append, addFields_eq c, addAllFields_eq rest]
termination_by structural cs
end

theorem mem_fields {c : Condition} {name : String} : name ∈ c.fields ↔ name ∈ c.leafFields := by
  rw [fields, addFields_eq, mem_addNames_nil]

end Condition

end RecordRules
