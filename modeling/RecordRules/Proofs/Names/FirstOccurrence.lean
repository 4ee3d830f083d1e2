import Mathlib.Data.List.Induction
import RecordRules.Proofs.Names.Mentions
import RecordRules.RuleSet.Basic

/-!
# Names in the order of their first occurrence

The fields of a condition, of an expression and of a rule set are collected in one list that each part adds to after
looking through what the parts before it have added. Main statement: the list that comes out is the list of all
names, in the order of the text and with repetitions, less every occurrence but the first. What is added behind the
last leaf, the last name or the last rule can only add to the end of the list.
-/
namespace RecordRules

theorem addNames_nil_left (names : List String) : addNames [] names = names.eraseDups := by
  -- the last name looks through the list of those before it
  induction names using List.reverseRecOn with
  | nil => rfl
  | append_singleton names name ih =>
      rw [addNames_append, ih, List.eraseDups_append]
      change addName names.eraseDups name = _
      by_cases h : name ∈ names
      · rw [addName_of_mem (List.mem_eraseDups.2 h)]
        simp [List.removeAll, h]
      · simp [addName, List.removeAll, List.eraseDups_cons, h]

theorem nodup_addNames {names : List String} (h : names.Nodup) (more : List String) : (addNames names more).Nodup := by
  induction more generalizing names with
  | nil => exact h
  | cons name rest ih => exact ih (nodup_addName h name)

section
variable {names more seq seq' : List String}

theorem nodup_of_eq_eraseDups (h : names = seq.eraseDups) : names.Nodup := by
  rw [h, ← addNames_nil_left]
  exact nodup_addNames List.nodup_nil seq

theorem isPrefix_of_eq_eraseDups (h : names = seq.eraseDups) (h' : more = seq'.eraseDups) (hstart : seq <+: seq') :
    names <+: more := by
  obtain ⟨rest, rfl⟩ := hstart
  rw [h, h', List.eraseDups_append]
  exact List.prefix_append _ _

end

/-! ## Conditions -/

namespace Condition

theorem fields_eq (c : Condition) : c.fields = c.leafFields.eraseDups := by
  rw [fields, addFields_eq, addNames_nil_left]

theorem allLeafFields_append (cs more : List Condition) :
    allLeafFields (cs ++ more) = allLeafFields cs ++ allLeafFields more := by
  induction cs with
  | nil => rfl
  | cons c rest ih => rw [List.cons_append, allLeafFields, allLeafFields, ih, List.append_assoc]

/-- Something may be added to a condition behind its last leaf. -/
inductive Extends : Condition → Condition → Prop
  | refl (c : Condition) : Extends c c
  /-- The condition becomes the first child of a group. -/
  | first {c c' : Condition} (connector : Connector) (more : List Condition) (h : Extends c c') :
      Extends c (group connector (c' :: more))
  /-- A group gets more children. -/
  | children (connector : Connector) (cs more : List Condition) :
      Extends (group connector cs) (group connector (cs ++ more))
  /-- Something is added to the last child of a group, and more children behind it. -/
  | last {c c' : Condition} (connector : Connector) (cs more : List Condition) (h : Extends c c') :
      Extends (group connector (cs ++ [c])) (group connector (cs ++ c' :: more))

theorem Extends.leafFields_isPrefix {c c' : Condition} (h : Extends c c') : c.leafFields <+: c'.leafFields := by
  induction h with
  | refl c => exact List.prefix_rfl
  | first connector more _ ih => exact ih.trans (List.prefix_append _ _)
  | children connector cs more =>
      rw [leafFields, leafFields, allLeafFields_append]
      exact List.prefix_append _ _
  | last connector cs more _ ih =>
      rw [leafFields, leafFields, allLeafFields_append, allLeafFields_append]
      apply (List.prefix_append_right_inj _).2
      rw [allLeafFields, allLeafFields, allLeafFields, List.append_nil]
      exact ih.trans (List.prefix_append _ _)

end Condition

/-! ## Expressions -/

namespace Expr

theorem identifiers_eq_eraseDups (e : Expr) : e.identifiers = e.mentions.eraseDups := by
  rw [identifiers_eq, addNames_nil_left]

theorem allMentions_append (es more : List Expr) : allMentions (es ++ more) = allMentions es ++ allMentions more := by
  induction es with
  | nil => rfl
  | cons e rest ih => rw [List.cons_append, allMentions, allMentions, ih, List.append_assoc]

/-- Something may be added to an expression behind its last name. -/
inductive Extends : Expr → Expr → Prop
  | refl (e : Expr) : Extends e e
  /-- The expression becomes the left operand of an operator. -/
  | left {e e' : Expr} (op : BinaryOp) (right : Expr) (h : Extends e e') : Extends e (binary op e' right)
  | right {e e' : Expr} (op : BinaryOp) (left : Expr) (h : Extends e e') :
      Extends (binary op left e) (binary op left e')
  | operand {e e' : Expr} (op : UnaryOp) (h : Extends e e') : Extends (unary op e) (unary op e')
  | args (name : String) (es more : List Expr) : Extends (call name es) (call name (es ++ more))
  | lastArg {e e' : Expr} (name : String) (es more : List Expr) (h : Extends e e') :
      Extends (call name (es ++ [e])) (call name (es ++ e' :: more))
  | items (es more : List Expr) : Extends (list es) (list (es ++ more))
  | lastItem {e e' : Expr} (es more : List Expr) (h : Extends e e') :
      Extends (list (es ++ [e])) (list (es ++ e' :: more))

theorem Extends.mentions_isPrefix {e e' : Expr} (h : Extends e e') : e.mentions <+: e'.mentions := by
  have added (es more : List Expr) : allMentions es <+: allMentions (es ++ more) := by
    rw [allMentions_append]
    exact List.prefix_append _ _
  have last {e e' : Expr} (es more : List Expr) (h : e.mentions <+: e'.mentions) :
      allMentions (es ++ [e]) <+: allMentions (es ++ e' :: more) := by
    rw [allMentions_append, allMentions_append]
    apply (List.prefix_append_right_inj _).2
    rw [allMentions, allMentions, allMentions, List.append_nil]
    exact h.trans (List.prefix_append _ _)
  induction h with
  | refl e => exact List.prefix_rfl
  | left op right _ ih => exact ih.trans (List.prefix_append _ _)
  | right op left _ ih => exact (List.prefix_append_right_inj _).2 ih
  | operand op _ ih => exact ih
  | args name es more => exact added es more
  | lastArg name es more _ ih => exact last es more ih
  | items es more => exact added es more
  | lastItem es more _ ih => exact last es more ih

end Expr

/-! ## Rule sets -/

namespace RuleSet

theorem fields_eq (s : RuleSet) : s.fields = (s.rules.flatMap Rule.fields).eraseDups := by
  have hfold (rs : List Rule) (names : List String) :
      rs.foldl (fun names r => addNames names r.fields) names = addNames names (rs.flatMap Rule.fields) := by
    induction rs generalizing names with
    | nil => rfl
    | cons r rest ih => rw [List.foldl_cons, ih, List.flatMap_cons, addNames_append]
  rw [fields, hfold, addNames_nil_left]

end RuleSet

/-! ## The three collections -/

/-- The fields of a condition, of an expression and of a rule set are all the names that occur in the leaves, in the
tree and in the rules, each once, in the order of their first occurrence. Adding to the condition or the expression
behind what is there, or adding rules behind the others, leaves them in their places. -/
theorem collected_in_order :
    (∀ c : Condition, c.fields = c.leafFields.eraseDups ∧ c.fields.Nodup ∧
      ∀ c', c.Extends c' → c.fields <+: c'.fields) ∧
    (∀ e : Expr, e.identifiers = e.mentions.eraseDups ∧ e.identifiers.Nodup ∧
      ∀ e', e.Extends e' → e.identifiers <+: e'.identifiers) ∧
    ∀ s : RuleSet, s.fields = (s.rules.flatMap Rule.fields).eraseDups ∧ s.fields.Nodup ∧
      ∀ more default, s.fields <+: (RuleSet.mk (s.rules ++ more) default).fields := by
  refine ⟨fun c => ⟨c.fields_eq, nodup_of_eq_eraseDups c.fields_eq, fun c' h => ?_⟩,
    fun e => ⟨e.identifiers_eq_eraseDups, nodup_of_eq_eraseDups e.identifiers_eq_eraseDups, fun e' h => ?_⟩,
    fun s => ⟨s.fields_eq, nodup_of_eq_eraseDups s.fields_eq, fun more default => ?_⟩⟩
  · exact isPrefix_of_eq_eraseDups c.fields_eq c'.fields_eq h.leafFields_isPrefix
  · exact isPrefix_of_eq_eraseDups e.identifiers_eq_eraseDups e'.identifiers_eq_eraseDups h.mentions_isPrefix
  · refine isPrefix_of_eq_eraseDups s.fields_eq (RuleSet.fields_eq _) ?_
    rw [List.flatMap_append]
    exact List.prefix_append _ _

/-- A group under `NOT`, which discards all children but the last, with a field that occurs twice. -/
def discarding : Condition :=
  .group .not [.leaf (.compare .eq) "b" .nil, .leaf (.compare .eq) "a" .nil, .leaf (.compare .eq) "b" .nil]

theorem collected_in_order_discarding :
    discarding.fields = ["b", "a"] ∧
      discarding.Extends (.group .or [discarding, .leaf (.compare .eq) "c" .nil, .leaf (.compare .eq) "a" .nil]) ∧
      ["b", "a"] <+:
        (Condition.group .or [discarding, .leaf (.compare .eq) "c" .nil, .leaf (.compare .eq) "a" .nil]).fields := by
  have hextends : discarding.Extends
      (.group .or [discarding, .leaf (.compare .eq) "c" .nil, .leaf (.compare .eq) "a" .nil]) :=
    .first .or _ (.refl discarding)
  obtain ⟨hfields, -, hstart⟩ := collected_in_order.1 discarding
  have hcollected : discarding.fields = ["b", "a"] := hfields.trans (by decide)
  exact ⟨hcollected, hextends, hcollected ▸ hstart _ hextends⟩

end RecordRules
