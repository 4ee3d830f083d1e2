import RecordRules.Proofs.Evaluation.ParseErrors
import RecordRules.Proofs.RuleSet.Fields

/-!
# Compiled rule sets can be evaluated

The text of every rule of a compiled rule set has been accepted by the parser, whichever way the rule is defined.
So it is not blank, and it is not passed over when there is no record: without a record no rule matches, and the
default comes out. Nor does a rule ever fail for its text.
-/
namespace RecordRules

namespace Rule

/-- Without a record a rule with something in its text does not match. -/
theorem isMatch_none {r : Rule} (h : Text.trim r.expression.toList ≠ []) (registry : Registry) :
    r.isMatch registry none = false := by
  rw [isMatch, Expr.holds, if_neg h]

end Rule

namespace RuleSet

variable {registry : Registry} {context : Option Context}

theorem matching_of_no_match {s : RuleSet} (h : ∀ r ∈ s.rules, r.isMatch registry context = false) :
    s.matching registry context = [] := by
  have hnone : s.rules.filter (Rule.isMatch registry context) = [] :=
    List.filter_eq_nil_iff.2 fun r hr => Bool.eq_false_iff.1 (h r hr)
  rw [matching, hnone, List.map_nil]

theorem firstOf_of_no_match {default : Option String} {rs : List Rule}
    (h : ∀ r ∈ rs, r.isMatch registry context = false) : firstOf registry context default rs = default := by
  induction rs with
  | nil => rfl
  | cons r rest ih =>
      obtain ⟨hr, hrest⟩ := List.forall_mem_cons.1 h
      rw [firstOf, if_neg (Bool.eq_false_iff.1 hr), ih hrest]

/-- The text of every rule of a compiled rule set is accepted, and something stands in it. With functions that raise
no parse errors of their own, no rule ever fails with one. Without a record no rule matches, whatever the functions,
and the default that was configured comes out. -/
theorem evaluable_of_compile {d : RuleSetDefinition} {s : RuleSet} (h : compile d = .ok s) :
    (∀ r ∈ s.rules, (∃ e, Expr.parse r.expression = .ok e) ∧ Text.trim r.expression.toList ≠ []) ∧
      (∀ registry : Registry, registry.ParseFree → ∀ r ∈ s.rules, ∀ context p,
        Expr.holds registry r.expression context ≠ .error (.parse p)) ∧
      ∀ registry, s.matching registry none = [] ∧ s.first registry none = d.default := by
  obtain ⟨rs, hrules, h⟩ := exists_of_bind_eq_ok h
  obtain rfl := Except.ok.inj h
  have hparse : ∀ r ∈ rs, ∃ e, Expr.parse r.expression = .ok e := by
    intro r hr
    obtain ⟨definition, -, hdefinition⟩ := exists_of_compileFrom hrules r hr
    obtain ⟨e, he, -⟩ := Rule.exists_parse_of_compile hdefinition
    exact ⟨e, he⟩
  have htext : ∀ r ∈ rs, Text.trim r.expression.toList ≠ [] := by
    intro r hr
    obtain ⟨e, he⟩ := hparse r hr
    exact Expr.trim_ne_nil_of_parse he
  refine ⟨fun r hr => ⟨hparse r hr, htext r hr⟩, ?_, ?_⟩
  · intro registry hregistry r hr context
    obtain ⟨e, he⟩ := hparse r hr
    exact Expr.noParseError_holds hregistry he context
  · intro registry
    have hmatch : ∀ r ∈ rs, r.isMatch registry none = false := fun r hr => Rule.isMatch_none (htext r hr) registry
    exact ⟨matching_of_no_match hmatch, firstOf_of_no_match hmatch⟩

/-- The built-in functions and one that evaluates a text, which is accepted. -/
def withText : Registry := Registry.builtin.register "senior" (Function.ofText ("age" ++ " > 43"))

theorem parseFree_withText : withText.ParseFree :=
  Registry.parseFree_builtin.register (Function.parseFree_ofText_iff.2 ⟨_, parse_age⟩) "senior"

/-- The text `age > 43` of the one rule never fails with a parse error, and it does not match without a record. -/
theorem evaluable_of_compile_seniors :
    compile (seniors "age") = .ok (compiledSeniors "age") ∧ (Registry.builtin.ParseFree ∧ withText.ParseFree) ∧
      (∀ context p, Expr.holds .builtin "age > 43" context ≠ .error (.parse p) ∧
        Expr.holds withText "age > 43" context ≠ .error (.parse p)) ∧
      (compiledSeniors "age").matching .builtin none = [] := by
  have hcompile : compile (seniors "age") = .ok (compiledSeniors "age") := compile_seniors (by decide) parse_age
  have hevaluable := evaluable_of_compile hcompile
  have hholds := hevaluable.2.1 .builtin Registry.parseFree_builtin _ List.mem_cons_self
  have htext := hevaluable.2.1 withText parseFree_withText _ List.mem_cons_self
  exact ⟨hcompile, ⟨Registry.parseFree_builtin, parseFree_withText⟩,
    fun context p => ⟨hholds context p, htext context p⟩, (hevaluable.2.2 .builtin).1⟩

end RuleSet

end RecordRules
