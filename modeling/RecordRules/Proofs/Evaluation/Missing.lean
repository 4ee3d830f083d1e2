import RecordRules.Proofs.Evaluation.Connectives
import RecordRules.Proofs.Evaluation.Dependence
import RecordRules.Proofs.Evaluation.Text
import RecordRules.Proofs.Value.Zero

/-!
# Missing fields

A field that is missing reads as nil, and nil acts as a zero wherever it turns up: in comparisons as the zero of the
other side, in arithmetic as the integer zero, under connectives and as the value of a whole text as false. To bind a
missing field to nil makes no difference.
-/
namespace RecordRules

theorem Context.read_insert_nil {context : Context} {key : String} (h : context.get? key = none) (name : String) :
    Context.read (context.insert key .nil) name = context.read name := by
  by_cases hname : name = key
  · rw [hname, read, read, SortedMap.get?_insert_self, h]
    rfl
  · exact context.read_insert_of_ne .nil hname

namespace Expr

/-- A connective and a negation only see the truth of an operand. -/
theorem eval_eq_of_truth {registry : Registry} {context : Context} {a f : Expr}
    (h : truth (a.eval registry context) = truth (f.eval registry context)) :
    (∀ op e, (binary (.logic op) a e).eval registry context = (binary (.logic op) f e).eval registry context ∧
      (binary (.logic op) e a).eval registry context = (binary (.logic op) e f).eval registry context) ∧
      (unary .not a).eval registry context = (unary .not f).eval registry context := by
  simp only [eval_eq_evalIn] at h ⊢
  refine ⟨fun op e => ⟨?_, ?_⟩, ?_⟩
  · rw [evalIn_logic, evalIn_logic, h]
  · rw [evalIn_logic, evalIn_logic, h]
  · rw [evalIn_not, evalIn_not, h]

/-- With the built-in functions alone. -/
theorem eval_insert_nil {context : Context} {key : String} (h : context.get? key = none) (e : Expr) :
    e.eval .builtin (context.insert key .nil) = e.eval .builtin context :=
  eval_eq ⟨fun name _ => Context.read_insert_nil h name, fun _ _ => rfl,
    fun _ _ _ => Registry.confined_of_get?_builtin⟩

/-- Nil acts as a zero. Compared with a value that is not a list it acts as the zero of that value's type; in
arithmetic it acts as the integer zero; as the operand of a connective or a negation, and as the value of a whole
text, it acts as false. So with the built-in functions alone it makes no difference whether a field is missing or
nil. -/
theorem nil_as_zero :
    (∀ v : Value, v.type ≠ .list → ∃ z, v.type.zero? = some z ∧ z.type = v.type ∧
      ∀ op, Value.SameVerdict op .nil v z v ∧ Value.SameVerdict op v .nil v z) ∧
    (∀ op v, Value.compute op .nil v = Value.compute op (.int 0) v ∧
      Value.compute op v .nil = Value.compute op v (.int 0)) ∧
    Value.nil.negate = (Value.int 0).negate ∧
    (∀ registry context a f, a.eval registry context = .ok .nil → f.eval registry context = .ok (.bool false) →
      (∀ op e, (binary (.logic op) a e).eval registry context = (binary (.logic op) f e).eval registry context ∧
        (binary (.logic op) e a).eval registry context = (binary (.logic op) e f).eval registry context) ∧
      (unary .not a).eval registry context = (unary .not f).eval registry context) ∧
    (∀ registry context s t, evaluate registry s context = .ok .nil → evaluate registry t context = .ok (.bool false) →
      holds registry s (some context) = .ok false ∧ holds registry t (some context) = .ok false) ∧
    ∀ (context : Context) key, context.get? key = none →
      (∀ e : Expr, e.eval .builtin (context.insert key .nil) = e.eval .builtin context) ∧
      ∀ s, evaluate .builtin s (context.insert key .nil) = evaluate .builtin s context ∧
        holds .builtin s (some (context.insert key .nil)) = holds .builtin s (some context) := by
  refine ⟨fun v hv => ?_, Value.compute_nil, rfl, fun registry context a f ha hf => ?_,
    fun registry context s t hs ht => ⟨?_, ?_⟩, fun context key hkey => ?_⟩
  · obtain ⟨z, hz, htype⟩ := ValueType.exists_zero hv
    exact ⟨z, hz, htype, Value.sameVerdict_nil hz⟩
  · exact eval_eq_of_truth (by rw [ha, hf]; rfl)
  · exact holds_of_evaluate hs
  · exact holds_of_evaluate ht
  · have heval := eval_insert_nil hkey
    have hevaluate (s : String) : evaluate .builtin s (context.insert key .nil) = evaluate .builtin s context := by
      simp only [evaluate, heval]
    exact ⟨heval, fun s => ⟨hevaluate s, by simp only [holds, hevaluate]⟩⟩

/-- The age is zero. -/
def ageIsZero : Expr := .binary (.value (.compare .eq)) (.ident "age") (.literal (.int 0))

/-- It is so in the empty record, and therefore in the record with the age nil. -/
theorem nil_as_zero_age :
    SortedMap.get? (SortedMap.empty : Context) "age" = none ∧
      ageIsZero.eval .builtin (SortedMap.empty.insert "age" .nil) = .ok (.bool true) := by
  have hmissing : SortedMap.get? (SortedMap.empty : Context) "age" = none := rfl
  have hempty : ageIsZero.eval .builtin SortedMap.empty = .ok (.bool true) := rfl
  exact ⟨hmissing, ((nil_as_zero.2.2.2.2.2 _ _ hmissing).1 ageIsZero).trans hempty⟩

end Expr

end RecordRules
