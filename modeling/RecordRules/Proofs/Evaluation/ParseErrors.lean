import RecordRules.Expr.Library
import RecordRules.Proofs.Evaluation.Dependence
import RecordRules.Proofs.Evaluation.Text

/-!
# Parse errors while a tree is evaluated

A tree that is evaluated has been parsed already, and none of its operations parses anything. Only a function may
bring along text of its own that is not accepted. As long as no function does, the evaluation of a tree never ends
in a parse error, however deep the functions evaluate further trees.
-/
namespace RecordRules

/-- The outcome is no parse error. -/
def NoParseError {α : Type} (outcome : Except EvalError α) : Prop := ∀ p, outcome ≠ .error (.parse p)

/-- Whether an error is a parse error. -/
def EvalError.isParse : EvalError → Bool
  | parse _ => true
  | _ => false

namespace NoParseError

variable {α β : Type}

theorem ok (a : α) : NoParseError (.ok a) := by
  intro p h
  cases h

theorem error {e : EvalError} (h : e.isParse = false) : NoParseError (.error e : Except EvalError α) := by
  intro p hp
  rw [Except.error.inj hp] at h
  exact Bool.noConfusion h

theorem bind {x : Except EvalError α} {f : α → Except EvalError β} (hx : NoParseError x)
    (hf : ∀ a, NoParseError (f a)) : NoParseError (x >>= f) := by
  cases x with
  | error e =>
      intro p h
      exact hx p (congrArg _ (Except.error.inj h))
  | ok a => exact hf a

theorem map {x : Except EvalError α} (f : α → β) (hx : NoParseError x) : NoParseError (x.map f) := by
  cases x with
  | error e =>
      intro p h
      exact hx p (congrArg _ (Except.error.inj h))
  | ok a => exact ok (f a)

theorem ofCast (x : Except CastError α) : NoParseError (RecordRules.ofCast x) := by
  cases x with
  | error e => exact error rfl
  | ok a => exact ok a

end NoParseError

/-! ## Operations -/

theorem Value.noParseError_negate (v : Value) : NoParseError v.negate := by
  rw [negate]
  split_ifs
  · exact (NoParseError.ofCast _).bind fun x => .ok _
  · exact (NoParseError.ofCast _).bind fun n => .ok _

theorem UnaryOp.noParseError_apply (op : UnaryOp) (v : Value) : NoParseError (op.apply v) := by
  cases op with
  | not => exact (NoParseError.ofCast _).bind fun b => .ok _
  | neg => exact v.noParseError_negate

theorem Arithmetic.noParseError_onInts (op : Arithmetic) (a b : Int64) : NoParseError (op.onInts a b) := by
  cases op with
  | add | sub | mul => exact .ok _
  | div =>
      rw [onInts]
      split_ifs
      · exact .error rfl
      · exact .ok _

theorem Arithmetic.noParseError_onFloats (op : Arithmetic) (x y : Float) : NoParseError (op.onFloats x y) := by
  cases op with
  | add | sub | mul => exact .ok _
  | div =>
      rw [onFloats]
      split_ifs
      · exact .error rfl
      · exact .ok _

theorem Value.noParseError_compute (op : Arithmetic) (l r : Value) : NoParseError (compute op l r) := by
  rw [compute]
  split_ifs
  · exact (NoParseError.ofCast _).bind fun x => (NoParseError.ofCast _).bind fun y => op.noParseError_onFloats x y
  · exact (NoParseError.ofCast _).bind fun a => (NoParseError.ofCast _).bind fun b => op.noParseError_onInts a b

theorem Value.noParseError_compare (op : Comparison) (l r : Value) : NoParseError (compare op l r) := by
  apply (NoParseError.ofCast (ordering l r)).bind
  intro order
  cases op with
  | eq | ne => exact .ok _
  | lt | le | gt | ge =>
      cases order with
      | none => exact .error rfl
      | some o => exact .ok _

theorem Value.noParseError_apply (op : ValueOp) (l r : Value) : NoParseError (apply op l r) := by
  cases op with
  | compare c => exact (noParseError_compare c l r).map _
  | compute a => exact noParseError_compute a l r

/-! ## Functions -/

/-- An argument whose evaluation, as a whole or element by element, never ends in a parse error. -/
structure Argument.ParseFree (a : Argument) : Prop where
  value : ∀ context, NoParseError (a.value context)
  elements : ∀ es ∈ a.elements, ∀ element ∈ es, ∀ context, NoParseError (element context)

/-- An argument that is no list literal has no elements to be evaluated. -/
theorem Argument.ParseFree.of_value {a : Argument} (hnone : a.elements = none)
    (hvalue : ∀ context, NoParseError (a.value context)) : a.ParseFree := by
  refine ⟨hvalue, fun es hes => ?_⟩
  rw [hnone] at hes
  cases hes

/-- The function raises no parse error of its own: it ends in one only if the evaluation of an argument or of
another tree does. -/
def Function.ParseFree (f : Function) : Prop :=
  ∀ reenter args, (∀ e context, NoParseError (reenter e context)) →
    (∀ a ∈ args, a.ParseFree) → ∀ context, NoParseError (f reenter args context)

/-- No function of the registry raises a parse error of its own. -/
def Registry.ParseFree (registry : Registry) : Prop := ∀ name f, registry.get? name = some f → f.ParseFree

namespace Function

theorem parseFree_inArray : inArray.ParseFree := by
  intro reenter args _ _ context
  unfold inArray
  split
  · split
    · split
      · exact .ok _
      · exact .ok _
    · exact .error rfl
  · exact .error rfl

theorem noParseError_bindArguments {args : List Argument} (h : ∀ a ∈ args, a.ParseFree) (context : Context) :
    NoParseError (bindArguments args context) := by
  refine NoParseError.bind ?_ fun values => .ok _
  induction args with
  | nil => exact .ok _
  | cons a rest ih =>
      obtain ⟨ha, hrest⟩ := List.forall_mem_cons.1 h
      rw [List.mapM_cons]
      exact (ha.value context).bind fun v => (ih hrest).bind fun vs => .ok _

/-- A function that is given by an expression text raises a parse error of its own just if the text is not
accepted. -/
theorem parseFree_ofText_iff {text : String} : (ofText text).ParseFree ↔ ∃ e, Expr.parse text = .ok e := by
  constructor
  · intro h
    cases hparse : Expr.parse text with
    | ok e => exact ⟨e, rfl⟩
    | error p =>
        have hfails : ofText text (fun _ _ => .ok .nil) [] .empty = .error (.parse p) := by
          simp only [ofText, Expr.parseToEval, hparse]
          rfl
        exact absurd hfails (h _ [] (fun _ _ => .ok _) (List.forall_mem_nil _) _ p)
  · rintro ⟨e, hparse⟩ reenter args hreenter hargs context
    apply (noParseError_bindArguments hargs context).bind
    intro bound
    simp only [Expr.parseToEval, hparse]
    exact hreenter e bound

end Function

theorem Registry.parseFree_builtin : builtin.ParseFree := fun _ _ h =>
  eq_inArray_of_get?_builtin h ▸ Function.parseFree_inArray

theorem Registry.ParseFree.register {registry : Registry} (h : registry.ParseFree) {f : Function}
    (hf : f.ParseFree) (name : String) : (registry.register name f).ParseFree := by
  intro other g hg
  by_cases hname : other = name
  · rw [hname, get?_register_self] at hg
    obtain rfl := Option.some.inj hg
    exact hf
  · rw [get?_register_of_ne _ _ hname] at hg
    exact h other g hg

/-! ## Trees -/

namespace Expr

variable {env : Environment}

theorem noParseError_evalAll {es : List Expr} {context : Context}
    (h : ∀ e ∈ es, NoParseError (e.evalIn env context)) : NoParseError (evalAll env es context) := by
  induction es with
  | nil => exact .ok _
  | cons e rest ih =>
      obtain ⟨he, hrest⟩ := List.forall_mem_cons.1 h
      rw [evalAll]
      exact he.bind fun v => (ih hrest).bind fun vs => .ok _

/-- One run of the evaluator proper. -/
theorem parseFree_asArgument (hregistry : env.registry.ParseFree)
    (hreenter : ∀ e context, NoParseError (env.reenter e context)) (e : Expr) : (e.asArgument env).ParseFree := by
  -- With the value of a tree the induction carries the values of its elements, which a call may ask for.
  induction e using Expr.induction with
  | literal v => exact .of_value rfl fun _ => .ok _
  | ident name => exact .of_value rfl fun _ => .ok _
  | unary op operand ih =>
      refine .of_value rfl fun context => ?_
      exact (ih.value context).bind op.noParseError_apply
  | binary op left right ihl ihr =>
      refine .of_value rfl fun context => ?_
      have hleft : NoParseError (left.evalIn env context) := ihl.value context
      have hright : NoParseError (right.evalIn env context) := ihr.value context
      change NoParseError ((binary op left right).evalIn env context)
      cases op with
      | value op =>
          rw [evalIn]
          exact hleft.bind fun l => hright.bind fun r => l.noParseError_apply op r
      | logic op =>
          rw [evalIn]
          refine hleft.bind fun v => (NoParseError.ofCast v.toBool).bind fun l => ?_
          split_ifs
          · exact .ok _
          · exact hright.bind fun w => (NoParseError.ofCast w.toBool).bind fun r => .ok _
  | call name args ih =>
      refine .of_value rfl fun context => ?_
      change NoParseError ((call name args).evalIn env context)
      rw [evalIn, arguments_eq_map]
      cases hf : env.registry.get? name with
      | none => exact .error rfl
      | some f =>
          apply hregistry name f hf _ _ hreenter
          intro a ha
          obtain ⟨e, he, rfl⟩ := List.mem_map.1 ha
          exact ih e he
  | list items ih =>
      constructor
      · intro context
        have hitems : ∀ e ∈ items, NoParseError (e.evalIn env context) := fun e he => (ih e he).value context
        exact (noParseError_evalAll hitems).map _
      · intro es hes element helement context
        obtain rfl : evaluators env items = es := Option.some.inj hes
        rw [evaluators_eq_map] at helement
        obtain ⟨e, he, rfl⟩ := List.mem_map.1 helement
        exact (ih e he).value context

theorem noParseError_evalWithin {registry : Registry} (h : registry.ParseFree) (n : Nat) (e : Expr)
    (context : Context) : NoParseError (e.evalWithin registry n context) := by
  induction n generalizing e context with
  | zero =>
      let env : Environment := ⟨registry, fun _ _ => .error .tooManyCalls⟩
      have hstop : ∀ e context, NoParseError (env.reenter e context) := fun _ _ => .error rfl
      exact (parseFree_asArgument h hstop e).value context
  | succ n ih =>
      let env : Environment := ⟨registry, evalWithin registry n⟩
      have hreenter : ∀ e context, NoParseError (env.reenter e context) := ih
      exact (parseFree_asArgument h hreenter e).value context

theorem noParseError_eval {registry : Registry} (h : registry.ParseFree) (e : Expr) (context : Context) :
    NoParseError (e.eval registry context) := noParseError_evalWithin h callLimit e context

/-- Whether an accepted text holds is never answered with a parse error, with a record or without. -/
theorem noParseError_holds {registry : Registry} (h : registry.ParseFree) {s : String} {e : Expr}
    (hparse : parse s = .ok e) (context : Option Context) : NoParseError (holds registry s context) := by
  cases context with
  | none =>
      rw [holds, if_neg (trim_ne_nil_of_parse hparse)]
      exact .ok _
  | some context =>
      rw [holds_of_parse hparse]
      apply (noParseError_eval h e context).bind
      intro v
      cases v.toBool with
      | error _ => exact .error rfl
      | ok b => exact .ok b

end Expr

end RecordRules
