import Mathlib.Data.List.Forall2
import RecordRules.Expr.Eval
import RecordRules.Proofs.Names.Mentions

/-!
# What evaluation depends on

Two runs that give the same values to the fields that an expression mentions and hold the same functions under
the names that it calls have the same outcome, value or error. The functions must be *confined*: what they make
of the record and of the registry is what the evaluation of their arguments makes of them. A confined function
may evaluate an argument, the elements of a list, or any other part of an argument, as often as it likes or not
at all; it may also look at the arguments as they are written.

The limit on calls is no concern of functions that evaluate nothing but their arguments: with them the outcome is the
same for every limit.
-/
namespace RecordRules

/-- A tree is a part of itself and of every tree of which it is a part of an operand, argument or item. -/
inductive Expr.Part (p : Expr) : Expr → Prop
  | self : Part p p
  | operand {op : UnaryOp} {e : Expr} : Part p e → Part p (.unary op e)
  | left {op : BinaryOp} {l r : Expr} : Part p l → Part p (.binary op l r)
  | right {op : BinaryOp} {l r : Expr} : Part p r → Part p (.binary op l r)
  | argument {name : String} {args : List Expr} {a : Expr} : a ∈ args → Part p a → Part p (.call name args)
  | item {items : List Expr} {e : Expr} : e ∈ items → Part p e → Part p (.list items)

/-! ## Confined functions -/

/-- An argument in two runs: the same tree, with the same outcome as a whole, for each of its elements if it is
a list, and for each of its parts. -/
structure Argument.Alike (reenter reenter' : Expr → Evaluator) (context context' : Context)
    (a a' : Argument) : Prop where
  tree : a.tree = a'.tree
  value : a.value context = a'.value context'
  elements : Option.Rel (List.Forall₂ fun f g => f context = g context') a.elements a'.elements
  parts : ∀ p, Expr.Part p a.tree → reenter p context = reenter' p context'

/-- The function uses the record and the registry only by evaluating its arguments. -/
def Function.Confined (f : Function) : Prop :=
  ∀ reenter reenter' args args' context context',
    List.Forall₂ (Argument.Alike reenter reenter' context context') args args' →
      f reenter args context = f reenter' args' context'

theorem Function.anyElement_eq {fs gs : List Evaluator} {context context' : Context}
    (h : List.Forall₂ (fun f g => f context = g context') fs gs) (needle : Value) :
    anyElement needle fs context = anyElement needle gs context' := by
  induction h with
  | nil => rfl
  | cons hfg _ ih =>
      rw [anyElement, anyElement, List.any_cons, List.any_cons, hfg]
      exact congrArg _ ih

theorem Function.confined_inArray : Function.inArray.Confined := by
  intro reenter reenter' args args' context context' h
  match args, args', h with
  | [], [], _ => rfl
  | [_], [_], _ => rfl
  | [a, b], [a', b'], .cons ha (.cons hb .nil) =>
      have helements := hb.elements
      simp only [inArray]
      cases hb : b.elements with
      | none =>
          rw [hb] at helements
          cases hb' : b'.elements with
          | none => rfl
          | some gs => exact nomatch hb' ▸ helements
      | some fs =>
          rw [hb] at helements
          cases hb' : b'.elements with
          | none => exact nomatch hb' ▸ helements
          | some gs =>
              rw [hb', Option.rel_some_some] at helements
              simp only [ha.value, anyElement_eq helements]
  | a :: b :: c :: rest, a' :: b' :: c' :: rest', h =>
      have hlength := h.length_eq
      simp only [inArray, hlength]

theorem Registry.eq_inArray_of_get?_builtin {name : String} {f : Function} (h : builtin.get? name = some f) :
    f = Function.inArray := by
  by_cases hname : name = "in_array"
  · rw [hname, builtin, get?_register_self] at h
    exact (Option.some.inj h).symm
  · rw [builtin, get?_register_of_ne _ _ hname] at h
    exact nomatch h

theorem Registry.confined_of_get?_builtin {name : String} {f : Function} (h : builtin.get? name = some f) :
    f.Confined := eq_inArray_of_get?_builtin h ▸ Function.confined_inArray

/-! ## Two runs -/

namespace Context

theorem read_insert_of_ne (c : Context) {key other : String} (v : Value) (h : other ≠ key) :
    Context.read (c.insert key v) other = c.read other := by
  rw [read, read, SortedMap.get?_insert_of_ne c v h]

theorem read_erase_of_ne (c : Context) {key other : String} (h : other ≠ key) :
    Context.read (c.erase key) other = c.read other := by
  rw [read, read, SortedMap.get?_erase_of_ne c h]

end Context

namespace Expr

theorem Part.trans {p q e : Expr} (hpq : Part p q) (hqe : Part q e) : Part p e := by
  induction hqe with
  | self => exact hpq
  | operand _ ih => exact .operand ih
  | left _ ih => exact .left ih
  | right _ ih => exact .right ih
  | argument ha _ ih => exact .argument ha ih
  | item he _ ih => exact .item he ih

theorem Part.mentions {p e : Expr} (h : Part p e) : ∀ name ∈ p.mentions, name ∈ e.mentions := by
  induction h with
  | self => exact fun _ hn => hn
  | operand _ ih => exact ih
  | left _ ih => exact fun name hn => List.mem_append_left _ (ih name hn)
  | right _ ih => exact fun name hn => List.mem_append_right _ (ih name hn)
  | argument ha _ ih => exact fun name hn => mem_allMentions.2 ⟨_, ha, ih name hn⟩
  | item he _ ih => exact fun name hn => mem_allMentions.2 ⟨_, he, ih name hn⟩

theorem Part.called {p e : Expr} (h : Part p e) : ∀ name ∈ p.called, name ∈ e.called := by
  induction h with
  | self => exact fun _ hn => hn
  | operand _ ih => exact ih
  | left _ ih => exact fun name hn => List.mem_append_left _ (ih name hn)
  | right _ ih => exact fun name hn => List.mem_append_right _ (ih name hn)
  | argument ha _ ih => exact fun name hn => List.mem_cons_of_mem _ (mem_allCalled.2 ⟨_, ha, ih name hn⟩)
  | item he _ ih => exact fun name hn => mem_allCalled.2 ⟨_, he, ih name hn⟩

/-- The runs agree on all that a tree names: on the fields that it mentions, and on the functions that it calls,
which are confined. -/
structure Agree (registry registry' : Registry) (context context' : Context) (e : Expr) : Prop where
  fields : ∀ name ∈ e.mentions, context.read name = context'.read name
  functions : ∀ name ∈ e.called, registry.get? name = registry'.get? name
  confined : ∀ name ∈ e.called, ∀ f, registry.get? name = some f → f.Confined

theorem Agree.part {registry registry' : Registry} {context context' : Context} {p e : Expr}
    (h : Agree registry registry' context context' e) (hp : Part p e) :
    Agree registry registry' context context' p where
  fields name hn := h.fields name (hp.mentions name hn)
  functions name hn := h.functions name (hp.called name hn)
  confined name hn := h.confined name (hp.called name hn)

/-- A tree as the argument of a call. -/
def asArgument (env : Environment) (e : Expr) : Argument := ⟨e, e.evalIn env, e.elements env⟩

theorem arguments_eq_map (env : Environment) (es : List Expr) : arguments env es = es.map (asArgument env) := by
  induction es with
  | nil => rfl
  | cons e rest ih => rw [arguments, ih, List.map_cons, asArgument]

theorem evaluators_eq_map (env : Environment) (es : List Expr) :
    evaluators env es = es.map fun e => e.evalIn env := by
  induction es with
  | nil => rfl
  | cons e rest ih => rw [evaluators, ih, List.map_cons]

theorem forall₂_map {α β γ : Type} {R : β → γ → Prop} {f : α → β} {g : α → γ} {xs : List α}
    (h : ∀ x ∈ xs, R (f x) (g x)) : List.Forall₂ R (xs.map f) (xs.map g) :=
  List.forall₂_map_left_iff.2 (List.forall₂_map_right_iff.2 (List.forall₂_same.2 h))

section
variable {env env' : Environment} {context context' : Context}

theorem evalAll_eq {es : List Expr} (h : ∀ e ∈ es, e.evalIn env context = e.evalIn env' context') :
    evalAll env es context = evalAll env' es context' := by
  induction es with
  | nil => rfl
  | cons e rest ih =>
      obtain ⟨he, hrest⟩ := List.forall_mem_cons.1 h
      rw [evalAll, evalAll, he, ih hrest]

/-- One run of the evaluator proper. A part of the tree may be entered anew, so that the evaluators for other
trees must agree on it. -/
theorem alike (env env' : Environment) {e : Expr} (h : Agree env.registry env'.registry context context' e)
    (hreenter : ∀ p, Part p e → env.reenter p context = env'.reenter p context') :
    Argument.Alike env.reenter env'.reenter context context' (e.asArgument env) (e.asArgument env') := by
  -- With the value of a tree the induction carries the values of its elements, which a call may ask for.
  induction e using Expr.induction with
  | literal v => exact ⟨rfl, rfl, .none, hreenter⟩
  | ident name =>
      have hread := h.fields name (List.mem_singleton_self name)
      exact ⟨rfl, congrArg Except.ok hread, .none, hreenter⟩
  | unary op operand ih =>
      have hoperand := (ih (h.part (.operand .self)) fun p hp => hreenter p (.operand hp)).value
      refine ⟨rfl, ?_, .none, hreenter⟩
      change operand.evalIn env context = operand.evalIn env' context' at hoperand
      change (unary op operand).evalIn env context = (unary op operand).evalIn env' context'
      rw [evalIn, evalIn, hoperand]
  | binary op left right ihl ihr =>
      have hleft := (ihl (h.part (.left .self)) fun p hp => hreenter p (.left hp)).value
      have hright := (ihr (h.part (.right .self)) fun p hp => hreenter p (.right hp)).value
      refine ⟨rfl, ?_, .none, hreenter⟩
      change left.evalIn env context = left.evalIn env' context' at hleft
      change right.evalIn env context = right.evalIn env' context' at hright
      change (binary op left right).evalIn env context = (binary op left right).evalIn env' context'
      cases op with
      | value op => rw [evalIn, evalIn, hleft, hright]
      | logic op => rw [evalIn, evalIn, hleft, hright]
  | call name args ih =>
      have hargs : ∀ a ∈ args, Argument.Alike env.reenter env'.reenter context context'
          (a.asArgument env) (a.asArgument env') := fun a ha =>
        ih a ha (h.part (.argument ha .self)) fun p hp => hreenter p (.argument ha hp)
      refine ⟨rfl, ?_, .none, hreenter⟩
      change (call name args).evalIn env context = (call name args).evalIn env' context'
      rw [evalIn, evalIn, ← h.functions name List.mem_cons_self, arguments_eq_map, arguments_eq_map]
      cases hf : env.registry.get? name with
      | none => rfl
      | some f => exact h.confined name List.mem_cons_self f hf _ _ _ _ _ _ (forall₂_map hargs)
  | list items ih =>
      have hitems : ∀ e ∈ items, e.evalIn env context = e.evalIn env' context' := fun e he =>
        (ih e he (h.part (.item he .self)) fun p hp => hreenter p (.item he hp)).value
      refine ⟨rfl, ?_, ?_, hreenter⟩
      · change (list items).evalIn env context = (list items).evalIn env' context'
        rw [evalIn, evalIn, evalAll_eq hitems]
      · change Option.Rel _ ((list items).elements env) ((list items).elements env')
        rw [elements, elements, evaluators_eq_map, evaluators_eq_map]
        exact .some (forall₂_map hitems)

end

theorem evalWithin_eq {registry registry' : Registry} {context context' : Context} {e : Expr} {n : Nat}
    (h : Agree registry registry' context context' e) :
    e.evalWithin registry n context = e.evalWithin registry' n context' := by
  induction n generalizing e with
  | zero =>
      let env (r : Registry) : Environment := ⟨r, fun _ _ => .error .tooManyCalls⟩
      exact (alike (env registry) (env registry') h fun _ _ => rfl).value
  | succ n ih =>
      let env (r : Registry) : Environment := ⟨r, evalWithin r n⟩
      exact (alike (env registry) (env registry') h fun p hp => ih (h.part hp)).value

theorem eval_eq {registry registry' : Registry} {context context' : Context} {e : Expr}
    (h : Agree registry registry' context context' e) :
    e.eval registry context = e.eval registry' context' := evalWithin_eq h

/-- Two runs have the same outcome if they give the same values to the fields that the tree mentions and hold
the same functions, confined ones, under the names that it calls. So neither a field that is not mentioned,
were it the name of a function, nor a function that is not called matters. -/
theorem eval_eq_of_names {registry registry' : Registry} {context context' : Context} {e : Expr}
    (hfields : ∀ name ∈ e.identifiers, context.read name = context'.read name)
    (hfunctions : ∀ name ∈ e.called, registry.get? name = registry'.get? name)
    (hconfined : ∀ name ∈ e.called, ∀ f, registry.get? name = some f → f.Confined) :
    e.eval registry context = e.eval registry' context' ∧
      (∀ key v, key ∉ e.identifiers → e.eval registry (context.insert key v) = e.eval registry context) ∧
      (∀ key, key ∉ e.identifiers → e.eval registry (context.erase key) = e.eval registry context) ∧
      ∀ name f, name ∉ e.called → e.eval (registry.register name f) context = e.eval registry context := by
  have hread {c c' : Context} (h : ∀ name ∈ e.identifiers, c.read name = c'.read name) :
      ∀ name ∈ e.mentions, c.read name = c'.read name := fun name hn => h name (mem_identifiers.2 hn)
  refine ⟨eval_eq ⟨hread hfields, hfunctions, hconfined⟩, ?_, ?_, ?_⟩
  · intro key v hkey
    have hinsert : ∀ name ∈ e.identifiers, context.read name = Context.read (context.insert key v) name :=
      fun name hn => (context.read_insert_of_ne v (ne_of_mem_of_not_mem hn hkey)).symm
    exact (eval_eq ⟨hread hinsert, fun _ _ => rfl, hconfined⟩).symm
  · intro key hkey
    have herase : ∀ name ∈ e.identifiers, context.read name = Context.read (context.erase key) name :=
      fun name hn => (context.read_erase_of_ne (ne_of_mem_of_not_mem hn hkey)).symm
    exact (eval_eq ⟨hread herase, fun _ _ => rfl, hconfined⟩).symm
  · intro name f hname
    have hregister : ∀ other ∈ e.called, registry.get? other = (registry.register name f).get? other :=
      fun other hn => (registry.get?_register_of_ne f (ne_of_mem_of_not_mem hn hname)).symm
    exact (eval_eq ⟨fun _ _ => rfl, hregister, hconfined⟩).symm

/-- Older than 43, and of one of the tiers. -/
def seniorOfTier : Expr :=
  .binary (.logic .and) (.binary (.value (.compare .gt)) (.ident "age") (.literal (.int 43)))
    (.call "in_array" [.ident "tier", .list [.literal (.str "gold"), .literal (.str "platinum")]])

def goldMember : Context := SortedMap.ofList [("age", .int 50), ("tier", .str "gold")]

/-- The same record with a field that is named like the function. -/
def shadowingMember : Context := goldMember.insert "in_array" (.bool true)

/-- The built-in functions and one more. -/
def largerRegistry : Registry := Registry.builtin.register "member" .inArray

theorem eval_eq_of_names_seniorOfTier :
    (∀ name ∈ seniorOfTier.identifiers, goldMember.read name = shadowingMember.read name) ∧
      (∀ name ∈ seniorOfTier.called, Registry.builtin.get? name = largerRegistry.get? name) ∧
      seniorOfTier.eval .builtin goldMember = .ok (.bool true) ∧
      seniorOfTier.eval .builtin goldMember = seniorOfTier.eval largerRegistry shadowingMember := by
  have hfields : ∀ name ∈ seniorOfTier.identifiers, goldMember.read name = shadowingMember.read name := by
    change ∀ name ∈ ["age", "tier"], _
    simp only [List.forall_mem_cons]
    exact ⟨rfl, rfl, nofun⟩
  have hfunctions : ∀ name ∈ seniorOfTier.called, Registry.builtin.get? name = largerRegistry.get? name := by
    change ∀ name ∈ ["in_array"], _
    simp only [List.forall_mem_cons]
    exact ⟨rfl, nofun⟩
  exact ⟨hfields, hfunctions, rfl,
    (eval_eq_of_names hfields hfunctions fun _ _ _ => Registry.confined_of_get?_builtin).1⟩

end Expr

/-! ## The limit on calls -/

/-- The function evaluates nothing but its arguments, so that it brings no evaluations inside each other about. -/
def Function.Direct (f : Function) : Prop :=
  ∀ reenter reenter' args context, f reenter args context = f reenter' args context

/-- All functions of the registry evaluate nothing but their arguments. -/
def Registry.Direct (registry : Registry) : Prop := ∀ name f, registry.get? name = some f → f.Direct

theorem Registry.direct_builtin : builtin.Direct := by
  intro name f h
  rw [eq_inArray_of_get?_builtin h]
  exact fun _ _ _ _ => rfl

namespace Expr

variable {registry : Registry}

theorem asArgument_eq_of_direct (h : registry.Direct) (reenter reenter' : Expr → Evaluator) (e : Expr) :
    e.asArgument ⟨registry, reenter⟩ = e.asArgument ⟨registry, reenter'⟩ := by
  -- As in `alike`, a call may ask for the elements of an argument beside its value.
  have same {e : Expr} (hvalue : e.evalIn ⟨registry, reenter⟩ = e.evalIn ⟨registry, reenter'⟩)
      (helements : e.elements ⟨registry, reenter⟩ = e.elements ⟨registry, reenter'⟩) :
      e.asArgument ⟨registry, reenter⟩ = e.asArgument ⟨registry, reenter'⟩ := by
    rw [asArgument, asArgument, hvalue, helements]
  induction e using Expr.induction with
  | literal v => rfl
  | ident name => rfl
  | unary op operand ih =>
      have hoperand := congrArg Argument.value ih
      change operand.evalIn _ = operand.evalIn _ at hoperand
      refine same (funext fun context => ?_) rfl
      rw [evalIn, evalIn, hoperand]
  | binary op left right ihl ihr =>
      have hleft := congrArg Argument.value ihl
      have hright := congrArg Argument.value ihr
      change left.evalIn _ = left.evalIn _ at hleft
      change right.evalIn _ = right.evalIn _ at hright
      refine same (funext fun context => ?_) rfl
      cases op with
      | value op => rw [evalIn, evalIn, hleft, hright]
      | logic op => rw [evalIn, evalIn, hleft, hright]
  | call name args ih =>
      have hargs : arguments ⟨registry, reenter⟩ args = arguments ⟨registry, reenter'⟩ args := by
        rw [arguments_eq_map, arguments_eq_map]
        exact List.map_congr_left ih
      refine same (funext fun context => ?_) rfl
      rw [evalIn, evalIn, hargs]
      cases hf : registry.get? name with
      | none => rfl
      | some f => exact h name f hf _ _ _ _
  | list items ih =>
      have hitems : ∀ e ∈ items, e.evalIn ⟨registry, reenter⟩ = e.evalIn ⟨registry, reenter'⟩ :=
        fun e he => congrArg Argument.value (ih e he)
      refine same (funext fun context => ?_) ?_
      · rw [evalIn, evalIn, evalAll_eq fun e he => congrFun (hitems e he) context]
      · rw [elements, elements, evaluators_eq_map, evaluators_eq_map, List.map_congr_left hitems]

/-- The limit on calls concerns only functions that evaluate text of their own. Without such functions evaluation is
the same with any other limit. -/
theorem evalWithin_eq_eval (h : registry.Direct) (n : Nat) (e : Expr) :
    e.evalWithin registry n = e.eval registry := by
  cases n with
  | zero => exact congrArg Argument.value (asArgument_eq_of_direct h _ _ e)
  | succ n => exact congrArg Argument.value (asArgument_eq_of_direct h _ _ e)

end Expr

end RecordRules
