import RecordRules.Proofs.Evaluation.Dependence

/-!
# Membership in list literals

What the built-in membership function makes of its arguments. Asked for a value in a list literal it never fails: it
tells whether some element is the value looked for, cast to the type of that element. Order and repetition of the
elements do not matter, nor do elements that fail or are neither integers nor texts. Arguments of another shape are
refused before any of them is evaluated.
-/
namespace RecordRules

/-- An element is the value looked for if that value, cast to the type of the element, is the element. Only integers
and texts are looked for. -/
theorem Function.isElement_iff (needle item : Value) : isElement needle item = true ↔
    (∃ n, item = .int n ∧ needle.cast .int64 = .ok (.int n)) ∨
      ∃ s, item = .str s ∧ needle.cast .string = .ok (.str s) := by
  cases item with
  | nil | bool b | float x | list items => simp [isElement]
  | int n => cases h : needle.toInt64 <;> simp [isElement, Value.cast, h, Except.map]
  | str s => cases h : needle.toText <;> simp [isElement, Value.cast, h, Except.map]

namespace Expr

variable {env : Environment} {context : Context}

/-- The built-in membership function called on trees. -/
def inArray (env : Environment) (args : List Expr) : Evaluator := Function.inArray env.reenter (arguments env args)

/-- The element evaluates to an integer or a text which the value looked for is when it is cast. -/
def IsFound (env : Environment) (context : Context) (needle : Value) (item : Expr) : Prop :=
  (∃ n, item.evalIn env context = .ok (.int n) ∧ needle.cast .int64 = .ok (.int n)) ∨
    ∃ s, item.evalIn env context = .ok (.str s) ∧ needle.cast .string = .ok (.str s)

/-- The element fails, or its value is neither an integer nor a text. -/
def IsSkipped (env : Environment) (context : Context) (item : Expr) : Prop :=
  ∀ v, item.evalIn env context = .ok v → v.type ≠ .int ∧ v.type ≠ .str

theorem IsSkipped.not_isFound {item : Expr} (h : item.IsSkipped env context) (needle : Value) :
    ¬item.IsFound env context needle := by
  rintro (⟨n, hitem, -⟩ | ⟨s, hitem, -⟩)
  · exact (h _ hitem).1 rfl
  · exact (h _ hitem).2 rfl

theorem anyElement_iff (needle : Value) (items : List Expr) :
    Function.anyElement needle (evaluators env items) context = true ↔
      ∃ item ∈ items, item.IsFound env context needle := by
  rw [evaluators_eq_map, Function.anyElement, List.any_map, List.any_eq_true]
  refine exists_congr fun item => and_congr_right fun _ => ?_
  rw [IsFound, Function.comp_apply]
  cases item.evalIn env context with
  | error e => simp
  | ok v => simp [Function.isElement_iff]

/-- Asked for a list literal, membership gives a truth value. -/
theorem exists_inArray_list (env : Environment) (context : Context) (needle : Expr) (items : List Expr) :
    ∃ b, inArray env [needle, .list items] context = .ok (.bool b) ∧
      (b = true ↔ ∃ v, needle.evalIn env context = .ok v ∧ ∃ item ∈ items, item.IsFound env context v) := by
  simp only [inArray, Function.inArray, arguments, elements]
  cases needle.evalIn env context with
  | error e => exact ⟨false, rfl, by simp⟩
  | ok v => exact ⟨_, rfl, by simp [anyElement_iff]⟩

/-- Lists in which the same elements are found give the same result. -/
theorem inArray_congr {needle : Expr} {items items' : List Expr}
    (h : ∀ v, (∃ item ∈ items', item.IsFound env context v) ↔ ∃ item ∈ items, item.IsFound env context v) :
    inArray env [needle, .list items'] context = inArray env [needle, .list items] context := by
  obtain ⟨b, hb, hfound⟩ := exists_inArray_list env context needle items
  obtain ⟨b', hb', hfound'⟩ := exists_inArray_list env context needle items'
  have hbool : b' = b := by
    rw [Bool.eq_iff_iff, hfound, hfound']
    exact exists_congr fun v => and_congr_right fun _ => h v
  rw [hb, hb', hbool]

theorem inArray_perm {needle : Expr} {items items' : List Expr} (h : items'.Perm items) :
    inArray env [needle, .list items'] context = inArray env [needle, .list items] context :=
  inArray_congr fun _ => exists_congr fun _ => and_congr_left fun _ => h.mem_iff

/-- Another element makes no difference if it is there already or is passed over. -/
theorem inArray_insert {needle item : Expr} {before behind : List Expr}
    (h : item ∈ before ++ behind ∨ item.IsSkipped env context) :
    inArray env [needle, .list (before ++ item :: behind)] context =
      inArray env [needle, .list (before ++ behind)] context := by
  apply inArray_congr
  intro v
  constructor
  · rintro ⟨d, hd, hfound⟩
    rcases List.mem_cons.1 (List.perm_middle.mem_iff.1 hd) with rfl | hd
    · exact ⟨d, h.resolve_right fun hskipped => hskipped.not_isFound v hfound, hfound⟩
    · exact ⟨d, hd, hfound⟩
  · rintro ⟨d, hd, hfound⟩
    exact ⟨d, List.perm_middle.mem_iff.2 (List.mem_cons_of_mem item hd), hfound⟩

/-- What is wrong with arguments that are not a value and a list literal. -/
def shapeFault (args : List Expr) : String :=
  if args.length = 2 then "second argument must be a list literal"
  else "expected 2 arguments, got " ++ toString args.length

theorem inArray_of_shape {args : List Expr} (h : ∀ needle items, args ≠ [needle, .list items]) :
    inArray env args context = .error (.invalidArgument "in_array" (shapeFault args)) := by
  match args with
  | [] => rfl
  | [_] => rfl
  | [needle, haystack] =>
      cases haystack with
      | list items => exact absurd rfl (h needle items)
      | literal v | ident name | unary op operand | binary op left right | call name args => rfl
  | a :: b :: c :: rest =>
      have hlength : (a :: b :: c :: rest).length ≠ 2 := by simp
      have hcall : inArray env (a :: b :: c :: rest) context = .error (.invalidArgument "in_array"
          ("expected 2 arguments, got " ++ toString (arguments env (a :: b :: c :: rest)).length)) := rfl
      rw [shapeFault, if_neg hlength, hcall, arguments_eq_map, List.length_map]

/-- Membership of a value in a list literal never fails. It holds if and only if the value can be found and some
element is an integer or a text that this value is when cast. Permuting the elements, repeating one, and adding or
removing one that fails or is of another type change nothing. Any other arguments are refused with an error that says
only how many there are, in every record and with every registry, so that no argument is evaluated. An element fails
here also if functions with text of their own reach the limit on calls. -/
theorem inArray_existential (env : Environment) (context : Context) (needle : Expr) (items : List Expr) :
    (∃ b, inArray env [needle, .list items] context = .ok (.bool b) ∧
      (b = true ↔ ∃ v, needle.evalIn env context = .ok v ∧ ∃ item ∈ items, item.IsFound env context v)) ∧
    (∀ items', items'.Perm items →
      inArray env [needle, .list items'] context = inArray env [needle, .list items] context) ∧
    (∀ before item behind, items = before ++ behind → item ∈ items ∨ item.IsSkipped env context →
      inArray env [needle, .list (before ++ item :: behind)] context = inArray env [needle, .list items] context) ∧
    (∀ args, (∀ needle items, args ≠ [needle, .list items]) → ∀ env context,
      inArray env args context = .error (.invalidArgument "in_array" (shapeFault args))) := by
  refine ⟨exists_inArray_list env context needle items, fun items' => inArray_perm, ?_, ?_⟩
  · rintro before item behind rfl h
    exact inArray_insert h
  · exact fun args h env context => inArray_of_shape h

/-- A quotient by zero, a call of a function that is not there, and two. -/
def partlyFailing : List Expr :=
  [.binary (.value (.compute .div)) (.literal (.int 1)) (.literal (.int 0)), .call "missing" [], .literal (.int 2)]

/-- The text of two is found behind the elements that fail. -/
theorem inArray_existential_partlyFailing :
    (call "in_array" [.ident "c", .list partlyFailing]).eval .builtin (SortedMap.ofList [("c", .str "2")]) =
      .ok (.bool true) := by
  obtain ⟨b, hcall, hfound⟩ :=
    (inArray_existential ⟨.builtin, evalWithin .builtin (callLimit - 1)⟩ (SortedMap.ofList [("c", .str "2")])
      (.ident "c") partlyFailing).1
  have hb : b = true := hfound.2 ⟨.str "2", rfl, .literal (.int 2), by simp [partlyFailing], .inl ⟨2, rfl, rfl⟩⟩
  rw [hb] at hcall
  exact hcall

end Expr

end RecordRules
