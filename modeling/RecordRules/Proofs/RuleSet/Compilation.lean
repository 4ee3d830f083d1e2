import Mathlib.Data.List.Forall2
import RecordRules.Proofs.Condition.Leaf
import RecordRules.RuleSet.Basic

/-!
# Compiling rule sets

A rule set is compiled as a whole or not at all. It is compiled when each of its definitions is valid by itself, and
then to the rules of the definitions in their order. Otherwise the error is that of the first definition which is not
valid, with its position and name. Of the faults that a definition can have, one never comes up: a condition that
compiles has been read, so that its fields can be told.
-/
namespace RecordRules

/-- A condition that compiles tells its fields. -/
theorem Condition.exists_exportFields {j : Json} {text : String} (h : compile j = .ok text) :
    ∃ c, ofJson j = .ok c ∧ c.compiled = .ok text ∧ exportFields j = .ok c.fields := by
  obtain ⟨c, hc, hcompiled⟩ := exists_of_bind_eq_ok h
  refine ⟨c, hc, hcompiled, ?_⟩
  rw [exportFields, hc]
  rfl

/-! ## Definitions -/

namespace RuleDefinition

/-- A definition gives either an expression that is accepted, or a condition that compiles to a text that is accepted,
and not both. -/
inductive IsValid (d : RuleDefinition) : Prop
  | expr {text : String} {e : Expr} (hexpr : d.expr = some text) (hcondition : d.condition = none)
      (hparse : Expr.parse text = .ok e)
  | condition {j : Json} {text : String} {e : Expr} (hexpr : d.expr = none) (hcondition : d.condition = some j)
      (hcompile : Condition.compile j = .ok text) (hparse : Expr.parse text = .ok e)

/-- The rule that a definition yields. -/
inductive Yields (d : RuleDefinition) : Rule → Prop
  | expr {text : String} {e : Expr} (hexpr : d.expr = some text) (hcondition : d.condition = none)
      (hparse : Expr.parse text = .ok e) : Yields d ⟨d.name, text, e.identifiers, d.value.getD d.name⟩
  | condition {j : Json} {text : String} {fields : List String} {e : Expr} (hexpr : d.expr = none)
      (hcondition : d.condition = some j) (hcompile : Condition.compile j = .ok text)
      (hfields : Condition.exportFields j = .ok fields) (hparse : Expr.parse text = .ok e) :
      Yields d ⟨d.name, text, fields, d.value.getD d.name⟩

/-- What is wrong with a definition. -/
inductive Fails (d : RuleDefinition) : RuleFault → Prop
  | expr {text : String} {e : ParseError} (hexpr : d.expr = some text) (hcondition : d.condition = none)
      (hparse : Expr.parse text = .error e) : Fails d (.parse e)
  | compile {j : Json} {e : TreeError} (hexpr : d.expr = none) (hcondition : d.condition = some j)
      (hcompile : Condition.compile j = .error e) : Fails d (.compile e)
  | condition {j : Json} {text : String} {e : ParseError} (hexpr : d.expr = none) (hcondition : d.condition = some j)
      (hcompile : Condition.compile j = .ok text) (hparse : Expr.parse text = .error e) : Fails d (.parse e)
  | twoSources (hexpr : d.expr ≠ none) (hcondition : d.condition ≠ none) : Fails d .twoSources
  | noSource (hexpr : d.expr = none) (hcondition : d.condition = none) : Fails d .noSource

/-- Every definition yields a rule or fails. -/
theorem yields_or_fails (d : RuleDefinition) : (∃ r, d.Yields r) ∨ ∃ fault, d.Fails fault := by
  cases hexpr : d.expr with
  | none =>
      cases hcondition : d.condition with
      | none => exact .inr ⟨_, .noSource hexpr hcondition⟩
      | some j =>
          cases hcompile : Condition.compile j with
          | error e => exact .inr ⟨_, .compile hexpr hcondition hcompile⟩
          | ok text =>
              obtain ⟨c, -, -, hfields⟩ := Condition.exists_exportFields hcompile
              cases hparse : Expr.parse text with
              | error e => exact .inr ⟨_, .condition hexpr hcondition hcompile hparse⟩
              | ok e => exact .inl ⟨_, .condition hexpr hcondition hcompile hfields hparse⟩
  | some text =>
      cases hcondition : d.condition with
      | none =>
          cases hparse : Expr.parse text with
          | error e => exact .inr ⟨_, .expr hexpr hcondition hparse⟩
          | ok e => exact .inl ⟨_, .expr hexpr hcondition hparse⟩
      | some j => exact .inr ⟨_, .twoSources (hexpr ▸ nofun) (hcondition ▸ nofun)⟩

/-- The valid definitions are those that yield a rule. -/
theorem isValid_iff {d : RuleDefinition} : d.IsValid ↔ ∃ r, d.Yields r := by
  constructor
  · intro h
    cases h with
    | expr hexpr hcondition hparse => exact ⟨_, .expr hexpr hcondition hparse⟩
    | condition hexpr hcondition hcompile hparse =>
        obtain ⟨c, -, -, hfields⟩ := Condition.exists_exportFields hcompile
        exact ⟨_, .condition hexpr hcondition hcompile hfields hparse⟩
  · intro ⟨r, h⟩
    cases h with
    | expr hexpr hcondition hparse => exact .expr hexpr hcondition hparse
    | condition hexpr hcondition hcompile _ hparse => exact .condition hexpr hcondition hcompile hparse

end RuleDefinition

/-! ## Single rules -/

namespace Rule

variable {d : RuleDefinition} {r : Rule} {fault : RuleFault}

theorem compile_of_yields (h : d.Yields r) : compile d = .ok r := by
  cases h with
  | expr hexpr hcondition hparse =>
      simp only [compile, source, hexpr, hcondition, hparse]
      rfl
  | condition hexpr hcondition hcompile hfields hparse =>
      simp only [compile, source, hexpr, hcondition, hcompile, hfields, Except.mapError, bind, Except.bind, hparse]

theorem compile_of_fails (h : d.Fails fault) : compile d = .error fault := by
  cases h with
  | expr hexpr hcondition hparse =>
      simp only [compile, source, hexpr, hcondition, hparse]
      rfl
  | compile hexpr hcondition hcompile =>
      simp only [compile, source, hexpr, hcondition, hcompile]
      rfl
  | condition hexpr hcondition hcompile hparse =>
      obtain ⟨c, -, -, hfields⟩ := Condition.exists_exportFields hcompile
      simp only [compile, source, hexpr, hcondition, hcompile, hfields, Except.mapError, bind, Except.bind, hparse]
  | twoSources hexpr hcondition =>
      obtain ⟨text, hexpr⟩ := Option.ne_none_iff_exists'.1 hexpr
      obtain ⟨j, hcondition⟩ := Option.ne_none_iff_exists'.1 hcondition
      simp only [compile, source, hexpr, hcondition]
      rfl
  | noSource hexpr hcondition =>
      simp only [compile, source, hexpr, hcondition]
      rfl

theorem compile_eq_ok_iff : compile d = .ok r ↔ d.Yields r := by
  refine ⟨fun h => ?_, compile_of_yields⟩
  rcases d.yields_or_fails with ⟨r', hr'⟩ | ⟨fault, hfault⟩
  · rw [compile_of_yields hr'] at h
    exact Except.ok.inj h ▸ hr'
  · rw [compile_of_fails hfault] at h
    exact nomatch h

theorem compile_eq_error_iff : compile d = .error fault ↔ d.Fails fault := by
  refine ⟨fun h => ?_, compile_of_fails⟩
  rcases d.yields_or_fails with ⟨r, hr⟩ | ⟨fault', hfault'⟩
  · rw [compile_of_yields hr] at h
    exact nomatch h
  · rw [compile_of_fails hfault'] at h
    exact Except.error.inj h ▸ hfault'

/-- What fails is not valid. -/
theorem not_isValid_of_fails (h : d.Fails fault) : ¬d.IsValid := by
  intro hvalid
  obtain ⟨r, hr⟩ := RuleDefinition.isValid_iff.1 hvalid
  exact nomatch (compile_of_yields hr).symm.trans (compile_of_fails h)

end Rule

/-! ## Rule errors -/

/-- A condition whose fields cannot be told is no fault of any definition. -/
theorem RuleDefinition.Fails.ne_fields {d : RuleDefinition} {fault : RuleFault} (h : d.Fails fault) (t : TreeError) :
    fault ≠ .fields t := by
  cases h <;> exact nofun

/-- The text says which rule is at fault, and starts with what happened to it. -/
def RuleError.IsLabelled (e : RuleError) : Prop :=
  ∃ start ∈ ["Error parsing rule ", "Error compiling rule ", "Rule "], ∃ reason,
    e.message = start ++ (toString e.position ++ " ('" ++ e.name ++ "')") ++ reason

theorem RuleError.isLabelled_of_fails {d : RuleDefinition} {e : RuleError} (h : d.Fails e.fault) : e.IsLabelled := by
  obtain ⟨position, name, fault⟩ := e
  cases h with
  | expr _ _ _ | condition _ _ _ _ => exact ⟨"Error parsing rule ", by simp, _, String.append_assoc⟩
  | compile _ _ _ => exact ⟨"Error compiling rule ", by simp, _, String.append_assoc⟩
  | twoSources _ _ | noSource _ _ => exact ⟨"Rule ", by simp, _, rfl⟩

/-! ## Rule sets -/

namespace RuleSet

variable {position : Nat} {ds : List RuleDefinition}

/-- From some position on, the rules are compiled one by one. -/
theorem compileFrom_eq_ok_iff {rs : List Rule} :
    compileFrom position ds = .ok rs ↔ List.Forall₂ RuleDefinition.Yields ds rs := by
  induction ds generalizing position rs with
  | nil =>
      rw [List.forall₂_nil_left_iff, compileFrom, Except.ok.injEq, eq_comm]
  | cons d rest ih =>
      constructor
      · intro h
        obtain ⟨r, hr, h⟩ := exists_of_bind_eq_ok h
        obtain ⟨rs', hrs, h⟩ := exists_of_bind_eq_ok h
        obtain rfl := Except.ok.inj h
        exact .cons (Rule.compile_eq_ok_iff.1 (mapError_eq_ok_iff.1 hr)) (ih.1 hrs)
      · intro h
        cases h with
        | cons hr hrs =>
            rw [compileFrom, Rule.compile_of_yields hr, ih.2 hrs]
            rfl

/-- A definition that yields a rule leaves the error to those behind it. -/
theorem compileFrom_cons_eq_error_iff {d : RuleDefinition} {r : Rule} {e : RuleError} (h : d.Yields r) :
    compileFrom position (d :: ds) = .error e ↔ compileFrom (position + 1) ds = .error e := by
  rw [compileFrom, Rule.compile_of_yields h]
  exact bind_ok_eq_error_iff

/-- From some position on, the first definition that fails is reported. -/
theorem compileFrom_eq_error_iff {e : RuleError} :
    compileFrom position ds = .error e ↔
      ∃ before d after, ds = before ++ d :: after ∧ (∀ b ∈ before, b.IsValid) ∧ d.Fails e.fault ∧
        e.position = position + before.length ∧ e.name = d.name := by
  constructor
  · induction ds generalizing position with
    | nil =>
        intro h
        exact nomatch h
    | cons d rest ih =>
        intro h
        -- a definition that yields a rule joins those in front of the one that is blamed
        rcases d.yields_or_fails with ⟨r, hr⟩ | ⟨fault, hfault⟩
        · obtain ⟨before, d', after, hrest, hbefore, hd', hposition, hname⟩ :=
            ih ((compileFrom_cons_eq_error_iff hr).1 h)
          refine ⟨d :: before, d', after, congrArg _ hrest, ?_, hd', ?_, hname⟩
          · exact List.forall_mem_cons.2 ⟨RuleDefinition.isValid_iff.2 ⟨r, hr⟩, hbefore⟩
          · rw [hposition, List.length_cons]
            omega
        · rw [compileFrom, Rule.compile_of_fails hfault] at h
          obtain rfl := Except.error.inj h
          exact ⟨[], d, rest, rfl, nofun, hfault, rfl, rfl⟩
  · intro ⟨before, d, after, hds, hbefore, hd, hposition, hname⟩
    subst hds
    induction before generalizing position with
    | nil =>
        rw [List.nil_append, compileFrom, Rule.compile_of_fails hd]
        have he : e = ⟨position, d.name, e.fault⟩ := by
          rw [← hname, ← show e.position = position from hposition]
        exact congrArg _ he.symm
    | cons b before ih =>
        obtain ⟨hb, hbefore⟩ := List.forall_mem_cons.1 hbefore
        obtain ⟨r, hr⟩ := RuleDefinition.isValid_iff.1 hb
        rw [List.cons_append, compileFrom_cons_eq_error_iff hr]
        apply ih hbefore
        rw [hposition, List.length_cons]
        omega

/-- The error is about the first definition that is not valid. -/
def Blames (ds : List RuleDefinition) (e : RuleError) : Prop :=
  ∃ before d after, ds = before ++ d :: after ∧ (∀ b ∈ before, b.IsValid) ∧ ¬d.IsValid ∧ d.Fails e.fault ∧
    e.position = before.length + 1 ∧ e.name = d.name

theorem compile_eq_ok_iff {d : RuleSetDefinition} {s : RuleSet} :
    compile d = .ok s ↔ List.Forall₂ RuleDefinition.Yields d.rules s.rules ∧ s.default = d.default := by
  constructor
  · intro h
    obtain ⟨rs, hrules, h⟩ := exists_of_bind_eq_ok h
    obtain rfl := Except.ok.inj h
    exact ⟨compileFrom_eq_ok_iff.1 hrules, rfl⟩
  · intro ⟨hrules, hdefault⟩
    rw [compile, compileFrom_eq_ok_iff.2 hrules, ← hdefault]
    rfl

theorem compile_eq_error_iff {d : RuleSetDefinition} {e : RuleError} : compile d = .error e ↔ Blames d.rules e := by
  have hfrom : compile d = .error e ↔ compileFrom 1 d.rules = .error e := bind_ok_eq_error_iff
  rw [hfrom, compileFrom_eq_error_iff]
  constructor
  · intro ⟨before, r, after, hrules, hbefore, hr, hposition, hname⟩
    exact ⟨before, r, after, hrules, hbefore, Rule.not_isValid_of_fails hr, hr,
      hposition.trans (Nat.add_comm _ _), hname⟩
  · intro ⟨before, r, after, hrules, hbefore, _, hr, hposition, hname⟩
    exact ⟨before, r, after, hrules, hbefore, hr, hposition.trans (Nat.add_comm _ _), hname⟩

theorem exists_compile_eq_ok_iff {d : RuleSetDefinition} :
    (∃ s, compile d = .ok s) ↔ ∀ r ∈ d.rules, r.IsValid := by
  constructor
  · intro ⟨s, h⟩
    have hvalid : List.Forall₂ (fun r rule => r.IsValid ∧ r.Yields rule) d.rules s.rules :=
      (compile_eq_ok_iff.1 h).1.imp fun r rule hr => ⟨RuleDefinition.isValid_iff.2 ⟨rule, hr⟩, hr⟩
    exact ((List.forall₂_and_left _ _).1 hvalid).1
  · intro h
    cases hcompile : compile d with
    | ok s => exact ⟨s, rfl⟩
    | error e =>
        obtain ⟨before, r, after, hrules, -, hr, -⟩ := compile_eq_error_iff.1 hcompile
        have hmem : r ∈ d.rules := hrules ▸ List.mem_append_right before List.mem_cons_self
        exact absurd (h r hmem) hr

/-- A rule set is compiled if and only if each of its definitions is valid, and then to the rules that they yield, in
order. Otherwise the error is that of the first one which is not valid; it says so with the position and the name, and
never complains about the fields of a condition. -/
theorem compile_all_or_blame_first (d : RuleSetDefinition) :
    ((∃ s, compile d = .ok s) ↔ ∀ r ∈ d.rules, r.IsValid) ∧
    (∀ s, compile d = .ok s ↔
      List.Forall₂ RuleDefinition.Yields d.rules s.rules ∧ s.default = d.default) ∧
    (∀ e, compile d = .error e ↔ Blames d.rules e) ∧
    ∀ e, compile d = .error e → e.IsLabelled ∧ ∀ t, e.fault ≠ .fields t := by
  refine ⟨exists_compile_eq_ok_iff, fun s => compile_eq_ok_iff, fun e => compile_eq_error_iff, fun e h => ?_⟩
  obtain ⟨before, r, after, -, -, -, hfails, -⟩ := compile_eq_error_iff.1 h
  exact ⟨RuleError.isLabelled_of_fails hfails, hfails.ne_fields⟩

/-- The text that a condition on one age is compiled to. -/
theorem parse_age : Expr.parse ("age" ++ " > 43") =
    .ok (.binary (.value (.compare .gt)) (.ident "age") (.literal (.int 43))) := by
  have hfield : IsField "age" := isField_of_isName (Token.isName_of_chars rfl (by decide)) (by decide)
  have hscalar : (Value.int 43).IsScalar := trivial
  have htext : Condition.leafText (.compare .gt) "age" (.int 43) = "age" ++ " > 43" := by decide +kernel
  rw [← htext, Condition.parse_leafText (.compare .gt) hfield hscalar]
  rfl

/-- Of three rules, the second and the third are not valid. -/
def twoAtFault : RuleSetDefinition :=
  ⟨[⟨"senior", some ("age" ++ " > 43"), none, none⟩, ⟨"both", some "age", some .null, none⟩,
    ⟨"neither", none, none, none⟩], none⟩

theorem compile_all_or_blame_first_twoAtFault :
    compile twoAtFault = .error ⟨2, "both", .twoSources⟩ ∧ RuleError.IsLabelled ⟨2, "both", .twoSources⟩ ∧
      RuleError.message ⟨2, "both", .twoSources⟩ = "Rule 2 ('both') has both 'expr' and 'condition'" := by
  obtain ⟨-, -, herror, hlabelled⟩ := compile_all_or_blame_first twoAtFault
  have hvalid : ∀ b ∈ [(⟨"senior", some ("age" ++ " > 43"), none, none⟩ : RuleDefinition)], b.IsValid :=
    List.forall_mem_singleton.2 (.expr rfl rfl parse_age)
  have hfails : RuleDefinition.Fails ⟨"both", some "age", some .null, none⟩ .twoSources := .twoSources nofun nofun
  have hcompile : compile twoAtFault = .error ⟨2, "both", .twoSources⟩ :=
    (herror _).2 ⟨_, _, _, rfl, hvalid, Rule.not_isValid_of_fails hfails, hfails, rfl, rfl⟩
  exact ⟨hcompile, (hlabelled _ hcompile).1, by decide +kernel⟩

end RuleSet

end RecordRules
