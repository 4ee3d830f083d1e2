import RecordRules.Proofs.Condition.Exported
import RecordRules.Proofs.Evaluation.Dependence
import RecordRules.Proofs.Names.FirstOccurrence
import RecordRules.Proofs.RuleSet.Compilation

/-!
# The fields that rule sets read

A rule set reports fields for each of its rules: for an expression those that its tree mentions, for a condition
those of its leaves. Evaluation reads what the text of the rule mentions. The field of a leaf goes into that text
as it is, and the names that are read there are reported as long as each of them is the field of some leaf; then
two records that agree on the reported fields are told apart by no rule.
-/
namespace RecordRules

open Grammar
open Token (Lexes)

/-! ## Conditions -/

/-- The names in the tokens, the words of the language apart, are among the given ones. -/
def Token.NamesAmong (names : List String) (ts : List Token) : Prop :=
  ∀ name, .ident name ∈ ts → word? name = none → name ∈ names

open Token (NamesAmong)

theorem Token.NamesAmong.fieldNames_subset {names : List String} {ts : List Token} (h : NamesAmong names ts) :
    fieldNames ts ⊆ names := by
  intro name hname
  obtain ⟨hmem, hword⟩ := mem_of_mem_fieldNames hname
  exact h name hmem hword

namespace Condition

/-- The names in the texts of the fields are fields themselves. -/
def IsCovered (c : Condition) : Prop :=
  ∀ field ∈ c.leafFields, ∃ ts, Expr.tokens field = .ok ts ∧ ts.head? ≠ some (.symbol .eqEq) ∧
    NamesAmong c.leafFields ts

/-- Fields that are names are covered. -/
theorem isCovered_of_isName {c : Condition} (h : ∀ field ∈ c.leafFields, Token.IsName field.toList) :
    c.IsCovered := by
  intro field hfield
  refine ⟨[.ident field], (Lexes.name (h field hfield)).tokens, nofun, ?_⟩
  intro name hname _
  obtain rfl := Token.ident.inj (List.mem_singleton.1 hname)
  exact hfield

/-- The tree of the text mentions no fields but those of the leaves. -/
theorem mentions_subset {c : Condition} {text : String} {e : Expr} (hread : c.IsRead) (hcovered : c.IsCovered)
    (htext : c.compiled = .ok text) (hparse : Expr.parse text = .ok e) : e.mentions ⊆ c.fields := by
  have hcut : c.IsCut := by
    intro field hfield
    obtain ⟨ts, htokens, hstart, -⟩ := hcovered field hfield
    exact ⟨ts, Token.lexes_of_scan (Token.scan_of_tokens htokens) hstart⟩
  intro name hname
  rw [mentions_eq_written hread hcut htext hparse] at hname
  obtain ⟨field, hfield, hname⟩ := exists_of_mem_written hname
  obtain ⟨ts, htokens, -, hnames⟩ := hcovered field hfield
  rw [Expr.fieldNames_of_tokens htokens] at hname
  exact mem_fields.2 (hnames.fieldNames_subset hname)

end Condition

/-! ## Rules -/

/-- The names in the texts of the fields of the rule's condition, if it has one, are fields themselves. -/
def RuleDefinition.IsCovered (d : RuleDefinition) : Prop :=
  ∀ j c, d.condition = some j → Condition.ofJson j = .ok c → c.IsCovered

namespace Rule

/-- The text of a compiled rule is accepted, and what it mentions is reported if the fields are covered. -/
theorem exists_parse_of_compile {d : RuleDefinition} {r : Rule} (h : compile d = .ok r) :
    ∃ e, Expr.parse r.expression = .ok e ∧ (d.IsCovered → e.mentions ⊆ r.fields) := by
  cases compile_eq_ok_iff.1 h with
  | expr _ _ hparse => exact ⟨_, hparse, fun _ name hname => Expr.mem_identifiers.2 hname⟩
  | condition _ hcondition hcompile hfields hparse =>
      refine ⟨_, hparse, fun hcovered => ?_⟩
      obtain ⟨c, hread, hcompiled, hexport⟩ := Condition.exists_exportFields hcompile
      obtain rfl := Except.ok.inj (hexport.symm.trans hfields)
      exact Condition.mentions_subset (Condition.isRead_of_ofJson hread) (hcovered _ c hcondition hread) hcompiled
        hparse

theorem isMatch_of_parse {r : Rule} {e : Expr} (h : Expr.parse r.expression = .ok e) (registry : Registry)
    (context : Context) :
    r.isMatch registry (some context) = (Expr.verdict (e.eval registry context)).toOption.getD false := by
  rw [isMatch, Expr.holds_of_parse h]
  cases Expr.verdict (e.eval registry context) <;> rfl

/-- A rule does not tell records apart that agree on what its text mentions. -/
theorem isMatch_eq {r : Rule} {e : Expr} (h : Expr.parse r.expression = .ok e) {context context' : Context}
    (hagree : ∀ name ∈ e.mentions, context.read name = context'.read name) :
    r.isMatch .builtin (some context) = r.isMatch .builtin (some context') := by
  have heval : e.eval .builtin context = e.eval .builtin context' :=
    Expr.eval_eq ⟨hagree, fun _ _ => rfl, fun _ _ _ => Registry.confined_of_get?_builtin⟩
  rw [isMatch_of_parse h, isMatch_of_parse h, heval]

end Rule

/-! ## Rule sets -/

namespace RuleSet

theorem exists_of_compileFrom {position : Nat} {ds : List RuleDefinition} {rs : List Rule}
    (h : compileFrom position ds = .ok rs) : ∀ r ∈ rs, ∃ d ∈ ds, Rule.compile d = .ok r := by
  have hyields := compileFrom_eq_ok_iff.1 h
  clear h
  induction hyields with
  | nil => exact nofun
  | @cons d r ds rs hr _ ih =>
      intro r' hr'
      rcases List.mem_cons.1 hr' with rfl | hr'
      · exact ⟨d, List.mem_cons_self, Rule.compile_of_yields hr⟩
      · obtain ⟨d', hd', hcompile⟩ := ih r' hr'
        exact ⟨d', List.mem_cons_of_mem d hd', hcompile⟩

theorem mem_fields {s : RuleSet} {name : String} : name ∈ s.fields ↔ ∃ r ∈ s.rules, name ∈ r.fields := by
  rw [fields_eq, List.mem_eraseDups, List.mem_flatMap]

/-- The rule set does not tell two records apart. -/
def SameResults (s : RuleSet) (context context' : Context) : Prop :=
  s.matching .builtin (some context) = s.matching .builtin (some context') ∧
    s.first .builtin (some context) = s.first .builtin (some context')

theorem sameResults_of_isMatch {s : RuleSet} {context context' : Context}
    (h : ∀ r ∈ s.rules, r.isMatch .builtin (some context) = r.isMatch .builtin (some context')) :
    s.SameResults context context' := by
  constructor
  · rw [matching, matching, List.filter_congr h]
  · rw [first, first]
    generalize s.rules = rs at h
    induction rs with
    | nil => rfl
    | cons r rest ih =>
        obtain ⟨hr, hrest⟩ := List.forall_mem_cons.1 h
        rw [firstOf, firstOf, hr, ih hrest]

/-- A rule set does not tell records apart that agree on the fields which its texts mention. It reports all of
these as long as the names in the texts of the fields of its conditions are fields themselves. -/
theorem sameResults_of_fields {d : RuleSetDefinition} {s : RuleSet} (h : compile d = .ok s)
    (context context' : Context) :
    ((∀ r ∈ s.rules, ∀ e, Expr.parse r.expression = .ok e →
      ∀ field ∈ e.identifiers, context.read field = context'.read field) → s.SameResults context context') ∧
    ((∀ r ∈ d.rules, r.IsCovered) →
      (∀ field ∈ s.fields, context.read field = context'.read field) → s.SameResults context context') := by
  obtain ⟨rs, hrules, h⟩ := exists_of_bind_eq_ok h
  obtain rfl := Except.ok.inj h
  have hcompiled := exists_of_compileFrom hrules
  constructor
  · intro hagree
    apply sameResults_of_isMatch
    intro r hr
    obtain ⟨definition, -, hdefinition⟩ := hcompiled r hr
    obtain ⟨e, hparse, -⟩ := Rule.exists_parse_of_compile hdefinition
    apply Rule.isMatch_eq hparse
    intro name hname
    exact hagree r hr e hparse name (Expr.mem_identifiers.2 hname)
  · intro hcovered hagree
    apply sameResults_of_isMatch
    intro r hr
    obtain ⟨definition, hmem, hdefinition⟩ := hcompiled r hr
    obtain ⟨e, hparse, hreported⟩ := Rule.exists_parse_of_compile hdefinition
    apply Rule.isMatch_eq hparse
    intro name hname
    exact hagree name (mem_fields.2 ⟨r, hr, hreported (hcovered definition hmem) hname⟩)

/-- A rule set of one rule, that a field is over 43. -/
def seniors (field : String) : RuleSetDefinition :=
  ⟨[⟨"senior", none, some (Condition.oneLeaf "AND" "GT" field (.number (.int 43))), none⟩], none⟩

/-- What `seniors` compiles to. -/
def compiledSeniors (field : String) : RuleSet := ⟨[⟨"senior", field ++ " > 43", [field], "senior"⟩], none⟩

theorem ofJson_seniors {field : String} (hfield : field ≠ "") :
    Condition.ofJson (Condition.oneLeaf "AND" "GT" field (.number (.int 43))) =
      .ok (.group .and [.leaf (.compare .gt) field (.int 43)]) := by
  have hop : ValueOp.ofName? "GT" = some (.compare .gt) := by decide
  have hvalue : Value.ofJson (.number (.int 43)) = .ok (.int 43) := rfl
  exact Condition.ofJson_oneLeaf hop hfield hvalue trivial

theorem compile_seniors {field : String} {e : Expr} (hfield : field ≠ "")
    (hparse : Expr.parse (field ++ " > 43") = .ok e) : compile (seniors field) = .ok (compiledSeniors field) := by
  have htext : Condition.leafText (.compare .gt) field (.int 43) = field ++ " > 43" := by
    simp only [Condition.leafText, String.append_assoc]
    rfl
  have hcompile : Condition.compile (Condition.oneLeaf "AND" "GT" field (.number (.int 43))) =
      .ok (field ++ " > 43") := by
    rw [Condition.compile, ofJson_seniors hfield, ← htext]
    rfl
  have hexport : Condition.exportFields (Condition.oneLeaf "AND" "GT" field (.number (.int 43))) = .ok [field] := by
    rw [Condition.exportFields, ofJson_seniors hfield]
    rfl
  exact compile_eq_ok_iff.2 ⟨.cons (.condition rfl rfl hcompile hexport hparse) .nil, rfl⟩

def fifty : Context := SortedMap.ofList [("age", .int 50)]

def fiftyOfTier : Context := fifty.insert "tier" (.int 1)

/-- Only `age` is reported, so that `tier` makes no difference. -/
theorem sameResults_of_fields_seniors :
    compile (seniors "age") = .ok (compiledSeniors "age") ∧ (∀ r ∈ (seniors "age").rules, r.IsCovered) ∧
      (∀ field ∈ (compiledSeniors "age").fields, fifty.read field = fiftyOfTier.read field) ∧
      (compiledSeniors "age").SameResults fifty fiftyOfTier := by
  have hne : "age" ≠ "" := by decide
  have hcompile : compile (seniors "age") = .ok (compiledSeniors "age") := compile_seniors hne parse_age
  have hcovered : ∀ r ∈ (seniors "age").rules, r.IsCovered := by
    intro r hr j c hj hc
    obtain rfl := List.mem_singleton.1 hr
    obtain rfl := Option.some.inj hj
    obtain rfl := Except.ok.inj ((ofJson_seniors hne).symm.trans hc)
    apply Condition.isCovered_of_isName
    intro field hfield
    obtain rfl := List.mem_singleton.1 hfield
    exact Token.isName_of_chars rfl (by decide)
  have hagree : ∀ field ∈ (compiledSeniors "age").fields, fifty.read field = fiftyOfTier.read field := by
    intro field hfield
    obtain rfl := List.mem_singleton.1 hfield
    rfl
  exact ⟨hcompile, hcovered, hagree, (sameResults_of_fields hcompile fifty fiftyOfTier).2 hcovered hagree⟩

/-- With a blank in front of it, the field is reported as it is, but `age` is read. -/
theorem not_sameResults_spaced :
    compile (seniors " age") = .ok (compiledSeniors " age") ∧
      (∀ field ∈ (compiledSeniors " age").fields, fifty.read field = Context.read .empty field) ∧
      ¬(compiledSeniors " age").SameResults fifty .empty := by
  have hparse : Expr.parse (" age" ++ " > 43") =
      .ok (.binary (.value (.compare .gt)) (.ident "age") (.literal (.int 43))) := by
    have htext : " age" ++ " > 43" = " " ++ ("age" ++ " > 43") := by decide +kernel
    rw [htext]
    exact Expr.parse_blank_append parse_age
  have hmatch := @Rule.isMatch_of_parse ⟨"senior", " age" ++ " > 43", [" age"], "senior"⟩ _ hparse .builtin
  have hfifty : (compiledSeniors " age").matching .builtin (some fifty) = ["senior"] := by
    rw [matching, compiledSeniors, List.filter_cons, hmatch]
    rfl
  have hempty : (compiledSeniors " age").matching .builtin (some .empty) = [] := by
    rw [matching, compiledSeniors, List.filter_cons, hmatch]
    rfl
  refine ⟨compile_seniors (by decide) hparse, ?_, ?_⟩
  · intro field hfield
    obtain rfl := List.mem_singleton.1 hfield
    rfl
  · rintro ⟨hmatching, -⟩
    rw [hfifty, hempty] at hmatching
    exact nomatch hmatching

end RuleSet

end RecordRules
