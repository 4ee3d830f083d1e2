import RecordRules.Proofs.Condition.Text
import RecordRules.Proofs.Grammar.FieldNames

/-!
# Exported fields

A condition reports the fields of its leaves, and the tree that its text is read as mentions the fields that are written
there. The two are found in different ways, the first on the condition and the second in the tokens of the text. A
text value writes no field, whatever it looks like. Under `NOT` only the last child is written, while the fields of all
children are reported. Otherwise the fields are the same and in the same order.
-/
namespace RecordRules

open Grammar Number
open Token (Lexes fieldNames fieldNames_append fieldNames_field fieldNames_symbol fieldNames_word opens)

/-! ## Texts -/

/-- The text has tokens, among which these names are the fields whatever follows. -/
def Spells (cs : List Char) (names : List String) : Prop :=
  ∃ ts, Lexes cs ts ∧ ∀ us, fieldNames (ts ++ us) = names ++ fieldNames us

theorem opens_operator (op : BinaryOp) (ts : List Token) : opens (.symbol (Token.operator op) :: ts) = false := by
  rcases op with (c | a) | c
  · cases c <;> rfl
  · cases a <;> rfl
  · cases c <;> rfl

namespace Spells

variable {cs ds : List Char} {names more : List String}

theorem empty : Spells [] [] := ⟨[], .nil, fun _ => rfl⟩

theorem bang (h : Spells cs names) : Spells ('!' :: cs) names := by
  obtain ⟨ts, hlex, hnames⟩ := h
  exact ⟨_, hlex.bang, hnames⟩

theorem signed (h : Spells cs names) (negative : Bool) : Spells (if negative then '-' :: cs else cs) names := by
  obtain ⟨ts, hlex, hnames⟩ := h
  cases negative with
  | false => exact ⟨_, hlex, hnames⟩
  | true => exact ⟨_, hlex.minus, hnames⟩

theorem parens (h : Spells cs names) : Spells ('(' :: cs ++ [')']) names := by
  obtain ⟨ts, hlex, hnames⟩ := h
  refine ⟨_, hlex.parens, fun us => ?_⟩
  rw [List.append_assoc]
  exact hnames _

theorem gap (h : Spells cs names) : Spells (' ' :: cs) names := by
  obtain ⟨ts, hlex, hnames⟩ := h
  exact ⟨_, hlex.gap, hnames⟩

theorem blank (hcs : Spells cs names) (hds : Spells ds more) : Spells (cs ++ ' ' :: ds) (names ++ more) := by
  obtain ⟨ts, hlex, hnames⟩ := hcs
  obtain ⟨ts', hlex', hmore⟩ := hds
  refine ⟨_, hlex.blank hlex', fun us => ?_⟩
  rw [List.append_assoc, hnames, hmore, List.append_assoc]

theorem operation (hcs : Spells cs names) (op : BinaryOp) (hds : Spells ds more) :
    Spells (cs ++ ' ' :: op.symbol.toList ++ ' ' :: ds) (names ++ more) := by
  obtain ⟨ts, hlex, hnames⟩ := hcs
  obtain ⟨ts', hlex', hmore⟩ := hds
  refine ⟨_, hlex.operation op hlex', fun us => ?_⟩
  rw [List.append_assoc, hnames, List.cons_append, fieldNames_symbol, hmore, List.append_assoc]

/-- Two texts with a connector between them. -/
theorem connected (hcs : Spells cs names) (connector : Connector) (hds : Spells ds more) :
    Spells (cs ++ ' ' :: connector.symbol.toList ++ ' ' :: ds) (names ++ more) := by
  cases connector with
  | and => exact hcs.operation (.logic .and) hds
  | or => exact hcs.operation (.logic .or) hds
  | not => simpa [Connector.symbol] using hcs.blank hds.gap.bang
  | blank => simpa [Connector.symbol] using hcs.blank hds.gap

/-- The literal form of a scalar names no field: texts are tokens of their own, and truth values are words. -/
theorem of_isScalar {v : Value} (h : v.IsScalar) : Spells v.chars [] := by
  cases v with
  | nil => exact h.elim
  | list items => exact h.elim
  | bool b =>
      have hword {name : String} {v : Value} (hname : Token.IsName name.toList) (hv : word? name = some v) :
          Spells name.toList [] := ⟨_, .name hname, fun _ => fieldNames_word hv⟩
      cases b with
      | true => exact @hword "true" (.bool true) (Token.isName_of_chars rfl (by decide)) rfl
      | false => exact @hword "false" (.bool false) (Token.isName_of_chars rfl (by decide)) rfl
  | int n =>
      have hdigits : Spells (Nat.toDigits 10 n.toInt.natAbs) [] := by
        refine ⟨_, Token.Lexes.whole _, fun us => ?_⟩
        unfold Token.ofWhole
        split_ifs <;> rfl
      have hsigned := hdigits.signed (decide (n.toInt < 0))
      simpa only [Value.chars, intText, decide_eq_true_eq] using hsigned
  | float x =>
      have hfinite : x.isFinite = true := h
      have hmagnitude : Spells (magnitudeText .plain (pattern x)) [] := by
        rcases Token.Lexes.magnitude (pattern_lt_infinity h) with ⟨-, n, -, -, -, hlex⟩ | ⟨-, -, hlex⟩
        · exact ⟨_, hlex, fun _ => rfl⟩
        · exact ⟨_, hlex, fun _ => rfl⟩
      rw [Value.chars, floatChars, isNaN_of_isFinite h, if_neg Bool.false_ne_true, if_pos hfinite]
      exact hmagnitude.signed (isNegative x)
  | str s => exact ⟨_, .literal s, fun _ => rfl⟩

/-- The tokens of a field are followed by an operator, so that a name at their end stands for itself. -/
theorem leaf {field : String} {ts : List Token} (h : Lexes field.toList ts) (op : ValueOp) {v : Value}
    (hv : v.IsScalar) : Spells (Condition.render (.leaf op field v)).text.toList (Expr.fieldNames field) := by
  obtain ⟨ts', hlex, hnone⟩ := of_isScalar hv
  have hoperation := h.operation (.value op) hlex
  refine ⟨ts ++ .symbol (Token.operator (.value op)) :: ts', ?_, fun us => ?_⟩
  · simpa [Condition.render, Value.text, BinaryOp.symbol] using hoperation
  · have hop := opens_operator (.value op) (ts' ++ us)
    rw [List.append_assoc, List.cons_append, fieldNames_append ts hop, fieldNames_symbol, hnone,
      Expr.fieldNames_of_tokens h.tokens]
    rfl

theorem negated {f : Fragment} (h : Spells f.text.toList names) : Spells f.negated.text.toList names := by
  unfold Fragment.negated
  split_ifs
  · simpa using h.bang
  · simpa using h.parens.bang

theorem pair {f g : Fragment} (hf : Spells f.text.toList names) (connector : Connector)
    (hg : Spells g.text.toList more) : Spells (Fragment.pair connector f g).text.toList (names ++ more) := by
  simpa [Fragment.pair] using (hf.connected connector hg).parens

end Spells

/-! ## Conditions -/

/-- What a group keeps of the names before a child. -/
def Connector.kept : Connector → List String → List String
  | .not, _ => []
  | .and, names | .or, names | .blank, names => names

/-- What stands before a child, if anything, spells the names. -/
def SpellsBefore (before : Option Fragment) (names : List String) : Prop :=
  before.elim (names = []) fun f => Spells f.text.toList names

theorem SpellsBefore.join {connector : Connector} {before : Option Fragment} {f : Fragment} {names more : List String}
    (hbefore : SpellsBefore before names) (hf : Spells f.text.toList more) :
    Spells (Fragment.join connector before f).text.toList (connector.kept names ++ more) := by
  cases before with
  | none =>
      obtain rfl : names = [] := hbefore
      cases connector with
      | not => exact hf.negated
      | and | or | blank => exact hf
  | some f =>
      have hbefore : Spells f.text.toList names := hbefore
      cases connector with
      | not => exact hf.negated
      | and => exact hbefore.pair .and hf
      | or => exact hbefore.pair .or hf
      | blank => exact hbefore.pair .blank hf

namespace Condition

mutual
/-- The names of fields that the text of a condition is made of. -/
def written : Condition → List String
  | leaf _ field _ => Expr.fieldNames field
  | group connector children => writtenAfter connector [] children
termination_by structural c => c

/-- The names of fields in the text of a group, given those in front of some of its children. -/
def writtenAfter (connector : Connector) (before : List String) : List Condition → List String
  | [] => before
  | c :: rest => writtenAfter connector (connector.kept before ++ c.written) rest
termination_by structural cs => cs
end

/-- The text of every field has tokens, and can stand behind other text. -/
def IsCut (c : Condition) : Prop := ∀ field ∈ c.leafFields, ∃ ts, Lexes field.toList ts

theorem spellsBefore_renderAll {connector : Connector} {cs : List Condition}
    (hcs : ∀ c ∈ cs, Spells c.render.text.toList c.written) {before : Option Fragment} {ns : List String}
    (hbefore : SpellsBefore before ns) :
    SpellsBefore (renderAll connector before cs) (writtenAfter connector ns cs) := by
  induction cs generalizing before ns with
  | nil => exact hbefore
  | cons c rest ih =>
      obtain ⟨hc, hrest⟩ := List.forall_mem_cons.1 hcs
      exact ih hrest (hbefore.join hc)

/-- The text of a condition spells the names that are written in it. -/
theorem spells_render {c : Condition} (hread : c.IsRead) (hcut : c.IsCut) :
    Spells c.render.text.toList c.written := by
  induction c using Condition.induction with
  | leaf op field value =>
      obtain ⟨ts, hlex⟩ := hcut field List.mem_cons_self
      exact .leaf hlex op hread
  | group connector children ih =>
      obtain ⟨-, hread⟩ := every_group.1 hread
      have hchildren : ∀ c ∈ children, Spells c.render.text.toList c.written := by
        intro c hc
        apply ih c hc (hread c hc)
        intro field hfield
        exact hcut field (mem_allLeafFields.2 ⟨c, hc, hfield⟩)
      have hnone : SpellsBefore none [] := rfl
      have hall := @spellsBefore_renderAll connector children hchildren _ _ hnone
      rw [render, written]
      cases hrender : renderAll connector none children with
      | none =>
          rw [hrender] at hall
          rw [show writtenAfter connector [] children = [] from hall]
          exact .empty
      | some f =>
          rw [hrender] at hall
          exact hall

/-- The tree of the text mentions the names that are written in it. -/
theorem mentions_eq_written {c : Condition} {text : String} {e : Expr} (hread : c.IsRead) (hcut : c.IsCut)
    (htext : c.compiled = .ok text) (hparse : Expr.parse text = .ok e) : e.mentions = c.written := by
  have hrender : c.render.text = text := by
    unfold compiled at htext
    split_ifs at htext
    exact Except.ok.inj htext
  obtain ⟨ts, hlex, hnames⟩ := spells_render hread hcut
  rw [hrender] at hlex
  have hall := hnames []
  rw [List.append_nil] at hall
  rw [Expr.mentions_eq_fieldNames hparse, Expr.fieldNames_of_tokens hlex.tokens, hall]
  exact List.append_nil _

/-! ## What is written and what is reported -/

theorem mem_of_mem_writtenAfter {connector : Connector} {before : List String} {cs : List Condition} {name : String}
    (h : name ∈ writtenAfter connector before cs) : name ∈ before ∨ ∃ c ∈ cs, name ∈ c.written := by
  induction cs generalizing before with
  | nil => exact .inl h
  | cons c rest ih =>
      have hkept : connector.kept before ⊆ before := by
        cases connector with
        | not => exact List.nil_subset _
        | and | or | blank => exact List.Subset.refl _
      rcases ih h with h | ⟨d, hd, h⟩
      · rcases List.mem_append.1 h with h | h
        · exact .inl (hkept h)
        · exact .inr ⟨c, List.mem_cons_self, h⟩
      · exact .inr ⟨d, List.mem_cons_of_mem c hd, h⟩

/-- What is written comes from some leaf. -/
theorem exists_of_mem_written {c : Condition} {name : String} (h : name ∈ c.written) :
    ∃ field ∈ c.leafFields, name ∈ Expr.fieldNames field := by
  induction c using Condition.induction with
  | leaf op field value => exact ⟨field, List.mem_cons_self, h⟩
  | group connector children ih =>
      rcases mem_of_mem_writtenAfter h with h | ⟨c, hc, h⟩
      · exact absurd h List.not_mem_nil
      · obtain ⟨field, hfield, hname⟩ := ih c hc h
        exact ⟨field, mem_allLeafFields.2 ⟨c, hc, hfield⟩, hname⟩

/-- Every group under `NOT` has one child, so that no child is lost. -/
def NegatesOne (c : Condition) : Prop :=
  c.Every (fun _ _ _ => True) fun connector children => connector = .not → children.length = 1

theorem writtenAfter_eq {connector : Connector} (hnot : connector ≠ .not) {cs : List Condition}
    (hcs : ∀ c ∈ cs, c.written = c.leafFields) (before : List String) :
    writtenAfter connector before cs = before ++ allLeafFields cs := by
  have hkept (names : List String) : connector.kept names = names := by
    cases connector with
    | not => exact absurd rfl hnot
    | and | or | blank => rfl
  induction cs generalizing before with
  | nil => exact (List.append_nil _).symm
  | cons c rest ih =>
      obtain ⟨hc, hrest⟩ := List.forall_mem_cons.1 hcs
      rw [writtenAfter, hkept, hc, ih hrest, allLeafFields, List.append_assoc]

theorem fieldNames_of_isField {field : String} (h : IsField field) : Expr.fieldNames field = [field] :=
  (Expr.fieldNames_of_tokens h.1).trans (@fieldNames_field [] field h.word? rfl)

/-- Where no child is lost, the fields of all leaves are written, in their order. -/
theorem written_eq_leafFields {c : Condition} (hfields : ∀ field ∈ c.leafFields, IsField field)
    (h : c.NegatesOne) : c.written = c.leafFields := by
  induction c using Condition.induction with
  | leaf op field value => exact fieldNames_of_isField (hfields field List.mem_cons_self)
  | group connector children ih =>
      obtain ⟨hone, hchildren⟩ := every_group.1 h
      have hall : ∀ c ∈ children, c.written = c.leafFields := by
        intro c hc
        exact ih c hc (fun field hfield => hfields field (mem_allLeafFields.2 ⟨c, hc, hfield⟩)) (hchildren c hc)
      by_cases hnot : connector = .not
      · obtain ⟨c, rfl⟩ := List.length_eq_one_iff.1 (hone hnot)
        obtain rfl := hnot
        rw [leafFields, allLeafFields, allLeafFields, List.append_nil, ← hall c List.mem_cons_self]
        rfl
      · exact writtenAfter_eq hnot hall []

/-- The fields that the tree of the compiled text names are exported. If every `NOT` has one child, then they are the
exported fields, in the same order. -/
theorem identifiers_exported {j : Json} {c : Condition} {text : String} {e : Expr} (hread : ofJson j = .ok c)
    (hfields : ∀ field ∈ c.leafFields, IsField field) (htext : compile j = .ok text)
    (hparse : Expr.parse text = .ok e) :
    ∃ fields, exportFields j = .ok fields ∧ (∀ name ∈ e.identifiers, name ∈ fields) ∧
      (c.NegatesOne → e.identifiers = fields) := by
  have hcompiled : c.compiled = .ok text := by
    rw [compile, hread] at htext
    exact htext
  have hcut : c.IsCut := fun field hfield => ⟨_, .name (hfields field hfield).isName⟩
  have hmentions := mentions_eq_written (isRead_of_ofJson hread) hcut hcompiled hparse
  refine ⟨c.fields, ?_, ?_, ?_⟩
  · rw [exportFields, hread]
    rfl
  · intro name hname
    rw [Expr.mem_identifiers, hmentions] at hname
    obtain ⟨field, hfield, hname⟩ := exists_of_mem_written hname
    rw [fieldNames_of_isField (hfields field hfield)] at hname
    obtain rfl := List.mem_singleton.1 hname
    exact mem_fields.2 hfield
  · intro hone
    rw [Expr.identifiers_eq, hmentions, written_eq_leafFields hfields hone, fields, addFields_eq]

/-- A comparison with the name of another field, as a text, under `NOT`. -/
def notTier : Condition := .group .not [.leaf (.compare .eq) "name" (.str "tier")]

/-- The JSON data of `notTier`. -/
def notTierJson : Json :=
  .object [("children", .array [.object [("field", .string "name"), ("op", .string "EQ"), ("value", .string "tier")]]),
    ("connector", .string "NOT")]

theorem identifiers_exported_notTier :
    ofJson notTierJson = .ok notTier ∧ (∀ field ∈ notTier.leafFields, IsField field) ∧
      compile notTierJson = .ok "!(name == \"tier\")" ∧ Expr.parse "!(name == \"tier\")" = .ok notTier.tree ∧
      notTier.NegatesOne ∧ exportFields notTierJson = .ok notTier.tree.identifiers ∧
      notTier.tree.identifiers = ["name"] := by
  have hread : ofJson notTierJson = .ok notTier := rfl
  have hname : IsField "name" := isField_of_isName (Token.isName_of_chars rfl (by decide)) (by decide)
  have hfields : ∀ field ∈ notTier.leafFields, IsField field := List.forall_mem_singleton.2 hname
  have htext : compile notTierJson = .ok "!(name == \"tier\")" := rfl
  have hparse : Expr.parse "!(name == \"tier\")" = .ok notTier.tree := by
    have hnamed : notTier.IsNamed := ⟨nofun, hname, trivial⟩
    have hshallow : notTier.places.deepest Value.signCost ≤ maxNesting := by decide
    exact (parse_toExpression (isRead_of_ofJson hread) hnamed).trans (if_pos hshallow)
  have hone : notTier.NegatesOne := ⟨fun _ => rfl, trivial, trivial⟩
  obtain ⟨fields, hexport, -, hsame⟩ := identifiers_exported hread hfields htext hparse
  exact ⟨hread, hfields, htext, hparse, hone, hsame hone ▸ hexport, rfl⟩

end Condition

end RecordRules
