import Mathlib.Data.List.Forall2
import RecordRules.Proofs.Condition.Nodes
import RecordRules.Proofs.Condition.Reader

/-!
# Reading the nodes of a condition tree

What the reader makes of a single node, its children apart: of a well-formed one the parts of the condition, which
mirror the members of the node, of any other the fault of the first check that it fails.
-/
namespace RecordRules.Condition

/-! ## Conditions and nodes -/

/-- What the member `connector` stands for. -/
inductive Connects : Json → Connector → Prop
  | none : Connects .null .blank
  | named (name : String) : Connects (.string name) (.ofName name)

/-- The condition has the parts of the node, a group the children of the node in their order. -/
inductive Mirrors : Condition → Json → Prop
  | leaf {node found : Json} {op : ValueOp} {name field : String} {value : Value} :
      node.member? "children" = none →
      node.member? "op" = some (.string name) → ValueOp.ofName? name = some op →
      node.member? "field" = some (.string field) →
      node.member? "value" = some found → Value.ofJson found = .ok value →
      Mirrors (.leaf op field value) node
  | group {node : Json} {items : List Json} {connector : Connector} {children : List Condition} :
      Connects ((node.member? "connector").getD .null) connector →
      node.member? "children" = some (.array items) → List.Forall₂ Mirrors children items →
      Mirrors (.group connector children) node

theorem Connects.unique {found : Json} {connector connector' : Connector} (h : Connects found connector)
    (h' : Connects found connector') : connector = connector' := by
  cases h with
  | none =>
      cases h'
      rfl
  | named name =>
      cases h'
      rfl

theorem eq_of_forall₂ {α β : Type} {R : α → β → Prop} {xs xs' : List α} {ys : List β}
    (hunique : ∀ x ∈ xs, ∀ x' y, R x y → R x' y → x = x') (h : List.Forall₂ R xs ys)
    (h' : List.Forall₂ R xs' ys) : xs = xs' := by
  induction h generalizing xs' with
  | nil =>
      cases h'
      rfl
  | cons hxy _ ih =>
      obtain ⟨hx, hrest⟩ := List.forall_mem_cons.1 hunique
      cases h' with
      | cons hxy' h' => rw [hx _ _ hxy hxy', ih hrest h']

/-- A node mirrors one condition at most. -/
theorem Mirrors.unique {c c' : Condition} {node : Json} (h : Mirrors c node) (h' : Mirrors c' node) : c = c' := by
  induction c using Condition.induction generalizing c' node with
  | leaf op field value =>
      cases h with
      | leaf hleaf hop hname hfield hfound hvalue =>
          cases h' with
          | leaf _ hop' hname' hfield' hfound' hvalue' =>
              obtain rfl := Json.string.inj (Option.some.inj (hop.symm.trans hop'))
              obtain rfl := Option.some.inj (hname.symm.trans hname')
              obtain rfl := Json.string.inj (Option.some.inj (hfield.symm.trans hfield'))
              obtain rfl := Option.some.inj (hfound.symm.trans hfound')
              obtain rfl := Except.ok.inj (hvalue.symm.trans hvalue')
              rfl
          | group _ hitems _ => exact nomatch hleaf.symm.trans hitems
  | group connector children ih =>
      cases h with
      | group hconnector hitems hchildren =>
          cases h' with
          | leaf hleaf => exact nomatch hleaf.symm.trans hitems
          | group hconnector' hitems' hchildren' =>
              obtain rfl := hconnector.unique hconnector'
              obtain rfl := Json.array.inj (Option.some.inj (hitems.symm.trans hitems'))
              have hunique : ∀ c ∈ children, ∀ c' node, Mirrors c node → Mirrors c' node → c = c' :=
                fun c hc _ _ => ih c hc
              rw [eq_of_forall₂ hunique hchildren hchildren']

section
variable {members : List (String × Json)} {fault : TreeFault}

/-! ## Groups -/

theorem connects_of_connectorOf {connector : Connector} (h : connectorOf members = .ok connector) :
    Connects ((members.lookup "connector").getD .null) connector := by
  unfold connectorOf at h
  split at h
  · rename_i hnone
    obtain rfl := Except.ok.inj h
    rw [hnone]
    exact .none
  · rename_i hnull
    obtain rfl := Except.ok.inj h
    rw [hnull]
    exact .none
  · rename_i name hname
    obtain rfl := Except.ok.inj h
    rw [hname]
    exact .named name
  · exact nomatch h

theorem connectorOf_eq_error (h : connectorOf members = .error fault) :
    ∃ found, ((Json.object members).member? "connector").getD .null = found ∧ fault = .connectorNotText found ∧
      ¬(found = .null ∨ ∃ name, found = .string name) := by
  unfold connectorOf at h
  split at h
  · exact nomatch h
  · exact nomatch h
  · exact nomatch h
  · rename_i found hnull hname hfound
    obtain rfl := Except.error.inj h
    refine ⟨found, ?_, rfl, ?_⟩
    · rw [Json.member?, hfound]
      rfl
    · rintro (rfl | ⟨name, rfl⟩)
      · exact hnull rfl
      · exact hname name rfl

/-- A group has the fault that is found in it first. -/
theorem firstFailing_of_groupParts {depth : Nat} {j : Json} (hdepth : depth ≤ maxDepth)
    (h : groupParts j = .error fault) : Check.FirstFailing (groupChecks depth j) fault := by
  unfold groupParts at h
  split at h
  · rename_i members
    refine .later hdepth (.later ⟨members, rfl⟩ ?_)
    split_ifs at h with hsize
    · obtain rfl := Except.error.inj h
      exact .here (Nat.not_le.2 hsize) _
    · refine .later (Nat.not_lt.1 hsize) ?_
      cases hchildren : (Json.object members).member? "children" with
      | none =>
          rw [show members.lookup "children" = none from hchildren] at h
          obtain rfl := Except.error.inj h
          exact .here (not_not_intro rfl) _
      | some found =>
          rw [show members.lookup "children" = some found from hchildren] at h
          refine .later (Option.some_ne_none found) ?_
          cases found with
          | array items =>
              refine .later ⟨items, rfl⟩ ?_
              have hitems : (Json.object members).children = items := by rw [Json.children, hchildren]; rfl
              cases items with
              | nil =>
                  obtain rfl := Except.error.inj h
                  exact .here (not_not_intro hitems) _
              | cons child rest =>
                  refine .later (hitems ▸ List.cons_ne_nil child rest) ?_
                  cases hconnector : connectorOf members with
                  | ok connector =>
                      rw [hconnector] at h
                      cases h
                  | error fault' =>
                      rw [hconnector] at h
                      obtain rfl := Except.error.inj h
                      obtain ⟨_, rfl, rfl, hkind⟩ := connectorOf_eq_error hconnector
                      exact .here hkind _
          | null | bool _ | number _ | string _ | object _ =>
              obtain rfl := Except.error.inj h
              refine .here ?_ _
              rintro ⟨items, hitems⟩
              cases hitems
  · rename_i hobject
    obtain rfl := Except.error.inj h
    refine .later hdepth (.here ?_ _)
    rintro ⟨members, hj⟩
    exact hobject members hj

/-- A group whose parts are found passes its checks, and these are its parts. -/
theorem groupWellFormed_of_groupParts {depth : Nat} {j : Json} {connector : Connector} {items : List Json}
    (hdepth : depth ≤ maxDepth) (h : groupParts j = .ok (connector, items)) :
    GroupWellFormed depth j ∧ j.member? "children" = some (.array items) ∧
      Connects ((j.member? "connector").getD .null) connector := by
  unfold groupParts at h
  split at h
  · rename_i members
    split_ifs at h with hsize
    split at h
    · exact nomatch h
    · exact nomatch h
    · rename_i hne hchildren
      cases hconnector : connectorOf members with
      | error fault => exact nomatch hconnector ▸ h
      | ok connector' =>
          rw [hconnector] at h
          obtain ⟨rfl, rfl⟩ := Prod.mk.inj (Except.ok.inj h)
          have hconnects : Connects (((Json.object members).member? "connector").getD .null) connector' :=
            connects_of_connectorOf hconnector
          refine ⟨⟨hdepth, ⟨members, rfl, Nat.not_lt.1 hsize⟩, ?_, ?_⟩, hchildren, hconnects⟩
          · obtain ⟨child, rest, rfl⟩ := List.exists_cons_of_ne_nil hne
            exact ⟨child, rest, hchildren⟩
          · cases hfound : (Json.object members).member? "connector" with
            | none => exact .inl rfl
            | some found =>
                rw [hfound] at hconnects
                cases hconnects with
                | none => exact .inr (.inl rfl)
                | named name => exact .inr (.inr ⟨name, rfl⟩)
    · exact nomatch h
  · exact nomatch h

/-! ## Leaves -/

theorem exists_of_leafOp {op : ValueOp} (h : leafOp members = .ok op) :
    ∃ name, (Json.object members).member? "op" = some (.string name) ∧ ValueOp.ofName? name = some op := by
  unfold leafOp at h
  split at h
  · exact nomatch h
  · exact nomatch h
  · rename_i name hname
    split at h
    · rename_i op' hop
      obtain rfl := Except.ok.inj h
      exact ⟨name, hname, hop⟩
    · exact nomatch h
  · exact nomatch h

theorem exists_of_leafField {field : String} (h : leafField members = .ok field) :
    (Json.object members).member? "field" = some (.string field) ∧ field ≠ "" := by
  unfold leafField at h
  split at h
  · rename_i field' hfield
    split_ifs at h with hempty
    obtain rfl := Except.ok.inj h
    exact ⟨hfield, hempty⟩
  · exact nomatch h

theorem exists_of_leafValue {value : Value} (h : leafValue members = .ok value) :
    ∃ found, (Json.object members).member? "value" = some found ∧ found.IsScalar ∧
      Value.ofJson found = .ok value := by
  unfold leafValue at h
  split at h
  · exact nomatch h
  · rename_i b hfound
    obtain rfl := Except.ok.inj h
    exact ⟨.bool b, hfound, trivial, rfl⟩
  · rename_i n hfound
    obtain rfl := Except.ok.inj h
    exact ⟨.number n, hfound, trivial, rfl⟩
  · rename_i s hfound
    obtain rfl := Except.ok.inj h
    exact ⟨.string s, hfound, trivial, rfl⟩
  · exact nomatch h

/-- A leaf that is read passes its checks. -/
theorem wellFormed_of_ofLeaf {c : Condition} (hleaf : (Json.object members).member? "children" = none)
    (h : ofLeaf members = .ok c) : LeafWellFormed (.object members) ∧ Mirrors c (.object members) := by
  obtain ⟨op, hop, h⟩ := exists_of_bind_eq_ok h
  obtain ⟨field, hfield, h⟩ := exists_of_bind_eq_ok h
  obtain ⟨value, hvalue, h⟩ := exists_of_bind_eq_ok h
  obtain rfl := Except.ok.inj h
  obtain ⟨name, hname, hknown⟩ := exists_of_leafOp hop
  obtain ⟨hfield, hne⟩ := exists_of_leafField hfield
  obtain ⟨found, hfound, hscalar, hvalue⟩ := exists_of_leafValue hvalue
  constructor
  · exact ⟨⟨members, rfl⟩, ⟨name, op, hname, hknown⟩, ⟨field, hfield, hne⟩, ⟨found, hfound, hscalar⟩⟩
  · exact .leaf hleaf hname hknown hfield hfound hvalue

-- A null operator counts as missing, so that both are told apart from the rest by the default of the lookup.
theorem leafOp_eq_error (h : leafOp members = .error fault) :
    ∃ found, ((Json.object members).member? "op").getD .null = found ∧
      (found = .null ∧ fault = .missingKey "op" ∨ found ≠ .null ∧ fault = .unknownOperator found ∧
        ¬∃ name, found = .string name ∧ (ValueOp.ofName? name).isSome) := by
  unfold leafOp at h
  split at h
  · rename_i hfound
    exact ⟨.null, by rw [Json.member?, hfound]; rfl, .inl ⟨rfl, (Except.error.inj h).symm⟩⟩
  · rename_i hfound
    exact ⟨.null, by rw [Json.member?, hfound]; rfl, .inl ⟨rfl, (Except.error.inj h).symm⟩⟩
  · rename_i name hfound
    refine ⟨.string name, by rw [Json.member?, hfound]; rfl, .inr ⟨nofun, ?_⟩⟩
    split at h
    · exact nomatch h
    · rename_i hunknown
      refine ⟨(Except.error.inj h).symm, ?_⟩
      rintro ⟨name', hname, hknown⟩
      obtain rfl := Json.string.inj hname
      rw [hunknown] at hknown
      exact nomatch hknown
  · rename_i found hnull hname hfound
    refine ⟨found, by rw [Json.member?, hfound]; rfl, .inr ⟨hnull, (Except.error.inj h).symm, ?_⟩⟩
    rintro ⟨name, rfl, -⟩
    exact hname name rfl

theorem leafField_eq_error (h : leafField members = .error fault) :
    fault = .missingKey "field" ∧
      ¬∃ field, (Json.object members).member? "field" = some (.string field) ∧ field ≠ "" := by
  unfold leafField at h
  split at h
  · rename_i field hfield
    split_ifs at h with hempty
    refine ⟨(Except.error.inj h).symm, ?_⟩
    rintro ⟨field', hfield', hne⟩
    obtain rfl := Json.string.inj (Option.some.inj (hfield.symm.trans hfield'))
    exact hne hempty
  · rename_i hother
    refine ⟨(Except.error.inj h).symm, ?_⟩
    rintro ⟨field, hfield, -⟩
    exact hother field hfield

theorem leafValue_eq_error (h : leafValue members = .error fault) :
    (Json.object members).member? "value" = none ∧ fault = .missingKey "value" ∨
      ∃ found, (Json.object members).member? "value" = some found ∧ fault = .invalidValue found ∧
        ¬found.IsScalar := by
  unfold leafValue at h
  split at h
  · rename_i hnone
    exact .inl ⟨hnone, (Except.error.inj h).symm⟩
  · exact nomatch h
  · exact nomatch h
  · exact nomatch h
  · rename_i found hbool hnumber hstring hfound
    refine .inr ⟨found, hfound, (Except.error.inj h).symm, ?_⟩
    cases found with
    | bool b => exact absurd rfl (hbool b)
    | number n => exact absurd rfl (hnumber n)
    | string s => exact absurd rfl (hstring s)
    | null | array _ | object _ => exact id

/-- A leaf has the fault that is found in it first. -/
theorem firstFailing_of_ofLeaf (h : ofLeaf members = .error fault) :
    Check.FirstFailing (leafChecks (.object members)) fault := by
  refine .later ⟨members, rfl⟩ ?_
  cases hop : leafOp members with
  | error fault' =>
      rw [ofLeaf, hop] at h
      obtain rfl := Except.error.inj h
      obtain ⟨_, rfl, ⟨hnull, rfl⟩ | ⟨hnull, rfl, hunknown⟩⟩ := leafOp_eq_error hop
      · exact .here (not_not_intro hnull) _
      · exact .later hnull (.here hunknown _)
  | ok op =>
      rw [ofLeaf, hop] at h
      obtain ⟨name, hname, hknown⟩ := exists_of_leafOp hop
      have hget : ((Json.object members).member? "op").getD .null = .string name := by
        rw [hname]
        rfl
      refine .later (hget ▸ nofun) (.later ⟨name, hget, hknown ▸ rfl⟩ ?_)
      cases hfield : leafField members with
      | error fault' =>
          rw [hfield] at h
          obtain rfl := Except.error.inj h
          obtain ⟨rfl, hnofield⟩ := leafField_eq_error hfield
          exact .here hnofield _
      | ok field =>
          rw [hfield] at h
          refine .later ⟨field, exists_of_leafField hfield⟩ ?_
          cases hvalue : leafValue members with
          | ok value => exact nomatch hvalue ▸ h
          | error fault' =>
              rw [hvalue] at h
              obtain rfl := Except.error.inj h
              rcases leafValue_eq_error hvalue with ⟨hnone, rfl⟩ | ⟨found, hfound, rfl, hscalar⟩
              · exact .here (not_not_intro hnone) _
              · have hget : ((Json.object members).member? "value").getD .null = found := by
                  rw [hfound]
                  rfl
                subst hget
                exact .later (hfound ▸ Option.some_ne_none _) (.here hscalar _)

end

end RecordRules.Condition
