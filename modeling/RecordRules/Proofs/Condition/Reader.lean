import RecordRules.Condition.Reader
import RecordRules.Proofs.Failure
import RecordRules.Proofs.Number.Bits
import RecordRules.Proofs.Number.Pattern

/-!
# What the reader of conditions guarantees

A condition that was read from JSON data has no group without children, and the values of its leaves are truth
values, texts, integers and finite floating-point numbers.
-/
namespace RecordRules

open Number

namespace Condition

/-- Induction over conditions: a group has a property if all its children have it. -/
theorem induction {P : Condition → Prop} (leaf : ∀ op field value, P (.leaf op field value))
    (group : ∀ connector children, (∀ c ∈ children, P c) → P (.group connector children)) (c : Condition) :
    P c :=
  match c with
  | .leaf op field value => leaf op field value
  | .group connector children => group connector children fun c _ => induction leaf group c
termination_by sizeOf c

mutual
/-- Every leaf and every group of a condition has a property. -/
def Every (leaf : ValueOp → String → Value → Prop) (group : Connector → List Condition → Prop) :
    Condition → Prop
  | .leaf op field value => leaf op field value
  | .group connector children => group connector children ∧ EveryOf leaf group children
termination_by structural c => c

/-- Every leaf and every group of several conditions has a property. -/
def EveryOf (leaf : ValueOp → String → Value → Prop) (group : Connector → List Condition → Prop) :
    List Condition → Prop
  | [] => True
  | c :: rest => c.Every leaf group ∧ EveryOf leaf group rest
termination_by structural cs => cs
end

variable {leaf leaf' : ValueOp → String → Value → Prop} {group group' : Connector → List Condition → Prop}

theorem everyOf_iff {cs : List Condition} : EveryOf leaf group cs ↔ ∀ c ∈ cs, c.Every leaf group := by
  induction cs with
  | nil => simp [EveryOf]
  | cons c rest ih => simp [EveryOf, ih]

theorem every_group {connector : Connector} {children : List Condition} :
    (Condition.group connector children).Every leaf group ↔
      group connector children ∧ ∀ c ∈ children, c.Every leaf group := by
  rw [Every, everyOf_iff]

end Condition

/-- A value as a leaf can have it. -/
def Value.IsScalar : Value → Prop
  | .bool _ | .int _ | .str _ => True
  | .float x => x.isFinite = true
  | .nil | .list _ => False

namespace Condition

/-- What holds of every condition that was read. -/
def IsRead (c : Condition) : Prop :=
  c.Every (fun _ _ value => value.IsScalar) (fun _ children => children ≠ [])

theorem isScalar_toValue (n : JsonNumber) : n.toValue.IsScalar := by
  cases n with
  | int n => trivial
  | large n _ => exact isFinite_ofInt n.toNat_lt
  | float x h => exact h

theorem isScalar_of_leafValue {members : List (String × Json)} {v : Value} (h : leafValue members = .ok v) :
    v.IsScalar := by
  unfold leafValue at h
  split at h
  · exact nomatch h
  · obtain rfl := Except.ok.inj h
    trivial
  · obtain rfl := Except.ok.inj h
    exact isScalar_toValue _
  · obtain rfl := Except.ok.inj h
    trivial
  · exact nomatch h

theorem isRead_of_ofLeaf {members : List (String × Json)} {c : Condition} (h : ofLeaf members = .ok c) :
    c.IsRead := by
  obtain ⟨op, -, h⟩ := exists_of_bind_eq_ok h
  obtain ⟨field, -, h⟩ := exists_of_bind_eq_ok h
  obtain ⟨value, hvalue, h⟩ := exists_of_bind_eq_ok h
  obtain rfl := Except.ok.inj h
  exact isScalar_of_leafValue hvalue

theorem children_ne_nil {j : Json} {connector : Connector} {children : List Json}
    (h : groupParts j = .ok (connector, children)) : children ≠ [] := by
  unfold groupParts at h
  split at h
  · split_ifs at h
    split at h
    · exact nomatch h
    · exact nomatch h
    · rename_i hne _
      cases hc : connectorOf _ with
      | error e =>
          rw [hc] at h
          exact nomatch h
      | ok c =>
          rw [hc] at h
          obtain ⟨-, rfl⟩ := Prod.mk.inj (Except.ok.inj h)
          exact hne
    · exact nomatch h
  · exact nomatch h

/-- The children that are read, one for each that is given, have what the reader of groups guarantees. -/
theorem isRead_of_ofChildren {group : List Nat → Json → Except TreeError Condition}
    (hgroup : ∀ path j c, group path j = .ok c → c.IsRead) {path : List Nat} {i : Nat} {js : List Json}
    {cs : List Condition} (h : ofChildren group path i js = .ok cs) :
    cs.length = js.length ∧ ∀ c ∈ cs, c.IsRead := by
  induction js generalizing i cs with
  | nil =>
      obtain rfl := Except.ok.inj h
      exact ⟨rfl, nofun⟩
  | cons j rest ih =>
      obtain ⟨c, hc, h⟩ := exists_of_bind_eq_ok h
      obtain ⟨cs', hcs, h⟩ := exists_of_bind_eq_ok h
      obtain rfl := Except.ok.inj h
      obtain ⟨hlen, hall⟩ := ih hcs
      refine ⟨congrArg (· + 1) hlen, List.forall_mem_cons.2 ⟨?_, hall⟩⟩
      unfold ofChild at hc
      split at hc
      · split_ifs at hc
        · exact hgroup _ _ _ hc
        · exact isRead_of_ofLeaf (mapError_eq_ok_iff.1 hc)
      · exact nomatch hc

theorem isRead_of_ofGroup {depth : Nat} {path : List Nat} {j : Json} {c : Condition}
    (h : ofGroup depth path j = .ok c) : c.IsRead := by
  induction depth generalizing path j c with
  | zero => exact nomatch h
  | succ depth ih =>
      obtain ⟨⟨connector, children⟩, hparts, h⟩ := exists_of_bind_eq_ok h
      obtain ⟨cs, hcs, h⟩ := exists_of_bind_eq_ok h
      obtain rfl := Except.ok.inj h
      obtain ⟨hlen, hall⟩ := isRead_of_ofChildren (fun _ _ _ => ih) hcs
      have hne := children_ne_nil (mapError_eq_ok_iff.1 hparts)
      exact every_group.2 ⟨fun hnil => hne (List.length_eq_zero_iff.1 (by rw [← hlen, hnil]; rfl)), hall⟩

/-- What was read from JSON data has children in every group and scalars in every leaf. -/
theorem isRead_of_ofJson {j : Json} {c : Condition} (h : ofJson j = .ok c) : c.IsRead := isRead_of_ofGroup h

end Condition

end RecordRules
