import Mathlib.Order.Lattice
import RecordRules.Proofs.Condition.NodeReader

/-!
# The first fault of a condition tree

The reader of conditions accepts the well-formed trees, and what it makes of them mirrors the JSON data, child for
child. Of any other tree it reports the first faulty node in pre-order, with the first check that this node fails.
-/
namespace RecordRules.Condition

/-! ## Reports -/

theorem IsFirst.congr {faults faults' : List Nat → TreeFault → Prop} {path : List Nat} {fault : TreeFault}
    (h : ∀ path fault, faults path fault ↔ faults' path fault) :
    IsFirst faults path fault ↔ IsFirst faults' path fault := by
  obtain rfl : faults = faults' := funext₂ fun path fault => propext (h path fault)
  exact Iff.rfl

theorem IsFirst.unique {faults : List Nat → TreeFault → Prop} {path path' : List Nat} {fault fault' : TreeFault}
    (hfaults : ∀ path fault fault', faults path fault → faults path fault' → fault = fault')
    (h : IsFirst faults path fault) (h' : IsFirst faults path' fault') : path = path' ∧ fault = fault' := by
  rcases lt_trichotomy path path' with hlt | rfl | hgt
  · exact absurd h.1 (h'.2 path hlt fault)
  · exact ⟨rfl, hfaults path fault fault' h.1 h'.1⟩
  · exact absurd h'.1 (h.2 path' hgt fault')

/-- The outcome of reading what stands at a path: what fits, if there are no faults below it, otherwise the first of
these. -/
def Reports {α : Type} (faults : List Nat → TreeFault → Prop) (path : List Nat) (Fits : α → Prop) :
    Except TreeError α → Prop
  | .ok a => Fits a ∧ ∀ below fault, ¬faults below fault
  | .error e => ∃ below, e.path = path ++ below ∧ IsFirst faults below e.fault

/-- An outcome that is built into a larger one, which has no other faults. -/
theorem Reports.map {α β : Type} {faults faults' : List Nat → TreeFault → Prop} {path : List Nat} {Fits : α → Prop}
    {Fits' : β → Prop} {outcome : Except TreeError α} (h : Reports faults path Fits outcome) (f : α → β)
    (hfaults : ∀ below fault, faults' below fault ↔ faults below fault) (hfits : ∀ a, Fits a → Fits' (f a)) :
    Reports faults' path Fits' (outcome >>= fun a => .ok (f a)) := by
  cases outcome with
  | ok a =>
      obtain ⟨ha, hclean⟩ := h
      exact ⟨hfits a ha, fun below fault hfault => hclean below fault ((hfaults below fault).1 hfault)⟩
  | error e =>
      obtain ⟨below, hpath, hfirst⟩ := h
      exact ⟨below, hpath, (IsFirst.congr hfaults).2 hfirst⟩

theorem isFirst_nil {faults : List Nat → TreeFault → Prop} {fault : TreeFault} (h : faults [] fault) :
    IsFirst faults [] fault := ⟨h, fun earlier hearlier => absurd hearlier (List.not_lt_nil earlier)⟩

/-- The faults of a child, which are met on the paths from there. -/
def ChildFault (depth i : Nat) (child : Json) (path : List Nat) (fault : TreeFault) : Prop :=
  ∃ node, child.node? path = some node ∧ Check.FirstFailing (checks depth (i :: path) node) fault

/-- The faults of the children from a position on. -/
inductive ChildrenFault (depth i : Nat) (items : List Json) : List Nat → TreeFault → Prop
  | mk {child : Json} {k : Nat} {path : List Nat} {fault : TreeFault} : (child, k) ∈ items.zipIdx i →
      ChildFault depth k child path fault → ChildrenFault depth i items (k :: path) fault

section
variable {depth i : Nat} {j child : Json} {items : List Json} {path : List Nat} {fault : TreeFault}

theorem faultAt_nil : FaultAt depth j [] fault ↔ Check.FirstFailing (groupChecks depth j) fault := by
  constructor
  · rintro ⟨node, hnode, h⟩
    obtain rfl := Option.some.inj hnode
    exact h
  · intro h
    exact ⟨j, rfl, h⟩

/-- Below a group that passes its own checks the faults are those of its children. -/
theorem faultAt_iff (hitems : j.member? "children" = some (.array items))
    (hpasses : ∀ c ∈ groupChecks depth j, c.Passes) :
    FaultAt depth j path fault ↔ ChildrenFault depth 0 items path fault := by
  have hchildren : j.children = items := by rw [Json.children, hitems]; rfl
  cases path with
  | nil =>
      rw [faultAt_nil]
      constructor
      · intro h
        exact absurd h (Check.not_firstFailing_iff.2 hpasses fault)
      · intro h
        cases h
  | cons k rest =>
      constructor
      · rintro ⟨node, hnode, h⟩
        rw [Json.node?, hchildren] at hnode
        obtain ⟨child, hchild, hnode⟩ := Option.bind_eq_some_iff.1 hnode
        exact ⟨List.mk_mem_zipIdx_iff_getElem?.2 hchild, node, hnode, h⟩
      · rintro ⟨hchild, node, hnode, h⟩
        refine ⟨node, ?_, h⟩
        rw [Json.node?, hchildren, List.mk_mem_zipIdx_iff_getElem?.1 hchild]
        exact hnode

/-- A child that is a group has the faults of a group one level deeper. -/
theorem childFault_iff_of_group (h : (child.member? "children").isSome) :
    ChildFault depth i child path fault ↔ FaultAt (depth + 1) child path fault := by
  have hchecks {node : Json} (hnode : child.node? path = some node) :
      checks depth (i :: path) node = checks (depth + 1) path node := by
    have hdepth : depth + (i :: path).length = depth + 1 + path.length := by
      rw [List.length_cons]
      omega
    cases path with
    | nil =>
        obtain rfl := Option.some.inj hnode
        have hgroup : countsAsGroup [i] child = true := h
        rw [checks, if_pos hgroup]
        rfl
    | cons k rest =>
        rw [checks, checks, hdepth]
        rfl
  constructor
  · rintro ⟨node, hnode, hfault⟩
    exact ⟨node, hnode, hchecks hnode ▸ hfault⟩
  · rintro ⟨node, hnode, hfault⟩
    exact ⟨node, hnode, (hchecks hnode).symm ▸ hfault⟩

/-- A child that is a leaf has no faults but its own. -/
theorem childFault_iff_of_leaf (h : child.member? "children" = none) :
    ChildFault depth i child path fault ↔ path = [] ∧ Check.FirstFailing (leafChecks child) fault := by
  cases path with
  | nil =>
      have hchecks : checks depth [i] child = leafChecks child := by
        rw [checks, countsAsGroup, h]
        rfl
      constructor
      · rintro ⟨node, hnode, hfault⟩
        obtain rfl := Option.some.inj hnode
        exact ⟨rfl, hchecks ▸ hfault⟩
      · rintro ⟨-, hfault⟩
        exact ⟨child, rfl, hchecks.symm ▸ hfault⟩
  | cons k rest =>
      have hnone : child.node? (k :: rest) = none := by
        rw [Json.node?, Json.children, h]
        rfl
      constructor
      · rintro ⟨node, hnode, -⟩
        rw [hnone] at hnode
        cases hnode
      · rintro ⟨hpath, -⟩
        cases hpath

theorem childrenFault_cons : ChildrenFault depth i (j :: items) path fault ↔
    (∃ rest, path = i :: rest ∧ ChildFault depth i j rest fault) ∨ ChildrenFault depth (i + 1) items path fault := by
  constructor
  · rintro ⟨hmem, hfault⟩
    rw [List.zipIdx_cons, List.mem_cons] at hmem
    rcases hmem with heq | hmem
    · obtain ⟨rfl, rfl⟩ := Prod.mk.inj heq
      exact .inl ⟨_, rfl, hfault⟩
    · exact .inr ⟨hmem, hfault⟩
  · rintro (⟨rest, rfl, hfault⟩ | ⟨hmem, hfault⟩)
    · exact ⟨List.mem_cons_self, hfault⟩
    · exact ⟨List.mem_cons_of_mem _ hmem, hfault⟩

/-- The first fault of the first child is the first of all. -/
theorem isFirst_head (h : IsFirst (ChildFault depth i j) path fault) :
    IsFirst (ChildrenFault depth i (j :: items)) (i :: path) fault := by
  refine ⟨childrenFault_cons.2 (.inl ⟨path, rfl, h.1⟩), ?_⟩
  intro earlier hearlier other hother
  rcases childrenFault_cons.1 hother with ⟨rest, rfl, hrest⟩ | ⟨hmem, -⟩
  · rcases List.cons_lt_cons_iff.1 hearlier with hlt | ⟨-, hlt⟩
    · exact absurd hlt (lt_irrefl i)
    · exact h.2 rest hlt other hrest
  · -- The faults of the children behind it lie on paths that start with a later position.
    have hle : i + 1 ≤ _ := List.le_snd_of_mem_zipIdx hmem
    rcases List.cons_lt_cons_iff.1 hearlier with hlt | ⟨heq, -⟩
    · omega
    · omega

end

/-! ## The reader -/

section
variable {depth : Nat}

/-- A node without children, given what reading it alone comes to. -/
theorem reports_of_leaf {node : Json} (hleaf : node.member? "children" = none) (path : List Nat) (i : Nat)
    {outcome : Except TreeFault Condition} (hok : ∀ c, outcome = .ok c → LeafWellFormed node ∧ Mirrors c node)
    (herror : ∀ fault, outcome = .error fault → Check.FirstFailing (leafChecks node) fault) :
    Reports (ChildFault depth i node) path (fun c => Mirrors c node) (outcome.mapError (⟨path, ·⟩)) := by
  cases outcome with
  | ok c =>
      obtain ⟨hwellFormed, hmirrors⟩ := hok c rfl
      refine ⟨hmirrors, fun below fault hfault => ?_⟩
      have hfailing := ((childFault_iff_of_leaf hleaf).1 hfault).2
      exact Check.not_firstFailing_iff.2 (leafWellFormed_iff.1 hwellFormed) fault hfailing
  | error fault =>
      have hfault : ChildFault depth i node [] fault := (childFault_iff_of_leaf hleaf).2 ⟨rfl, herror fault rfl⟩
      exact ⟨[], (List.append_nil path).symm, isFirst_nil hfault⟩

section
variable {group : List Nat → Json → Except TreeError Condition}
  (hgroup : ∀ path j, Reports (FaultAt (depth + 1) j) path (fun c => Mirrors c j) (group path j))
include hgroup

theorem reports_ofChild (path : List Nat) (i : Nat) (j : Json) :
    Reports (ChildFault depth i j) path (fun c => Mirrors c j) (ofChild group path j) := by
  cases j with
  | object members =>
      rw [ofChild]
      split_ifs with hmember
      · have hfaults : ChildFault depth i (.object members) = FaultAt (depth + 1) (.object members) :=
          funext₂ fun below fault => propext (childFault_iff_of_group hmember)
        rw [hfaults]
        exact hgroup path _
      · have hleaf : (Json.object members).member? "children" = none := Option.not_isSome_iff_eq_none.1 hmember
        exact reports_of_leaf hleaf path i (fun c => wellFormed_of_ofLeaf hleaf) fun fault => firstFailing_of_ofLeaf
  | null | bool _ | number _ | string _ | array _ =>
      have hread (c : Condition) : (.error .childNotObject : Except TreeFault Condition) ≠ .ok c := nofun
      apply reports_of_leaf rfl path i fun c h => absurd h (hread c)
      rintro _ ⟨⟩
      refine .here ?_ _
      rintro ⟨members, hmembers⟩
      exact nomatch hmembers

/-- The children are read in order, up to the first that is not well-formed. -/
theorem reports_ofChildren (path : List Nat) (i : Nat) (items : List Json) :
    Reports (ChildrenFault depth i items) path (fun cs => List.Forall₂ Mirrors cs items)
      (ofChildren group path i items) := by
  induction items generalizing i with
  | nil =>
      refine ⟨.nil, ?_⟩
      rintro _ fault ⟨hmem, -⟩
      exact nomatch hmem
  | cons j rest ih =>
      have hchild := reports_ofChild hgroup (path ++ [i]) i j
      rw [ofChildren]
      cases hc : ofChild group (path ++ [i]) j with
      | error e =>
          rw [hc] at hchild
          obtain ⟨below, hpath, hfirst⟩ := hchild
          refine ⟨i :: below, ?_, isFirst_head hfirst⟩
          rw [hpath, List.append_assoc]
          rfl
      | ok c =>
          rw [hc] at hchild
          obtain ⟨hmirrors, hclean⟩ := hchild
          have hfaults (below : List Nat) (fault : TreeFault) :
              ChildrenFault depth i (j :: rest) below fault ↔ ChildrenFault depth (i + 1) rest below fault := by
            rw [childrenFault_cons, or_iff_right]
            rintro ⟨below', -, hfault⟩
            exact hclean below' fault hfault
          exact (ih (i + 1)).map (c :: ·) hfaults fun cs hcs => .cons hmirrors hcs

end

/-- What the reader of groups says about a group at a depth that leaves it the given number of levels. -/
theorem reports_ofGroup (levels : Nat) (path : List Nat) (j : Json) (hlevels : levels + depth = maxDepth + 1) :
    Reports (FaultAt depth j) path (fun c => Mirrors c j) (ofGroup levels path j) := by
  -- No level is left at just the first depth that is too deep.
  induction levels generalizing depth path j with
  | zero =>
      have hdeep : ¬depth ≤ maxDepth := by omega
      have hfault : FaultAt depth j [] .tooDeep := faultAt_nil.2 (.here hdeep _)
      exact ⟨[], (List.append_nil path).symm, isFirst_nil hfault⟩
  | succ levels ih =>
      have hdepth : depth ≤ maxDepth := by omega
      rw [ofGroup]
      cases hparts : groupParts j with
      | error fault =>
          have hfault : FaultAt depth j [] fault := faultAt_nil.2 (firstFailing_of_groupParts hdepth hparts)
          exact ⟨[], (List.append_nil path).symm, isFirst_nil hfault⟩
      | ok parts =>
          obtain ⟨connector, items⟩ := parts
          obtain ⟨hwellFormed, hitems, hconnector⟩ := groupWellFormed_of_groupParts hdepth hparts
          have hgroup (path : List Nat) (j : Json) :
              Reports (FaultAt (depth + 1) j) path (fun c => Mirrors c j) (ofGroup levels path j) :=
            ih path j (by omega)
          have hfaults (below : List Nat) (fault : TreeFault) :
              FaultAt depth j below fault ↔ ChildrenFault depth 0 items below fault :=
            faultAt_iff hitems (groupWellFormed_iff.1 hwellFormed)
          exact (reports_ofChildren hgroup path 0 items).map (Condition.group connector) hfaults
            fun cs hcs => .group hconnector hitems hcs

end

theorem reports_ofJson (root : Json) :
    Reports (FaultAt 0 root) [] (fun c => Mirrors c root) (ofJson root) :=
  reports_ofGroup (maxDepth + 1) [] root rfl

/-- A node has one fault at most. -/
theorem FaultAt.unique {depth : Nat} {j : Json} {path : List Nat} {fault fault' : TreeFault}
    (h : FaultAt depth j path fault) (h' : FaultAt depth j path fault') : fault = fault' := by
  obtain ⟨node, hnode, hfault⟩ := h
  obtain ⟨node', hnode', hfault'⟩ := h'
  obtain rfl := Option.some.inj (hnode.symm.trans hnode')
  exact hfault.unique hfault'

/-- The reader accepts exactly the well-formed trees, and what it makes of one mirrors it. It refuses any other with
the fault of the first faulty node in pre-order. The text of the path leads to this node and to no other. -/
theorem ofJson_spec (root : Json) :
    ((∃ c, ofJson root = .ok c) ↔ WellFormed root) ∧
      (∀ c, ofJson root = .ok c ↔ WellFormed root ∧ Mirrors c root) ∧
      (∀ e, ofJson root = .error e ↔ IsFirst (FaultAt 0 root) e.path e.fault) ∧
      ∀ e, ofJson root = .error e → ∃ node, LeadsTo root (TreeError.pathText e.path) node ∧
        (∀ other, LeadsTo root (TreeError.pathText e.path) other → other = node) ∧
        Check.FirstFailing (checks 0 e.path node) e.fault := by
  have hreports := reports_ofJson root
  have hok {c : Condition} (h : ofJson root = .ok c) : WellFormed root ∧ Mirrors c root := by
    rw [h] at hreports
    exact ⟨wellFormed_iff.2 hreports.2, hreports.1⟩
  have herror {e : TreeError} (h : ofJson root = .error e) : IsFirst (FaultAt 0 root) e.path e.fault := by
    rw [h] at hreports
    obtain ⟨below, hpath, hfirst⟩ := hreports
    rw [hpath]
    exact hfirst
  cases hread : ofJson root with
  | ok c =>
      obtain ⟨hwellFormed, hmirrors⟩ := hok hread
      refine ⟨⟨fun _ => hwellFormed, fun _ => ⟨c, rfl⟩⟩, ?_, ?_, nofun⟩
      · intro c'
        constructor
        · intro h
          obtain rfl := Except.ok.inj h
          exact ⟨hwellFormed, hmirrors⟩
        · rintro ⟨-, hmirrors'⟩
          rw [hmirrors.unique hmirrors']
      · intro e
        constructor
        · exact nofun
        · intro hfirst
          exact absurd hfirst.1 (wellFormed_iff.1 hwellFormed e.path e.fault)
  | error e =>
      have hfirst := herror hread
      have hfaulty : ¬WellFormed root := fun h => wellFormed_iff.1 h e.path e.fault hfirst.1
      refine ⟨⟨nofun, fun h => absurd h hfaulty⟩, fun c => ⟨nofun, fun h => absurd h.1 hfaulty⟩, ?_, ?_⟩
      · intro e'
        constructor
        · intro h
          obtain rfl := Except.error.inj h
          exact hfirst
        · intro hfirst'
          obtain ⟨path, fault⟩ := e
          obtain ⟨path', fault'⟩ := e'
          have hunique : ∀ path fault fault', FaultAt 0 root path fault → FaultAt 0 root path fault' →
              fault = fault' := fun _ _ _ => FaultAt.unique
          have hsame : path = path' ∧ fault = fault' := hfirst.unique hunique hfirst'
          rw [hsame.1, hsame.2]
      · intro e' h
        obtain rfl := Except.error.inj h
        obtain ⟨node, hnode, hfault⟩ := hfirst.1
        refine ⟨node, leadsTo_pathText_iff.2 hnode, ?_, hfault⟩
        intro other hother
        exact Option.some.inj ((leadsTo_pathText_iff.1 hother).symm.trans hnode)

/-- A tree whose second child has no children and whose third is no object. -/
def twoFaults : Json :=
  .object [
    ("children", .array [
      .object [("field", .string "age"), ("op", .string "GT"), ("value", .number (.int 43))],
      .object [("children", .array []), ("connector", .string "OR")],
      .null]),
    ("connector", .string "AND")]

/-- A tree without a fault: of the connectors one is named, one is not known and one is `NOT`. -/
def noFault : Json :=
  .object [
    ("children", .array [
      .object [("field", .string "age"), ("op", .string "GE"), ("value", .number (.int 43))],
      .object [
        ("children", .array [.object [("field", .string "name"), ("op", .string "NE"), ("value", .string "x")]]),
        ("connector", .string "NOT")],
      .object [
        ("children", .array [.object [("field", .string "rate"), ("op", .string "QUO"), ("value", .string "2")]]),
        ("connector", .string "XOR")]]),
    ("connector", .string "OR")]

/-- What `noFault` is read as. -/
def noFaultCondition : Condition :=
  .group .or [
    .leaf (.compare .ge) "age" (.int 43),
    .group .not [.leaf (.compare .ne) "name" (.str "x")],
    .group .blank [.leaf (.compute .div) "rate" (.str "2")]]

/-- The first of the two trees is refused with its first fault, and the second is accepted. -/
theorem ofJson_spec_twoFaults :
    (ofJson twoFaults = .error ⟨[1], .emptyChildren⟩ ∧
      ∃ node, LeadsTo twoFaults "root.children[1]" node ∧
        Check.FirstFailing (checks 0 [1] node) .emptyChildren) ∧
    ofJson noFault = .ok noFaultCondition ∧ WellFormed noFault ∧ Mirrors noFaultCondition noFault := by
  have hrefused : ofJson twoFaults = .error ⟨[1], .emptyChildren⟩ := rfl
  have htext : TreeError.pathText [1] = "root.children[1]" := by decide +kernel
  obtain ⟨node, hleads, -, hfault⟩ := (ofJson_spec twoFaults).2.2.2 _ hrefused
  have haccepted : ofJson noFault = .ok noFaultCondition := rfl
  obtain ⟨hwellFormed, hmirrors⟩ := ((ofJson_spec noFault).2.1 _).1 haccepted
  exact ⟨⟨hrefused, node, htext ▸ hleads, hfault⟩, haccepted, hwellFormed, hmirrors⟩

end RecordRules.Condition
