import Mathlib.Data.List.Basic
import RecordRules.Condition.Reader
import RecordRules.Json.Path
import RecordRules.Proofs.Lexer.Numbers

/-!
# The nodes of condition trees

The nodes of JSON data are what paths lead to, from the root and from a node to one of its children. The root is a
group, so is every other node with a member `children`, and the rest are leaves. What makes a group and a leaf
well-formed is said twice: as such, and as the checks that the node has to pass, in their order and each with its
fault. A tree is well-formed if all its nodes are; otherwise one of the faulty nodes is the first in pre-order, in
which a node comes before those below it and these come in the order of the children.
-/
namespace RecordRules

namespace Json

/-- The children of a node: the items of the array that stands under `children`. -/
def children (j : Json) : List Json := ((j.member? "children").map elements).getD []

/-- The node that a path leads to. -/
def node? : Json → List Nat → Option Json
  | j, [] => some j
  | j, i :: path => j.children[i]?.bind fun child => child.node? path

theorem node?_append (j : Json) (path path' : List Nat) :
    j.node? (path ++ path') = (j.node? path).bind fun node => node.node? path' := by
  induction path generalizing j with
  | nil => rfl
  | cons i rest ih =>
      rw [List.cons_append, node?, node?, Option.bind_assoc]
      exact congrArg _ (funext ih)

/-- Truth values, numbers and texts. -/
def IsScalar : Json → Prop
  | bool _ | number _ | string _ => True
  | null | array _ | object _ => False

end Json

namespace Condition

/-! ## Well-formed nodes -/

/-- A group with at most 128 groups around it: an object with another member beside its children, of which there
is one at least, and whose connector, if it has one, is a text. -/
structure GroupWellFormed (depth : Nat) (node : Json) : Prop where
  depth : depth ≤ 128
  object : ∃ members, node = .object members ∧ 2 ≤ members.length
  children : ∃ child rest, node.member? "children" = some (.array (child :: rest))
  connector : node.member? "connector" = none ∨ node.member? "connector" = some .null ∨
    ∃ name, node.member? "connector" = some (.string name)

/-- A leaf: an object with a known operator, a field with a name, and a scalar. -/
structure LeafWellFormed (node : Json) : Prop where
  object : ∃ members, node = .object members
  op : ∃ name op, node.member? "op" = some (.string name) ∧ ValueOp.ofName? name = some op
  field : ∃ field, node.member? "field" = some (.string field) ∧ field ≠ ""
  value : ∃ value, node.member? "value" = some value ∧ value.IsScalar

/-- Whether the node at a path counts as a group. -/
def countsAsGroup (path : List Nat) (node : Json) : Bool :=
  path.isEmpty || (node.member? "children").isSome

/-- Every node is well-formed. -/
def WellFormed (root : Json) : Prop :=
  ∀ path node, root.node? path = some node →
    if countsAsGroup path node then GroupWellFormed path.length node else LeafWellFormed node

/-! ## Checks -/

/-- Something that a node has to pass, and its fault if it does not. -/
structure Check where
  Passes : Prop
  fault : TreeFault

/-- The fault is that of the first of the checks that fails. -/
def Check.FirstFailing : List Check → TreeFault → Prop
  | [], _ => False
  | c :: rest, fault => (¬c.Passes ∧ fault = c.fault) ∨ (c.Passes ∧ FirstFailing rest fault)

/-- What a group has to pass, in order. -/
def groupChecks (depth : Nat) (node : Json) : List Check :=
  let connector := (node.member? "connector").getD .null
  [⟨depth ≤ maxDepth, .tooDeep⟩,
    ⟨∃ members, node = .object members, .notObject⟩,
    ⟨2 ≤ node.members.length, .tooFewKeys node.members.length⟩,
    ⟨node.member? "children" ≠ none, .missingChildren⟩,
    ⟨∃ items, node.member? "children" = some (.array items), .childrenNotArray⟩,
    ⟨node.children ≠ [], .emptyChildren⟩,
    ⟨connector = .null ∨ ∃ name, connector = .string name, .connectorNotText connector⟩]

/-- What a leaf has to pass, in order. -/
def leafChecks (node : Json) : List Check :=
  let op := (node.member? "op").getD .null
  let value := (node.member? "value").getD .null
  [⟨∃ members, node = .object members, .childNotObject⟩,
    ⟨op ≠ .null, .missingKey "op"⟩,
    ⟨∃ name, op = .string name ∧ (ValueOp.ofName? name).isSome, .unknownOperator op⟩,
    ⟨∃ field, node.member? "field" = some (.string field) ∧ field ≠ "", .missingKey "field"⟩,
    ⟨node.member? "value" ≠ none, .missingKey "value"⟩,
    ⟨value.IsScalar, .invalidValue value⟩]

namespace Check

variable {c : Check} {cs : List Check} {fault fault' : TreeFault}

theorem FirstFailing.here (h : ¬c.Passes) (cs : List Check) : FirstFailing (c :: cs) c.fault := .inl ⟨h, rfl⟩

theorem FirstFailing.later (hc : c.Passes) (h : FirstFailing cs fault) : FirstFailing (c :: cs) fault :=
  .inr ⟨hc, h⟩

theorem FirstFailing.unique (h : FirstFailing cs fault) (h' : FirstFailing cs fault') : fault = fault' := by
  induction cs with
  | nil => exact h.elim
  | cons c rest ih =>
      rcases h with ⟨hc, rfl⟩ | ⟨hc, h⟩
      · rcases h' with ⟨-, rfl⟩ | ⟨hc', -⟩
        · rfl
        · exact absurd hc' hc
      · rcases h' with ⟨hc', -⟩ | ⟨-, h'⟩
        · exact absurd hc hc'
        · exact ih h h'

/-- Some check fails just if not all of them are passed. -/
theorem not_firstFailing_iff : (∀ fault, ¬FirstFailing cs fault) ↔ ∀ c ∈ cs, c.Passes := by
  induction cs with
  | nil => simp [FirstFailing]
  | cons c rest ih =>
      rw [List.forall_mem_cons, ← ih]
      constructor
      · intro h
        have hc : c.Passes := by
          by_contra hc
          exact h c.fault (.here hc rest)
        exact ⟨hc, fun fault hrest => h fault (hrest.later hc)⟩
      · rintro ⟨hc, hrest⟩ fault (⟨hnot, -⟩ | ⟨-, h⟩)
        · exact hnot hc
        · exact hrest fault h

end Check

theorem groupWellFormed_iff {depth : Nat} {node : Json} :
    GroupWellFormed depth node ↔ ∀ c ∈ groupChecks depth node, c.Passes := by
  simp only [groupChecks, List.forall_mem_cons]
  constructor
  · rintro ⟨hdepth, ⟨members, rfl, hsize⟩, ⟨child, rest, hchildren⟩, hconnector⟩
    refine ⟨hdepth, ⟨members, rfl⟩, hsize, ?_, ⟨_, hchildren⟩, ?_, ?_, nofun⟩
    · rw [hchildren]
      exact nofun
    · rw [Json.children, hchildren]
      exact nofun
    · rcases hconnector with h | h | ⟨name, h⟩
      · exact .inl (by rw [h]; rfl)
      · exact .inl (by rw [h]; rfl)
      · exact .inr ⟨name, by rw [h]; rfl⟩
  · rintro ⟨hdepth, ⟨members, rfl⟩, hsize, -, ⟨items, hitems⟩, hne, hconnector, -⟩
    refine ⟨hdepth, ⟨members, rfl, hsize⟩, ?_, ?_⟩
    · cases items with
      | nil =>
          rw [Json.children, hitems] at hne
          exact absurd rfl hne
      | cons child rest => exact ⟨child, rest, hitems⟩
    · cases h : (Json.object members).member? "connector" with
      | none => exact .inl rfl
      | some found =>
          rw [h] at hconnector
          rcases hconnector with rfl | ⟨name, rfl⟩
          · exact .inr (.inl rfl)
          · exact .inr (.inr ⟨name, rfl⟩)

theorem leafWellFormed_iff {node : Json} : LeafWellFormed node ↔ ∀ c ∈ leafChecks node, c.Passes := by
  simp only [leafChecks, List.forall_mem_cons]
  constructor
  · rintro ⟨hobject, ⟨name, op, hop, hname⟩, hfield, ⟨value, hvalue, hscalar⟩⟩
    refine ⟨hobject, ?_, ⟨name, ?_, ?_⟩, hfield, ?_, ?_, nofun⟩
    · rw [hop]
      exact nofun
    · rw [hop]
      rfl
    · rw [hname]
      rfl
    · rw [hvalue]
      exact nofun
    · rw [hvalue]
      exact hscalar
  · rintro ⟨hobject, -, ⟨name, hop, hname⟩, hfield, -, hscalar, -⟩
    refine ⟨hobject, ?_, hfield, ?_⟩
    · obtain ⟨op, hname⟩ := Option.isSome_iff_exists.1 hname
      cases h : node.member? "op" with
      | none =>
          rw [h] at hop
          exact nomatch hop
      | some found =>
          rw [h] at hop
          exact ⟨name, op, congrArg some hop, hname⟩
    · cases h : node.member? "value" with
      | none =>
          rw [h] at hscalar
          exact hscalar.elim
      | some value =>
          rw [h] at hscalar
          exact ⟨value, rfl, hscalar⟩

/-! ## Faults -/

/-- What the node has to pass that a path leads to from a group at the given depth. -/
def checks (depth : Nat) (path : List Nat) (node : Json) : List Check :=
  if countsAsGroup path node then groupChecks (depth + path.length) node else leafChecks node

/-- The node that the path leads to from a group at the given depth has the fault. -/
def FaultAt (depth : Nat) (group : Json) (path : List Nat) (fault : TreeFault) : Prop :=
  ∃ node, group.node? path = some node ∧ Check.FirstFailing (checks depth path node) fault

theorem wellFormed_iff {root : Json} : WellFormed root ↔ ∀ path fault, ¬FaultAt 0 root path fault := by
  have hnode (path : List Nat) (node : Json) :
      (if countsAsGroup path node then GroupWellFormed path.length node else LeafWellFormed node) ↔
        ∀ fault, ¬Check.FirstFailing (checks 0 path node) fault := by
    rw [Check.not_firstFailing_iff, checks, Nat.zero_add]
    split_ifs
    · exact groupWellFormed_iff
    · exact leafWellFormed_iff
  constructor
  · rintro h path fault ⟨node, hpath, hfault⟩
    exact (hnode path node).1 (h path node hpath) fault hfault
  · intro h path node hpath
    exact (hnode path node).2 fun fault hfault => h path fault ⟨node, hpath, hfault⟩

/-- Of the faults of several nodes the one at the given path comes first. The order of paths is lexicographic, which
is pre-order. -/
def IsFirst (faults : List Nat → TreeFault → Prop) (path : List Nat) (fault : TreeFault) : Prop :=
  faults path fault ∧ ∀ earlier < path, ∀ other, ¬faults earlier other

/-! ## Paths as text -/

/-- The text leads from the root to the node: `root`, and for each step `.children[i]`. -/
inductive LeadsTo (root : Json) : String → Json → Prop
  | root : LeadsTo root "root" root
  | child {text : String} {node child : Json} {i : Nat} : LeadsTo root text node →
      node.children[i]? = some child → LeadsTo root (text ++ ".children[" ++ toString i ++ "]") child

end Condition

namespace TreeError

theorem pathText_concat (path : List Nat) (i : Nat) :
    pathText (path ++ [i]) = pathText path ++ ".children[" ++ toString i ++ "]" := by
  rw [pathText, List.foldl_concat, pathText]

/-- A step can be read off the text from its end. -/
theorem step_inj {s t : String} {i k : Nat}
    (h : s ++ ".children[" ++ toString i ++ "]" = t ++ ".children[" ++ toString k ++ "]") : s = t ∧ i = k := by
  -- Read backwards, the text starts with the bracket and the digits, and a bracket ends them.
  have hreverse (s : String) (i : Nat) : (s ++ ".children[" ++ toString i ++ "]").toList.reverse =
      ']' :: ((Nat.toDigits 10 i).reverse ++ ".children[".toList.reverse ++ s.toList.reverse) := by
    simp only [String.toList_append, List.reverse_append, List.append_assoc, Nat.toString_eq_repr,
      Nat.repr_eq_ofList_toDigits, String.toList_ofList]
    rfl
  have hspan (s : String) (i : Nat) :
      Number.spanDigits ((Nat.toDigits 10 i).reverse ++ ".children[".toList.reverse ++ s.toList.reverse) =
        ((Nat.toDigits 10 i).reverse, ".children[".toList.reverse ++ s.toList.reverse) := by
    rw [List.append_assoc]
    apply Token.spanDigits_append
    · intro c hc
      exact Token.isDigit_of_mem_toDigits c (List.mem_reverse.1 hc)
    · intro c hc
      obtain rfl := Option.some.inj hc
      rfl
  have hchars := congrArg (fun text => text.toList.reverse) h
  simp only [hreverse] at hchars
  have hsplit := congrArg Number.spanDigits (List.cons.inj hchars).2
  rw [hspan, hspan] at hsplit
  obtain ⟨hdigits, hrest⟩ := Prod.mk.inj hsplit
  constructor
  · exact String.toList_inj.1 (List.reverse_injective (List.append_cancel_left hrest))
  · have hvalue := congrArg Number.digitsValue (List.reverse_injective hdigits)
    rwa [Number.digitsValue_toDigits, Number.digitsValue_toDigits] at hvalue

theorem step_ne_root (s : String) (i : Nat) : s ++ ".children[" ++ toString i ++ "]" ≠ "root" := by
  intro h
  have hlast := congrArg (fun text => text.toList.getLast?) h
  rw [String.toList_append, show "]".toList = [']'] from rfl, List.getLast?_concat] at hlast
  exact nomatch hlast

theorem pathText_inj {path path' : List Nat} (h : pathText path = pathText path') : path = path' := by
  induction path using List.reverseRecOn generalizing path' with
  | nil =>
      cases path' using List.reverseRecOn with
      | nil => rfl
      | append_singleton rest' k =>
          rw [pathText_concat] at h
          exact absurd h.symm (step_ne_root _ k)
  | append_singleton rest i ih =>
      rw [pathText_concat] at h
      cases path' using List.reverseRecOn with
      | nil => exact absurd h (step_ne_root _ i)
      | append_singleton rest' k =>
          rw [pathText_concat] at h
          obtain ⟨hrest, rfl⟩ := step_inj h
          rw [ih hrest]

end TreeError

namespace Condition

theorem LeadsTo.exists_path {root node : Json} {text : String} (h : LeadsTo root text node) :
    ∃ path, text = TreeError.pathText path ∧ root.node? path = some node := by
  induction h with
  | root => exact ⟨[], rfl, rfl⟩
  | @child text node child i _ hchild ih =>
      obtain ⟨path, rfl, hpath⟩ := ih
      refine ⟨path ++ [i], (TreeError.pathText_concat path i).symm, ?_⟩
      rw [Json.node?_append, hpath]
      exact congrArg (fun found => found.bind fun child => child.node? []) hchild

/-- The text of a path leads where the path does. -/
theorem leadsTo_pathText_iff {root node : Json} {path : List Nat} :
    LeadsTo root (TreeError.pathText path) node ↔ root.node? path = some node := by
  constructor
  · intro h
    obtain ⟨path', htext, hpath⟩ := h.exists_path
    rwa [TreeError.pathText_inj htext]
  · intro h
    induction path using List.reverseRecOn generalizing node with
    | nil =>
        obtain rfl := Option.some.inj h
        exact .root
    | append_singleton rest i ih =>
        rw [Json.node?_append] at h
        obtain ⟨parent, hparent, hstep⟩ := Option.bind_eq_some_iff.1 h
        obtain ⟨child, hchild, hnode⟩ := Option.bind_eq_some_iff.1 hstep
        obtain rfl := Option.some.inj hnode
        rw [TreeError.pathText_concat]
        exact (ih hparent).child hchild

end Condition

end RecordRules
