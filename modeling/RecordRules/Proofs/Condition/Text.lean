import RecordRules.Condition.Compile
import RecordRules.Proofs.Condition.Reader
import RecordRules.Proofs.Lexer.Tokens
import RecordRules.Proofs.Written.Literal

/-!
# What the texts of conditions are read as

The tree that the text of a condition is read as, and how deep the parser nests when it reads it. Both are
described on the condition: a leaf is an operator between a field and a literal, several children of a group
are joined from the left, and under `NOT` the last child is negated. For the nesting it is listed where the
leaves stand; the depth that the renderer computes is the place of the deepest leaf, and the parser goes one
deeper for the sign of a number. The fields are names, and a group of several children has a connector.
-/
namespace RecordRules

open Grammar

/-- A text that is a single token, the name of a field. -/
def IsField (field : String) : Prop :=
  Expr.tokens field = .ok [.ident field] ∧ field ∉ ["true", "false", "nil"]

namespace Condition

/-- Every leaf names a field, and every group of several children says how to join them. -/
def IsNamed (c : Condition) : Prop :=
  c.Every (fun _ field _ => IsField field) fun connector children => 2 ≤ children.length → connector ≠ .blank

end Condition

/-! ## Trees -/

/-- The tree of a group from those of its children. -/
def Connector.tree : Connector → List Expr → Expr
  | _, [] => .literal .nil
  | .not, e :: rest => .unary .not (rest.getLastD e)
  | .and, e :: rest => rest.foldl (.binary (.logic .and)) e
  | .or, e :: rest => rest.foldl (.binary (.logic .or)) e
  | .blank, e :: _ => e

/-- Where leaves stand: the unary expressions around each, itself included, with the value of the leaf. -/
abbrev Places := List (ℕ × Value)

namespace Places

/-- Leaves inside so many more unary expressions. -/
def within (n : ℕ) (leaves : Places) : Places := leaves.map fun l => (l.1 + n, l.2)

/-- The leaves of a pair in parentheses. -/
def paired (left right : Places) : Places := (left ++ right).within 1

/-- The place of the deepest leaf, with what each value adds. -/
def deepest (cost : Value → ℕ) (leaves : Places) : ℕ := (leaves.map fun l => l.1 + cost l.2).foldr max 0

end Places

/-- The leaves of a group from those of its children, each with whether it can be negated without
parentheses. -/
def Connector.places : Connector → List (Bool × Places) → Places
  | _, [] => []
  | .not, c :: rest =>
      let last := rest.getLastD c
      last.2.within (if last.1 then 1 else 2)
  | .blank, c :: _ => c.2
  | .and, c :: rest | .or, c :: rest => rest.foldl (fun before child => before.paired child.2) c.2

namespace Condition

mutual
/-- The tree that the text of a condition is read as. -/
def tree : Condition → Expr
  | leaf op field value => .binary (.value op) (.ident field) value.reread
  | group connector children => connector.tree (trees children)
termination_by structural c => c

/-- The trees of several conditions. -/
def trees : List Condition → List Expr
  | [] => []
  | c :: rest => c.tree :: trees rest
termination_by structural cs => cs
end

mutual
/-- Where the leaves stand in the text of a condition; the leaves that are not written are left out. -/
def places : Condition → Places
  | leaf _ _ value => [(1, value)]
  | group connector children => connector.places (placesOf children)
termination_by structural c => c

/-- The leaves of several conditions, each with whether it can be negated without parentheses. -/
def placesOf : List Condition → List (Bool × Places)
  | [] => []
  | c :: rest => (c.render.grouped, c.places) :: placesOf rest
termination_by structural cs => cs
end

end Condition

/-! ## Places -/

namespace Places

variable {cost : Value → ℕ} {leaves : Places}

theorem deepest_append (a b : Places) : (a ++ b).deepest cost = max (a.deepest cost) (b.deepest cost) := by
  induction a with
  | nil => exact (Nat.zero_max _).symm
  | cons l rest ih =>
      simp only [deepest, List.cons_append, List.map_cons, List.foldr_cons] at ih ⊢
      rw [ih, Nat.max_assoc]

theorem deepest_within (h : leaves ≠ []) (n : ℕ) :
    (leaves.within n).deepest cost = leaves.deepest cost + n := by
  induction leaves with
  | nil => exact absurd rfl h
  | cons l rest ih =>
      cases rest with
      | nil =>
          simp only [deepest, within, List.map_cons, List.map_nil, List.foldr_cons, List.foldr_nil]
          omega
      | cons m rest =>
          have hrest := ih (List.cons_ne_nil _ _)
          simp only [deepest, within, List.map_cons, List.foldr_cons] at hrest ⊢
          omega

theorem within_ne_nil (h : leaves ≠ []) (n : ℕ) : leaves.within n ≠ [] :=
  fun hw => h (List.map_eq_nil_iff.1 hw)

theorem deepest_le_iff {n : ℕ} : leaves.deepest cost ≤ n ↔ ∀ l ∈ leaves, l.1 + cost l.2 ≤ n := by
  induction leaves with
  | nil => simp [deepest]
  | cons l rest ih =>
      rw [List.forall_mem_cons, ← ih]
      exact Nat.max_le

end Places

/-- What the parser counts for the sign of a number. -/
def Value.signCost (v : Value) : ℕ := if v.isSigned then 1 else 0

/-! ## Fragments -/

/-- A fragment is read as a tree, with leaves at the given places. -/
structure Renders (f : Fragment) (e : Expr) (leaves : Places) : Prop where
  nonempty : leaves ≠ []
  depth : f.depth = leaves.deepest fun _ => 0
  writes : Writes (if f.grouped then .unary else .binary .comparison) f.text.toList e
    (leaves.deepest Value.signCost)

/-- Names are fields, but for the words of the language. -/
theorem isField_of_isName {field : String} (h : Token.IsName field.toList)
    (hword : field ∉ ["true", "false", "nil"]) : IsField field :=
  ⟨(Token.Lexes.name h).tokens, hword⟩

theorem IsField.isName {field : String} (h : IsField field) : Token.IsName field.toList :=
  Token.wellFormed_of_scan (Token.scan_of_tokens h.1) _ (List.mem_singleton.2 rfl)

theorem IsField.word? {field : String} (h : IsField field) : word? field = none := by
  have hne := h.2
  simp only [List.mem_cons, List.not_mem_nil, or_false, not_or] at hne
  rw [Grammar.word?, if_neg hne.1, if_neg hne.2.1, if_neg hne.2.2]

/-- The operators of leaves bind at least as tightly as comparisons. -/
theorem writes_comparison {op : ValueOp} {cs : List Char} {e : Expr} {k : ℕ}
    (h : Writes (.binary (level (.value op))) cs e k) : Writes (.binary .comparison) cs e k := by
  cases op with
  | compare c => exact h
  | compute a =>
      have sum (h : Writes (.binary .sum) cs e k) : Writes (.binary .comparison) cs e k := .widen h
      cases a with
      | add => exact sum h
      | sub => exact sum h
      | mul => exact sum (.widen h)
      | div => exact sum (.widen h)

theorem Renders.leaf (op : ValueOp) {field : String} (hfield : IsField field) {value : Value}
    (hvalue : value.IsScalar) :
    Renders (Condition.render (.leaf op field value)) (Condition.tree (.leaf op field value)) [(1, value)] where
  nonempty := List.cons_ne_nil _ _
  depth := rfl
  writes := by
    have hlist : ∀ items, value ≠ .list items := by
      rintro items rfl
      exact hvalue
    have hname := (WritesPrimary.field hfield.isName hfield.word?).unary
    have hleaf := (hname.of_unary _).operation (.value op) ((Value.writes hlist).of_unary _)
    have htext : (field ++ " " ++ op.symbol ++ " " ++ value.text).toList =
        field.toList ++ ' ' :: op.symbol.toList ++ ' ' :: value.chars := by
      simp [Value.text]
    have hdeepest : Places.deepest Value.signCost [(1, value)] = max 1 (if value.isSigned then 2 else 1) := by
      rw [Places.deepest, List.map_singleton, List.foldr_cons, List.foldr_nil, Value.signCost]
      split_ifs <;> rfl
    rw [hdeepest]
    exact htext ▸ writes_comparison hleaf

theorem Renders.negated {f : Fragment} {e : Expr} {leaves : Places} (h : Renders f e leaves) :
    Renders f.negated (.unary .not e) (leaves.within (if f.grouped then 1 else 2)) := by
  have hwrites := h.writes
  unfold Fragment.negated
  split_ifs with hgrouped
  · rw [if_pos hgrouped] at hwrites
    refine ⟨Places.within_ne_nil h.nonempty 1, ?_, ?_⟩
    · rw [Places.deepest_within h.nonempty, ← h.depth]
    · have htext : ("!" ++ f.text).toList = '!' :: f.text.toList := by simp
      rw [Places.deepest_within h.nonempty]
      exact htext ▸ hwrites.not
  · have htext : ("!(" ++ f.text ++ ")").toList = '!' :: ('(' :: f.text.toList ++ [')']) := by simp
    refine ⟨Places.within_ne_nil h.nonempty 2, ?_, ?_⟩
    · rw [Places.deepest_within h.nonempty, ← h.depth]
    · rw [Places.deepest_within h.nonempty]
      exact htext ▸ hwrites.parens.unary.not

/-- A fragment is an operand of the connectives, whether it is grouped or not. -/
theorem Renders.writes_comparison {f : Fragment} {e : Expr} {leaves : Places} (h : Renders f e leaves) :
    Writes (.binary .comparison) f.text.toList e (leaves.deepest Value.signCost) := by
  have hwrites := h.writes
  split_ifs at hwrites
  · exact hwrites.of_unary _
  · exact hwrites

theorem Renders.pair {f g : Fragment} {e e' : Expr} {leaves leaves' : Places} (h : Renders f e leaves)
    (h' : Renders g e' leaves') {connector : Connector} {op : Connective} (hop : connector.symbol = op.symbol) :
    Renders (f.pair connector g) (.binary (.logic op) e e') (leaves.paired leaves') := by
  have hne : leaves ++ leaves' ≠ [] := List.append_ne_nil_of_left_ne_nil h.nonempty _
  refine ⟨Places.within_ne_nil hne 1, ?_, ?_⟩
  · rw [Places.paired, Places.deepest_within hne, Places.deepest_append, ← h.depth, ← h'.depth]
    rfl
  · have htext : (f.pair connector g).text.toList =
        '(' :: (f.text.toList ++ ' ' :: op.symbol.toList ++ ' ' :: g.text.toList) ++ [')'] := by
      simp [Fragment.pair, hop]
    have hpair : Writes (.binary (level (.logic op)))
        (f.text.toList ++ ' ' :: op.symbol.toList ++ ' ' :: g.text.toList) (.binary (.logic op) e e')
        (max (leaves.deepest Value.signCost) (leaves'.deepest Value.signCost)) := by
      have hleft := h.writes_comparison
      have hright := h'.writes_comparison
      cases op with
      | and => exact hleft.operation (.logic .and) hright
      | or =>
          have widen {cs : List Char} {e : Expr} {k : ℕ} (h : Writes (.binary .comparison) cs e k) :
              Writes (.binary .conjunction) cs e k := .widen h
          exact (widen hleft).operation (.logic .or) (widen hright)
    rw [Places.paired, Places.deepest_within hne, Places.deepest_append]
    exact htext ▸ hpair.parens.unary

/-! ## Conditions -/

namespace Condition

/-- The children after the first are joined to what stands before them from the left. -/
theorem renders_joined {connector : Connector} {op : Connective} (hop : connector.symbol = op.symbol)
    (hnot : connector ≠ .not) {cs : List Condition} (hcs : ∀ c ∈ cs, Renders c.render c.tree c.places)
    {f : Fragment} {e : Expr} {leaves : Places} (hf : Renders f e leaves) :
    ∃ g, renderAll connector (some f) cs = some g ∧
      Renders g ((trees cs).foldl (.binary (.logic op)) e)
        ((placesOf cs).foldl (fun before child => before.paired child.2) leaves) := by
  induction cs generalizing f e leaves with
  | nil => exact ⟨f, rfl, hf⟩
  | cons c rest ih =>
      obtain ⟨hc, hrest⟩ := List.forall_mem_cons.1 hcs
      have hjoin : Fragment.join connector (some f) c.render = Fragment.pair connector f c.render := by
        cases connector with
        | not => exact absurd rfl hnot
        | and | or | blank => rfl
      rw [renderAll, hjoin]
      exact ih hrest (hf.pair hc hop)

/-- Under `NOT` only the negation of the last child remains. -/
theorem renders_lastNegated {c : Condition} {cs : List Condition}
    (hcs : ∀ d ∈ c :: cs, Renders d.render d.tree d.places) (before : Option Fragment) :
    ∃ g, renderAll .not before (c :: cs) = some g ∧
      Renders g (Connector.tree .not (trees (c :: cs))) (Connector.places .not (placesOf (c :: cs))) := by
  induction cs generalizing c before with
  | nil => exact ⟨_, rfl, (hcs c List.mem_cons_self).negated⟩
  | cons d rest ih =>
      obtain ⟨g, hg, hrenders⟩ := ih (fun x hx => hcs x (List.mem_cons_of_mem _ hx)) (some c.render.negated)
      refine ⟨g, hg, ?_⟩
      simpa only [trees, placesOf, Connector.tree, Connector.places, List.getLastD_cons] using hrenders

theorem renders_group {connector : Connector} {children : List Condition} (hne : children ≠ [])
    (hblank : 2 ≤ children.length → connector ≠ .blank)
    (hchildren : ∀ c ∈ children, Renders c.render c.tree c.places) :
    Renders (render (.group connector children)) (tree (.group connector children))
      (places (.group connector children)) := by
  cases children with
  | nil => exact absurd rfl hne
  | cons c rest =>
      have hc := hchildren c List.mem_cons_self
      have hrest := fun d hd => hchildren d (List.mem_cons_of_mem c hd)
      cases connector with
      | not =>
          obtain ⟨g, hg, hrenders⟩ := renders_lastNegated hchildren none
          rw [render, hg]
          exact hrenders
      | and =>
          have hsymbol : Connector.symbol .and = Connective.symbol .and := rfl
          obtain ⟨g, hg, hrenders⟩ := renders_joined hsymbol nofun hrest hc
          change Renders ((renderAll .and (some c.render) rest).getD _) _ _
          rw [hg]
          exact hrenders
      | or =>
          have hsymbol : Connector.symbol .or = Connective.symbol .or := rfl
          obtain ⟨g, hg, hrenders⟩ := renders_joined hsymbol nofun hrest hc
          change Renders ((renderAll .or (some c.render) rest).getD _) _ _
          rw [hg]
          exact hrenders
      | blank =>
          cases rest with
          | nil => exact hc
          | cons d rest => exact absurd rfl (hblank (by simp))

/-- The text of a condition is read as its tree, with its leaves where they are listed. -/
theorem renders {c : Condition} (hread : c.IsRead) (hnamed : c.IsNamed) : Renders c.render c.tree c.places := by
  induction c using Condition.induction with
  | leaf op field value => exact .leaf op hnamed hread
  | group connector children ih =>
      obtain ⟨hne, hread⟩ := every_group.1 hread
      obtain ⟨hblank, hnamed⟩ := every_group.1 hnamed
      exact renders_group hne hblank fun c hc => ih c hc (hread c hc) (hnamed c hc)

theorem parse_toExpression {c : Condition} (hread : c.IsRead) (hnamed : c.IsNamed) :
    Expr.parse c.toExpression =
      if c.places.deepest Value.signCost ≤ maxNesting then .ok c.tree else .error .tooDeep := by
  have hparse := (renders hread hnamed).writes.parse
  rwa [String.ofList_toList] at hparse

end Condition

end RecordRules
