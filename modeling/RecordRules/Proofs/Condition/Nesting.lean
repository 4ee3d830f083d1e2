import RecordRules.Proofs.Condition.Text

/-!
# The nesting of compiled conditions

Compiling refuses conditions whose text would nest too deep, by a depth that it computes from the children up.
The parser counts the nesting for itself while it reads. The two agree on every condition but for the signs of
numbers, which the parser counts and the computed depth does not: where a number with a sign stands at the very
limit, the condition is compiled and the parser refuses its text. Nothing else is compiled that cannot be
parsed, and nothing is refused that could be.
-/
namespace RecordRules.Condition

theorem compile_eq {j : Json} {c : Condition} (hj : ofJson j = .ok c) (hnamed : c.IsNamed) :
    compile j = if ∀ l ∈ c.places, l.1 ≤ maxNesting then .ok c.toExpression else .error ⟨[], .tooDeep⟩ := by
  have hdepth : c.render.depth ≤ maxNesting ↔ ∀ l ∈ c.places, l.1 ≤ maxNesting := by
    rw [(renders (isRead_of_ofJson hj) hnamed).depth, Places.deepest_le_iff]
    rfl
  have hcompile : compile j = c.compiled := by
    rw [compile, hj]
    rfl
  rw [hcompile, compiled]
  by_cases h : c.render.depth ≤ maxNesting
  · rw [if_neg (Nat.not_lt.2 h), if_pos (hdepth.1 h)]
    rfl
  · rw [if_pos (Nat.lt_of_not_le h), if_neg (mt hdepth.2 h)]

/-- The sign of a value takes a leaf beyond the limit only from the limit itself. -/
theorem add_signCost_le {n : ℕ} {v : Value} :
    n + v.signCost ≤ maxNesting ↔ n ≤ maxNesting ∧ (v.isSigned → n ≠ maxNesting) := by
  cases hsigned : v.isSigned with
  | false => simp [Value.signCost, hsigned]
  | true =>
      simp only [Value.signCost, hsigned, if_true, forall_const]
      omega

/-- The texts of the conditions that compile are accepted by the parser, and no others, except for those with a
signed number in a leaf at the limit: they compile, and the parser refuses them. -/
theorem parse_ok_iff_compile_ok {j : Json} {c : Condition} (hj : ofJson j = .ok c) (hnamed : c.IsNamed) :
    (compile j = .ok c.toExpression ∨ compile j = .error ⟨[], .tooDeep⟩) ∧
      ((∃ e, Expr.parse c.toExpression = .ok e) ∨ Expr.parse c.toExpression = .error .tooDeep) ∧
      ((∃ e, Expr.parse c.toExpression = .ok e) ↔
        compile j = .ok c.toExpression ∧ ∀ l ∈ c.places, l.2.isSigned → l.1 ≠ maxNesting) := by
  have hparsed : c.places.deepest Value.signCost ≤ maxNesting ↔
      (∀ l ∈ c.places, l.1 ≤ maxNesting) ∧ ∀ l ∈ c.places, l.2.isSigned → l.1 ≠ maxNesting := by
    rw [Places.deepest_le_iff, ← forall₂_and]
    exact forall₂_congr fun _ _ => add_signCost_le
  rw [compile_eq hj hnamed, parse_toExpression (isRead_of_ofJson hj) hnamed]
  by_cases hplaces : ∀ l ∈ c.places, l.1 ≤ maxNesting
  · rw [if_pos hplaces]
    by_cases hsigns : ∀ l ∈ c.places, l.2.isSigned → l.1 ≠ maxNesting
    · rw [if_pos (hparsed.2 ⟨hplaces, hsigns⟩)]
      exact ⟨.inl rfl, .inl ⟨_, rfl⟩, fun _ => ⟨rfl, hsigns⟩, fun _ => ⟨_, rfl⟩⟩
    · rw [if_neg fun h => hsigns (hparsed.1 h).2]
      exact ⟨.inl rfl, .inr rfl, nofun, fun h => absurd h.2 hsigns⟩
  · rw [if_neg hplaces, if_neg fun h => hplaces (hparsed.1 h).1]
    exact ⟨.inr rfl, .inr rfl, nofun, nofun⟩

/-! ## A wide group -/

/-- A comparison with a negative number, in conjunction with others. -/
def negativeFirst (n : ℕ) : Condition :=
  .group .and (.leaf (.compare .eq) "a" (.int (-1)) :: List.replicate n (.leaf (.compare .eq) "a" (.int 1)))

/-- A comparison as JSON data. -/
def comparisonJson (v : Int64) : Json :=
  .object [("field", .string "a"), ("op", .string "EQ"), ("value", .number (.int v))]

/-- The JSON data of `negativeFirst`. -/
def negativeFirstJson (n : ℕ) : Json :=
  .object [("children", .array (comparisonJson (-1) :: List.replicate n (comparisonJson 1))),
    ("connector", .string "AND")]

theorem ofChildren_replicate (group : List Nat → Json → Except TreeError Condition) (path : List Nat)
    (i n : ℕ) : ofChildren group path i (List.replicate n (comparisonJson 1)) =
      .ok (List.replicate n (.leaf (.compare .eq) "a" (.int 1))) := by
  induction n generalizing i with
  | zero => rfl
  | succ n ih =>
      rw [List.replicate_succ, ofChildren, ih]
      rfl

theorem ofJson_negativeFirstJson (n : ℕ) : ofJson (negativeFirstJson n) = .ok (negativeFirst n) := by
  have hchildren : ofChildren (ofGroup maxDepth) [] 0
      (comparisonJson (-1) :: List.replicate n (comparisonJson 1)) =
      .ok (.leaf (.compare .eq) "a" (.int (-1)) :: List.replicate n (.leaf (.compare .eq) "a" (.int 1))) := by
    rw [ofChildren, ofChildren_replicate]
    rfl
  rw [ofJson, ofGroup]
  change (ofChildren (ofGroup maxDepth) [] 0 _).bind _ = _
  rw [hchildren]
  rfl

theorem isNamed_negativeFirst (n : ℕ) : (negativeFirst n).IsNamed := by
  have hfield : IsField "a" := isField_of_isName (Token.isName_of_chars rfl (by decide)) (by decide)
  refine every_group.2 ⟨fun _ => nofun, List.forall_mem_cons.2 ⟨hfield, fun c hc => ?_⟩⟩
  rw [List.eq_of_mem_replicate hc]
  exact hfield

/-- Each further child of a group takes those before it one place deeper. -/
theorem mem_foldl_paired {leaves : Places} {child : Bool × Places} {n : ℕ} {l : ℕ × Value} (hl : l ∈ leaves) :
    (l.1 + n, l.2) ∈ (List.replicate n child).foldl (fun before c => before.paired c.2) leaves := by
  induction n generalizing leaves l with
  | zero => exact hl
  | succ n ih =>
      have hnext : (l.1 + 1, l.2) ∈ leaves.paired child.2 :=
        List.mem_map_of_mem (List.mem_append_left _ hl)
      have hmem := ih hnext
      rwa [Nat.add_assoc, Nat.add_comm 1 n] at hmem

theorem le_of_mem_foldl_paired {leaves : Places} {child : Bool × Places} {k n : ℕ}
    (hleaves : ∀ l ∈ leaves, l.1 ≤ k) (hchild : ∀ l ∈ child.2, l.1 ≤ k) :
    ∀ l ∈ (List.replicate n child).foldl (fun before c => before.paired c.2) leaves, l.1 ≤ k + n := by
  induction n generalizing leaves k with
  | zero => exact hleaves
  | succ n ih =>
      have hnext : ∀ l ∈ leaves.paired child.2, l.1 ≤ k + 1 := by
        intro l hl
        obtain ⟨m, hm, rfl⟩ := List.mem_map.1 hl
        rcases List.mem_append.1 hm with hm | hm
        · exact Nat.succ_le_succ (hleaves m hm)
        · exact Nat.succ_le_succ (hchild m hm)
      have hle := ih hnext fun l hl => Nat.le_succ_of_le (hchild l hl)
      rwa [Nat.add_assoc, Nat.add_comm 1 n] at hle

theorem places_negativeFirst (n : ℕ) :
    (n + 1, .int (-1)) ∈ (negativeFirst n).places ∧ ∀ l ∈ (negativeFirst n).places, l.1 ≤ n + 1 := by
  have hplacesOf : placesOf (List.replicate n (.leaf (.compare .eq) "a" (.int 1))) =
      List.replicate n (false, [(1, .int 1)]) := by
    induction n with
    | zero => rfl
    | succ n ih =>
        rw [List.replicate_succ, placesOf, ih]
        rfl
  have hplaces : (negativeFirst n).places =
      (List.replicate n (false, [(1, Value.int 1)])).foldl (fun before c => Places.paired before c.2)
        [(1, .int (-1))] := by
    rw [← hplacesOf]
    rfl
  rw [hplaces, Nat.add_comm n 1]
  refine ⟨mem_foldl_paired (List.mem_singleton_self _), le_of_mem_foldl_paired ?_ ?_⟩
  · exact fun l hl => (congrArg Prod.fst (List.mem_singleton.1 hl)).le
  · exact fun l hl => (congrArg Prod.fst (List.mem_singleton.1 hl)).le

/-- A conjunction that compiles to a text that the parser refuses. -/
theorem parse_ok_iff_compile_ok_negativeFirst :
    compile (negativeFirstJson 511) = .ok (negativeFirst 511).toExpression ∧
      Expr.parse (negativeFirst 511).toExpression = .error .tooDeep := by
  have hj := ofJson_negativeFirstJson 511
  have hnamed := isNamed_negativeFirst 511
  obtain ⟨hmem, hle⟩ := places_negativeFirst 511
  obtain ⟨-, hparse, hiff⟩ := parse_ok_iff_compile_ok hj hnamed
  constructor
  · exact (compile_eq hj hnamed).trans (if_pos hle)
  · apply hparse.resolve_left
    intro h
    exact (hiff.1 h).2 _ hmem (by decide) rfl

end RecordRules.Condition
