import RecordRules.Proofs.Number.Order
import RecordRules.Proofs.Value.NumericKind

/-!
# Comparisons fit together

Any two values can be compared: they have an order or none, and the casts on the way never fail. The order the
other way round is the mirrored one. From it all six comparisons are read off, so that each of them agrees with
the others and with its mirror image; without an order only equality is defined, and that is symmetric too.
-/
namespace RecordRules

/-- The comparison that holds of two values the other way round. -/
def Comparison.mirror : Comparison → Comparison
  | eq => eq
  | ne => ne
  | lt => gt
  | le => ge
  | gt => lt
  | ge => le

theorem compareInts_swap (a b : Int64) : compareInts b a = (compareInts a b).swap :=
  (Int.compare_swap a.toInt b.toInt).symm

theorem compareTexts_swap (s t : String) : compareTexts t s = (compareTexts s t).swap := by
  unfold compareTexts
  by_cases hst : s < t
  · rw [if_neg (String.lt_asymm hst), if_pos hst, if_pos hst]
    rfl
  · by_cases hts : t < s
    · rw [if_pos hts, if_neg hst, if_pos hts]
      rfl
    · rw [if_neg hts, if_neg hst, if_neg hst, if_neg hts]
      rfl

namespace Value

/-! ## The order of two values -/

theorem comparisonKind_comm (l r : Value) : comparisonKind r l = comparisonKind l r := by
  unfold comparisonKind
  rw [Bool.or_comm]
  congr 1
  cases l.numericKind with
  | none =>
      cases r.numericKind with
      | none => rfl
      | some k => cases k <;> rfl
  | some k =>
      cases r.numericKind with
      | none => cases k <;> rfl
      | some k' => cases k <;> cases k' <;> rfl

/-- Both sides count as numbers of the kind as which they are compared. -/
theorem numericKind_of_comparisonKind {l r : Value} {k : NumericKind} (h : comparisonKind l r = some k) :
    ∃ kl kr, l.numericKind = some kl ∧ r.numericKind = some kr ∧ (k = .int → kl = .int ∧ kr = .int) := by
  unfold comparisonKind at h
  split_ifs at h
  split at h
  · rename_i hl hr
    exact ⟨_, _, hl, hr, fun _ => ⟨rfl, rfl⟩⟩
  · rename_i hl hr
    refine ⟨_, _, hl, hr, ?_⟩
    rintro rfl
    exact nomatch h
  · exact nomatch h

/-- The order of two values that are not compared as numbers, if they have one. -/
def textOrder : Value → Value → Option Ordering
  | str s, str t => some (compareTexts s t)
  | str s, nil => some (compareTexts s "")
  | nil, str t => some (compareTexts "" t)
  | nil, nil => some .eq
  | _, _ => none

theorem textOrder_swap (l r : Value) : textOrder r l = (textOrder l r).map Ordering.swap := by
  cases l with
  | nil =>
      cases r with
      | str t => exact congrArg some (compareTexts_swap "" t)
      | nil | bool b | int n | float x | list items => rfl
  | str s =>
      cases r with
      | nil => exact congrArg some (compareTexts_swap s "")
      | str t => exact congrArg some (compareTexts_swap s t)
      | bool b | int n | float x | list items => rfl
  | bool b | int n | float x | list items => cases r <;> rfl

section
variable {l r : Value}

theorem ordering_of_float {x y : Float} (hk : comparisonKind l r = some .float) (hx : l.toFloat = .ok x)
    (hy : r.toFloat = .ok y) : ordering l r = .ok (compareFloats x y) := by
  unfold ordering
  rw [hk, hx, hy]
  rfl

theorem ordering_of_int {n m : Int64} (hk : comparisonKind l r = some .int) (hn : l.toInt64 = .ok n)
    (hm : r.toInt64 = .ok m) : ordering l r = .ok (some (compareInts n m)) := by
  unfold ordering
  rw [hk, hn, hm]
  rfl

theorem ordering_of_none (hk : comparisonKind l r = none) : ordering l r = .ok (textOrder l r) := by
  unfold ordering
  rw [hk]
  cases l <;> cases r <;> rfl

end

/-- Two values have an order or none, and the other way round they have the mirrored one. -/
theorem exists_ordering (l r : Value) :
    ∃ o, ordering l r = .ok o ∧ ordering r l = .ok (o.map Ordering.swap) := by
  have hcomm := comparisonKind_comm l r
  cases hk : comparisonKind l r with
  | none =>
      refine ⟨textOrder l r, ordering_of_none hk, ?_⟩
      rw [ordering_of_none (hcomm.trans hk), textOrder_swap]
  | some k =>
      obtain ⟨kl, kr, hl, hr, hint⟩ := numericKind_of_comparisonKind hk
      cases k with
      | float =>
          obtain ⟨x, hx⟩ := exists_toFloat_of_numericKind hl
          obtain ⟨y, hy⟩ := exists_toFloat_of_numericKind hr
          refine ⟨compareFloats x y, ordering_of_float hk hx hy, ?_⟩
          rw [ordering_of_float (hcomm.trans hk) hy hx, Number.compareFloats_swap]
      | int =>
          obtain ⟨rfl, rfl⟩ := hint rfl
          obtain ⟨n, hn⟩ := exists_toInt64_of_numericKind hl
          obtain ⟨m, hm⟩ := exists_toInt64_of_numericKind hr
          refine ⟨some (compareInts n m), ordering_of_int hk hn hm, ?_⟩
          rw [ordering_of_int (hcomm.trans hk) hm hn, compareInts_swap, Option.map_some]

/-! ## Equality -/

mutual
theorem same_comm (l r : Value) : l.same r = r.same l := by
  cases l with
  | nil => cases r <;> rfl
  | bool a =>
      cases r with
      | bool b => exact Bool.beq_comm
      | nil | int n | float x | str s | list items => rfl
  | int n =>
      cases r with
      | int m => exact BEq.comm
      | nil | bool b | float x | str s | list items => rfl
  | float x =>
      cases r with
      | float y => exact Number.beq_comm x y
      | nil | bool b | int n | str s | list items => rfl
  | str s =>
      cases r with
      | str t => exact BEq.comm
      | nil | bool b | int n | float x | list items => rfl
  | list xs =>
      cases r with
      | list ys => exact sameItems_comm xs ys
      | nil | bool b | int n | float x | str s => rfl
termination_by structural l

theorem sameItems_comm (xs ys : List Value) : sameItems xs ys = sameItems ys xs := by
  cases xs with
  | nil => cases ys <;> rfl
  | cons x xs =>
      cases ys with
      | nil => rfl
      | cons y ys => rw [sameItems, sameItems, same_comm x y, sameItems_comm xs ys]
termination_by structural xs
end

theorem equal_swap (o : Option Ordering) (l r : Value) : equal (o.map Ordering.swap) r l = equal o l r := by
  cases o with
  | some o => cases o <;> rfl
  | none =>
      -- Only a truth value beside nil is not compared by `same`.
      have hsame := same_comm r l
      cases l with
      | nil =>
          cases r with
          | bool b => rfl
          | nil | int n | float x | str s | list items => exact hsame
      | bool b =>
          cases r with
          | nil => rfl
          | bool b | int n | float x | str s | list items => exact hsame
      | int n | float x | str s | list items => cases r <;> exact hsame

/-! ## The six comparisons -/

section
variable {l r : Value}

theorem compare_eq_of_ordering {o : Option Ordering} (h : ordering l r = .ok o) :
    compare .eq l r = .ok (equal o l r) := by
  rw [compare, h]
  rfl

theorem compare_ne_of_ordering {o : Option Ordering} (h : ordering l r = .ok o) :
    compare .ne l r = .ok (!equal o l r) := by
  rw [compare, h]
  rfl

/-- Where there is an order, every comparison is read off from it. -/
theorem compare_of_ordering_some {o : Ordering} (h : ordering l r = .ok (some o)) (op : Comparison) :
    compare op l r = .ok (holdsFor op o) := by
  rw [compare, h]
  cases op <;> rfl

theorem compare_of_ordering_none (h : ordering l r = .ok none) {op : Comparison} (heq : op ≠ .eq)
    (hne : op ≠ .ne) : compare op l r = .error (.unordered op l.type r.type) := by
  rw [compare, h]
  cases op with
  | eq => exact absurd rfl heq
  | ne => exact absurd rfl hne
  | lt | le | gt | ge => rfl

theorem holdsFor_mirror (op : Comparison) (o : Ordering) : holdsFor op.mirror o.swap = holdsFor op o := by
  cases op <;> cases o <;> rfl

/-- A comparison and its mirror image have the same outcome, or both fail. -/
theorem compare_mirror (op : Comparison) (l r : Value) (b : Bool) :
    compare op.mirror r l = .ok b ↔ compare op l r = .ok b := by
  obtain ⟨o, hlr, hrl⟩ := exists_ordering l r
  cases o with
  | some o =>
      rw [compare_of_ordering_some hlr, compare_of_ordering_some hrl, holdsFor_mirror]
  | none =>
      cases op with
      | eq => rw [Comparison.mirror, compare_eq_of_ordering hlr, compare_eq_of_ordering hrl, equal_swap]
      | ne => rw [Comparison.mirror, compare_ne_of_ordering hlr, compare_ne_of_ordering hrl, equal_swap]
      | lt | le | gt | ge =>
          simp [Comparison.mirror, compare_of_ordering_none hlr, compare_of_ordering_none hrl]

end

/-- Comparisons of any two values fit together. None fails for a cast; equality and inequality are defined for all
values, symmetric, and each other's negation. The comparisons that need an order either all fail for the lack of
one, or exactly one of less, equal and greater holds and the other two are the negations of greater and less. And
each comparison has the outcome of its mirror image the other way round. -/
theorem compare_coherent (l r : Value) :
    (∀ op e, compare op l r ≠ .error (.cast e)) ∧
    (∃ b, compare .eq l r = .ok b ∧ compare .eq r l = .ok b ∧
      compare .ne l r = .ok (!b) ∧ compare .ne r l = .ok (!b)) ∧
    ((∀ op ∈ [Comparison.lt, .le, .gt, .ge], compare op l r = .error (.unordered op l.type r.type)) ∨
      ∃ less equal greater : Bool, [less, equal, greater].count true = 1 ∧
        compare .lt l r = .ok less ∧ compare .eq l r = .ok equal ∧ compare .gt l r = .ok greater ∧
        compare .le l r = .ok (!greater) ∧ compare .ge l r = .ok (!less)) ∧
    (∀ op b, compare op.mirror r l = .ok b ↔ compare op l r = .ok b) := by
  obtain ⟨o, hlr, hrl⟩ := exists_ordering l r
  refine ⟨?_, ⟨equal o l r, ?_, ?_, ?_, ?_⟩, ?_, ?_⟩
  · intro op e
    cases o with
    | some o => simp [compare_of_ordering_some hlr]
    | none =>
        cases op with
        | eq => simp [compare_eq_of_ordering hlr]
        | ne => simp [compare_ne_of_ordering hlr]
        | lt | le | gt | ge => simp [compare_of_ordering_none hlr]
  · exact compare_eq_of_ordering hlr
  · rw [compare_eq_of_ordering hrl, equal_swap]
  · exact compare_ne_of_ordering hlr
  · rw [compare_ne_of_ordering hrl, equal_swap]
  · cases o with
    | none =>
        left
        intro op hop
        apply compare_of_ordering_none hlr
        · rintro rfl
          exact absurd hop (by decide)
        · rintro rfl
          exact absurd hop (by decide)
    | some o =>
        right
        refine ⟨holdsFor .lt o, holdsFor .eq o, holdsFor .gt o, ?_, ?_, ?_, ?_, ?_, ?_⟩
        · cases o <;> rfl
        · exact compare_of_ordering_some hlr .lt
        · exact compare_of_ordering_some hlr .eq
        · exact compare_of_ordering_some hlr .gt
        · rw [compare_of_ordering_some hlr]
          cases o <;> rfl
        · rw [compare_of_ordering_some hlr]
          cases o <;> rfl
  · exact fun op b => compare_mirror op l r b

/-- A number and the text of a larger one have an order. -/
example : compare .lt (int 1) (str " 2") = .ok true ∧ compare .ge (int 1) (str " 2") = .ok false := ⟨rfl, rfl⟩

/-- A truth value and a number have none, and are not equal. -/
example : compare .lt (bool true) (int 1) = .error (.unordered .lt .bool .int) ∧
    compare .eq (bool true) (int 1) = .ok false := ⟨rfl, rfl⟩

end Value

end RecordRules
