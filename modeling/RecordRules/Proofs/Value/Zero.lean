import RecordRules.Proofs.Value.Arithmetic
import RecordRules.Proofs.Value.Comparison

/-!
# Nil as a zero

Beside another value nil acts as a zero: in comparisons as the zero of the other value's type, in arithmetic as the
integer zero.
-/
namespace RecordRules

/-- The zero of a type. Lists have none, and that of nil is nil itself. -/
def ValueType.zero? : ValueType → Option Value
  | nil => some .nil
  | bool => some (.bool false)
  | int => some (.int 0)
  | float => some (.float 0.0)
  | str => some (.str "")
  | list => none

theorem ValueType.exists_zero {t : ValueType} (h : t ≠ list) : ∃ z, t.zero? = some z ∧ z.type = t := by
  cases t with
  | list => exact absurd rfl h
  | nil | bool | int | float | str => exact ⟨_, rfl, rfl⟩

namespace Value

variable {v z : Value}

/-- A comparison has a truth value, or it needs an order and there is none. -/
theorem compare_cases (op : Comparison) (l r : Value) :
    (∃ b, compare op l r = .ok b) ∨ compare op l r = .error (.unordered op l.type r.type) := by
  obtain ⟨o, ho, -⟩ := exists_ordering l r
  cases o with
  | some o => exact .inl ⟨_, compare_of_ordering_some ho op⟩
  | none =>
      cases op with
      | eq => exact .inl ⟨_, compare_eq_of_ordering ho⟩
      | ne => exact .inl ⟨_, compare_ne_of_ordering ho⟩
      | lt | le | gt | ge => exact .inr (compare_of_ordering_none ho (by decide) (by decide))

/-! ## Comparisons -/

theorem ordering_nil (h : v.type.zero? = some z) : ordering nil v = ordering z v := by
  cases v with
  | list items => exact nomatch h
  | nil | bool b | int n | float x | str s =>
      obtain rfl := Option.some.inj h
      rfl

theorem equal_nil (h : v.type.zero? = some z) (ho : ordering z v = .ok none) : equal none nil v = equal none z v := by
  cases v with
  | list items => exact nomatch h
  | nil =>
      obtain rfl := Option.some.inj h
      rfl
  | bool b =>
      obtain rfl := Option.some.inj h
      cases b <;> rfl
  | int n | str s =>
      obtain rfl := Option.some.inj h
      exact nomatch ho
  | float x =>
      obtain rfl := Option.some.inj h
      have hnone : compareFloats 0.0 x = none := Except.ok.inj ho
      rw [Number.compareFloats_eq] at hnone
      have hne : ¬(0.0 == x) = true := by
        rw [Number.beq_iff, hnone]
        exact nofun
      exact (Bool.eq_false_of_not_eq_true hne).symm

theorem compare_nil_left (h : v.type.zero? = some z) (op : Comparison) (b : Bool) :
    compare op nil v = .ok b ↔ compare op z v = .ok b := by
  obtain ⟨o, ho, -⟩ := exists_ordering z v
  have hnil : ordering nil v = .ok o := (ordering_nil h).trans ho
  cases o with
  | some o => rw [compare_of_ordering_some ho, compare_of_ordering_some hnil]
  | none =>
      have hequal := equal_nil h ho
      cases op with
      | eq => rw [compare_eq_of_ordering ho, compare_eq_of_ordering hnil, hequal]
      | ne => rw [compare_ne_of_ordering ho, compare_ne_of_ordering hnil, hequal]
      | lt | le | gt | ge => simp [compare_of_ordering_none ho, compare_of_ordering_none hnil]

theorem compare_nil_right (h : v.type.zero? = some z) (op : Comparison) (b : Bool) :
    compare op v nil = .ok b ↔ compare op v z = .ok b := by
  rw [← compare_mirror op v nil, ← compare_mirror op v z]
  exact compare_nil_left h op.mirror b

/-- Two comparisons have one truth value, or neither pair of values has an order. -/
def SameVerdict (op : Comparison) (l r l' r' : Value) : Prop :=
  (∃ b, compare op l r = .ok b ∧ compare op l' r' = .ok b) ∨
    (compare op l r = .error (.unordered op l.type r.type) ∧
      compare op l' r' = .error (.unordered op l'.type r'.type))

theorem sameVerdict_of_iff {op : Comparison} {l r l' r' : Value}
    (h : ∀ b, compare op l r = .ok b ↔ compare op l' r' = .ok b) : SameVerdict op l r l' r' := by
  rcases compare_cases op l r with ⟨b, hb⟩ | herror
  · exact .inl ⟨b, hb, (h b).1 hb⟩
  · refine .inr ⟨herror, (compare_cases op l' r').resolve_left ?_⟩
    rintro ⟨b, hb⟩
    rw [(h b).2 hb] at herror
    exact nomatch herror

theorem sameVerdict_nil (h : v.type.zero? = some z) (op : Comparison) :
    SameVerdict op nil v z v ∧ SameVerdict op v nil v z :=
  ⟨sameVerdict_of_iff (compare_nil_left h op), sameVerdict_of_iff (compare_nil_right h op)⟩

/-! ## Arithmetic -/

/-- Nil is not like a floating-point number, and is cast to the same numbers as the integer zero. -/
theorem compute_nil (op : Arithmetic) (v : Value) :
    compute op nil v = compute op (int 0) v ∧ compute op v nil = compute op v (int 0) := ⟨rfl, rfl⟩

end Value

end RecordRules
