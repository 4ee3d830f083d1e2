import Mathlib.Tactic.SplitIfs
import RecordRules.Expr.Arithmetic
import RecordRules.Proofs.Failure
import RecordRules.Proofs.Number.Order

/-!
# Arithmetic on any two values

What arithmetic gives for any two values. Unless one of them is like a floating-point number, it is the exact result
on the integers to which they are cast, taken modulo `2 ^ 64` into the signed range; otherwise it is the result on
doubles. It fails for a divisor that is zero, and for an operand that cannot be cast, the left one first, and in no
other case.
-/
namespace RecordRules

namespace Arithmetic

/-- The operation on integers without bounds; division goes toward zero. -/
def onWhole : Arithmetic → ℤ → ℤ → ℤ
  | add, a, b => a + b
  | sub, a, b => a - b
  | mul, a, b => a * b
  | div, a, b => a.tdiv b

/-- The operation on doubles. -/
def onDoubles : Arithmetic → Float → Float → Float
  | add, x, y => x + y
  | sub, x, y => x - y
  | mul, x, y => x * y
  | div, x, y => x / y

/-- A quotient that is out of range, that of the least integer by minus one, is no exception. -/
theorem onInts_of_defined {op : Arithmetic} {a b : Int64} (h : ¬(op = .div ∧ b = 0)) :
    ∃ n, op.onInts a b = .ok (.int n) ∧ n.toInt = (op.onWhole a.toInt b.toInt).bmod (2 ^ 64) := by
  cases op with
  | add => exact ⟨a + b, rfl, Int64.toInt_add a b⟩
  | sub => exact ⟨a - b, rfl, Int64.toInt_sub a b⟩
  | mul => exact ⟨a * b, rfl, Int64.toInt_mul a b⟩
  | div =>
      have hb : b ≠ 0 := fun hb => h ⟨rfl, hb⟩
      exact ⟨a / b, if_neg hb, Int64.toInt_div a b⟩

theorem onFloats_of_defined {op : Arithmetic} {x y : Float} (h : ¬(op = .div ∧ (y = 0.0 ∨ y = -0.0))) :
    op.onFloats x y = .ok (.float (op.onDoubles x y)) := by
  cases op with
  | add | sub | mul => rfl
  | div =>
      have hy : ¬(y == 0.0) = true := fun hy => h ⟨rfl, (Number.beq_zero_iff y).1 hy⟩
      exact if_neg hy

end Arithmetic

namespace Value

/-- The value is a floating-point number, or a text that spells one and no integer. -/
def IsFloatLike : Value → Prop
  | float _ => True
  | str s => (floatOfText? s).isSome ∧ int64OfText? s = none
  | _ => False

theorem isFloatLike_iff (v : Value) : v.isFloatLike = true ↔ v.IsFloatLike := by
  cases v with
  | float x => exact iff_of_true rfl trivial
  | nil | bool b | int n | list items => exact iff_of_false Bool.false_ne_true id
  | str s =>
      rw [isFloatLike, beq_iff_eq, numericKind, IsFloatLike, ← Option.not_isSome_iff_eq_none]
      split_ifs with hint hfloat
      · simp [hint]
      · simp [hint, hfloat]
      · simp [hfloat]

instance : DecidablePred IsFloatLike := fun v => decidable_of_iff _ v.isFloatLike_iff

/-- The kind of number to which both operands are cast. -/
def commonKind (l r : Value) : Kind := if l.IsFloatLike ∨ r.IsFloatLike then .float else .int64

variable {l r : Value} {op : Arithmetic}

theorem compute_of_floatLike (h : l.IsFloatLike ∨ r.IsFloatLike) :
    compute op l r = (do op.onFloats (← ofCast l.toFloat) (← ofCast r.toFloat)) := by
  rw [← isFloatLike_iff, ← isFloatLike_iff, ← Bool.or_eq_true] at h
  exact if_pos h

theorem compute_of_not_floatLike (h : ¬(l.IsFloatLike ∨ r.IsFloatLike)) :
    compute op l r = (do op.onInts (← ofCast l.toInt64) (← ofCast r.toInt64)) := by
  rw [← isFloatLike_iff, ← isFloatLike_iff, ← Bool.or_eq_true] at h
  exact if_neg h

theorem compute_ints {a b : Int64} (h : ¬(l.IsFloatLike ∨ r.IsFloatLike)) (ha : l.toInt64 = .ok a)
    (hb : r.toInt64 = .ok b) : compute op l r = op.onInts a b := by
  rw [compute_of_not_floatLike h, ha, hb]
  rfl

theorem compute_floats {x y : Float} (h : l.IsFloatLike ∨ r.IsFloatLike) (hx : l.toFloat = .ok x)
    (hy : r.toFloat = .ok y) : compute op l r = op.onFloats x y := by
  rw [compute_of_floatLike h, hx, hy]
  rfl

theorem cast_of_floatLike (h : l.IsFloatLike ∨ r.IsFloatLike) (v : Value) :
    v.cast (commonKind l r) = v.toFloat.map float := by
  rw [commonKind, if_pos h]
  rfl

theorem cast_of_not_floatLike (h : ¬(l.IsFloatLike ∨ r.IsFloatLike)) (v : Value) :
    v.cast (commonKind l r) = v.toInt64.map int := by
  rw [commonKind, if_neg h]
  rfl

/-- An operand that cannot be cast is an error, whatever the other one is. -/
theorem compute_of_left_error {e : CastError} (h : l.cast (commonKind l r) = .error e) :
    compute op l r = .error (.cast e) := by
  by_cases hkind : l.IsFloatLike ∨ r.IsFloatLike
  · rw [cast_of_floatLike hkind, map_eq_error_iff] at h
    rw [compute_of_floatLike hkind, h]
    rfl
  · rw [cast_of_not_floatLike hkind, map_eq_error_iff] at h
    rw [compute_of_not_floatLike hkind, h]
    rfl

theorem compute_of_right_error {v : Value} {e : CastError} (hl : l.cast (commonKind l r) = .ok v)
    (hr : r.cast (commonKind l r) = .error e) : compute op l r = .error (.cast e) := by
  by_cases hkind : l.IsFloatLike ∨ r.IsFloatLike
  · rw [cast_of_floatLike hkind] at hl hr
    obtain ⟨x, hx, -⟩ := exists_of_map_eq_ok hl
    rw [compute_of_floatLike hkind, hx, map_eq_error_iff.1 hr]
    rfl
  · rw [cast_of_not_floatLike hkind] at hl hr
    obtain ⟨a, ha, -⟩ := exists_of_map_eq_ok hl
    rw [compute_of_not_floatLike hkind, ha, map_eq_error_iff.1 hr]
    rfl

theorem negate_eq_sub (h : ¬r.IsFloatLike) : r.negate = compute .sub (int 0) r := by
  have hkind : ¬((int 0).IsFloatLike ∨ r.IsFloatLike) := not_or.2 ⟨id, h⟩
  rw [compute_of_not_floatLike hkind, negate, if_neg (mt r.isFloatLike_iff.1 h)]
  cases r.toInt64 with
  | error e => rfl
  | ok n => exact congrArg (fun m => Except.ok (int m)) (Int64.zero_sub n).symm

/-- Arithmetic on any two values. On integers the result is the exact one modulo `2 ^ 64` in the signed range, and
only division by zero fails; if one operand is like a floating-point number the result is that on doubles, and only
division by one of the two zeros fails. An operand that cannot be cast to the common kind is the error, the left one
before the right one. The negative of a value that is not like a floating-point number is zero minus the value. -/
theorem compute_exact (op : Arithmetic) (l r : Value) :
    (¬(l.IsFloatLike ∨ r.IsFloatLike) → ∀ a b, l.toInt64 = .ok a → r.toInt64 = .ok b →
      (op = .div ∧ b = 0 → compute op l r = .error .divisionByZero) ∧
      (¬(op = .div ∧ b = 0) → ∃ n, compute op l r = .ok (.int n) ∧
        n.toInt = (op.onWhole a.toInt b.toInt).bmod (2 ^ 64))) ∧
    (l.IsFloatLike ∨ r.IsFloatLike → ∀ x y, l.toFloat = .ok x → r.toFloat = .ok y →
      (op = .div ∧ (y = 0.0 ∨ y = -0.0) → compute op l r = .error .divisionByZero) ∧
      (¬(op = .div ∧ (y = 0.0 ∨ y = -0.0)) → compute op l r = .ok (.float (op.onDoubles x y)))) ∧
    (∀ e, l.cast (commonKind l r) = .error e → compute op l r = .error (.cast e)) ∧
    (∀ v e, l.cast (commonKind l r) = .ok v → r.cast (commonKind l r) = .error e →
      compute op l r = .error (.cast e)) ∧
    (¬r.IsFloatLike → r.negate = compute .sub (int 0) r) := by
  refine ⟨?_, ?_, fun e => compute_of_left_error, fun v e => compute_of_right_error, negate_eq_sub⟩
  · intro hkind a b ha hb
    rw [compute_ints hkind ha hb]
    refine ⟨?_, Arithmetic.onInts_of_defined⟩
    rintro ⟨rfl, hzero⟩
    exact if_pos hzero
  · intro hkind x y hx hy
    rw [compute_floats hkind hx hy]
    refine ⟨?_, Arithmetic.onFloats_of_defined⟩
    rintro ⟨rfl, hzero⟩
    exact if_pos ((Number.beq_zero_iff y).2 hzero)

/-- The least integer divided by minus one, written as a text with blanks, and the negative of the least integer are
the least integer again. -/
theorem compute_exact_least :
    compute .div (int Int64.minValue) (str " -1 ") = .ok (int Int64.minValue) ∧
      (int Int64.minValue).negate = .ok (int Int64.minValue) := by
  have hkind : ¬((int Int64.minValue).IsFloatLike ∨ (str " -1 ").IsFloatLike) := by decide
  have hone : (str " -1 ").toInt64 = .ok (-1) := rfl
  constructor
  · obtain ⟨n, hn, hvalue⟩ := ((compute_exact .div (int Int64.minValue) (str " -1 ")).1 hkind _ _ rfl hone).2
      (by decide)
    obtain rfl : n = Int64.minValue := Int64.toInt_inj.1 hvalue
    exact hn
  · rw [(compute_exact .sub (int 0) (int Int64.minValue)).2.2.2.2 id]
    rfl

end Value

end RecordRules
