import RecordRules.Expr.Comparison
import RecordRules.Proofs.Number.Bits

/-!
# The order of doubles

Two doubles compared the other way round stand to each other the other way round, and are unordered in both
directions or in neither. So equality is symmetric, although NaN does not equal itself. Only the two zeros equal
zero.
-/
namespace RecordRules.Number

open Float.Model

theorem unpacked_compare_swap (a b : UnpackedFloat) : b.compare a = (a.compare b).map Ordering.swap := by
  cases a with
  | notANumber => cases b <;> rfl
  | infinity s =>
      cases b with
      | notANumber => cases s <;> rfl
      | infinity t => cases s <;> cases t <;> rfl
      | zero t => cases s <;> rfl
      | finite t n f hn => cases s <;> cases t <;> rfl
  | zero s =>
      cases b with
      | notANumber => rfl
      | infinity t => cases t <;> rfl
      | zero t => rfl
      | finite t n f hn => cases t <;> rfl
  | finite s m e hm =>
      cases b with
      | notANumber => cases s <;> rfl
      | infinity t => cases s <;> cases t <;> rfl
      | zero t => cases s <;> rfl
      | finite t n f hn =>
          have hmagnitude : (compare f e).then (compare n m) = ((compare e f).then (compare m n)).swap := by
            rw [Ordering.swap_then, Int.compare_swap, Nat.compare_swap]
          cases s with
          | negative =>
              cases t with
              | negative => exact congrArg (fun o => some (Ordering.swap o)) hmagnitude
              | positive => rfl
          | positive =>
              cases t with
              | negative => rfl
              | positive => exact congrArg some hmagnitude

theorem model_compare_swap (x y : Float) :
    y.toModel.compare x.toModel = (x.toModel.compare y.toModel).map Ordering.swap :=
  unpacked_compare_swap x.toModel.unpack y.toModel.unpack

theorem lt_iff (x y : Float) : x < y ↔ x.toModel.compare y.toModel = some .lt := by
  have hmodel : (x < y) = (decide ((x.toModel.compare y.toModel == some .lt) = true) = true) := rfl
  rw [hmodel, decide_eq_true_iff, beq_iff_eq]

theorem beq_iff (x y : Float) : (x == y) = true ↔ x.toModel.compare y.toModel = some .eq := by
  have hmodel : (x == y) = (x.toModel.compare y.toModel == some .eq) := rfl
  rw [hmodel, beq_iff_eq]

theorem beq_comm (x y : Float) : (x == y) = (y == x) := by
  rw [Bool.eq_iff_iff, beq_iff, beq_iff, model_compare_swap x y]
  cases x.toModel.compare y.toModel with
  | none => simp
  | some o => cases o <;> simp

/-- The doubles that equal zero are the two zeros. -/
theorem beq_zero_iff (x : Float) : (x == 0.0) = true ↔ x = 0.0 ∨ x = -0.0 := by
  constructor
  · intro h
    obtain ⟨s, e, m, hbits⟩ := exists_components x.toBits.toBitVec
    have hcompare : x.toModel.compare (0.0 : Float).toModel =
        (UnpackedFloat.unpack .binary64 x.toBits.toBitVec).compare (.zero .positive) := rfl
    rw [beq_iff, hcompare, hbits] at h
    have hu := unpacks s e m
    generalize UnpackedFloat.unpack .binary64 (components s e m) = u at hu h
    cases hu with
    | notANumber he hm => exact nomatch h
    | infinity he hm => cases s <;> exact nomatch h
    | subnormal he hm => cases s <;> exact nomatch h
    | normal he he' hm => cases s <;> exact nomatch h
    | zero he hm =>
        rw [he, hm] at hbits
        cases s with
        | positive => exact .inl (eq_of_toBits_eq (UInt64.toBitVec_inj.1 hbits))
        | negative => exact .inr (eq_of_toBits_eq (UInt64.toBitVec_inj.1 hbits))
  · rintro (rfl | rfl)
    · rfl
    · rfl

/-- The three comparisons by which doubles are ordered are those of one order. -/
theorem compareFloats_eq (x y : Float) : compareFloats x y = x.toModel.compare y.toModel := by
  unfold compareFloats
  simp only [lt_iff, beq_iff, model_compare_swap x y]
  cases x.toModel.compare y.toModel with
  | none => simp
  | some o => cases o <;> simp

theorem compareFloats_swap (x y : Float) : compareFloats y x = (compareFloats x y).map Ordering.swap := by
  rw [compareFloats_eq, compareFloats_eq, model_compare_swap]

end RecordRules.Number
