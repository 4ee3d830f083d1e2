import Mathlib.Data.Nat.Log
import Mathlib.Tactic.NormNum
import RecordRules.Number.Numeral

/-!
# The bits of doubles

How sign and pattern make up a double. A double other than NaN is the one with its sign and its pattern, and
changing the sign of a double changes the sign alone. Both rest on the packing of bits that `Float` is defined
by: apart from NaN, packing takes back what unpacking does.
-/
namespace RecordRules.Number

open Float.Model.UnpackedFloat

/-! ## The parts of a bit string -/

/-- The bits of a double with the given sign, exponent and significand. -/
abbrev components (s : Sign) (e : BitVec 11) (m : BitVec 52) : BitVec 64 := packComponents .binary64 s e m

theorem toBitVec_ofBitVec (b : BitVec 1) : (Sign.ofBitVec b).toBitVec = b := by
  revert b
  decide

theorem ofBitVec_toBitVec (s : Sign) : Sign.ofBitVec s.toBitVec = s := by
  cases s <;> rfl

theorem toNat_components (s : Sign) (e : BitVec 11) (m : BitVec 52) :
    (components s e m).toNat = s.toBitVec.toNat * 2 ^ 63 + e.toNat * 2 ^ 52 + m.toNat := by
  have happend : (components s e m).toNat = (s.toBitVec ++ e ++ m).toNat := rfl
  rw [happend, BitVec.toNat_append, BitVec.toNat_append, ← Nat.shiftLeft_add_eq_or_of_lt e.isLt,
    ← Nat.shiftLeft_add_eq_or_of_lt m.isLt, Nat.shiftLeft_eq, Nat.shiftLeft_eq]
  omega

theorem unpackSign_components (s : Sign) (e : BitVec 11) (m : BitVec 52) :
    Sign.ofBitVec (@unpackSign .binary64 (components s e m)) = s := by
  have hsign : @unpackSign .binary64 (components s e m) = s.toBitVec := by
    apply BitVec.eq_of_toNat_eq
    change ((components s e m).extractLsb 63 63).toNat = _
    rw [BitVec.extractLsb_toNat, toNat_components, Nat.shiftRight_eq_div_pow]
    have hs := s.toBitVec.isLt
    have he := e.isLt
    have hm := m.isLt
    omega
  rw [hsign, ofBitVec_toBitVec]

/-- Every bit string has the three parts. -/
theorem exists_components (b : BitVec 64) : ∃ s e m, b = components s e m := by
  refine ⟨Sign.ofBitVec (BitVec.ofNat 1 (b.toNat / 2 ^ 63)), BitVec.ofNat 11 (b.toNat / 2 ^ 52),
    BitVec.ofNat 52 b.toNat, BitVec.eq_of_toNat_eq ?_⟩
  have hb := b.isLt
  rw [toNat_components, toBitVec_ofBitVec, BitVec.toNat_ofNat, BitVec.toNat_ofNat, BitVec.toNat_ofNat]
  omega

/-! ## Packing takes back unpacking -/

/-- What a double with the given parts is unpacked to. -/
inductive Unpacks (s : Sign) (e : BitVec 11) (m : BitVec 52) : Float.Model.UnpackedFloat → Prop where
  | infinity (he : e = -1#11) (hm : m = 0#52) : Unpacks s e m (.infinity s)
  | notANumber (he : e = -1#11) (hm : m ≠ 0#52) : Unpacks s e m .notANumber
  | zero (he : e = 0#11) (hm : m = 0#52) : Unpacks s e m (.zero s)
  | subnormal (he : e = 0#11) (hm : 0 < m.toNat) : Unpacks s e m (.finite s m.toNat (-1074) hm)
  | normal (he : e ≠ -1#11) (he' : e ≠ 0#11) (hm : 0 < (1#1 ++ m).toNat) :
      Unpacks s e m (.finite s (1#1 ++ m).toNat (e.toNat - 1075) hm)

theorem unpacks (s : Sign) (e : BitVec 11) (m : BitVec 52) :
    Unpacks s e m (unpack .binary64 (components s e m)) := by
  have hs : Sign.ofBitVec (@unpackSign .binary64 (components s e m)) = s := unpackSign_components s e m
  have he : @unpackExponent .binary64 (components s e m) = e := unpackExponent_packComponents ..
  have hm : @unpackMantissa .binary64 (components s e m) = m := unpackMantissa_packComponents ..
  generalize components s e m = b at hs he hm ⊢
  subst hs he hm
  delta unpack
  dsimp only
  by_cases htop : @unpackExponent .binary64 b = -1#11
  · rw [if_pos htop]
    by_cases hmant : @unpackMantissa .binary64 b = 0#52
    · rw [if_pos hmant]
      exact .infinity htop hmant
    · rw [if_neg hmant]
      exact .notANumber htop hmant
  · rw [if_neg htop]
    by_cases hzero : @unpackExponent .binary64 b = 0#11
    · rw [if_pos hzero]
      by_cases hmant : @unpackMantissa .binary64 b = 0#52
      · rw [dif_pos hmant]
        exact .zero hzero hmant
      · rw [dif_neg hmant]
        generalize @unpackExponent .binary64 b = e at hzero ⊢
        subst hzero
        exact .subnormal rfl _
    · rw [if_neg hzero]
      exact .normal htop hzero _

theorem Unpacks.unique {s : Sign} {e : BitVec 11} {m : BitVec 52} {u v : Float.Model.UnpackedFloat}
    (hu : Unpacks s e m u) (hv : Unpacks s e m v) : u = v := by
  have hzero (hm : 0 < m.toNat) : m ≠ 0#52 := by
    rintro rfl
    exact absurd hm (by decide)
  have htop (h : e = 0#11) : e ≠ -1#11 := fun h' => nomatch h.symm.trans h'
  cases hu <;> cases hv <;>
    first | rfl | contradiction | exact absurd ‹_› (hzero ‹_›) | exact absurd ‹_› (htop ‹_›)

theorem Unpacks.neg {s : Sign} {e : BitVec 11} {m : BitVec 52} {u : Float.Model.UnpackedFloat}
    (h : Unpacks s e m u) : Unpacks (-s) e m u.neg := by
  cases h with
  | infinity he hm => exact .infinity he hm
  | notANumber he hm => exact .notANumber he hm
  | zero he hm => exact .zero he hm
  | subnormal he hm => exact .subnormal he hm
  | normal he he' hm => exact .normal he he' hm

theorem unpack_neg (s : Sign) (e : BitVec 11) (m : BitVec 52) :
    (unpack .binary64 (components s e m)).neg = unpack .binary64 (components (-s) e m) :=
  (unpacks s e m).neg.unique (unpacks (-s) e m)

theorem isNaN_unpack (s : Sign) (e : BitVec 11) (m : BitVec 52) :
    (unpack .binary64 (components s e m)).isNaN = true ↔ e = -1#11 ∧ m ≠ 0#52 := by
  have h := unpacks s e m
  generalize unpack .binary64 (components s e m) = u at h ⊢
  cases h with
  | infinity he hm => exact iff_of_false Bool.false_ne_true fun h => h.2 hm
  | notANumber he hm => exact iff_of_true rfl ⟨he, hm⟩
  | zero he hm => exact iff_of_false Bool.false_ne_true fun h => h.2 hm
  | subnormal he hm => exact iff_of_false Bool.false_ne_true fun h => nomatch he.symm.trans h.1
  | normal he he' hm => exact iff_of_false Bool.false_ne_true fun h => he h.1

theorem isFinite_unpack (s : Sign) (e : BitVec 11) (m : BitVec 52) :
    (unpack .binary64 (components s e m)).isFinite = true ↔ e ≠ -1#11 := by
  have h := unpacks s e m
  generalize unpack .binary64 (components s e m) = u at h ⊢
  cases h with
  | infinity he hm => exact iff_of_false Bool.false_ne_true (not_not.2 he)
  | notANumber he hm => exact iff_of_false Bool.false_ne_true (not_not.2 he)
  | zero he hm => exact iff_of_true rfl fun h => nomatch he.symm.trans h
  | subnormal he hm => exact iff_of_true rfl fun h => nomatch he.symm.trans h
  | normal he he' hm => exact iff_of_true rfl he

theorem pack_subnormal (s : Sign) (m : BitVec 52) (h : 0 < m.toNat) :
    pack .binary64 (.finite s m.toNat (-1074) h) = components s 0 m := by
  have hlog : m.toNat.log2 < 52 := (Nat.log2_lt h.ne').2 m.isLt
  have hfull : ¬m.toNat.log2 + 1 = 53 := by omega
  have hpack : pack .binary64 (.finite s m.toNat (-1074) h) =
      if m.toNat.log2 + 1 = 53 then components s (BitVec.ofNat 11 1) (BitVec.ofNat 52 m.toNat)
      else components s 0 (BitVec.ofNat 52 m.toNat) := rfl
  rw [hpack, if_neg hfull, BitVec.ofNat_toNat, BitVec.setWidth_eq]

theorem pack_normal (s : Sign) {e : BitVec 11} (m : BitVec 52) (htop : e ≠ -1#11)
    (h : 0 < (1#1 ++ m).toNat) :
    pack .binary64 (.finite s (1#1 ++ m).toNat (e.toNat - 1075) h) = components s e m := by
  have he := e.isLt
  have hm := m.isLt
  have hnat : (1#1 ++ m).toNat = 2 ^ 52 + m.toNat := by
    rw [BitVec.toNat_append, ← Nat.shiftLeft_add_eq_or_of_lt m.isLt, Nat.shiftLeft_eq]
    rfl
  have hlog : (2 ^ 52 + m.toNat).log2 = 52 := (Nat.log2_eq_iff (by omega)).2 ⟨by omega, by omega⟩
  have htop' : e.toNat ≠ 2047 := fun h => htop (BitVec.eq_of_toNat_eq h)
  have hbiased : ((e.toNat - 1075 : ℤ) + 1023 + 52).toNat = e.toNat := by omega
  have hsignificand : BitVec.ofNat 52 (2 ^ 52 + m.toNat) = m := by
    apply BitVec.eq_of_toNat_eq
    rw [BitVec.toNat_ofNat]
    omega
  have hpack : pack .binary64 (.finite s (1#1 ++ m).toNat (e.toNat - 1075) h) =
      if 2 ^ 11 ≤ ((e.toNat - 1075 : ℤ) + 1023 + 52).toNat + 1 then packedInfinity .binary64 s
      else if (1#1 ++ m).toNat.log2 + 1 = 53 then
        components s (BitVec.ofNat 11 ((e.toNat - 1075 : ℤ) + 1023 + 52).toNat) (BitVec.ofNat 52 (1#1 ++ m).toNat)
      else components s 0 (BitVec.ofNat 52 (1#1 ++ m).toNat) := rfl
  rw [hpack, hbiased, hnat, hlog, if_neg (by omega), if_pos rfl, hsignificand, BitVec.ofNat_toNat,
    BitVec.setWidth_eq]

/-- Apart from NaN, packing takes back unpacking. -/
theorem pack_unpack {s : Sign} {e : BitVec 11} {m : BitVec 52} (h : e = -1#11 → m = 0#52) :
    pack .binary64 (unpack .binary64 (components s e m)) = components s e m := by
  have hu := unpacks s e m
  generalize unpack .binary64 (components s e m) = u at hu ⊢
  cases hu with
  | infinity he hm =>
      rw [he, hm]
      rfl
  | notANumber he hm => exact absurd (h he) hm
  | zero he hm =>
      rw [he, hm]
      rfl
  | subnormal he hm =>
      rw [he]
      exact pack_subnormal s m hm
  | normal he he' hm => exact pack_normal s m he hm

/-! ## Doubles by sign and pattern -/

/-- The bits of a sign and a pattern, as far as infinity, are parts that packing takes back. -/
theorem exists_components_ofPattern (negative : Bool) {p : ℕ} (h : p ≤ Format.double.infinity) :
    ∃ e : BitVec 11, ∃ m : BitVec 52, (e = -1#11 → m = 0#52) ∧ p = e.toNat * 2 ^ 52 + m.toNat ∧
      (UInt64.ofNat (p + if negative then signBit else 0)).toBitVec =
        components (if negative then .negative else .positive) e m := by
  have hinf : Format.double.infinity = 2047 * 2 ^ 52 := rfl
  have he : (BitVec.ofNat 11 (p / 2 ^ 52)).toNat = p / 2 ^ 52 := by
    rw [BitVec.toNat_ofNat]
    omega
  have hm : (BitVec.ofNat 52 p).toNat = p % 2 ^ 52 := BitVec.toNat_ofNat _ _
  refine ⟨BitVec.ofNat 11 (p / 2 ^ 52), BitVec.ofNat 52 p, ?_, by omega, ?_⟩
  · intro htop
    have htop' : p / 2 ^ 52 = 2047 := by
      rw [← he, htop]
      rfl
    apply BitVec.eq_of_toNat_eq
    rw [hm, BitVec.toNat_ofNat]
    omega
  · apply BitVec.eq_of_toNat_eq
    rw [toNat_components, he, hm, UInt64.toNat_toBitVec, UInt64.toNat_ofNat', signBit]
    cases negative <;> simp [Sign.toBitVec] <;> omega

theorem toBits_ofPattern (negative : Bool) {p : ℕ} (h : p ≤ Format.double.infinity) :
    (ofPattern negative p).toBits = UInt64.ofNat (p + if negative then signBit else 0) := by
  obtain ⟨e, m, htop, -, hbits⟩ := exists_components_ofPattern negative h
  apply UInt64.toBitVec_inj.1
  have hpack : (ofPattern negative p).toBits.toBitVec =
      pack .binary64 (unpack .binary64 (UInt64.ofNat (p + if negative then signBit else 0)).toBitVec) := rfl
  rw [hpack, hbits, pack_unpack htop]

theorem toNat_toBits_ofPattern (negative : Bool) {p : ℕ} (h : p ≤ Format.double.infinity) :
    (ofPattern negative p).toBits.toNat = p + if negative then signBit else 0 := by
  have hinf : Format.double.infinity < signBit := by decide
  rw [toBits_ofPattern negative h, UInt64.toNat_ofNat', signBit] at *
  split_ifs <;> omega

theorem pattern_ofPattern (negative : Bool) {p : ℕ} (h : p ≤ Format.double.infinity) :
    pattern (ofPattern negative p) = p := by
  have hinf : Format.double.infinity < signBit := by decide
  rw [pattern, toNat_toBits_ofPattern negative h]
  split_ifs
  · rw [Nat.add_mod_right, Nat.mod_eq_of_lt (h.trans_lt hinf)]
  · rw [Nat.add_zero, Nat.mod_eq_of_lt (h.trans_lt hinf)]

theorem isNegative_ofPattern (negative : Bool) {p : ℕ} (h : p ≤ Format.double.infinity) :
    isNegative (ofPattern negative p) = negative := by
  have hinf : Format.double.infinity < signBit := by decide
  rw [isNegative, toNat_toBits_ofPattern negative h]
  cases negative with
  | true => simp
  | false => simpa using h.trans_lt hinf

theorem eq_of_toBits_eq {x y : Float} (h : x.toBits = y.toBits) : x = y := by
  obtain ⟨⟨b, hb⟩⟩ := x
  obtain ⟨⟨c, hc⟩⟩ := y
  obtain rfl : b = c := h
  rfl

theorem isNaN_ofPattern (negative : Bool) {p : ℕ} (h : p ≤ Format.double.infinity) :
    (ofPattern negative p).isNaN = false := by
  obtain ⟨e, m, htop, -, hbits⟩ := exists_components_ofPattern negative h
  have hunpack : (ofPattern negative p).isNaN =
      (unpack .binary64 (ofPattern negative p).toBits.toBitVec).isNaN := rfl
  rw [hunpack, toBits_ofPattern negative h, hbits, ← Bool.not_eq_true, isNaN_unpack]
  exact fun hnan => hnan.2 (htop hnan.1)

theorem isFinite_ofPattern (negative : Bool) {p : ℕ} (h : p ≤ Format.double.infinity) :
    (ofPattern negative p).isFinite = true ↔ p < Format.double.infinity := by
  obtain ⟨e, m, htop, hp, hbits⟩ := exists_components_ofPattern negative h
  have hunpack : (ofPattern negative p).isFinite =
      (unpack .binary64 (ofPattern negative p).toBits.toBitVec).isFinite := rfl
  have hinf : Format.double.infinity = 2047 * 2 ^ 52 := rfl
  have hm := m.isLt
  have he : e = -1#11 ↔ e.toNat = 2047 := (BitVec.toNat_inj (y := -1#11)).symm
  rw [hunpack, toBits_ofPattern negative h, hbits, isFinite_unpack, ne_eq, he]
  omega

/-- Changing the sign of a double leaves its pattern as it is. -/
theorem neg_ofPattern (negative : Bool) {p : ℕ} (h : p ≤ Format.double.infinity) :
    -ofPattern negative p = ofPattern (!negative) p := by
  obtain ⟨e, m, htop, hp, hbits⟩ := exists_components_ofPattern negative h
  obtain ⟨e', m', -, hp', hbits'⟩ := exists_components_ofPattern (!negative) h
  have hm := m.isLt
  have hm' := m'.isLt
  obtain rfl : e = e' := BitVec.eq_of_toNat_eq (by omega)
  obtain rfl : m = m' := BitVec.eq_of_toNat_eq (by omega)
  have hneg : (-ofPattern negative p).toBits.toBitVec =
      pack .binary64 (unpack .binary64 (ofPattern negative p).toBits.toBitVec).neg := rfl
  apply eq_of_toBits_eq
  apply UInt64.toBitVec_inj.1
  rw [hneg, toBits_ofPattern negative h, hbits, unpack_neg, pack_unpack htop,
    toBits_ofPattern (!negative) h, hbits']
  cases negative <;> rfl

theorem pattern_le_infinity {x : Float} (h : x.isNaN = false) : pattern x ≤ Format.double.infinity := by
  obtain ⟨s, e, m, hbits⟩ := exists_components x.toBits.toBitVec
  have hunpack : x.isNaN = (unpack .binary64 x.toBits.toBitVec).isNaN := rfl
  have hinf : Format.double.infinity = 2047 * 2 ^ 52 := rfl
  have he := e.isLt
  have hm := m.isLt
  have hs := s.toBitVec.isLt
  have hpattern : pattern x = e.toNat * 2 ^ 52 + m.toNat := by
    rw [pattern, ← UInt64.toNat_toBitVec, hbits, toNat_components, signBit]
    omega
  rw [hunpack, hbits, ← Bool.not_eq_true, isNaN_unpack, not_and_not_right] at h
  have htop : e.toNat = 2047 → m.toNat = 0 := fun htop => by rw [h (BitVec.eq_of_toNat_eq htop)]; rfl
  omega

/-- A double other than NaN is the one with its sign and its pattern. -/
theorem ofPattern_pattern {x : Float} (h : x.isNaN = false) : ofPattern (isNegative x) (pattern x) = x := by
  apply eq_of_toBits_eq
  apply UInt64.toNat_inj.1
  have hlt := x.toBits.toNat_lt
  rw [toNat_toBits_ofPattern _ (pattern_le_infinity h), pattern, isNegative, signBit]
  simp only [decide_eq_true_eq]
  split_ifs <;> omega

theorem isNaN_of_isFinite {x : Float} (h : x.isFinite = true) : x.isNaN = false := by
  obtain ⟨s, e, m, hbits⟩ := exists_components x.toBits.toBitVec
  have hfinite : x.isFinite = (unpack .binary64 x.toBits.toBitVec).isFinite := rfl
  have hnan : x.isNaN = (unpack .binary64 x.toBits.toBitVec).isNaN := rfl
  rw [hfinite, hbits, isFinite_unpack] at h
  rw [hnan, hbits, ← Bool.not_eq_true, isNaN_unpack]
  exact fun hspecial => h hspecial.1

theorem pattern_lt_infinity {x : Float} (h : x.isFinite = true) : pattern x < Format.double.infinity := by
  have hnan := isNaN_of_isFinite h
  rwa [← ofPattern_pattern hnan, isFinite_ofPattern _ (pattern_le_infinity hnan)] at h

/-- A double other than NaN equals itself. -/
theorem beq_self {x : Float} (h : x.isNaN = false) : (x == x) = true := by
  have hbeq : (x == x) = x.toModel.unpack.beq x.toModel.unpack := rfl
  have hnan : x.toModel.unpack.isNaN = false := h
  rw [hbeq]
  cases hx : x.toModel.unpack with
  | notANumber =>
      rw [hx] at hnan
      exact nomatch hnan
  | infinity s => cases s <;> rfl
  | zero s => rfl
  | finite s m e hm =>
      have hcompare : (compare e e).then (compare m m) = .eq := by
        rw [compare_eq_iff_eq.2 rfl, compare_eq_iff_eq.2 rfl]
        rfl
      cases s with
      | negative =>
          change (some ((compare e e).then (compare m m)).swap == some .eq) = true
          rw [hcompare]
          rfl
      | positive =>
          change (some ((compare e e).then (compare m m)) == some .eq) = true
          rw [hcompare]
          rfl

end RecordRules.Number
