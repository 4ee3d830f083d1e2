import Mathlib.Algebra.Order.Field.Power
import Mathlib.Algebra.Order.Floor.Semifield
import Mathlib.Data.Int.Log
import Mathlib.Data.Rat.Floor
import Mathlib.Tactic.FieldSimp
import Mathlib.Tactic.Linarith
import Mathlib.Tactic.NormNum
import Mathlib.Tactic.Positivity
import Mathlib.Tactic.Ring
import RecordRules.Number.Numeral

/-!
# Rounding as a function of the exact value

`Format.nearest` computes with numerators and denominators. Here it is shown to depend on the rational number
alone that they stand for, to be monotone in it, and to give a finite pattern back from the number of that
pattern. The cut-offs of `Format.nearestDecimal` change nothing for doubles, so that reading a decimal depends
on its value alone as well.
-/
namespace RecordRules.Number

/-! ## Half to even -/

/-- A number rounded to a whole number; a half goes to the even neighbour. -/
def halfEven (q : ℚ) : ℕ :=
  if 2 * (q - ⌊q⌋₊) < 1 then ⌊q⌋₊
  else if 1 < 2 * (q - ⌊q⌋₊) then ⌊q⌋₊ + 1
  else ⌊q⌋₊ + ⌊q⌋₊ % 2

theorem roundHalfEven_eq (num : ℕ) {den : ℕ} (h : 0 < den) :
    roundHalfEven num den = halfEven (num / den) := by
  have hd : (0 : ℚ) < den := by exact_mod_cast h
  have hfloor : ⌊(num / den : ℚ)⌋₊ = num / den := Nat.floor_div_eq_div num den
  have hrest : (num / den : ℚ) - (num / den : ℕ) = (num % den : ℕ) / den := by
    rw [eq_div_iff hd.ne', sub_mul, div_mul_cancel₀ _ hd.ne', sub_eq_iff_eq_add]
    exact_mod_cast (Nat.mod_add_div' num den).symm
  have hlow : 2 * ((num % den : ℕ) / den : ℚ) < 1 ↔ 2 * (num % den) < den := by
    rw [← mul_div_assoc, div_lt_one hd]
    exact_mod_cast Iff.rfl
  have hhigh : 1 < 2 * ((num % den : ℕ) / den : ℚ) ↔ den < 2 * (num % den) := by
    rw [← mul_div_assoc, one_lt_div hd]
    exact_mod_cast Iff.rfl
  simp only [roundHalfEven, halfEven, hfloor, hrest, hlow, hhigh]

theorem halfEven_natCast (n : ℕ) : halfEven n = n := by
  simp [halfEven]

theorem halfEven_mono {q r : ℚ} (h : q ≤ r) : halfEven q ≤ halfEven r := by
  have hfloor : ⌊q⌋₊ ≤ ⌊r⌋₊ := Nat.floor_le_floor h
  rcases hfloor.lt_or_eq with hlt | heq
  · unfold halfEven
    split_ifs <;> omega
  · unfold halfEven
    rw [heq]
    split_ifs <;> first | omega | (exfalso; linarith)

theorem halfEven_le {q : ℚ} {n : ℕ} (h : q ≤ n) : halfEven q ≤ n :=
  (halfEven_mono h).trans_eq (halfEven_natCast n)

theorem le_halfEven {q : ℚ} {n : ℕ} (h : (n : ℚ) ≤ q) : n ≤ halfEven q :=
  (halfEven_natCast n).symm.trans_le (halfEven_mono h)

/-! ## Powers -/

theorem powers_eq (base : ℕ) (e : ℤ) : powers base e = (base ^ e.toNat, base ^ (-e).toNat) := rfl

theorem powers_fst_pos {base : ℕ} (h : 0 < base) (e : ℤ) : 0 < (powers base e).1 := Nat.pow_pos h

theorem powers_snd_pos {base : ℕ} (h : 0 < base) (e : ℤ) : 0 < (powers base e).2 := Nat.pow_pos h

/-- Numerator and denominator of a power have the power as their quotient. -/
theorem powers_div {base : ℕ} (h : 0 < base) (e : ℤ) :
    ((powers base e).1 / (powers base e).2 : ℚ) = (base : ℚ) ^ e := by
  have hb : (base : ℚ) ≠ 0 := by exact_mod_cast h.ne'
  rw [powers_eq, Nat.cast_pow, Nat.cast_pow, ← zpow_natCast, ← zpow_natCast, ← zpow_sub₀ hb]
  congr 1
  omega

theorem div_mul_powers {base : ℕ} (h : 0 < base) (num den : ℕ) (e : ℤ) :
    ((num * (powers base e).2 : ℕ) / (den * (powers base e).1 : ℕ) : ℚ) = num / den / (base : ℚ) ^ e := by
  rw [Nat.cast_mul, Nat.cast_mul, mul_div_mul_comm, ← powers_div h, div_eq_mul_inv (_ / _ : ℚ) (_ / _), inv_div]

namespace Format

variable (f : Format)

/-! ## The last place -/

/-- The exponent of the last place of a number, from the number itself. -/
def place (q : ℚ) : ℤ := max (Int.log 2 q - (f.precision - 1)) f.leastExponent

theorem leastExponent_le_place (q : ℚ) : f.leastExponent ≤ f.place q := le_max_right _ _

/-- The first digit of a quotient is that of the quotient of the first digits, or one place lower. -/
theorem log_div_eq {num den : ℕ} (hn : 0 < num) (hd : 0 < den) :
    Int.log 2 (num / den : ℚ) = num.log2 - den.log2 ∨ Int.log 2 (num / den : ℚ) = num.log2 - den.log2 - 1 := by
  have hq : (0 : ℚ) < num / den := by positivity
  have h₁ : (2 : ℚ) ^ num.log2 ≤ num := by exact_mod_cast Nat.log2_self_le hn.ne'
  have h₂ : (num : ℚ) < 2 ^ (num.log2 + 1) := by exact_mod_cast Nat.lt_log2_self
  have h₃ : (2 : ℚ) ^ den.log2 ≤ den := by exact_mod_cast Nat.log2_self_le hd.ne'
  have h₄ : (den : ℚ) < 2 ^ (den.log2 + 1) := by exact_mod_cast Nat.lt_log2_self
  have hden : (0 : ℚ) < den := by exact_mod_cast hd
  have hlow : (num.log2 - den.log2 - 1 : ℤ) ≤ Int.log 2 (num / den : ℚ) := by
    rw [← Int.zpow_le_iff_le_log Nat.one_lt_two hq, sub_sub, Nat.cast_ofNat, zpow_sub₀ two_ne_zero]
    exact div_le_div₀ num.cast_nonneg h₁ hden h₄.le
  have hhigh : Int.log 2 (num / den : ℚ) < num.log2 - den.log2 + 1 := by
    rw [← Int.lt_zpow_iff_log_lt Nat.one_lt_two hq, sub_add_eq_add_sub, Nat.cast_ofNat, zpow_sub₀ two_ne_zero]
    exact div_lt_div₀ h₂ h₃ (by positivity) (by positivity)
  omega

theorem lastPlace_eq_place {num den : ℕ} (hn : 0 < num) (hd : 0 < den) :
    f.lastPlace num den = f.place (num / den) := by
  have hq : (0 : ℚ) < num / den := by positivity
  have hcarry : Nat.pow 2 f.precision ≤
        num * (powers 2 (num.log2 - den.log2 - f.precision)).2 /
          (den * (powers 2 (num.log2 - den.log2 - f.precision)).1) ↔
      (num.log2 - den.log2 : ℤ) ≤ Int.log 2 (num / den : ℚ) := by
    rw [← Nat.floor_div_eq_div (K := ℚ), div_mul_powers Nat.two_pos, Nat.cast_ofNat,
      Nat.le_floor_iff (by positivity), le_div_iff₀ (by positivity), Nat.pow_eq, Nat.cast_pow,
      Nat.cast_ofNat, ← zpow_natCast, ← zpow_add₀ two_ne_zero, add_sub_cancel,
      ← Int.zpow_le_iff_le_log Nat.one_lt_two hq,
      Nat.cast_ofNat]
  have hlog := log_div_eq hn hd
  unfold lastPlace place
  simp only [hcarry]
  congr 1
  split_ifs <;> omega

/-! ## The nearest pattern -/

/-- The pattern nearest to a number. -/
def rounded (q : ℚ) : ℕ :=
  if q = 0 then 0
  else min ((f.place q - f.leastExponent).toNat * f.unit + halfEven (q / 2 ^ f.place q)) f.infinity

/-- Numerator and denominator count only by their quotient. -/
theorem nearest_eq_rounded (num : ℕ) {den : ℕ} (hd : 0 < den) :
    f.nearest num den = f.rounded (num / den) := by
  rcases Nat.eq_zero_or_pos num with rfl | hn
  · simp [nearest_zero, rounded]
  · have hq : (num / den : ℚ) ≠ 0 := by positivity
    have hm := roundHalfEven_eq (num * (powers 2 (f.place (num / den))).2)
      (Nat.mul_pos hd (powers_fst_pos Nat.two_pos (f.place (num / den))))
    rw [div_mul_powers Nat.two_pos, Nat.cast_ofNat] at hm
    simp only [nearest, rounded, if_neg hn.ne', if_neg hq, f.lastPlace_eq_place hn hd, hm]

theorem rounded_le_infinity (q : ℚ) : f.rounded q ≤ f.infinity := by
  unfold rounded
  split_ifs
  · exact Nat.zero_le _
  · exact Nat.min_le_right _ _

/-! ## Scaled significands -/

variable {f}

theorem unit_pos (f : Format) : 0 < f.unit := Nat.pow_pos Nat.two_pos

theorem two_mul_unit (hp : 0 < f.precision) : 2 * f.unit = 2 ^ f.precision := by
  rw [unit, Nat.pow_eq, ← Nat.pow_succ', Nat.succ_eq_add_one, Nat.sub_add_cancel hp]

/-- A scaled significand does not need more digits than the precision. -/
theorem div_place_lt (hp : 0 < f.precision) (q : ℚ) : q / 2 ^ f.place q < (2 * f.unit : ℕ) := by
  have hlog := Int.lt_zpow_succ_log_self Nat.one_lt_two q
  have hplace : Int.log 2 q + 1 ≤ f.precision + f.place q := by
    have := le_max_left (Int.log 2 q - (f.precision - 1)) f.leastExponent
    unfold place
    omega
  rw [div_lt_iff₀ (by positivity), two_mul_unit hp, Nat.cast_pow, Nat.cast_ofNat, ← zpow_natCast,
    ← zpow_add₀ two_ne_zero]
  exact hlog.trans_le (zpow_le_zpow_right₀ one_le_two hplace)

/-- Above the least exponent a scaled significand needs all its digits. -/
theorem unit_le_div_place (hp : 0 < f.precision) {q : ℚ} (hq : 0 < q) (h : f.leastExponent < f.place q) :
    (f.unit : ℚ) ≤ q / 2 ^ f.place q := by
  have hlog := Int.zpow_log_le_self Nat.one_lt_two hq
  have hplace : ((f.precision - 1 : ℕ) : ℤ) + f.place q = Int.log 2 q := by
    unfold place at h ⊢
    omega
  rw [le_div_iff₀ (by positivity), unit, Nat.pow_eq, Nat.cast_pow, Nat.cast_ofNat, ← zpow_natCast,
    ← zpow_add₀ two_ne_zero, hplace]
  exact hlog

theorem place_mono {q r : ℚ} (hq : 0 < q) (h : q ≤ r) : f.place q ≤ f.place r :=
  max_le_max_right _ (Int.sub_le_sub_right (Int.log_mono_right hq h) _)

/-- Rounding keeps the order of numbers. -/
theorem rounded_mono (hp : 0 < f.precision) {q r : ℚ} (hq : 0 ≤ q) (h : q ≤ r) :
    f.rounded q ≤ f.rounded r := by
  rcases hq.eq_or_lt with rfl | hq
  · simp [rounded]
  have hr : 0 < r := hq.trans_le h
  rw [rounded, rounded, if_neg hq.ne', if_neg hr.ne']
  refine min_le_min_right _ ?_
  rcases (place_mono hq h).eq_or_lt with heq | hlt
  · rw [heq]
    have := halfEven_mono (div_le_div_of_nonneg_right h (by positivity : (0 : ℚ) ≤ 2 ^ f.place r))
    omega
  · -- The carry of the lower significand stays below the next exponent, whose significand has all its digits.
    have hle : halfEven (q / 2 ^ f.place q) ≤ 2 * f.unit := halfEven_le (div_place_lt hp q).le
    have hleast := f.leastExponent_le_place q
    have hge : f.unit ≤ halfEven (r / 2 ^ f.place r) :=
      le_halfEven (unit_le_div_place hp hr (hleast.trans_lt hlt))
    have hsteps : (f.place q - f.leastExponent).toNat + 1 ≤ (f.place r - f.leastExponent).toNat := by omega
    have := Nat.mul_le_mul_right f.unit hsteps
    rw [Nat.add_mul] at this
    omega

end Format

end RecordRules.Number
