import RecordRules.Proofs.Number.Bits
import RecordRules.Proofs.Number.Rounding

/-!
# The numbers of patterns

The rational number of a pattern, and how it stands to rounding: the number of a finite pattern is rounded to
that pattern, and a whole number is rounded to a pattern of a whole number. For doubles this carries over to
decimals, because the exponents that `Format.nearestDecimal` settles in advance lie where every number is
rounded to zero or to infinity.
-/
namespace RecordRules.Number.Format

variable {f : Format}

/-! ## Significand and exponent -/

/-- Significand and exponent as a pattern has them: a significand has all its digits unless the exponent is
the least one. -/
structure Canonical (f : Format) (m : ℕ) (e : ℤ) : Prop where
  lt : m < 2 * f.unit
  least : f.leastExponent ≤ e
  full : f.leastExponent < e → f.unit ≤ m

/-- The place of a significand and exponent in the count of patterns. -/
def count (f : Format) (m : ℕ) (e : ℤ) : ℕ := (e - f.leastExponent).toNat * f.unit + m

theorem decode_of_lt {p : ℕ} (h : p < f.unit) : f.decode p = (p, f.leastExponent) := by
  simp [decode, Nat.div_eq_of_lt h, Nat.mod_eq_of_lt h]

theorem decode_of_le {p : ℕ} (h : f.unit ≤ p) :
    f.decode p = (p % f.unit + f.unit, f.leastExponent + (p / f.unit : ℕ) - 1) := by
  simp only [decode, if_neg (Nat.div_pos h f.unit_pos).ne']

theorem decode_canonical (f : Format) (p : ℕ) : f.Canonical (f.decode p).1 (f.decode p).2 := by
  rcases Nat.lt_or_ge p f.unit with h | h
  · rw [decode_of_lt h]
    exact ⟨by dsimp only; omega, le_rfl, fun h => absurd h (lt_irrefl _)⟩
  · rw [decode_of_le h]
    have hrest := Nat.mod_lt p f.unit_pos
    have hsteps := Nat.div_pos h f.unit_pos
    exact ⟨by dsimp only; omega, by dsimp only; omega, fun _ => Nat.le_add_left _ _⟩

theorem count_decode (f : Format) (p : ℕ) : f.count (f.decode p).1 (f.decode p).2 = p := by
  rcases Nat.lt_or_ge p f.unit with h | h
  · simp [decode_of_lt h, count]
  · have hsteps := Nat.div_pos h f.unit_pos
    have hk : (f.leastExponent + (p / f.unit : ℕ) - 1 - f.leastExponent).toNat + 1 = p / f.unit := by omega
    calc f.count (f.decode p).1 (f.decode p).2
      _ = ((f.leastExponent + (p / f.unit : ℕ) - 1 - f.leastExponent).toNat + 1) * f.unit + p % f.unit := by
          rw [decode_of_le h, count, Nat.add_mul, Nat.one_mul, Nat.add_assoc, Nat.add_comm f.unit]
      _ = p := by rw [hk, Nat.div_add_mod']

theorem decode_count {m : ℕ} {e : ℤ} (h : f.Canonical m e) : f.decode (f.count m e) = (m, e) := by
  rcases Nat.lt_or_ge m f.unit with hm | hm
  · have he : e = f.leastExponent := le_antisymm (not_lt.1 fun he => absurd (h.full he) (not_le.2 hm)) h.least
    rw [count, he, sub_self, Int.toNat_zero, Nat.zero_mul, Nat.zero_add, decode_of_lt hm]
  · have hcount : f.count m e = (m - f.unit) + f.unit * ((e - f.leastExponent).toNat + 1) := by
      rw [count, Nat.mul_comm, Nat.mul_succ]
      omega
    have hlt : m - f.unit < f.unit := by
      have := h.lt
      omega
    have hleast := h.least
    have hsteps : (f.count m e) / f.unit = (e - f.leastExponent).toNat + 1 := by
      rw [hcount, Nat.add_mul_div_left _ _ f.unit_pos, Nat.div_eq_of_lt hlt, Nat.zero_add]
    have hrest : (f.count m e) % f.unit = m - f.unit := by
      rw [hcount, Nat.add_mul_mod_self_left, Nat.mod_eq_of_lt hlt]
    have hle : f.unit ≤ f.count m e := hm.trans (Nat.le_add_left _ _)
    rw [decode_of_le hle, hsteps, hrest]
    exact Prod.ext (Nat.sub_add_cancel hm) (by dsimp only; omega)

/-! ## The number of a pattern -/

/-- The number of a pattern. -/
def value (f : Format) (p : ℕ) : ℚ := (f.decode p).1 * 2 ^ (f.decode p).2

theorem value_nonneg (f : Format) (p : ℕ) : 0 ≤ f.value p := by
  unfold value
  positivity

/-- The quotient that stands for a pattern has its number. -/
theorem ratio_div (f : Format) (p : ℕ) : ((f.ratio p).1 / (f.ratio p).2 : ℚ) = f.value p := by
  rw [ratio, Nat.cast_mul, mul_div_assoc, powers_div Nat.two_pos, Nat.cast_ofNat, value]

theorem ratio_snd_pos (f : Format) (p : ℕ) : 0 < (f.ratio p).2 := powers_snd_pos Nat.two_pos _

theorem place_of_canonical (hp : 0 < f.precision) {m : ℕ} {e : ℤ} (h : f.Canonical m e) (hm : 0 < m) :
    f.place (m * 2 ^ e) = e := by
  have hq : (0 : ℚ) < m * 2 ^ e := by positivity
  have hhigh : Int.log 2 (m * 2 ^ e : ℚ) < f.precision + e := by
    rw [← Int.lt_zpow_iff_log_lt Nat.one_lt_two hq, Nat.cast_ofNat, zpow_add₀ two_ne_zero, zpow_natCast]
    refine mul_lt_mul_of_pos_right ?_ (by positivity)
    exact_mod_cast h.lt.trans_eq (two_mul_unit hp)
  have hlow (hu : f.unit ≤ m) : ((f.precision - 1 : ℕ) : ℤ) + e ≤ Int.log 2 (m * 2 ^ e : ℚ) := by
    rw [← Int.zpow_le_iff_le_log Nat.one_lt_two hq, Nat.cast_ofNat, zpow_add₀ two_ne_zero, zpow_natCast]
    refine mul_le_mul_of_nonneg_right ?_ (by positivity)
    exact_mod_cast hu
  unfold place
  rcases h.least.eq_or_lt with heq | hlt
  · omega
  · have := hlow (h.full hlt)
    omega

/-- The number of a finite pattern is rounded to that pattern. -/
theorem rounded_value (hp : 0 < f.precision) {p : ℕ} (h : p ≤ f.infinity) : f.rounded (f.value p) = p := by
  have hc := f.decode_canonical p
  have hcount := f.count_decode p
  rcases Nat.eq_zero_or_pos (f.decode p).1 with hm | hm
  · have hzero : p = 0 := by
      rcases Nat.lt_or_ge p f.unit with hu | hu
      · rwa [decode_of_lt hu] at hm
      · rw [decode_of_le hu] at hm
        have := f.unit_pos
        dsimp only at hm
        omega
    rw [rounded, value, hm, Nat.cast_zero, zero_mul, if_pos rfl, hzero]
  · have hv : f.value p ≠ 0 := by
      unfold value
      positivity
    have hplace : f.place (f.value p) = (f.decode p).2 := place_of_canonical hp hc hm
    rw [rounded, if_neg hv, hplace, value, mul_div_cancel_right₀ _ (by positivity), halfEven_natCast]
    exact (congrArg (min · f.infinity) hcount).trans (Nat.min_eq_left h)

/-- A significand that was rounded up by one digit carries into the exponent by itself. -/
theorem value_count {m : ℕ} {e : ℤ} (hm : m ≤ 2 * f.unit) (he : f.leastExponent ≤ e)
    (hfull : f.leastExponent < e → f.unit ≤ m) : f.value (f.count m e) = m * 2 ^ e := by
  rcases hm.lt_or_eq with hlt | rfl
  · rw [value, decode_count ⟨hlt, he, hfull⟩]
  · have hcount : f.count (2 * f.unit) e = f.count f.unit (e + 1) := by
      have hsteps : (e + 1 - f.leastExponent).toNat = (e - f.leastExponent).toNat + 1 := by omega
      rw [count, count, hsteps, Nat.add_mul]
      omega
    have hlt : f.unit < 2 * f.unit := by
      have := f.unit_pos
      omega
    rw [hcount, value, decode_count ⟨hlt, by omega, fun _ => le_rfl⟩, zpow_add_one₀ two_ne_zero, Nat.cast_mul,
      Nat.cast_ofNat]
    ring

/-- What a positive number is rounded to, if that is finite. -/
theorem value_rounded (hp : 0 < f.precision) {q : ℚ} (hq : 0 < q) (h : f.rounded q < f.infinity) :
    f.value (f.rounded q) = halfEven (q / 2 ^ f.place q) * 2 ^ f.place q := by
  rw [rounded, if_neg hq.ne'] at h ⊢
  have hmin : f.count (halfEven (q / 2 ^ f.place q)) (f.place q) < f.infinity := by
    unfold count
    omega
  refine (congrArg f.value (Nat.min_eq_left hmin.le)).trans ?_
  exact value_count (halfEven_le (div_place_lt hp q).le) (f.leastExponent_le_place q)
    fun hlt => le_halfEven (unit_le_div_place hp hq hlt)

/-- A whole number is rounded to a whole number or to infinity. -/
theorem exists_value_rounded_natCast (hp : 0 < f.precision) {n : ℕ} (h : f.rounded n < f.infinity) :
    ∃ k : ℕ, f.value (f.rounded n) = k := by
  rcases Nat.eq_zero_or_pos n with rfl | hn
  · refine ⟨0, ?_⟩
    rw [rounded, Nat.cast_zero, if_pos rfl, value, decode_of_lt f.unit_pos]
    simp
  · have hv := value_rounded hp (by exact_mod_cast hn : (0 : ℚ) < n) h
    rcases le_or_gt 0 (f.place n) with he | he
    · refine ⟨halfEven (n / 2 ^ f.place n) * 2 ^ (f.place n).toNat, ?_⟩
      rw [hv, Nat.cast_mul, Nat.cast_pow, Nat.cast_ofNat, ← zpow_natCast, Int.toNat_of_nonneg he]
    · -- The last place is a fraction, so nothing is rounded off.
      have hscaled : (n / 2 ^ f.place n : ℚ) = (n * 2 ^ (-f.place n).toNat : ℕ) := by
        rw [Nat.cast_mul, Nat.cast_pow, Nat.cast_ofNat, ← zpow_natCast, Int.toNat_of_nonneg (by omega), zpow_neg,
          div_eq_mul_inv]
      refine ⟨n, ?_⟩
      rw [hv, hscaled, halfEven_natCast, ← hscaled, div_mul_cancel₀ _ (by positivity)]

/-! ## Decimals as doubles -/

theorem double_precision_pos : 0 < double.precision := by decide

theorem double_rounded_natCast (n : ℕ) : double.rounded n = double.nearest n 1 := by
  rw [nearest_eq_rounded _ _ Nat.one_pos, Nat.cast_one, div_one]

theorem two_pow_le_ten_pow {a b : ℕ} (h : a ≤ 3 * b) : (2 : ℚ) ^ a ≤ 10 ^ b :=
  calc (2 : ℚ) ^ a
    _ ≤ 2 ^ (3 * b) := pow_le_pow_right₀ (by norm_num) h
    _ = (2 ^ 3) ^ b := pow_mul _ _ _
    _ ≤ 10 ^ b := pow_le_pow_left₀ (by norm_num) (by norm_num) _

theorem double_rounded_large {q : ℚ} (h : 2 ^ 1024 ≤ q) : double.rounded q = double.infinity := by
  have hlimit : double.rounded (2 ^ 1024 : ℕ) = double.infinity :=
    (double_rounded_natCast _).trans (by decide +kernel)
  refine le_antisymm (rounded_le_infinity _ _) (hlimit.symm.trans_le ?_)
  exact rounded_mono double_precision_pos (Nat.cast_nonneg _) (by simpa only [Nat.cast_pow, Nat.cast_ofNat] using h)

theorem double_rounded_small {q : ℚ} (hq : 0 ≤ q) (h : q ≤ 1 / 2 ^ 1080) : double.rounded q = 0 := by
  have hlimit : double.rounded ((1 : ℕ) / (2 ^ 1080 : ℕ)) = 0 :=
    (nearest_eq_rounded _ 1 (by positivity)).symm.trans (by decide +kernel)
  refine Nat.le_zero.1 ((rounded_mono double_precision_pos hq ?_).trans_eq hlimit)
  rwa [Nat.cast_one, Nat.cast_pow, Nat.cast_ofNat]

/-- A decimal is read as its number is rounded. -/
theorem nearestDecimal_eq_rounded (digits : ℕ) (exponent : ℤ) :
    double.nearestDecimal digits exponent = double.rounded (digits * 10 ^ exponent) := by
  unfold nearestDecimal
  split_ifs with hd hlarge hsmall
  · rw [hd, Nat.cast_zero, zero_mul, rounded, if_pos rfl]
  · symm
    apply double_rounded_large
    have hdigits : (1 : ℚ) ≤ digits := by exact_mod_cast Nat.pos_of_ne_zero hd
    calc (2 : ℚ) ^ 1024
      _ ≤ 10 ^ 401 := two_pow_le_ten_pow (by norm_num)
      _ = 10 ^ (401 : ℤ) := (zpow_natCast _ _).symm
      _ ≤ 10 ^ exponent := zpow_le_zpow_right₀ (by norm_num) (by omega)
      _ ≤ digits * 10 ^ exponent := le_mul_of_one_le_left (by positivity) hdigits
  · symm
    apply double_rounded_small (by positivity)
    have hdigits : (digits : ℚ) < 10 ^ (digits.log2 + 1) := by
      have h₁ : digits < 2 ^ (digits.log2 + 1) := Nat.lt_log2_self
      have h₂ : 2 ^ (digits.log2 + 1) ≤ 10 ^ (digits.log2 + 1) := Nat.pow_le_pow_left (by norm_num) _
      exact_mod_cast h₁.trans_le h₂
    calc (digits * 10 ^ exponent : ℚ)
      _ ≤ 10 ^ (digits.log2 + 1) * 10 ^ exponent := mul_le_mul_of_nonneg_right hdigits.le (by positivity)
      _ = 10 ^ ((digits.log2 + 1 : ℕ) + exponent) := by rw [zpow_add₀ (by norm_num), zpow_natCast]
      _ ≤ 10 ^ (-400 : ℤ) := zpow_le_zpow_right₀ (by norm_num) (by omega)
      _ = 1 / 10 ^ 400 := by rw [zpow_neg, one_div]; rfl
      _ ≤ 1 / 2 ^ 1080 := by
          exact one_div_le_one_div_of_le (by positivity) (two_pow_le_ten_pow (by norm_num))
  · rw [nearest_eq_rounded _ _ (powers_snd_pos (by norm_num) _), Nat.cast_mul, mul_div_assoc,
      powers_div (by norm_num), Nat.cast_ofNat]

end RecordRules.Number.Format

namespace RecordRules.Number

/-- A whole number of 64 bits is far from infinity. -/
theorem isFinite_ofInt {n : ℕ} (h : n < 2 ^ 64) : (ofInt n).isFinite = true := by
  have hlimit : Format.double.rounded ((2 ^ 64 : ℕ) : ℚ) < Format.double.infinity := by
    rw [Format.double_rounded_natCast]
    decide
  have hlt : Format.double.nearest n 1 < Format.double.infinity := by
    rw [← Format.double_rounded_natCast]
    refine lt_of_le_of_lt (Format.rounded_mono Format.double_precision_pos n.cast_nonneg ?_) hlimit
    exact_mod_cast h.le
  rw [ofInt, Int.natAbs_natCast, isFinite_ofPattern _ hlt.le]
  exact hlt

end RecordRules.Number
