import RecordRules.Number.Layout
import RecordRules.Proofs.Number.Pattern

/-!
# Shortest decimals read back

The decimal that `shortest` finds is read as the pattern it was found for, and it is a multiple of one exactly
when the number of the pattern is whole. In the plain layout a finite pattern is therefore written as the
digits of a whole number or with a point, and never with an exponent.
-/
namespace RecordRules.Number

open Format (double)

/-- The number of a decimal. -/
def Decimal.value (d : Decimal) : ℚ := d.digits * 10 ^ d.exponent

/-- The number of a pattern is whole. -/
def IsWholePattern (p : ℕ) : Prop := ∃ n : ℕ, double.value p = n

/-- The number of a pattern is whole and within the 64-bit range. -/
def IsIntPattern (p : ℕ) : Prop := IsWholePattern p ∧ double.value p < (2 ^ 63 : ℕ)

/-! ## Zeros at the end -/

namespace Decimal

/-- A zero moved from the digits to the exponent leaves the number as it is. -/
theorem value_div_ten {digits : ℕ} (h : digits % 10 = 0) (exponent : ℤ) :
    value ⟨digits / 10, exponent + 1⟩ = value ⟨digits, exponent⟩ := by
  have hdigits : (digits : ℚ) = (digits / 10 : ℕ) * 10 := by
    exact_mod_cast (Nat.div_mul_cancel (Nat.dvd_of_mod_eq_zero h)).symm
  rw [value, value, hdigits, zpow_add_one₀ (by norm_num)]
  ring

theorem value_trim (d : Decimal) : d.trim.value = d.value := by
  fun_induction trim d with
  | case1 d h ih => rw [ih, value_div_ten h.1]
  | case2 d h => rfl

theorem exponent_le_trim (d : Decimal) : d.exponent ≤ d.trim.exponent := by
  fun_induction trim d with
  | case1 d h ih =>
      dsimp only at ih
      omega
  | case2 d h => exact le_rfl

/-- A whole number other than zero is trimmed to a multiple of one. -/
theorem trim_exponent_nonneg {d : Decimal} (hd : d.digits ≠ 0) {n : ℕ} (h : d.value = n) :
    0 ≤ d.trim.exponent := by
  fun_induction trim d with
  | case1 d hz ih =>
      have hdigits : d.digits / 10 ≠ 0 := by omega
      exact ih hdigits ((value_div_ten hz.1 _).trans h)
  | case2 d hz =>
      by_contra hneg
      obtain ⟨k, hk⟩ : ∃ k : ℕ, d.exponent = -((k + 1 : ℕ) : ℤ) := ⟨(-d.exponent).toNat - 1, by omega⟩
      rw [value, hk, zpow_neg, zpow_natCast, ← div_eq_mul_inv, div_eq_iff (by positivity)] at h
      have hdigits : d.digits = n * 10 ^ (k + 1) := by exact_mod_cast h
      have hzero : d.digits % 10 = 0 := by
        rw [hdigits, pow_succ, ← mul_assoc, Nat.mul_mod_left]
      exact hz ⟨hzero, hd⟩

end Decimal

/-! ## The shortest decimal -/

theorem value_exactDecimal (f : Format) (p : ℕ) : (exactDecimal f p).value = f.value p := by
  simp only [exactDecimal, Format.value]
  split_ifs with he
  · simp only [Decimal.value, zpow_zero, mul_one, Nat.pow_eq, Nat.cast_mul, Nat.cast_pow, Nat.cast_ofNat]
    rw [← zpow_natCast, Int.toNat_of_nonneg he]
  · have hten : (10 : ℚ) ^ (f.decode p).2 = 5 ^ (f.decode p).2 * 2 ^ (f.decode p).2 := by
      rw [← mul_zpow]
      norm_num
    have hfive : (5 : ℚ) ^ (-(f.decode p).2).toNat * 5 ^ (f.decode p).2 = 1 := by
      rw [← zpow_natCast, Int.toNat_of_nonneg (by omega), ← zpow_add₀ (by norm_num), neg_add_cancel, zpow_zero]
    simp only [Decimal.value, Nat.pow_eq, Nat.cast_mul, Nat.cast_pow, Nat.cast_ofNat]
    rw [hten, mul_assoc, ← mul_assoc (5 ^ _ : ℚ), hfive, one_mul]

/-- The decimal that is trimmed to the shortest one. -/
def untrimmed (f : Format) (tie : Tie) (p : ℕ) : Decimal :=
  ((List.range 17).findSome? fun (n : ℕ) =>
    onGrid? f tie p (places (f.ratio p).1 (f.ratio p).2 - (n : ℕ) - 1)).getD (exactDecimal f p)

theorem shortest_eq_trim (f : Format) (tie : Tie) {p : ℕ} (h : p ≠ 0) :
    shortest f tie p = (untrimmed f tie p).trim := by
  rw [shortest, if_neg h, untrimmed]

theorem rounded_untrimmed (tie : Tie) {p : ℕ} (h : p ≤ double.infinity) :
    double.rounded (untrimmed double tie p).value = p := by
  unfold untrimmed
  cases hfound : (List.range 17).findSome? _ with
  | none => rw [Option.getD_none, value_exactDecimal, Format.rounded_value Format.double_precision_pos h]
  | some d =>
      obtain ⟨n, -, hn⟩ := List.exists_of_findSome?_eq_some hfound
      rw [Option.getD_some, Decimal.value, ← Format.nearestDecimal_eq_rounded]
      exact nearestDecimal_of_onGrid? hn

/-- The shortest decimal reads back. -/
theorem rounded_shortest (tie : Tie) {p : ℕ} (h : p ≤ double.infinity) :
    double.rounded (shortest double tie p).value = p := by
  rcases eq_or_ne p 0 with rfl | hp
  · simp [shortest, Decimal.value, Format.rounded]
  · rw [shortest_eq_trim _ _ hp, Decimal.value_trim, rounded_untrimmed _ h]

/-! ## Whole numbers -/

theorem value_ne_zero {p : ℕ} (h : p ≤ double.infinity) (hp : p ≠ 0) : double.value p ≠ 0 := by
  intro hv
  have := Format.rounded_value Format.double_precision_pos h
  rw [hv, Format.rounded, if_pos rfl] at this
  exact hp this.symm

theorem ratio_of_whole {p n : ℕ} (hn : double.value p = n) :
    (double.ratio p).1 = n * (double.ratio p).2 := by
  have hden : ((double.ratio p).2 : ℚ) ≠ 0 := by exact_mod_cast (double.ratio_snd_pos p).ne'
  rw [← Format.ratio_div, div_eq_iff hden] at hn
  exact_mod_cast hn

/-- The grid of ones meets a whole number exactly. -/
theorem onGrid?_zero {tie : Tie} {p n : ℕ} (h : p ≤ double.infinity) (hn : double.value p = n) :
    onGrid? double tie p 0 = some ⟨n, 0⟩ := by
  have hden := double.ratio_snd_pos p
  have hread : double.nearestDecimal n 0 = p := by
    rw [Format.nearestDecimal_eq_rounded, zpow_zero, mul_one, ← hn,
      Format.rounded_value Format.double_precision_pos h]
  simp only [onGrid?, powers_eq, ratio_of_whole hn]
  simp [Nat.mul_div_cancel _ hden, Tie.takesUpper, hden, hread]

theorem exponent_of_onGrid? {f : Format} {tie : Tie} {p : ℕ} {e : ℤ} {d : Decimal}
    (h : onGrid? f tie p e = some d) : d.exponent = e := by
  obtain ⟨n, -, rfl⟩ := Option.map_eq_some_iff.1 h
  rfl

/-- On a range the first success is found. -/
theorem le_of_findSome?_range {α : Type} {f : ℕ → Option α} {n i : ℕ} {a : α}
    (h : (List.range n).findSome? f = some a) (hi : i < n) (hf : f i ≠ none) : ∃ j ≤ i, f j = some a := by
  obtain ⟨l₁, j, l₂, hl, hj, hbefore⟩ := List.findSome?_eq_some_iff.1 h
  refine ⟨j, ?_, hj⟩
  by_contra hij
  have hmem : i ∈ l₁ ++ j :: l₂ := hl ▸ List.mem_range.2 hi
  have hpairs : (l₁ ++ j :: l₂).Pairwise (· < ·) := hl ▸ List.pairwise_lt_range
  have hafter := (List.pairwise_cons.1 (List.pairwise_append.1 hpairs).2.1).1
  rcases List.mem_append.1 hmem with hmem | hmem
  · exact hf (hbefore i hmem)
  · rcases List.mem_cons.1 hmem with rfl | hmem
    · exact hij le_rfl
    · exact hij (hafter i hmem).le

theorem shortest_exponent_of_whole (tie : Tie) {p : ℕ} (h : p ≤ double.infinity) (hw : IsWholePattern p) :
    0 ≤ (shortest double tie p).exponent := by
  obtain ⟨n, hn⟩ := hw
  rcases eq_or_ne p 0 with rfl | hp
  · simp [shortest]
  have hv := value_ne_zero h hp
  have hpos : 1 ≤ n := by
    rw [hn] at hv
    exact Nat.one_le_iff_ne_zero.2 (by exact_mod_cast hv)
  obtain ⟨k, hk, hplaces⟩ : ∃ k : ℕ, 1 ≤ k ∧ places (double.ratio p).1 (double.ratio p).2 = k := by
    refine ⟨_, Nat.length_toDigits_pos, if_pos ?_⟩
    rw [ratio_of_whole hn]
    exact Nat.le_mul_of_pos_left _ hpos
  rw [shortest_eq_trim _ _ hp, untrimmed, hplaces]
  cases hfound : (List.range 17).findSome? _ with
  | none =>
      have hvalue := value_exactDecimal double p
      refine Decimal.trim_exponent_nonneg (fun hz => hv ?_) (hvalue.trans hn)
      rw [Option.getD_none] at hz
      rw [← hvalue, Decimal.value, hz, Nat.cast_zero, zero_mul]
  | some d =>
      refine le_trans ?_ d.exponent_le_trim
      by_cases hlong : k ≤ 17
      · have hones : onGrid? double tie p (k - (k - 1 : ℕ) - 1) ≠ none := by
          rw [show (k - (k - 1 : ℕ) - 1 : ℤ) = 0 by omega, onGrid?_zero h hn]
          exact Option.some_ne_none _
        obtain ⟨j, hj, hd⟩ := le_of_findSome?_range hfound (by omega : k - 1 < 17) hones
        rw [exponent_of_onGrid? hd]
        omega
      · obtain ⟨j, hj, hd⟩ := List.exists_of_findSome?_eq_some hfound
        rw [exponent_of_onGrid? hd]
        have := List.mem_range.1 hj
        omega

theorem whole_of_shortest_exponent (tie : Tie) {p : ℕ} (h : p < double.infinity)
    (he : 0 ≤ (shortest double tie p).exponent) : IsWholePattern p := by
  have hread := rounded_shortest tie h.le
  have hvalue : (shortest double tie p).value =
      ((shortest double tie p).digits * 10 ^ (shortest double tie p).exponent.toNat : ℕ) := by
    rw [Decimal.value, Nat.cast_mul, Nat.cast_pow, Nat.cast_ofNat, ← zpow_natCast, Int.toNat_of_nonneg he]
  rw [hvalue] at hread
  obtain ⟨k, hk⟩ := Format.exists_value_rounded_natCast Format.double_precision_pos (hread.trans_lt h)
  exact ⟨k, hread ▸ hk⟩

/-- The shortest decimal is a multiple of one for whole numbers and for no others. -/
theorem shortest_exponent_nonneg_iff (tie : Tie) {p : ℕ} (h : p < double.infinity) :
    0 ≤ (shortest double tie p).exponent ↔ IsWholePattern p :=
  ⟨whole_of_shortest_exponent tie h, shortest_exponent_of_whole tie h.le⟩

/-! ## The end of the 64-bit range -/

/-- The pattern of `2 ^ 63`. -/
def rangeEnd : ℕ := 0x43e0000000000000

theorem rounded_rangeEnd : double.rounded ((2 ^ 63 : ℕ) : ℚ) = rangeEnd :=
  (Format.double_rounded_natCast _).trans (by decide)

theorem value_rangeEnd : double.value rangeEnd = (2 ^ 63 : ℕ) := by
  have hdecode : double.decode rangeEnd = (2 ^ 52, 11) := by decide
  rw [Format.value, hdecode]
  norm_num

theorem rounded_le_rangeEnd {q : ℚ} (hq : 0 ≤ q) (h : q < (2 ^ 63 : ℕ)) : double.rounded q ≤ rangeEnd :=
  (Format.rounded_mono Format.double_precision_pos hq h.le).trans_eq rounded_rangeEnd

theorem rangeEnd_le_rounded {q : ℚ} (h : (2 ^ 63 : ℕ) ≤ q) : rangeEnd ≤ double.rounded q :=
  rounded_rangeEnd.symm.trans_le (Format.rounded_mono Format.double_precision_pos (Nat.cast_nonneg _) h)

theorem Decimal.value_nonneg (d : Decimal) : 0 ≤ d.value := by
  unfold value
  positivity

/-- Numbers that are rounded to one pattern are on one side of the end of the range, unless the pattern is
that of the end itself. -/
theorem lt_rangeEnd_iff {q : ℚ} (hq : 0 ≤ q) (h : double.rounded q ≠ rangeEnd) :
    q < (2 ^ 63 : ℕ) ↔ double.rounded q < rangeEnd := by
  constructor
  · intro hlt
    exact lt_of_le_of_ne (rounded_le_rangeEnd hq hlt) h
  · intro hlt
    by_contra hge
    exact absurd (rangeEnd_le_rounded (not_lt.1 hge)) (not_le.2 hlt)

theorem value_shortest_rangeEnd : (shortest double .up rangeEnd).value = (9223372036854776000 : ℕ) := by
  have hfound : untrimmed double .up rangeEnd = ⟨9223372036854776, 3⟩ := by decide
  rw [shortest_eq_trim _ _ (by decide), Decimal.value_trim, hfound, Decimal.value]
  norm_num

/-- The shortest decimal is on the same side of the end of the range as the number itself. -/
theorem value_shortest_lt_iff {p : ℕ} (h : p ≤ double.infinity) :
    (shortest double .up p).value < (2 ^ 63 : ℕ) ↔ double.value p < (2 ^ 63 : ℕ) := by
  rcases eq_or_ne p rangeEnd with rfl | hp
  · rw [value_shortest_rangeEnd, value_rangeEnd]
    norm_num
  · have hshort := rounded_shortest .up h
    have hvalue := Format.rounded_value Format.double_precision_pos h
    rw [lt_rangeEnd_iff (Decimal.value_nonneg _) (hshort.trans_ne hp), hshort,
      lt_rangeEnd_iff (double.value_nonneg p) (hvalue.trans_ne hp), hvalue]

/-! ## The plain layout -/

theorem magnitudeText_plain (p : ℕ) :
    magnitudeText .plain p = positionalText (shortest double .up p) false := rfl

theorem toDigits_mul_pow {n : ℕ} (hn : 0 < n) (k : ℕ) :
    Nat.toDigits 10 (n * 10 ^ k) = Nat.toDigits 10 n ++ List.replicate k '0' := by
  induction k with
  | zero => simp
  | succ k ih =>
      have hstep : n * 10 ^ (k + 1) = 10 * (n * 10 ^ k) + 0 := by ring
      rw [hstep, ← Nat.toDigits_append_toDigits (by decide) (by positivity) (by decide), ih,
        Nat.toDigits_zero,
        List.append_assoc, List.replicate_succ']

theorem positionalText_of_nonneg {d : Decimal} (he : 0 ≤ d.exponent) (hd : d.digits = 0 → d.exponent = 0) :
    positionalText d false = Nat.toDigits 10 (d.digits * 10 ^ d.exponent.toNat) := by
  simp only [positionalText, if_pos he, Decimal.text, Bool.false_eq_true, if_false, List.append_nil]
  rcases Nat.eq_zero_or_pos d.digits with hz | hpos
  · simp [hz, hd hz]
  · rw [toDigits_mul_pow hpos]

/-- A whole number is written as the digits of a whole number that is rounded to the same pattern. -/
theorem magnitudeText_of_whole {p : ℕ} (h : p ≤ double.infinity) (hw : IsWholePattern p) :
    ∃ n : ℕ, magnitudeText .plain p = Nat.toDigits 10 n ∧ double.nearestDecimal n 0 = p ∧
      (n < 2 ^ 63 ↔ double.value p < (2 ^ 63 : ℕ)) := by
  have he := shortest_exponent_of_whole .up h hw
  have hzero (hz : (shortest double .up p).digits = 0) : (shortest double .up p).exponent = 0 := by
    have hread := rounded_shortest .up h
    rw [Decimal.value, hz, Nat.cast_zero, zero_mul, Format.rounded, if_pos rfl] at hread
    rw [← hread, shortest, if_pos rfl]
  have hvalue : (((shortest double .up p).digits * 10 ^ (shortest double .up p).exponent.toNat : ℕ) : ℚ) =
      (shortest double .up p).value := by
    rw [Decimal.value, Nat.cast_mul, Nat.cast_pow, Nat.cast_ofNat, ← zpow_natCast, Int.toNat_of_nonneg he]
  refine ⟨_, (magnitudeText_plain p).trans (positionalText_of_nonneg he hzero), ?_, ?_⟩
  · rw [Format.nearestDecimal_eq_rounded, zpow_zero, mul_one, hvalue, rounded_shortest _ h]
  · rw [← value_shortest_lt_iff h, ← hvalue, Nat.cast_lt]

theorem digitsValue_toDigits (n : ℕ) : digitsValue (Nat.toDigits 10 n) = n := Nat.ofDigitChars_ten_toDigits

theorem digitsValue_zeros_append (k : ℕ) (ds : List Char) :
    digitsValue (List.replicate k '0' ++ ds) = digitsValue ds := by
  rw [digitsValue, Nat.ofDigitChars_append, Nat.ofDigitChars_replicate_zero, Nat.mul_zero, digitsValue]

/-- A decimal below the grid of ones is written with a point. -/
theorem positionalText_of_neg {d : Decimal} (he : d.exponent < 0) :
    ∃ whole fraction : List Char, positionalText d false = whole ++ '.' :: fraction ∧ whole ≠ [] ∧
      (∀ c ∈ whole ++ fraction, c.isDigit) ∧ digitsValue (whole ++ fraction) = d.digits ∧
      -(fraction.length : ℤ) = d.exponent := by
  have hdigit : ∀ c ∈ d.text, c.isDigit :=
    fun c hc => Nat.isDigit_of_mem_toDigits (by decide) (by decide) hc
  simp only [positionalText, if_neg (not_le.2 he)]
  split_ifs with hk
  · refine ⟨_, _, rfl, ?_, ?_, ?_, ?_⟩
    · rw [ne_eq, List.take_eq_nil_iff]
      rintro (hz | hz)
      · omega
      · exact absurd hz Nat.toDigits_ne_nil
    · rwa [List.take_append_drop]
    · rw [List.take_append_drop, Decimal.text, digitsValue_toDigits]
    · rw [List.length_drop]
      omega
  · refine ⟨['0'], List.replicate ((-d.exponent).toNat - d.text.length) '0' ++ d.text, rfl,
      List.cons_ne_nil _ _,
      ?_, ?_, ?_⟩
    · intro c hc
      simp only [List.cons_append, List.nil_append, List.mem_cons, List.mem_append, List.mem_replicate] at hc
      rcases hc with rfl | ⟨-, rfl⟩ | hc
      · decide
      · decide
      · exact hdigit c hc
    · rw [← List.append_assoc]
      refine (digitsValue_zeros_append ((-d.exponent).toNat - d.text.length + 1) d.text).trans ?_
      rw [Decimal.text, digitsValue_toDigits]
    · rw [List.length_append, List.length_replicate]
      omega

/-- A number that is not whole is written with a point, and its digits read back. -/
theorem magnitudeText_of_fraction {p : ℕ} (h : p < double.infinity) (hw : ¬IsWholePattern p) :
    ∃ whole fraction : List Char, magnitudeText .plain p = whole ++ '.' :: fraction ∧ whole ≠ [] ∧
      (∀ c ∈ whole ++ fraction, c.isDigit) ∧
      double.nearestDecimal (digitsValue (whole ++ fraction)) (-(fraction.length : ℤ)) = p := by
  have he : (shortest double .up p).exponent < 0 :=
    not_le.1 fun he => hw ((shortest_exponent_nonneg_iff .up h).1 he)
  obtain ⟨whole, fraction, htext, hne, hdigit, hvalue, hlen⟩ := positionalText_of_neg he
  refine ⟨whole, fraction, (magnitudeText_plain p).trans htext, hne, hdigit, ?_⟩
  rw [hvalue, hlen, Format.nearestDecimal_eq_rounded]
  exact rounded_shortest .up h.le

end RecordRules.Number
