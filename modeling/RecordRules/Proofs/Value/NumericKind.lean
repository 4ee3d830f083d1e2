import Mathlib.Data.List.TakeWhile
import Mathlib.Tactic.ByContra
import Mathlib.Tactic.SplitIfs
import RecordRules.Expr.Comparison

/-!
# Values that count as numbers

A value that takes part in arithmetic can be cast to the kind of number as which it does. For texts, the two
grammars of numerals decide: a text that spells an integer spells a floating-point number too, so that a value of
either kind can be cast to a floating-point number.
-/
namespace RecordRules

namespace Number

theorem decimal?_of_digits {ds : List Char} (hne : ds ≠ []) (hall : ds.all Char.isDigit) :
    decimal? ds = some (.decimal (digitsValue ds) 0) := by
  have hspan : spanDigits ds = (ds, []) := by
    rw [List.all_eq_true] at hall
    rw [spanDigits, List.takeWhile_eq_self_iff.2 hall, List.dropWhile_eq_nil_iff.2 hall]
  simp [decimal?, hspan, hne, exponent?]

/-- A whole numeral is a floating-point numeral. -/
theorem isSome_numeral?_of_int? {cs : List Char} (h : (int? cs).isSome) : (numeral? cs).isSome := by
  have hdigits : (splitSign cs).2 ≠ [] ∧ (splitSign cs).2.all Char.isDigit := by
    by_contra hno
    have hnone : int? cs = none := if_neg hno
    simp [hnone] at h
  simp only [numeral?, decimal?_of_digits hdigits.1 hdigits.2, Option.map_some]
  split_ifs <;> rfl

end Number

theorem isSome_floatOfText?_of_int64OfText? {s : String} (h : (int64OfText? s).isSome) :
    (floatOfText? s).isSome := by
  rw [floatOfText?, Number.float?, Option.isSome_map]
  apply Number.isSome_numeral?_of_int?
  rw [int64OfText?, Number.int64?] at h
  cases hint : Number.int? (Text.trim s.toList) with
  | none => simp [hint] at h
  | some n => rfl

namespace Value

variable {v : Value} {s : String}

theorem numericKind_str_int (h : (str s).numericKind = some .int) : (int64OfText? s).isSome := by
  rw [numericKind] at h
  split_ifs at h with hint
  · exact hint
  · exact nomatch h

theorem numericKind_str {k : NumericKind} (h : (str s).numericKind = some k) : (floatOfText? s).isSome := by
  rw [numericKind] at h
  split_ifs at h with hint hfloat
  · exact isSome_floatOfText?_of_int64OfText? hint
  · exact hfloat

theorem exists_toInt64_of_numericKind (h : v.numericKind = some .int) : ∃ n, v.toInt64 = .ok n := by
  cases v with
  | nil => exact ⟨_, rfl⟩
  | int n => exact ⟨n, rfl⟩
  | float x => exact ⟨_, rfl⟩
  | bool b => exact nomatch h
  | list items => exact nomatch h
  | str s =>
      obtain ⟨n, hn⟩ := Option.isSome_iff_exists.1 (numericKind_str_int h)
      rw [toInt64, hn]
      split_ifs <;> exact ⟨_, rfl⟩

theorem exists_toFloat_of_numericKind {k : NumericKind} (h : v.numericKind = some k) :
    ∃ x, v.toFloat = .ok x := by
  cases v with
  | nil => exact ⟨_, rfl⟩
  | int n => exact ⟨_, rfl⟩
  | float x => exact ⟨x, rfl⟩
  | bool b => exact nomatch h
  | list items => exact nomatch h
  | str s =>
      obtain ⟨x, hx⟩ := Option.isSome_iff_exists.1 (numericKind_str h)
      rw [toFloat, hx]
      split_ifs <;> exact ⟨_, rfl⟩

end Value

end RecordRules
