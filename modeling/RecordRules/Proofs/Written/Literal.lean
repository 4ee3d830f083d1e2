import RecordRules.Proofs.Grammar.Writing
import RecordRules.Proofs.Lexer.Numbers
import RecordRules.Proofs.Number.Bits

/-!
# Literal forms of values

What the literal form of a value is read as. Signs are operators to the parser, so that a number with a sign
is read as the negation of its magnitude; a whole floating-point number is read as the integer that is written
the same way, and infinity and NaN are read as names. Lists, whose literal form is that of a list expression,
do not occur as literals and are left out.
-/
namespace RecordRules

open Grammar Number

namespace Number

/-- The exact value of a finite double. -/
def exact (x : Float) : ℚ :=
  if isNegative x then -Format.double.value (pattern x) else Format.double.value (pattern x)

end Number

/-- The value that the text of a finite pattern is read as. -/
def Value.ofMagnitude (p : ℕ) : Value :=
  match int64? (magnitudeText .plain p) with
  | some n => int n
  | none => float (ofPattern false p)

/-- An expression with a minus sign in front of it, if so asked. -/
def Expr.signed (negative : Bool) (e : Expr) : Expr := if negative then unary .neg e else e

namespace Value

/-- Whether the literal form of a value starts with a minus sign. -/
def isSigned : Value → Bool
  | int n => n.toInt < 0
  | float x => !x.isNaN && isNegative x
  | _ => false

/-- The expression that the literal form of a value is read as. -/
def reread : Value → Expr
  | int n => .signed (n.toInt < 0) (.literal (ofWhole n.toInt.natAbs))
  | float x =>
      if x.isNaN then .ident "NaN"
      else .signed (isNegative x) (if x.isFinite then .literal (ofMagnitude (pattern x)) else .ident "inf")
  | v => .literal v

end Value

/-! ## Numbers -/

namespace Number

theorem exact_ofPattern {p : ℕ} (h : p ≤ Format.double.infinity) :
    exact (ofPattern false p) = Format.double.value p := by
  rw [exact, isNegative_ofPattern false h, pattern_ofPattern false h]
  rfl

theorem abs_exact (x : Float) : |exact x| = Format.double.value (pattern x) := by
  have hnonneg := Format.double.value_nonneg (pattern x)
  rw [exact]
  split_ifs
  · rw [abs_neg, abs_of_nonneg hnonneg]
  · rw [abs_of_nonneg hnonneg]

end Number

theorem Grammar.WritesPrimary.signed {cs : List Char} {e : Expr} (h : WritesPrimary cs e 0) (negative : Bool) :
    Writes .unary (if negative then '-' :: cs else cs) (.signed negative e) (if negative then 2 else 1) := by
  cases negative with
  | false => exact h.unary
  | true => exact h.unary.neg

theorem ofInt_natCast (n : ℕ) : ofInt n = ofPattern false (Format.double.nearestDecimal n 0) := by
  have hsign : decide ((n : ℤ) < 0) = false := decide_eq_false (by omega)
  rw [Format.nearestDecimal_eq_rounded, zpow_zero, mul_one, Format.double_rounded_natCast, ofInt, hsign,
    Int.natAbs_natCast]

theorem writesPrimary_whole (n : ℕ) : WritesPrimary (Nat.toDigits 10 n) (.literal (.ofWhole n)) 0 := by
  have hmin : Int64.minValue.toInt = -2 ^ 63 := by decide
  have hmax : Int64.maxValue.toInt = 2 ^ 63 - 1 := by decide
  have hlex := Token.Lexes.whole n
  rw [Token.ofWhole, ← ofInt_natCast] at hlex
  rw [Value.ofWhole, hmin, hmax]
  by_cases hn : n < 2 ^ 63
  · rw [if_pos hn] at hlex
    rw [if_pos (by omega)]
    exact .int hlex
  · rw [if_neg hn] at hlex
    rw [if_neg (by omega)]
    exact .float hlex

theorem Value.exists_ofMagnitude_int {p : ℕ} (h : p < Format.double.infinity) (hint : IsIntPattern p) :
    ∃ n < 2 ^ 63, magnitudeText .plain p = Nat.toDigits 10 n ∧ ofMagnitude p = int (Int64.ofNat n) := by
  rcases Token.Lexes.magnitude h with ⟨-, n, hn, htext, hsome, -⟩ | ⟨hno, -⟩
  · exact ⟨n, hn, htext, by rw [ofMagnitude, hsome]⟩
  · exact absurd hint hno

theorem Value.ofMagnitude_float {p : ℕ} (h : p < Format.double.infinity) (hint : ¬IsIntPattern p) :
    ofMagnitude p = float (ofPattern false p) := by
  rcases Token.Lexes.magnitude h with ⟨hyes, -⟩ | ⟨-, hnone, -⟩
  · exact absurd hyes hint
  · rw [ofMagnitude, hnone]

theorem writesPrimary_magnitude {p : ℕ} (h : p < Format.double.infinity) :
    WritesPrimary (magnitudeText .plain p) (.literal (.ofMagnitude p)) 0 := by
  rw [Value.ofMagnitude]
  rcases Token.Lexes.magnitude h with ⟨-, n, -, -, hint, hlex⟩ | ⟨-, hint, hlex⟩
  · rw [hint]
    exact .int hlex
  · rw [hint]
    exact .float hlex

theorem writesPrimary_nil : WritesPrimary "nil".toList (.literal .nil) 0 :=
  .word (Token.isName_of_chars rfl (by decide)) rfl

theorem writesPrimary_bool (b : Bool) : WritesPrimary (Value.chars (.bool b)) (.literal (.bool b)) 0 := by
  cases b with
  | true => exact .word (Token.isName_of_chars rfl (by decide)) rfl
  | false => exact .word (Token.isName_of_chars rfl (by decide)) rfl

theorem writes_float (x : Float) :
    Writes .unary (floatChars .plain x) (Value.reread (.float x)) (if (Value.float x).isSigned then 2 else 1) := by
  rw [floatChars, Value.reread, Value.isSigned]
  cases hnan : x.isNaN with
  | true =>
      simp only [Bool.not_true, Bool.false_and, if_true]
      exact (WritesPrimary.field (Token.isName_of_chars rfl (by decide)) rfl).unary
  | false =>
      simp only [Bool.not_false, Bool.true_and, Bool.false_eq_true, if_false]
      refine WritesPrimary.signed ?_ (isNegative x)
      by_cases hfin : x.isFinite = true
      · rw [if_pos hfin, if_pos hfin]
        exact writesPrimary_magnitude (pattern_lt_infinity hfin)
      · rw [if_neg hfin, if_neg hfin]
        exact .field (Token.isName_of_chars rfl (by decide)) rfl

/-- The literal form of a value that is no list is that of a unary expression, nested once more for a sign. -/
theorem Value.writes {v : Value} (h : ∀ items, v ≠ .list items) :
    Writes .unary v.chars v.reread (if v.isSigned then 2 else 1) := by
  cases v with
  | nil => exact writesPrimary_nil.unary
  | bool b => exact (writesPrimary_bool b).unary
  | int n =>
      have hw := (writesPrimary_whole n.toInt.natAbs).signed (n.toInt < 0)
      simpa [Value.chars, intText, Value.reread, Value.isSigned] using hw
  | float x => exact writes_float x
  | str s => exact (WritesPrimary.str s).unary
  | list items => exact absurd rfl (h items)

end RecordRules
