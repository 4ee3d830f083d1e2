import RecordRules.Number.Decimal

/-!
# Written numbers

The texts of numbers. A floating-point number is written with its shortest digits; a `Layout` says when it is
written positionally and how an exponent looks. The three layouts in use are the plain one (literals and text
casts), the marked one (numbers inside messages about tokens) and that of JSON.
-/
namespace RecordRules.Number

/-- How floating-point numbers are written. -/
structure Layout where
  /-- Which of two nearest decimals of equal length is taken. -/
  tie : Tie
  /-- First digits of these powers of ten are written positionally. -/
  positional : Int → Bool
  /-- Whole numbers carry `.0`. -/
  pointed : Bool
  /-- Exponents from zero up carry a plus sign. -/
  plus : Bool

namespace Layout

/-- Never an exponent, and no point in whole numbers. -/
def plain : Layout := ⟨.up, fun _ => true, false, false⟩

/-- Positional from `10 ^ -4` up to `10 ^ 16`, with a point in positional whole numbers. -/
def marked : Layout := ⟨.up, fun p => -4 ≤ p && p < 16, true, false⟩

/-- Positional when the power of the first digit is between -5 and 15, otherwise a signed exponent. -/
def json : Layout := ⟨.even, fun p => -5 ≤ p && p ≤ 15, true, true⟩

end Layout

/-- A whole number in decimal digits, with a minus sign if negative. -/
def intText (n : Int) : List Char :=
  if n < 0 then '-' :: Nat.toDigits 10 n.natAbs else Nat.toDigits 10 n.natAbs

/-- A decimal without an exponent. -/
def positionalText (d : Decimal) (pointed : Bool) : List Char :=
  let ds := d.text
  if 0 ≤ d.exponent then
    ds ++ List.replicate d.exponent.toNat '0' ++ if pointed then ['.', '0'] else []
  else
    let k := (-d.exponent).toNat
    if k < ds.length then ds.take (ds.length - k) ++ '.' :: ds.drop (ds.length - k)
    else '0' :: '.' :: List.replicate (k - ds.length) '0' ++ ds

/-- A decimal with one digit before the point and an exponent. -/
def exponentText (d : Decimal) (plus : Bool) : List Char :=
  let p := d.firstPlace
  let exponent := (if plus && 0 ≤ p then ['+'] else []) ++ intText p
  match d.text with
  | [] => []
  | [c] => c :: 'e' :: exponent
  | c :: rest => c :: '.' :: rest ++ 'e' :: exponent

/-- A number that is not negative, by its pattern. -/
def magnitudeText (l : Layout) (pattern : Nat) : List Char :=
  let d := shortest Format.double l.tie pattern
  if l.positional d.firstPlace then positionalText d l.pointed else exponentText d l.plus

/-- A floating-point number. -/
def floatChars (l : Layout) (x : Float) : List Char :=
  if x.isNaN then "NaN".toList
  else
    let magnitude :=
      if x.isFinite then magnitudeText l (pattern x) else "inf".toList
    if isNegative x then '-' :: magnitude else magnitude

def floatText (l : Layout) (x : Float) : String := String.ofList (floatChars l x)

def int64Text (n : Int64) : String := String.ofList (intText n.toInt)

end RecordRules.Number
