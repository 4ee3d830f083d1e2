import RecordRules.Number.Binary

/-!
# Reading numerals

The grammars of whole and floating-point numerals as texts of their own. A whole numeral is an optional sign
and one or more digits. A floating-point numeral is an optional sign followed by `inf`, `infinity` or `nan`
in any case of letters, or by digits with an optional point, at least one digit in all, and an optional
exponent. No blanks and no separators are accepted. A floating-point numeral denotes the nearest number of
the format.
-/
namespace RecordRules.Number

/-- The digits at the start, and what follows them. -/
def spanDigits (cs : List Char) : List Char × List Char :=
  (cs.takeWhile Char.isDigit, cs.dropWhile Char.isDigit)

def digitsValue (ds : List Char) : Nat := Nat.ofDigitChars 10 ds 0

/-- An optional sign at the start: whether it is a minus, and what follows. -/
def splitSign : List Char → Bool × List Char
  | '-' :: cs => (true, cs)
  | '+' :: cs => (false, cs)
  | cs => (false, cs)

def int? (cs : List Char) : Option Int :=
  let (negative, ds) := splitSign cs
  if ds ≠ [] ∧ ds.all Char.isDigit then
    some (if negative then -(digitsValue ds : Int) else digitsValue ds)
  else none

/-- The 64-bit integer that a numeral denotes; none if the number is out of range. -/
def int64? (cs : List Char) : Option Int64 :=
  match int? cs with
  | some n => if Int64.minValue.toInt ≤ n ∧ n ≤ Int64.maxValue.toInt then some (Int64.ofInt n) else none
  | none => none

/-- What a floating-point numeral denotes, apart from its sign. -/
inductive Magnitude where
  | nan
  | infinity
  | decimal (digits : Nat) (exponent : Int)
deriving DecidableEq, Repr

structure Numeral where
  negative : Bool
  magnitude : Magnitude
deriving DecidableEq, Repr

/-- The part of a numeral after its digits: nothing, or an exponent. -/
def exponent? : List Char → Option Int
  | [] => some 0
  | c :: cs =>
      if c = 'e' ∨ c = 'E' then
        let (negative, ds) := splitSign cs
        if ds ≠ [] ∧ ds.all Char.isDigit then
          some (if negative then -(digitsValue ds : Int) else digitsValue ds)
        else none
      else none

/-- Digits with an optional point and an optional exponent. -/
def decimal? (cs : List Char) : Option Magnitude :=
  let (whole, rest) := spanDigits cs
  let (fraction, rest) :=
    match rest with
    | '.' :: r => spanDigits r
    | r => ([], r)
  if whole = [] ∧ fraction = [] then none
  else (exponent? rest).map fun e =>
    .decimal (digitsValue (whole ++ fraction)) (e - fraction.length)

def numeral? (cs : List Char) : Option Numeral :=
  let (negative, rest) := splitSign cs
  let word := rest.map Char.toLower
  if word = "nan".toList then some ⟨negative, .nan⟩
  else if word = "inf".toList ∨ word = "infinity".toList then some ⟨negative, .infinity⟩
  else (decimal? rest).map (⟨negative, ·⟩)

namespace Numeral

def toDouble (n : Numeral) : Float :=
  match n.magnitude with
  | .nan => Float.ofBits 0x7ff8000000000000
  | .infinity => ofPattern n.negative Format.double.infinity
  | .decimal digits exponent => ofPattern n.negative (Format.double.nearestDecimal digits exponent)

/-- The number of single precision that a numeral denotes, as a double. -/
def toSingle (n : Numeral) : Float :=
  match n.magnitude with
  | .nan => Float.ofBits 0x7ff8000000000000
  | .infinity => ofPattern n.negative Format.double.infinity
  | .decimal digits exponent => ofSinglePattern n.negative (Format.single.nearestDecimal digits exponent)

end Numeral

def float? (cs : List Char) : Option Float := (numeral? cs).map Numeral.toDouble

/-- Digits split off at the start and the rest make up the text. -/
theorem spanDigits_append (cs : List Char) : (spanDigits cs).1 ++ (spanDigits cs).2 = cs :=
  List.takeWhile_append_dropWhile

/-- A text that denotes a 64-bit integer is a whole numeral within the range. -/
theorem int64?_eq_some_iff {cs : List Char} {n : Int64} : int64? cs = some n ↔ int? cs = some n.toInt := by
  have hmin : Int64.minValue.toInt = -9223372036854775808 := rfl
  have hmax : Int64.maxValue.toInt = 9223372036854775807 := rfl
  unfold int64?
  constructor
  · intro h
    split at h
    · rename_i m hm
      split at h
      · rename_i hr
        rw [← Option.some.inj h, hm, Int64.toInt_ofInt_of_le (by omega) (by omega)]
      · simp at h
    · simp at h
  · intro h
    have h1 := Int64.le_toInt n
    have h2 := Int64.toInt_le n
    have h3 : Int64.minValue.toInt ≤ n.toInt ∧ n.toInt ≤ Int64.maxValue.toInt := by omega
    rw [h]
    exact (if_pos h3).trans (congrArg some (Int64.ofInt_toInt n))

end RecordRules.Number
