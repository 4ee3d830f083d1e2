/-!
# Binary floating point

Finite numbers of a binary format are `m * 2 ^ e` with a bounded significand `m`. A *pattern* is the bit
pattern of a number without its sign; patterns are ordered like the magnitudes they stand for, and the
pattern after the largest finite one is infinity. `Format.nearest` rounds an exact quotient of natural
numbers to the nearest pattern, ties to the even significand, and `Format.decode` gives back significand and
exponent of a pattern. Conversions of `Float` from and to whole numbers are built on these two, so that they
are defined for all inputs in the logic as well as when run.
-/
namespace RecordRules.Number

/-- The quotient `num / den` rounded to a whole number; a half goes to the even neighbour. -/
def roundHalfEven (num den : Nat) : Nat :=
  let q := num / den
  let r := num % den
  if 2 * r < den then q
  else if den < 2 * r then q + 1
  else q + q % 2

/-- Numerator and denominator of `base ^ e`. -/
def powers (base : Nat) (e : Int) : Nat × Nat := (Nat.pow base e.toNat, Nat.pow base (-e).toNat)

/-- A binary format: significands of `precision` bits, numbers spaced `2 ^ leastExponent` apart near zero,
and the pattern of infinity. -/
structure Format where
  precision : Nat
  leastExponent : Int
  infinity : Nat

namespace Format

def single : Format := ⟨24, -149, 0x7f800000⟩

def double : Format := ⟨53, -1074, 0x7ff0000000000000⟩

/-- The number of patterns that share an exponent. -/
def unit (f : Format) : Nat := Nat.pow 2 (f.precision - 1)

/-- The exponent of the last place when a positive quotient is written with `precision` bits, but not below
the least exponent. -/
def lastPlace (f : Format) (num den : Nat) : Int :=
  let e : Int := num.log2 - den.log2 - f.precision
  let quotient := num * (powers 2 e).2 / (den * (powers 2 e).1)
  max (if Nat.pow 2 f.precision ≤ quotient then e + 1 else e) f.leastExponent

/-- The pattern nearest to the quotient `num / den`. A significand that rounds up to `2 ^ precision` carries
into the exponent by itself, because patterns count on from one exponent to the next. -/
def nearest (f : Format) (num den : Nat) : Nat :=
  if num = 0 then 0
  else
    let e := f.lastPlace num den
    let m := roundHalfEven (num * (powers 2 e).2) (den * (powers 2 e).1)
    min ((e - f.leastExponent).toNat * f.unit + m) f.infinity

/-- Significand and exponent of a pattern. -/
def decode (f : Format) (pattern : Nat) : Nat × Int :=
  let stored := pattern / f.unit
  if stored = 0 then (pattern % f.unit, f.leastExponent)
  else (pattern % f.unit + f.unit, f.leastExponent + stored - 1)

/-- The number of a pattern as a quotient of natural numbers. -/
def ratio (f : Format) (pattern : Nat) : Nat × Nat :=
  let (m, e) := f.decode pattern
  (m * (powers 2 e).1, (powers 2 e).2)

/-- The pattern nearest to `digits * 10 ^ exponent`. Exponents whose numbers lie far outside every format
are settled before a power of ten is computed. -/
def nearestDecimal (f : Format) (digits : Nat) (exponent : Int) : Nat :=
  if digits = 0 then 0
  else if 400 < exponent then f.infinity
  else if exponent < -(400 + digits.log2 : Int) then 0
  else f.nearest (digits * (powers 10 exponent).1) (powers 10 exponent).2

end Format

def signBit : Nat := 0x8000000000000000

/-- The double with the given sign and pattern. -/
def ofPattern (negative : Bool) (pattern : Nat) : Float :=
  Float.ofBits (UInt64.ofNat (pattern + if negative then signBit else 0))

def isNegative (x : Float) : Bool := signBit ≤ x.toBits.toNat

def pattern (x : Float) : Nat := x.toBits.toNat % signBit

def ofInt (n : Int) : Float := ofPattern (n < 0) (Format.double.nearest n.natAbs 1)

/-- The whole part of a double, toward zero, with infinities as very large numbers. -/
def wholePart (x : Float) : Int :=
  let (num, den) := Format.double.ratio (pattern x)
  if isNegative x then -(num / den : Nat) else (num / den : Nat)

/-- The whole part of a double, held at the ends of the 64-bit range; zero for NaN. -/
def toInt64 (x : Float) : Int64 :=
  if x.isNaN then 0 else Int64.ofIntClamp (wholePart x)

/-- Single precision, widened: the double of the single-precision number with this sign and pattern. -/
def ofSinglePattern (negative : Bool) (pattern : Nat) : Float :=
  if pattern = Format.single.infinity then ofPattern negative Format.double.infinity
  else
    let (num, den) := Format.single.ratio pattern
    ofPattern negative (Format.double.nearest num den)

theorem Format.nearest_zero (f : Format) (den : Nat) : f.nearest 0 den = 0 := by
  simp [Format.nearest]

end RecordRules.Number
