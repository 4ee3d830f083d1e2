import RecordRules.Number.Binary

/-!
# Shortest decimals

A decimal is `digits * 10 ^ exponent`. `shortest` finds, for a positive double, the decimal of fewest digits
that reads back as the same double, and among those the nearest to the exact value. It looks at the grids of
one, two, … seventeen digits in turn; on each grid only the two neighbours of the exact value can qualify. A
tie between them is settled by a parameter. Should no grid qualify, the exact decimal expansion is taken, so
that the result reads back in every case.
-/
namespace RecordRules.Number

/-- The number `digits * 10 ^ exponent`. -/
structure Decimal where
  digits : Nat
  exponent : Int
deriving DecidableEq, Repr

namespace Decimal

/-- Moves the zeros at the end of the digits into the exponent. -/
def trim (d : Decimal) : Decimal :=
  if h : d.digits % 10 = 0 ∧ d.digits ≠ 0 then trim ⟨d.digits / 10, d.exponent + 1⟩ else d
termination_by d.digits
decreasing_by exact Nat.div_lt_self (Nat.pos_of_ne_zero h.2) (by decide)

def text (d : Decimal) : List Char := Nat.toDigits 10 d.digits

/-- The power of ten of the first digit. -/
def firstPlace (d : Decimal) : Int := d.exponent + d.text.length - 1

end Decimal

/-- How a tie between two decimals equally near is settled. -/
inductive Tie where
  | up
  | even
deriving DecidableEq, Repr

/-- Whether the upper of two neighbours `low` and `low + 1` is taken, the exact value being
`low + rest / den`. -/
def Tie.takesUpper (tie : Tie) (low rest den : Nat) : Bool :=
  if 2 * rest < den then false
  else if den < 2 * rest then true
  else match tie with
    | .up => true
    | .even => low % 2 == 1

/-- The number `k` with `10 ^ (k - 1) ≤ num / den < 10 ^ k`, or one less at a negative power of ten. -/
def places (num den : Nat) : Int :=
  if den ≤ num then (Nat.toDigits 10 (num / den)).length
  else 1 - (Nat.toDigits 10 (den / num)).length

/-- On the grid of multiples of `10 ^ exponent`, the neighbour of the exact value that reads back as the
pattern; the nearer one if both do. -/
def onGrid? (f : Format) (tie : Tie) (pattern : Nat) (exponent : Int) : Option Decimal :=
  let (num, den) := f.ratio pattern
  let num := num * (powers 10 exponent).2
  let den := den * (powers 10 exponent).1
  let low := num / den
  let upper := Tie.takesUpper tie low (num % den) den
  let neighbours := if upper then [low + 1, low] else [low, low + 1]
  (neighbours.find? fun n => f.nearestDecimal n exponent == pattern).map (⟨·, exponent⟩)

/-- The exact decimal expansion of a pattern. -/
def exactDecimal (f : Format) (pattern : Nat) : Decimal :=
  let (m, e) := f.decode pattern
  if 0 ≤ e then ⟨m * Nat.pow 2 e.toNat, 0⟩ else ⟨m * Nat.pow 5 (-e).toNat, e⟩

/-- The shortest decimal that reads back as a finite pattern. -/
def shortest (f : Format) (tie : Tie) (pattern : Nat) : Decimal :=
  if pattern = 0 then ⟨0, 0⟩
  else
    let (num, den) := f.ratio pattern
    let k := places num den
    let found := (List.range 17).findSome? fun (n : Nat) => onGrid? f tie pattern (k - (n : Nat) - 1)
    (found.getD (exactDecimal f pattern)).trim

/-- A decimal found on a grid reads back. -/
theorem nearestDecimal_of_onGrid? {f : Format} {tie : Tie} {pattern : Nat} {exponent : Int} {d : Decimal}
    (h : onGrid? f tie pattern exponent = some d) : f.nearestDecimal d.digits d.exponent = pattern := by
  simp only [onGrid?] at h
  obtain ⟨n, hn, rfl⟩ := Option.map_eq_some_iff.1 h
  simpa using List.find?_some hn

end RecordRules.Number
