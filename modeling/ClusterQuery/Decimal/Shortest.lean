import ClusterQuery.Decimal.Binary64

/-!
# Shortest decimals

The fewest significant digits that read back as the same binary64 number, and among those the nearest to its value. A
decimal is a natural number of digits times a power of ten.
-/

namespace ClusterQuery.Decimal

/-- The decimal number `digits · 10 ^ power`. -/
structure Numeral where
  digits : Nat
  power : Int
  deriving DecidableEq, Repr

/-- How many decimal digits a natural number has; zero has one. -/
def digitCount (n : Nat) : Nat :=
  (Nat.toDigits 10 n).length

/-- The exponent of the leading digit of `num / den`, for a positive ratio. -/
def leadingPower (num den : Nat) : Int :=
  if den ≤ num then (digitCount (num / den) : Int) - 1
  else -(digitCount ((den - 1) / num) : Int)

/-- `num / den` in units of `10 ^ power`, rounded down. -/
def inUnits (num den : Nat) (power : Int) : Nat :=
  if 0 ≤ power then num / (den * Nat.pow 10 power.toNat) else num * Nat.pow 10 (-power).toNat / den

namespace Numeral

/-- The exact value as a numerator and a denominator. -/
def ratio (d : Numeral) : Nat × Nat :=
  if 0 ≤ d.power then (d.digits * Nat.pow 10 d.power.toNat, 1) else (d.digits, Nat.pow 10 (-d.power).toNat)

/-- The decimal reads back as the magnitude: it lies between the midpoints to the neighbours, ends included when the
significand is even. Below a power of two the lower neighbour is half as far away. -/
def readsAs (d : Numeral) (m : Magnitude) : Bool :=
  let quarter := m.significand = Nat.pow 2 52 ∧ 1 < m.exponentField
  let low := if quarter then 4 * m.significand - 1 else 4 * m.significand - 2
  let (lowNum, lowDen) := Magnitude.scaled low (m.scale - 2)
  let (highNum, highDen) := Magnitude.scaled (4 * m.significand + 2) (m.scale - 2)
  let (num, den) := d.ratio
  if m.significand % 2 = 0 then lowNum * den ≤ num * lowDen && num * highDen ≤ highNum * den
  else lowNum * den < num * lowDen && num * highDen < highNum * den

/-- Twice the distance to the lower of two neighbouring decimals against one unit: the upper one is nearer, or the value
lies halfway and the lower one has an odd last digit. -/
def upperIsNearer (low : Numeral) (m : Magnitude) : Bool :=
  let (num, den) := m.ratio
  let (middleNum, middleDen) := (Numeral.mk (10 * low.digits + 5) (low.power - 1)).ratio
  let value := num * middleDen
  let middle := middleNum * den
  middle < value || (middle == value && low.digits % 2 == 1)

/-- The neighbour of the value on the grid of multiples of `10 ^ power` that reads back, if one does; of two, the
nearer. -/
def onGrid (m : Magnitude) (power : Int) : Option Numeral :=
  let low : Numeral := ⟨inUnits m.ratio.1 m.ratio.2 power, power⟩
  let high : Numeral := ⟨low.digits + 1, power⟩
  match low.readsAs m, high.readsAs m with
  | true, true => if low.upperIsNearer m then some high else some low
  | true, false => some low
  | false, true => some high
  | false, false => none

/-- The first grid, from the coarsest of those named, on which a neighbour of the value reads back; the finest grid's
lower neighbour when none does. -/
def onFirstGrid (m : Magnitude) (power : Int) : Nat → Numeral
  | 0 => ⟨inUnits m.ratio.1 m.ratio.2 power, power⟩
  | finer + 1 => (onGrid m power).getD (onFirstGrid m (power - 1) finer)

/-- The decimal without the trailing zeros of its digits. -/
def stripZeros (digits : Nat) (power : Int) : Numeral :=
  if digits ≠ 0 ∧ digits % 10 = 0 then stripZeros (digits / 10) (power + 1) else ⟨digits, power⟩
termination_by digits
decreasing_by omega

/-- The shortest decimal that reads back as a positive finite magnitude. -/
def shortest (m : Magnitude) : Numeral :=
  let found := onFirstGrid m (leadingPower m.ratio.1 m.ratio.2) 17
  stripZeros found.digits found.power

end Numeral

end ClusterQuery.Decimal
