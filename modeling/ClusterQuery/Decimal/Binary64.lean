/-!
# Binary64 numbers

Non-negative binary64 values, held as the 63 bits below the sign, with their exact value as a ratio of natural numbers
and the rounding of any ratio to the nearest of them, a tie going to the even significand.
-/

namespace ClusterQuery.Decimal

/-- The magnitude of a binary64 number: exponent field and fraction, without the sign. -/
abbrev Magnitude := Nat

namespace Magnitude

/-- The magnitude that stands for infinity; every finite one is below it. -/
def infinity : Magnitude := 2047 * Nat.pow 2 52

/-- The exponent field. -/
def exponentField (m : Magnitude) : Nat := m / Nat.pow 2 52

/-- The significand `s` of the value `s · 2 ^ scale`. -/
def significand (m : Magnitude) : Nat :=
  if exponentField m = 0 then m else Nat.pow 2 52 + m % Nat.pow 2 52

/-- The scale `e` of the value `significand · 2 ^ e`. -/
def scale (m : Magnitude) : Int :=
  (Nat.max (exponentField m) 1 : Int) - 1075

/-- `n · 2 ^ e` as a numerator and a denominator. -/
def scaled (n : Nat) (e : Int) : Nat × Nat :=
  if 0 ≤ e then (n * Nat.pow 2 e.toNat, 1) else (n, Nat.pow 2 (-e).toNat)

/-- The exact value as a numerator and a denominator. -/
def ratio (m : Magnitude) : Nat × Nat :=
  scaled (significand m) (scale m)

/-- A quotient rounded to the nearest natural number, a tie to the even one. -/
def roundDiv (num den : Nat) : Nat :=
  let low := num / den
  let rest := num % den
  if 2 * rest < den then low
  else if den < 2 * rest then low + 1
  else if low % 2 = 0 then low else low + 1

/-- The quotient `num / den` lies at or above `2 ^ e`. -/
def reaches (num den : Nat) (e : Int) : Bool :=
  if 0 ≤ e then den * Nat.pow 2 e.toNat ≤ num else den ≤ num * Nat.pow 2 (-e).toNat

/-- The magnitude nearest to `num / den`; `infinity` when that is beyond the finite ones. -/
def ofRatio (num den : Nat) : Magnitude :=
  if num = 0 then 0
  else
    let guess : Int := (Nat.log2 num : Int) - (Nat.log2 den : Int)
    let exponent : Int := if reaches num den guess then guess else guess - 1
    let e : Int := max (exponent - 52) (-1074)
    let rounded :=
      if 0 ≤ e then roundDiv num (den * Nat.pow 2 e.toNat) else roundDiv (num * Nat.pow 2 (-e).toNat) den
    min infinity ((e + 1074).toNat * Nat.pow 2 52 + rounded)

/-- The magnitude nearest to a natural number. -/
def ofNat (n : Nat) : Magnitude := ofRatio n 1

/-- The rounded product. -/
def mul (a b : Magnitude) : Magnitude :=
  ofRatio ((ratio a).1 * (ratio b).1) ((ratio a).2 * (ratio b).2)

/-- The rounded quotient. -/
def div (a b : Magnitude) : Magnitude :=
  ofRatio ((ratio a).1 * (ratio b).2) ((ratio a).2 * (ratio b).1)

/-- `n · 10 ^ exponent` as decimal notation is read: the rounded digits are multiplied or divided by the rounded power
of ten, at most 308 powers at a time; nothing when the result is beyond the finite magnitudes. -/
def ofDecimalFrom (value : Magnitude) (exponent : Int) : Option Magnitude :=
  if 0 ≤ exponent then
    if exponent ≤ 308 then
      let product := mul value (ofNat (Nat.pow 10 exponent.toNat))
      if product = infinity then none else some product
    else if value = 0 then some 0 else none
  else if -308 ≤ exponent then some (div value (ofNat (Nat.pow 10 (-exponent).toNat)))
  else if value = 0 then some 0
  else ofDecimalFrom (div value (ofNat (Nat.pow 10 308))) (exponent + 308)
termination_by (-exponent).toNat
decreasing_by omega

/-- The magnitude read from the digits `n` and a power of ten. -/
def ofDecimal (n : Nat) (exponent : Int) : Option Magnitude :=
  ofDecimalFrom (ofNat n) exponent

end Magnitude

end ClusterQuery.Decimal
