import ClusterQuery.Decimal.Shortest

/-!
# Document numbers

A number of a document is an integer or a finite binary64 number; the two are never equal. An integer is written in
decimal, a real by its shortest digits.
-/

namespace ClusterQuery

open Decimal

/-- A number of a document. -/
inductive Number where
  /-- A whole number written without fraction and exponent. -/
  | integer (value : Int)
  /-- A finite binary64 number: its sign and magnitude. -/
  | real (negative : Bool) (magnitude : Magnitude)
  deriving DecidableEq, Repr

/-- How a real is laid out: positional between the two powers of ten, with at least one digit after the point; else one
digit before the point, and an exponent that always has a sign. -/
structure RealLayout where
  /-- Leading zeros after the point that are still written out. -/
  leadingZeros : Nat
  /-- Digits before the point up to which no exponent is used. -/
  wholeDigits : Nat
  point : String
  exponentMark : String
  plusSign : String
  deriving DecidableEq, Repr

namespace Number

/-- Reals from 0.00001 up to below 10 to the 16th are positional. -/
def layout : RealLayout :=
  ⟨4, 16, ".", "e", "+"⟩

/-- Integers that fit the signed or the unsigned 64-bit range. -/
def inRange (value : Int) : Bool :=
  -(Nat.pow 2 63) ≤ value && value < Nat.pow 2 64

/-- A run of zeros. -/
def zeros (n : Nat) : String :=
  String.ofList (List.replicate n '0')

/-- The text of a positive decimal in the layout. -/
def decimalText (layout : RealLayout) (d : Numeral) : String :=
  let digits := Nat.toDigits 10 d.digits
  let pointAt : Int := digits.length + d.power
  if 0 ≤ d.power ∧ pointAt ≤ layout.wholeDigits then
    String.ofList digits ++ zeros d.power.toNat ++ layout.point ++ "0"
  else if 0 < pointAt ∧ pointAt ≤ layout.wholeDigits then
    String.ofList (digits.take pointAt.toNat) ++ layout.point ++ String.ofList (digits.drop pointAt.toNat)
  else if -layout.leadingZeros ≤ pointAt ∧ pointAt ≤ 0 then
    "0" ++ layout.point ++ zeros (-pointAt).toNat ++ String.ofList digits
  else
    let fraction := if digits.length ≤ 1 then "" else layout.point ++ String.ofList (digits.drop 1)
    let exponent := pointAt - 1
    let sign := if exponent < 0 then "-" else layout.plusSign
    String.ofList (digits.take 1) ++ fraction ++ layout.exponentMark ++ sign ++ toString exponent.natAbs

/-- The text of a non-negative magnitude. -/
def magnitudeText (m : Magnitude) : String :=
  if m = 0 then "0" ++ layout.point ++ "0" else decimalText layout (Numeral.shortest m)

/-- The text of a number, as documents and comparisons write it. -/
def text : Number → String
  | .integer value => toString value
  | .real negative magnitude => (if negative then "-" else "") ++ magnitudeText magnitude

/-- Equal values: integers as integers, reals as reals with one zero; an integer never equals a real. -/
def same : Number → Number → Bool
  | .integer a, .integer b => a == b
  | .real s a, .real t b => a == b && (s == t || a == 0)
  | _, _ => false

end Number

end ClusterQuery
