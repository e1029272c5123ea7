import ClusterQuery.Document.Number

/-!
# Reading numbers

The decimal notation of numbers in texts: a number without fraction and exponent that fits 64 bits is an integer, any
other a real. Significant digits are taken up while they fit 64 bits unsigned and then only counted.
-/

namespace ClusterQuery.Json

open Decimal

/-- An ASCII digit. -/
def isDigit (c : Char) : Bool :=
  '0' ≤ c && c ≤ '9'

/-- The value of an ASCII digit. -/
def digitValue (c : Char) : Nat :=
  c.toNat - 48

/-- The natural number that ASCII digits write. -/
def naturalOfDigits (digits : List Char) : Nat :=
  digits.foldl (fun n c => 10 * n + digitValue c) 0

/-- Digits appended to a significand while it fits 64 bits, and the digits left over. -/
def takeDigits (significand : Nat) : List Char → Nat × List Char
  | [] => (significand, [])
  | c :: rest =>
    let next := 10 * significand + digitValue c
    if next < Nat.pow 2 64 then takeDigits next rest else (significand, c :: rest)

/-- The parts of a number: sign, whole digits, fraction digits after a point and the exponent after its mark. -/
structure NumberParts where
  negative : Bool
  whole : List Char
  fraction : Option (List Char)
  exponent : Option Int
  deriving DecidableEq, Repr

/-- The number that the parts write; nothing when it is beyond the finite reals. -/
def NumberParts.number? (parts : NumberParts) : Option Number :=
  let (start, dropped) := takeDigits 0 parts.whole
  if dropped = [] ∧ parts.fraction = none ∧ parts.exponent = none then
    if !parts.negative then some (.integer start)
    else if 0 < start ∧ start ≤ Nat.pow 2 63 then some (.integer (-start))
    else some (.real true (Magnitude.ofNat start))
  else
    let fraction := parts.fraction.getD []
    let (significand, unread) := takeDigits start fraction
    let shift : Int := dropped.length - (fraction.length - unread.length : Nat)
    (Magnitude.ofDecimal significand (shift + parts.exponent.getD 0)).map (.real parts.negative)

/-- The exponent that follows its mark: a sign or none, then at least one digit and nothing else. -/
def exponentOf? (text : List Char) : Option Int :=
  let digits (sign : Int) (cs : List Char) : Option Int :=
    if cs ≠ [] ∧ cs.all isDigit then some (sign * naturalOfDigits cs) else none
  match text with
  | '+' :: rest => digits 1 rest
  | '-' :: rest => digits (-1) rest
  | rest => digits 1 rest

/-- The parts of an unsigned number: whole digits without a needless zero, then fraction and exponent if they come. -/
def partsOf? (negative : Bool) (text : List Char) : Option NumberParts :=
  let whole := text.takeWhile isDigit
  let afterWhole := text.dropWhile isDigit
  if whole = [] ∨ (whole.head? = some '0' ∧ whole ≠ ['0']) then none
  else
    let fraction : Option (List Char) :=
      match afterWhole with
      | '.' :: rest => some (rest.takeWhile isDigit)
      | _ => none
    let afterFraction :=
      match afterWhole with
      | '.' :: rest => rest.dropWhile isDigit
      | rest => rest
    if fraction = some [] then none
    else
      match afterFraction with
      | [] => some ⟨negative, whole, fraction, none⟩
      | mark :: rest =>
        if mark = 'e' ∨ mark = 'E' then
          (exponentOf? rest).map fun exponent => ⟨negative, whole, fraction, some exponent⟩
        else none

/-- The parts of a number text, or nothing when it is not in decimal notation. -/
def numberParts? : List Char → Option NumberParts
  | '-' :: rest => partsOf? true rest
  | text => partsOf? false text

end ClusterQuery.Json
