import ClusterQuery.Text.Quoted

/-!
# Unique ids

A supply of ids for new objects: natural numbers laid out as random identifiers of version 4.
-/

namespace ClusterQuery.Uid

/-- The lowest hexadecimal digits of a number, the highest first. -/
def hexDigits (n : Nat) : Nat → List Char
  | 0 => []
  | count + 1 => hexDigits (n / 16) count ++ [Text.hexDigit (n % 16)]

/-- The id of a number below 2 to the 122nd. -/
def ofNumber (n : Nat) : String :=
  let low := hexDigits n 12
  let variant := Text.hexDigit (8 + n / Nat.pow 2 60 % 4) :: hexDigits (n / Nat.pow 2 48) 3
  let version := '4' :: hexDigits (n / Nat.pow 2 62) 3
  let middle := hexDigits (n / Nat.pow 2 74) 4
  let high := hexDigits (n / Nat.pow 2 90) 8
  String.ofList (high ++ '-' :: middle ++ '-' :: version ++ '-' :: variant ++ '-' :: low)

end ClusterQuery.Uid
