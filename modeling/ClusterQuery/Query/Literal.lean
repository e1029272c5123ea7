import ClusterQuery.Document.Writer

/-!
# Literals

The values that queries may write: strings, integers and booleans, with their text and their loose comparison with
document values.
-/

namespace ClusterQuery

/-- A value written in a query. -/
inductive Literal where
  | string (value : String)
  | integer (value : Int)
  | boolean (value : Bool)
  deriving DecidableEq, Repr

/-- The text of a truth value. -/
def boolText (value : Bool) : String :=
  if value then "true" else "false"

namespace Literal

/-- Integers are signed 64-bit words. -/
def inRange (value : Int) : Bool :=
  -(Nat.pow 2 63) ≤ value && value < Nat.pow 2 63

/-- The integer that digits write, when it is in range. -/
def integerOf? (digits : List Char) : Option Int :=
  let value : Nat := digits.foldl (fun n c => 10 * n + (c.toNat - 48)) 0
  if value < Nat.pow 2 63 then some (value : Int) else none

/-- The bare text, as selectors use it. -/
def selectorText : Literal → String
  | .string value => value
  | .integer value => toString value
  | .boolean value => boolText value

/-- The document of the same value. -/
def toDocument : Literal → Document
  | .string value => .string value
  | .integer value => .int value
  | .boolean value => .bool value

/-- A character between the quotes of a string literal: a quote or a backslash takes a backslash. -/
def escapeChar (c : Char) : List Char :=
  if c = '"' ∨ c = '\\' then ['\\', c] else [c]

/-- The text of the literal in a query. -/
def text : Literal → String
  | .string value => String.ofList ('"' :: value.toList.flatMap escapeChar ++ ['"'])
  | .integer value => toString value
  | .boolean value => boolText value

/-- Loose equality with a document value: by value where the kinds agree, else by text; null, arrays and objects equal
no literal. -/
def agrees (literal : Literal) (value : Document) : Bool :=
  match literal, value with
  | .string a, .string b => a == b
  | .integer a, .number (.integer b) => a == b
  | .integer _, .number (.real _ _) => false
  | .boolean a, .bool b => a == b
  | literal, .number b => literal.selectorText == b.text
  | literal, .bool b => literal.selectorText == boolText b
  | .integer a, .string b => toString a == b
  | .boolean a, .string b => boolText a == b
  | _, _ => false

end Literal

end ClusterQuery
