import ClusterQuery.FieldPath.Basic
import ClusterQuery.Text.Blank

/-!
# The text of field paths

Dots separate field names; `[n]` is an index, `[*]` and `[]` are wildcards, and a name with dots, slashes or brackets
stands in double quotes, with or without brackets around them. Nothing is escaped, so a name cannot hold the quote that
would end it.
-/

namespace ClusterQuery

namespace Segment

/-- The name must be quoted to be read back as one name. -/
def needsQuotes (name : String) : Bool :=
  name.toList.isEmpty || name.toList.any fun c => c = '.' || c = '/' || c = '[' || c = ']'

/-- The text of one segment. -/
def text : Segment → String
  | .field name => if needsQuotes name then "\"" ++ name ++ "\"" else name
  | .index position => "[" ++ toString position ++ "]"
  | .wildcard => "[*]"

end Segment

namespace FieldPath

/-- Why a text is no field path; every cause but the first names the whole text. -/
inductive PathError where
  | empty
  | emptySegment (path : String)
  | unterminatedQuote (path : String)
  | unterminatedBracket (path : String)
  | invalidIndex (path index : String)
  deriving DecidableEq, Repr

/-- The wording of a path error. -/
def PathError.message : PathError → String
  | .empty => "Empty field path"
  | .emptySegment path => "Empty segment in field path '" ++ path ++ "'"
  | .unterminatedQuote path => "Unterminated quote in field path '" ++ path ++ "'"
  | .unterminatedBracket path => "Unterminated bracket in field path '" ++ path ++ "'"
  | .invalidIndex path index => "Invalid index '" ++ index ++ "' in field path '" ++ path ++ "'"

/-- The segments after the first, each field name after a dot. -/
def restText : List Segment → String
  | [] => ""
  | .field name :: rest => "." ++ Segment.text (.field name) ++ restText rest
  | segment :: rest => segment.text ++ restText rest

/-- The text of a path. -/
def text (path : FieldPath) : String :=
  match path.segments with
  | [] => ""
  | first :: rest => first.text ++ restText rest

/-- The machine-word number that digits write, with a plus sign before them or without. -/
def indexOf? (text : List Char) : Option Nat :=
  let digits := match text with
    | '+' :: rest => rest
    | rest => rest
  if digits ≠ [] ∧ digits.all (fun c => '0' ≤ c && c ≤ '9') then
    let value := digits.foldl (fun n c => 10 * n + (c.toNat - 48)) 0
    if value < Nat.pow 2 64 then some value else none
  else none

/-- The name between two double quotes. -/
def unquoted? : List Char → Option (List Char)
  | '"' :: rest =>
    match rest.reverse with
    | '"' :: name => some name.reverse
    | _ => none
  | _ => none

/-- The segment written between brackets, in the path of the given text. -/
def bracketSegment (path : String) (inside : List Char) : Except PathError Segment :=
  let inner := Text.trim inside
  if inner = [] ∨ inner = ['*'] then .ok .wildcard
  else
    match unquoted? inner with
    | some name => .ok (.field (String.ofList name))
    | none =>
      match indexOf? inner with
      | some position => .ok (.index position)
      | none => .error (.invalidIndex path (String.ofList inner))

/-- Where the reader of a path stands, with the characters of the present segment in reverse. -/
inductive ReadMode where
  /-- In an unquoted name, possibly empty; `pending` while a segment must still come. -/
  | plain (pending : Bool) (name : List Char)
  | quoted (name : List Char)
  | bracketed (inside : List Char)

/-- The segments of the rest of a path; `path` is the whole text, for the errors. -/
def readFrom (path : String) : ReadMode → List Char → Except PathError (List Segment)
  | .plain pending name, [] =>
    if name ≠ [] then .ok [.field (String.ofList name.reverse)]
    else if pending then .error (.emptySegment path)
    else .ok []
  | .plain pending name, c :: rest =>
    if c = '.' then
      if name ≠ [] then do
        let following ← readFrom path (.plain true []) rest
        return .field (String.ofList name.reverse) :: following
      else if pending then .error (.emptySegment path)
      else readFrom path (.plain true []) rest
    else if c = '"' ∧ name = [] then readFrom path (.quoted []) rest
    else if c = '[' then
      if name ≠ [] then do
        let following ← readFrom path (.bracketed []) rest
        return .field (String.ofList name.reverse) :: following
      else readFrom path (.bracketed []) rest
    else readFrom path (.plain false (c :: name)) rest
  | .quoted _, [] => .error (.unterminatedQuote path)
  | .quoted name, c :: rest =>
    if c = '"' then do
      let following ← readFrom path (.plain false []) rest
      return .field (String.ofList name.reverse) :: following
    else readFrom path (.quoted (c :: name)) rest
  | .bracketed _, [] => .error (.unterminatedBracket path)
  | .bracketed inside, c :: rest =>
    if c = ']' then do
      let segment ← bracketSegment path inside.reverse
      let following ← readFrom path (.plain false []) rest
      return segment :: following
    else readFrom path (.bracketed (c :: inside)) rest

/-- The path that a text writes. -/
def parse (text : String) : Except PathError FieldPath :=
  if text.toList = [] then .error .empty
  else (readFrom text (.plain true []) text.toList).map FieldPath.mk

end FieldPath

end ClusterQuery
