import ClusterQuery.Document.Basic
import ClusterQuery.Json.Token

/-!
# Document texts

The tree of a document text before it is a document: members of objects in the order and number in which they are
written. Settings and snapshots are read from this tree, since they refuse a repeated member and skip unknown ones.
-/

namespace ClusterQuery

/-- The tree of a document text. A number or a string without a value is one that only a skipped place may hold. -/
inductive Json where
  | null
  | bool (value : Bool)
  | number (value : Option Number)
  | string (value : Option String)
  | array (items : List Json)
  | object (members : List (Option String × Json))
  deriving Inhabited, Repr

namespace Json

/-- The members of an object read so far, the latest first. -/
abbrev Members := List (Option String × Json)

/-- A container whose closing bracket has not come: the items before the present one, or the members before the present
one and its key. -/
inductive Frame where
  | items (before : List Json)
  | field (before : Members) (key : Option String)

/-- What the reader of trees awaits, inside the containers still open. -/
inductive Awaiting where
  /-- A value must come. -/
  | value (frames : List Frame)
  /-- An array has just opened: its first item or its end. -/
  | firstItem (frames : List Frame)
  /-- An object has just opened: its first key or its end. -/
  | firstKey (frames : List Frame)
  /-- A key must come, after a comma. -/
  | key (before : Members) (frames : List Frame)
  /-- The colon after a key. -/
  | colon (before : Members) (key : Option String) (frames : List Frame)
  /-- A value is complete: a comma, the end of its container or of the text. -/
  | more (value : Json) (frames : List Frame)

/-- A value begins with a token. -/
def beginValue? (frames : List Frame) : Token → Option Awaiting
  | .null => some (.more .null frames)
  | .bool value => some (.more (.bool value) frames)
  | .number value => some (.more (.number value) frames)
  | .string value => some (.more (.string value) frames)
  | .openArray => some (.firstItem frames)
  | .openObject => some (.firstKey frames)
  | _ => none

/-- What is awaited after one more token; nothing when the token cannot stand here. -/
def Awaiting.next? : Awaiting → Token → Option Awaiting
  | .value frames, token => beginValue? frames token
  | .firstItem frames, .closeArray => some (.more (.array []) frames)
  | .firstItem frames, token => beginValue? (.items [] :: frames) token
  | .firstKey frames, .closeObject => some (.more (.object []) frames)
  | .firstKey frames, .string name => some (.colon [] name frames)
  | .firstKey _, _ => none
  | .key before frames, .string name => some (.colon before name frames)
  | .key _ _, _ => none
  | .colon before name frames, .colon => some (.value (.field before name :: frames))
  | .colon _ _ _, _ => none
  | .more item (.items before :: frames), .comma => some (.value (.items (item :: before) :: frames))
  | .more item (.items before :: frames), .closeArray => some (.more (.array (item :: before).reverse) frames)
  | .more item (.field before name :: frames), .comma => some (.key ((name, item) :: before) frames)
  | .more item (.field before name :: frames), .closeObject =>
    some (.more (.object ((name, item) :: before).reverse) frames)
  | .more _ _, _ => none

/-- The tree of a sequence of tokens. -/
def ofTokens? : Awaiting → List Token → Option Json
  | .more value [], [] => some value
  | _, [] => none
  | awaiting, token :: rest => (awaiting.next? token).bind (ofTokens? · rest)

/-- The tree of a document text. -/
def read? (text : String) : Option Json :=
  (tokens? text.toList).bind (ofTokens? (.value []))

/-- How deeply arrays and objects may nest in what is read. -/
def maxDepth : Nat := 127

mutual

/-- The document of a tree that nests no deeper than the room left. -/
def toDocument? (room : Nat) : Json → Option Document
  | .null => some .null
  | .bool value => some (.bool value)
  | .number value => value.map .number
  | .string value => value.map .string
  | .array items => if room = 0 then none else (toItems? (room - 1) items).map .array
  | .object members => if room = 0 then none else (toFields? (room - 1) members).map Document.ofFields

/-- The documents of items. -/
def toItems? (room : Nat) : List Json → Option (List Document)
  | [] => some []
  | item :: rest =>
    match toDocument? room item, toItems? room rest with
    | some item, some rest => some (item :: rest)
    | _, _ => none

/-- The fields of members, in the order written. -/
def toFields? (room : Nat) : Members → Option Fields
  | [] => some []
  | (key, value) :: rest =>
    match key, toDocument? room value, toFields? room rest with
    | some key, some value, some rest => some ((key, value) :: rest)
    | _, _, _ => none

end

end Json

/-- The document that a text holds. -/
def Document.read? (text : String) : Option Document :=
  (Json.read? text).bind (Json.toDocument? Json.maxDepth)

end ClusterQuery
