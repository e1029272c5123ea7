import ClusterQuery.Document.Number
import ClusterQuery.Keyed

/-!
# Documents

The schemaless value that stores hold and queries return. The fields of an object are kept in ascending order of their
keys, by code points, each key once.
-/

namespace ClusterQuery

/-- A schemaless value. -/
inductive Document where
  | null
  | bool (value : Bool)
  | number (value : Number)
  | string (value : String)
  | array (items : List Document)
  | object (fields : List (String × Document))
  deriving Inhabited, Repr

/-- The fields of an object. -/
abbrev Fields := List (String × Document)

namespace Document

/-- The object without fields. -/
def empty : Document := .object []

/-- The object with the given fields; of two fields of one key the later wins. -/
def ofFields (fields : Fields) : Document :=
  .object (Keyed.ofList fields)

/-- The object with one field. -/
def singleton (key : String) (value : Document) : Document :=
  .object [(key, value)]

/-- An integer. -/
def int (value : Int) : Document :=
  .number (.integer value)

/-- The text of a string. -/
def string? : Document → Option String
  | .string value => some value
  | _ => none

/-- The items of an array. -/
def items? : Document → Option (List Document)
  | .array items => some items
  | _ => none

/-- The fields of an object. -/
def fields? : Document → Option Fields
  | .object fields => some fields
  | _ => none

/-- The value of a field, in an object. -/
def get? (document : Document) (key : String) : Option Document :=
  match document with
  | .object fields => fields.lookup key
  | _ => none

/-- The value that a chain of fields leads to. -/
def at? (document : Document) : List String → Option Document
  | [] => some document
  | key :: rest => (document.get? key).bind (·.at? rest)

/-- The string that a chain of fields leads to. -/
def stringAt? (document : Document) (keys : List String) : Option String :=
  (document.at? keys).bind string?

/-- The name in the metadata. -/
def name? (document : Document) : Option String :=
  document.stringAt? ["metadata", "name"]

/-- The namespace in the metadata. -/
def namespace? (document : Document) : Option String :=
  document.stringAt? ["metadata", "namespace"]

mutual

/-- Equal values: numbers by value, all else by structure. -/
def same : Document → Document → Bool
  | .null, .null => true
  | .bool a, .bool b => a == b
  | .number a, .number b => a.same b
  | .string a, .string b => a == b
  | .array a, .array b => sameItems a b
  | .object a, .object b => sameFields a b
  | _, _ => false

/-- Equal lists of values. -/
def sameItems : List Document → List Document → Bool
  | [], [] => true
  | a :: as, b :: bs => a.same b && sameItems as bs
  | _, _ => false

/-- Equal lists of fields. -/
def sameFields : Fields → Fields → Bool
  | [], [] => true
  | (k, a) :: as, (l, b) :: bs => k == l && a.same b && sameFields as bs
  | _, _ => false

end

instance : BEq Document := ⟨same⟩

end Document

end ClusterQuery
