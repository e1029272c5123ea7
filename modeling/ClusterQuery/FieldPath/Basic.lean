/-!
# Field paths

A path into a document: a list of field names, array indexes and wildcards.
-/

namespace ClusterQuery

/-- One step of a path. -/
inductive Segment where
  /-- Into the field of an object. -/
  | field (name : String)
  /-- Into one item of an array. -/
  | index (position : Nat)
  /-- Into every item of an array. -/
  | wildcard
  deriving DecidableEq, Repr

/-- The segment names a field. -/
def Segment.isField : Segment → Bool
  | .field _ => true
  | _ => false

/-- A path into a document. -/
structure FieldPath where
  segments : List Segment
  deriving DecidableEq, Repr

namespace FieldPath

/-- The path has no segments; it reaches the document itself. -/
def isEmpty (path : FieldPath) : Bool :=
  path.segments.isEmpty

/-- The leading field name, when the path starts with one. -/
def head? (path : FieldPath) : Option String :=
  match path.segments with
  | .field name :: _ => some name
  | _ => none

/-- The path without its first segment. -/
def tail (path : FieldPath) : FieldPath :=
  ⟨path.segments.drop 1⟩

/-- The path names fields only. -/
def isPlain (path : FieldPath) : Bool :=
  path.segments.all Segment.isField

end FieldPath

end ClusterQuery
