import ClusterQuery.Document.Merge
import ClusterQuery.FieldPath.Basic

/-!
# What a path reaches

The values a path reaches in a document, the document cut down to a path, the nesting of a value at a path, and the
projection of a document to several paths.
-/

namespace ClusterQuery

/-- The values one segment reaches from a value. -/
def Segment.step (segment : Segment) (value : Document) : List Document :=
  match segment with
  | .field name => (value.get? name).toList
  | .index position => ((value.items?).bind (·[position]?)).toList
  | .wildcard => (value.items?).getD []

namespace FieldPath

/-- The values that segments reach from a value, in document order. -/
def resolveFrom : List Segment → Document → List Document
  | [], value => [value]
  | segment :: rest, value => (segment.step value).flatMap (resolveFrom rest)

/-- Every value the path reaches; a wildcard fans out over the items. -/
def resolve (path : FieldPath) (document : Document) : List Document :=
  resolveFrom path.segments document

/-- The first value the path reaches. -/
def first? (path : FieldPath) (document : Document) : Option Document :=
  (path.resolve document).head?

/-- The value cut down to segments: an index keeps its item alone, a wildcard keeps every item and writes null where
nothing is reached. -/
def extractFrom : List Segment → Document → Option Document
  | [], value => some value
  | .field name :: rest, value =>
    ((value.get? name).bind (extractFrom rest)).map (Document.singleton name)
  | .index position :: rest, value =>
    ((value.items?.bind (·[position]?)).bind (extractFrom rest)).map fun item => .array [item]
  | .wildcard :: rest, value =>
    value.items?.map fun items => .array (items.map fun item => (extractFrom rest item).getD .null)

/-- The document cut down to the path with its nesting, or nothing when the path reaches nothing. -/
def extract (path : FieldPath) (document : Document) : Option Document :=
  extractFrom path.segments document

/-- A value nested below segments; only field names can be nested. -/
def nestFrom (value : Document) : List Segment → Option Document
  | [] => some value
  | .field name :: rest => (nestFrom value rest).map (Document.singleton name)
  | _ :: _ => none

/-- The object that holds a value at the path and nothing else; only plain paths have one. -/
def nest (path : FieldPath) (value : Document) : Option Document :=
  nestFrom value path.segments

end FieldPath

namespace Document

/-- The document reduced to paths: the cuts of the paths that reach something, laid over each other in order. With a
path without segments among them it is the whole document. -/
def project (document : Document) (paths : List FieldPath) : Document :=
  if paths.any FieldPath.isEmpty then document
  else (paths.filterMap (·.extract document)).foldl Document.overlay Document.empty

end Document

end ClusterQuery
