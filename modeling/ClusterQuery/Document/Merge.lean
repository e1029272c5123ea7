import ClusterQuery.Document.Basic

/-!
# Merging documents

A patch merges into a target key by key where both are objects and replaces it elsewhere. The merge of projections also
lines up arrays of one length, item by item, and lets a null leave the target as it is.
-/

namespace ClusterQuery.Document

mutual

/-- The target after a patch: objects merge key by key, all else is replaced. -/
def merge (target : Document) : Document → Document
  | .object patch =>
    match target with
    | .object fields => .object (mergeFields fields patch)
    | _ => .object patch
  | .null => .null
  | .bool value => .bool value
  | .number value => .number value
  | .string value => .string value
  | .array items => .array items

/-- The fields after the fields of a patch, in order. -/
def mergeFields (fields : Fields) : Fields → Fields
  | [] => fields
  | (key, value) :: rest =>
    let merged :=
      match fields.lookup key with
      | some old => old.merge value
      | none => value
    mergeFields (Keyed.insert key merged fields) rest

end

mutual

/-- The projection after another: objects merge key by key and arrays of one length item by item; elsewhere the other
replaces the target unless it is null. -/
def overlay (target : Document) : Document → Document
  | .object patch =>
    match target with
    | .object fields => .object (overlayFields fields patch)
    | _ => .object patch
  | .array patch =>
    match target with
    | .array items => if items.length = patch.length then .array (overlayItems items patch) else .array patch
    | _ => .array patch
  | .null => target
  | .bool value => .bool value
  | .number value => .number value
  | .string value => .string value

/-- The fields after the fields of another projection, in order. -/
def overlayFields (fields : Fields) : Fields → Fields
  | [] => fields
  | (key, value) :: rest =>
    let merged :=
      match fields.lookup key with
      | some old => old.overlay value
      | none => value
    overlayFields (Keyed.insert key merged fields) rest

/-- The items after those of another projection of the same length. -/
def overlayItems : List Document → List Document → List Document
  | item :: items, value :: values => item.overlay value :: overlayItems items values
  | items, [] => items
  | [], _ :: _ => []

end

end ClusterQuery.Document
