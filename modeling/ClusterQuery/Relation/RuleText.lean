import ClusterQuery.Json.Decode
import ClusterQuery.Relation.Rule

/-!
# Rules in settings

The record of a rule: its kinds and its linkage, whose type says which paths it has.
-/

namespace ClusterQuery

/-- The type of a linkage: the member of that name, or the first of an array. -/
def Linkage.type? : Json → Option String
  | .object members => Json.required? members "type" Json.string?
  | .array (first :: _) => first.string?
  | _ => none

/-- The members that a linkage of a type has after the type. -/
def Linkage.memberNames : String → List String
  | "label_selector" => ["selector_path"]
  | "field_reference" => ["parent_path", "child_path"]
  | _ => []

/-- The linkage of a record. Every member must be readable, also one that the type does not know. -/
def Linkage.ofJson? (room : Nat) (json : Json) : Option Linkage := do
  let type ← Linkage.type? json
  let members ← json.record? ("type" :: Linkage.memberNames type) room
  let _ ← members.mapM fun member => member.2.toDocument? (room - 1)
  match type with
  | "owner_reference" => return .ownerReference
  | "label_selector" => return .labelSelector (← Json.required? members "selector_path" Json.string?)
  | "field_reference" =>
    let parentPath ← Json.required? members "parent_path" Json.string?
    let childPath ← Json.required? members "child_path" Json.string?
    return .fieldReference parentPath childPath
  | _ => none

/-- The record of a linkage. -/
def Linkage.toDocument : Linkage → Document
  | .ownerReference => .ofFields [("type", .string "owner_reference")]
  | .labelSelector selectorPath =>
    .ofFields [("type", .string "label_selector"), ("selector_path", .string selectorPath)]
  | .fieldReference parentPath childPath =>
    .ofFields
      [("type", .string "field_reference"), ("parent_path", .string parentPath), ("child_path", .string childPath)]

/-- The rule of a record. -/
def Rule.ofJson? (room : Nat) (json : Json) : Option Rule := do
  let members ← json.record? ["parent", "child", "linkage"] room
  let parent ← Json.required? members "parent" Json.string?
  let child ← Json.required? members "child" Json.string?
  let linkage ← Json.required? members "linkage" (Linkage.ofJson? (room - 1))
  return ⟨parent, child, linkage⟩

/-- The record of a rule. -/
def Rule.toDocument (rule : Rule) : Document :=
  .ofFields [("parent", .string rule.parent), ("child", .string rule.child), ("linkage", rule.linkage.toDocument)]

end ClusterQuery
