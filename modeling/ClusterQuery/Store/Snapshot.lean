import ClusterQuery.Json.Decode
import ClusterQuery.Store.Basic

/-!
# Snapshots

The record of a cluster: its catalog, the standard one if it is left out, and its objects.
-/

namespace ClusterQuery

/-- The resource of a record. -/
def Resource.ofJson? (room : Nat) (json : Json) : Option Resource := do
  let members ← json.record? ["name", "kind", "shortNames", "namespaced"] room
  let name ← Json.required? members "name" Json.string?
  let kind ← Json.required? members "kind" Json.string?
  let shortNames ← Json.optional? members "shortNames" [] (Json.list? (fun _ => Json.string?) (room - 1))
  let namespaced ← Json.optional? members "namespaced" true Json.bool?
  return ⟨name, kind, shortNames, namespaced⟩

/-- The listing of a record. -/
def Listing.ofJson? (room : Nat) (json : Json) : Option Listing := do
  let members ← json.record? ["groupVersion", "resources"] room
  let groupVersion ← Json.required? members "groupVersion" Json.string?
  let resources ← Json.required? members "resources" (Json.list? Resource.ofJson? (room - 1))
  return ⟨groupVersion, resources⟩

namespace Store

/-- The store of a snapshot's tree. -/
def ofJson? (json : Json) : Option Store := do
  let members ← json.record? ["discovery", "objects"] Json.maxDepth
  let listings ←
    Json.optional? members "discovery" standardListings (Json.list? Listing.ofJson? (Json.maxDepth - 1))
  let objects ← Json.optional? members "objects" [] (Json.list? Json.toDocument? (Json.maxDepth - 1))
  return ofObjects listings objects

/-- The store of a snapshot's text. -/
def read? (text : String) : Option Store :=
  (Json.read? text).bind ofJson?

end Store

end ClusterQuery
