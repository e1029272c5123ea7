import ClusterQuery.Catalog.Listing
import ClusterQuery.Selector.Basic

/-!
# Calls to a store

The requests that a store takes and the record it keeps of them.
-/

namespace ClusterQuery

/-- Which objects of a resource to list: those of one namespace or of all, under two selectors. -/
structure Search where
  inNamespace : Option String
  fields : Selector
  labels : Selector
  deriving DecidableEq, Repr

/-- The search for everything. -/
def Search.everything : Search := ⟨none, .empty, .empty⟩

/-- The names of the calls. -/
inductive CallName where
  | discover
  | list
  | create
  | update
  | delete
  deriving DecidableEq, Repr

/-- A recorded call. -/
inductive Call where
  | discover
  | list (resource : Coordinate) (inNamespace : Option String) (fields labels : String)
  | create (resource : Coordinate) (inNamespace : Option String) (name : String)
  | update (resource : Coordinate) (inNamespace : Option String) (name : String)
  | delete (resource : Coordinate) (inNamespace : Option String) (name : String)
  deriving DecidableEq, Repr

/-- The name of a recorded call. -/
def Call.callName : Call → CallName
  | .discover => .discover
  | .list .. => .list
  | .create .. => .create
  | .update .. => .update
  | .delete .. => .delete

end ClusterQuery
