/-!
# Errors of a store

Why a call to a store fails. Only the last four can arise in a store held in memory; the others are those of a platform
behind a network.
-/

namespace ClusterQuery

/-- Why a call to a store fails. -/
inductive StoreError where
  | transport (detail : String)
  | unauthorized (detail : String)
  | rateLimited (detail : String)
  | notFound (detail : String)
  | alreadyExists (detail : String)
  | invalid (detail : String)
  | workerStopped
  deriving DecidableEq, Repr

/-- The wording of a store error. -/
def StoreError.message : StoreError → String
  | .transport detail => "Transport error: " ++ detail
  | .unauthorized detail => "Unauthorized: " ++ detail
  | .rateLimited detail => "Rate limited: " ++ detail
  | .notFound detail => "Not found: " ++ detail
  | .alreadyExists detail => "Already exists: " ++ detail
  | .invalid detail => "Invalid request: " ++ detail
  | .workerStopped => "Dispatch worker stopped"

end ClusterQuery
