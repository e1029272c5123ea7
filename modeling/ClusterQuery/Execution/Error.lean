import ClusterQuery.Catalog.Kind
import ClusterQuery.FieldPath.Text
import ClusterQuery.Query.Parser

/-!
# Errors of queries

Why a query fails. The first cause ends it; what it has stored before that stays stored.
-/

namespace ClusterQuery

/-- Why a query may not change what it asks to change. -/
inductive MutationError where
  /-- A pattern to be created has edges. -/
  | relationships
  /-- An assigned key goes through an array. -/
  | throughArray (key : String)
  /-- A property of a node to be created goes through an array. -/
  | toArray (path : String)
  /-- A document to be removed has no name. -/
  | nameless (kind : String)
  deriving DecidableEq, Repr

/-- The wording of a mutation error. -/
def MutationError.message : MutationError → String
  | .relationships => "CREATE does not take relationships"
  | .throughArray key => "cannot assign through '" ++ key ++ "'"
  | .toArray path => "cannot assign to '" ++ path ++ "'"
  | .nameless kind => "matched " ++ kind ++ " has no metadata.name"

/-- Why a query fails. -/
inductive ExecutionError where
  | parse (cause : Query.ParseError)
  | resolution (identifier : String) (cause : CatalogError)
  | selector (cause : SelectorError)
  | fieldPath (cause : FieldPath.PathError)
  | store (binding kind : String) (cause : StoreError)
  | noRelationship (source target : String)
  | unknownBinding (path : String)
  | invalidMutation (cause : MutationError)
  /-- The query goes on for ever: narrowing its pattern has no end. -/
  | endless
  deriving DecidableEq, Repr

/-- The wording of an execution error. -/
def ExecutionError.message : ExecutionError → String
  | .parse cause => "Parse error: " ++ cause.message
  | .resolution identifier cause => "Cannot resolve resource kind '" ++ identifier ++ "': " ++ cause.message
  | .selector cause => "Selector error: " ++ cause.message
  | .fieldPath cause => "Invalid field path: " ++ cause.message
  | .store binding kind cause => "API error for '" ++ binding ++ "' (" ++ kind ++ "): " ++ cause.message
  | .noRelationship source target => "No relationship rule between " ++ source ++ " and " ++ target
  | .unknownBinding path => "Unknown binding '" ++ path ++ "'"
  | .invalidMutation cause => "Invalid mutation: " ++ cause.message
  | .endless => "The pattern cannot be narrowed in a finite number of rounds"

end ClusterQuery
