import ClusterQuery.Graph.Basic
import ClusterQuery.Selector.Basic

/-!
# Queries

A query is a pattern graph and a clause: what to do with the documents that take part in the pattern.
-/

namespace ClusterQuery

/-- A condition on a path that starts with a binding. -/
structure Filter where
  path : String
  comparison : Comparison
  value : Literal
  deriving DecidableEq, Repr

/-- What a query does with its pattern. -/
inductive Clause where
  /-- Return the documents that pass the filters, cut down to the projections if there are any. -/
  | find (filters : List Filter) (projections : List String)
  /-- Store a document for each node. -/
  | create
  /-- Change the documents by the assignments. -/
  | assign (assignments : List Property)
  /-- Remove the documents. -/
  | delete
  deriving DecidableEq, Repr

namespace Clause

/-- The word that begins the query. -/
def keyword : Clause → String
  | .find .. => "MATCH"
  | .create => "CREATE"
  | .assign _ => "SET"
  | .delete => "DELETE"

/-- The clause changes the store. -/
def isMutation : Clause → Bool
  | .find .. => false
  | _ => true

end Clause

/-- A pattern and what to do with it. -/
structure Query where
  graph : Graph
  clause : Clause
  deriving DecidableEq, Repr

end ClusterQuery
