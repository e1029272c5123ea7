import ClusterQuery.Document.Writer
import ClusterQuery.Graph.Basic

/-!
# Results of queries

The documents under each binding, in ascending order of the bindings, and the graph of the pattern with the edges whose
ends both kept documents.
-/

namespace ClusterQuery

/-- The documents under each binding, in ascending order of the bindings. -/
abbrev Bindings := List (String × List Document)

/-- What a query gives. -/
structure Result where
  bindings : Bindings
  graph : Graph
  elapsedMs : Nat

/-- The record of a property. -/
def Property.record (property : Property) : Document :=
  .object [("key", .string property.key), ("value", property.value.toDocument)]

/-- The record of a node. -/
def Node.record (node : Node) : Document :=
  .object [("id", .string node.id), ("kind", .string node.kind), ("name", .string node.name),
    ("properties", .array (node.properties.map Property.record))]

/-- The record of an edge. -/
def Edge.record (edge : Edge) : Document :=
  .object [("from", .string edge.source), ("to", .string edge.target), ("type", .string edge.label)]

/-- The record of a graph, its nodes before its edges. -/
def Graph.record (graph : Graph) : Document :=
  .object [("nodes", .array (graph.nodes.map Node.record)), ("edges", .array (graph.edges.map Edge.record))]

namespace Result

/-- The documents under a binding, when the binding is part of the result. -/
def binding? (result : Result) (name : String) : Option (List Document) :=
  result.bindings.lookup name

/-- How many documents there are under all bindings. -/
def documentCount (result : Result) : Nat :=
  (result.bindings.flatMap (·.2)).length

/-- There are no documents. -/
def isEmpty (result : Result) : Bool :=
  result.documentCount == 0

/-- The bindings as an object of arrays. -/
def bindingsDocument (result : Result) : Document :=
  .object (result.bindings.map fun (name, documents) => (name, .array documents))

/-- The whole result as an object. -/
def record (result : Result) : Document :=
  .object [("bindings", result.bindingsDocument), ("graph", result.graph.record),
    ("execution_time_ms", .int result.elapsedMs)]

end Result

end ClusterQuery
