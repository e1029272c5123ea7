import ClusterQuery.Graph.Basic

/-!
# Drawing a graph

The graph as a document for graph drawing programs: its edges in order, then the nodes that no edge mentions.
-/

namespace ClusterQuery.Graph

/-- The label of an id: its kind between asterisks and its name, parted at the first slash. -/
def drawingLabel (id : String) : String :=
  match id.toList.span (· ≠ '/') with
  | (_, []) => id
  | (kind, _ :: name) => "*" ++ String.ofList kind ++ "* " ++ String.ofList name

/-- The line of an edge. -/
def drawEdge (edge : Edge) : String :=
  "\t\"" ++ drawingLabel edge.source ++ "\" -> \"" ++ drawingLabel edge.target ++ "\" [label=\":" ++ edge.label ++
    "\"];\n"

/-- The line of a node without edges. -/
def drawNode (node : Node) : String :=
  "\t\"" ++ drawingLabel node.id ++ "\";\n"

/-- The drawing of a graph. -/
def drawing (graph : Graph) : String :=
  let drawn := graph.edges.flatMap fun edge => [edge.source, edge.target]
  let alone := graph.nodes.filter fun node => !(drawn.contains node.id)
  "graph \x7b\n\trankdir = LR;\n\n" ++ String.join (graph.edges.map drawEdge) ++ String.join (alone.map drawNode) ++
    "\x7d"

end ClusterQuery.Graph
