import ClusterQuery.Query.Literal

/-!
# Pattern graphs

The nodes and edges of a pattern, in the order of their first mention. A node is a binding of a resource kind; its id
joins the two, and a second mention of an id adds properties to the node that stands.
-/

namespace ClusterQuery

/-- A key with its value, from a block in braces. -/
structure Property where
  key : String
  value : Literal
  deriving DecidableEq, Repr

/-- A binding of a resource kind, with properties. -/
structure Node where
  id : String
  kind : String
  name : String
  properties : List Property
  deriving DecidableEq, Repr

/-- A directed relationship between the nodes of two ids. -/
structure Edge where
  source : String
  target : String
  label : String
  deriving DecidableEq, Repr

/-- Nodes and edges in order. -/
structure Graph where
  nodes : List Node
  edges : List Edge
  deriving DecidableEq, Repr

/-- Why an edge is refused: one of its ends is no node. -/
inductive GraphError where
  | invalidEdge (source target : String)
  deriving DecidableEq, Repr

/-- The wording of a graph error. -/
def GraphError.message : GraphError → String
  | .invalidEdge source target =>
    "Invalid edge: from node " ++ source ++ " to node " ++ target ++ " - one or both nodes don't exist"

/-- The value of the first property of a key. -/
def propertyValue? (properties : List Property) (key : String) : Option Literal :=
  (properties.find? (·.key == key)).map (·.value)

namespace Node

/-- The id of a binding of a kind. -/
def idOf (kind name : String) : String :=
  kind ++ "/" ++ name

/-- The node of a binding of a kind. -/
def ofBinding (name kind : String) (properties : List Property) : Node :=
  ⟨idOf kind name, kind, name, properties⟩

/-- The value of the first property of a key. -/
def property? (node : Node) (key : String) : Option Literal :=
  propertyValue? node.properties key

/-- The properties with further ones appended, each unless its key is there already. -/
def addProperties (properties : List Property) (further : List Property) : List Property :=
  further.foldl
    (fun kept property => if (propertyValue? kept property.key).isNone then kept ++ [property] else kept) properties

end Node

namespace Graph

/-- The graph without nodes. -/
def empty : Graph := ⟨[], []⟩

/-- The first node of an id. -/
def node? (graph : Graph) (id : String) : Option Node :=
  graph.nodes.find? (·.id == id)

/-- The first node of a binding name. -/
def nodeOfBinding? (graph : Graph) (name : String) : Option Node :=
  graph.nodes.find? (·.name == name)

/-- The binding names in node order. -/
def bindings (graph : Graph) : List String :=
  graph.nodes.map (·.name)

/-- The nodes after one more: the first node of its id takes its new properties, or else it comes last. -/
def addToNodes (node : Node) : List Node → List Node
  | [] => [node]
  | first :: rest =>
    if first.id = node.id then
      { first with properties := Node.addProperties first.properties node.properties } :: rest
    else first :: addToNodes node rest

/-- The graph after one more node. -/
def addNode (graph : Graph) (node : Node) : Graph :=
  { graph with nodes := addToNodes node graph.nodes }

/-- The graph after one more edge between nodes that stand; an edge is held at most once. -/
def addEdge (graph : Graph) (edge : Edge) : Except GraphError Graph :=
  if (graph.node? edge.source).isNone || (graph.node? edge.target).isNone then
    .error (.invalidEdge edge.source edge.target)
  else if edge ∈ graph.edges then .ok graph
  else .ok { graph with edges := graph.edges ++ [edge] }

/-- The graph with every node and only the edges between ids that have a live node. -/
def restrict (graph : Graph) (live : Node → Bool) : Graph :=
  let ids := (graph.nodes.filter live).map (·.id)
  { graph with edges := graph.edges.filter fun edge => edge.source ∈ ids && edge.target ∈ ids }

end Graph

end ClusterQuery
