import ClusterQuery.Query.Basic

/-!
# Printing queries

The one-line text of a query. Edges are printed as chains, each chain as long as an edge starts where the one before it
ended; the nodes that no edge has mentioned follow. Nodes are first mentioned in their order, and only the first mention
of a node shows its properties, so reading the text gives the same graph.
-/

namespace ClusterQuery

/-- The text of a block of properties. -/
def propertiesText (properties : List Property) : String :=
  "\x7b" ++ ", ".intercalate (properties.map fun property => property.key ++ ": " ++ property.value.text) ++ "\x7d"

namespace Node

/-- A mention of a node without its properties. -/
def bareText (node : Node) : String :=
  "(" ++ node.name ++ ":" ++ node.kind ++ ")"

/-- A mention of a node with its properties, if it has any. -/
def fullText (node : Node) : String :=
  if node.properties.isEmpty then node.bareText
  else "(" ++ node.name ++ ":" ++ node.kind ++ " " ++ propertiesText node.properties ++ ")"

end Node

namespace Graph

/-- The position of the first node of an id. -/
def position? (graph : Graph) (id : String) : Option Nat :=
  graph.nodes.findIdx? (·.id == id)

/-- A pattern text on its way: the chains done, the chain in hand and the node it ends at, and which nodes have been
mentioned. -/
structure Printing where
  chains : List String
  chain : String
  tail : Option Nat
  mentioned : List Nat

namespace Printing

/-- Nothing has been printed. -/
def start : Printing := ⟨[], "", none, []⟩

/-- The chain in hand is done. -/
def endChain (printing : Printing) : Printing :=
  if printing.chain = "" then printing else { printing with chains := printing.chains ++ [printing.chain], chain := "" }

/-- The text of a mention of a node: in full the first time, bare after that. -/
def mentionText (graph : Graph) (mentioned : List Nat) (position : Nat) : String :=
  match graph.nodes[position]? with
  | some node => if position ∈ mentioned then node.bareText else node.fullText
  | none => ""

/-- The printing after a mention of a node at the end of the chain in hand. -/
def mention (graph : Graph) (printing : Printing) (position : Nat) : Printing :=
  { printing with
    chain := printing.chain ++ mentionText graph printing.mentioned position
    mentioned := if position ∈ printing.mentioned then printing.mentioned else printing.mentioned ++ [position] }

/-- The nodes without a mention, in order. -/
def pending (graph : Graph) (printing : Printing) : List Nat :=
  (List.range graph.nodes.length).filter (· ∉ printing.mentioned)

/-- The printing after the nodes of the positions, each as a chain of its own. -/
def mentionAlone (graph : Graph) (printing : Printing) (positions : List Nat) : Printing :=
  { printing with
    chains := printing.chains ++ positions.map (mentionText graph printing.mentioned)
    mentioned := printing.mentioned ++ positions }

/-- The ends of an edge that have not been mentioned. -/
def fresh (printing : Printing) (source target : Nat) : List Nat :=
  (if source = target then [source] else [source, target]).filter (· ∉ printing.mentioned)

/-- The printing after the nodes that must be mentioned before an edge is, to keep the order of the nodes. -/
def catchUp (graph : Graph) (printing : Printing) (source target : Nat) : Printing :=
  let fresh := printing.fresh source target
  let pending := pending graph printing
  if fresh = pending.take fresh.length then printing
  else
    let last := fresh.foldl max 0
    { mentionAlone graph printing.endChain (pending.filter (· < last)) with tail := none }

/-- The printing after an edge; an edge without nodes at both ends is left out. -/
def addEdge (graph : Graph) (printing : Printing) (edge : Edge) : Printing :=
  match graph.position? edge.source, graph.position? edge.target with
  | some source, some target =>
    let ready := catchUp graph printing source target
    let opened := if ready.tail = some source then ready else mention graph ready.endChain source
    let arrow := { opened with chain := opened.chain ++ "-[:" ++ edge.label ++ "]->" }
    { mention graph arrow target with tail := some target }
  | _, _ => printing

end Printing

/-- The text of a pattern. -/
def patternText (graph : Graph) : String :=
  let edges := (graph.edges.foldl (Printing.addEdge graph) Printing.start).endChain
  let all := edges.mentionAlone graph (Printing.pending graph edges)
  ", ".intercalate all.chains

end Graph

/-- The text of a filter. -/
def Filter.text (filter : Filter) : String :=
  filter.path ++ " " ++ filter.comparison.text ++ " " ++ filter.value.text

/-- What follows the pattern in the text of a query. -/
def Clause.text : Clause → String
  | .find filters projections =>
    (if filters.isEmpty then "" else " WHERE " ++ " AND ".intercalate (filters.map Filter.text)) ++
      (if projections.isEmpty then "" else " RETURN " ++ ", ".intercalate projections)
  | .create => ""
  | .assign assignments => " " ++ propertiesText assignments
  | .delete => ""

/-- The one-line text of a query. -/
def Query.text (query : Query) : String :=
  query.clause.keyword ++ " " ++ query.graph.patternText ++ query.clause.text

end ClusterQuery
