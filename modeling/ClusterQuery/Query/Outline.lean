import ClusterQuery.Query.Printer

/-!
# Outlines of queries

The tree of a query as indented lines: its nodes with their properties, its edges, and the parts of its clause.
-/

namespace ClusterQuery

namespace Outline

/-- A line at a level, two spaces per level. -/
def line (level : Nat) (text : String) : String :=
  String.ofList (List.replicate (2 * level) ' ') ++ text

/-- The line of a property. -/
def property (level : Nat) (property : Property) : String :=
  line level (property.key ++ " = " ++ property.value.text)

/-- The lines of a node. -/
def node (node : Node) : List String :=
  line 2 ("Node " ++ node.name ++ " (" ++ node.kind ++ ")") :: node.properties.map (property 3)

/-- The line of an edge. -/
def edge (edge : Edge) : String :=
  line 2 ("Edge " ++ edge.source ++ " -[:" ++ edge.label ++ "]-> " ++ edge.target)

/-- Lines under a heading, or nothing where there are no lines. -/
def underHeading (heading : String) (lines : List String) : List String :=
  if lines.isEmpty then [] else line 1 heading :: lines

/-- The lines of a clause. -/
def clause : Clause → List String
  | .find filters projections =>
    underHeading "Where" (filters.map fun filter => line 2 filter.text) ++
      underHeading "Return" (projections.map (line 2))
  | .assign assignments => line 1 "Assignments" :: assignments.map (property 2)
  | .create => []
  | .delete => []

end Outline

/-- The outline of a query. -/
def Query.outline (query : Query) : List String :=
  ("Query (" ++ query.clause.keyword ++ ")") :: Outline.line 1 "Pattern" ::
    (query.graph.nodes.flatMap Outline.node ++ query.graph.edges.map Outline.edge ++ Outline.clause query.clause)

end ClusterQuery
