import ClusterQuery.Proofs.Graph.WellFormed
import ClusterQuery.Query.Parser

/-!
# The pattern of a query that has been read

A token changes the graph of a reading only when it completes a node (`step_graph`), and then the graph stays
well-formed (`addNode_wellFormed`). So every query that a text writes has a well-formed pattern (`parse_wellFormed`).
-/

namespace ClusterQuery.Query

namespace Reading

/-- The reading after a token holds the graph it held before, or a node has been completed. -/
def KeepsGraph (reading : Reading) (outcome : Outcome) : Prop :=
  match outcome with
  | .error _ => True
  | .ok (.inl next) => next.graph = reading.graph
  | .ok (.inr query) => query.graph = reading.graph

theorem goTo_keepsGraph (reading : Reading) (stage : Stage) : reading.KeepsGraph (reading.goTo stage) :=
  rfl

theorem ending_keepsGraph (reading : Reading) (placed : PlacedToken) : reading.KeepsGraph (reading.ending placed) := by
  unfold ending
  split
  · exact goTo_keepsGraph reading _
  · rfl
  · trivial

theorem expect_keepsGraph (reading : Reading) (placed : PlacedToken) (token : Token) (expected : String)
    (stage : Stage) : reading.KeepsGraph (reading.expect placed token expected stage) := by
  unfold expect
  split
  · exact goTo_keepsGraph reading _
  · trivial

theorem expectName_keepsGraph (reading : Reading) (placed : PlacedToken) (expected : String)
    (stage : String → Stage) : reading.KeepsGraph (reading.expectName placed expected stage) := by
  unfold expectName
  split
  · exact goTo_keepsGraph reading _
  · trivial

theorem closeBlock_keepsGraph (reading : Reading) (properties : List Property) (owner : BlockOwner) :
    reading.KeepsGraph (reading.closeBlock properties owner) := by
  cases owner <;> rfl

/-- What follows an answer that has been waited for keeps the graph when it does for every answer. -/
theorem bind_keepsGraph {α : Type} {reading : Reading} (answer : Except ParseError α) (next : α → Outcome)
    (h : ∀ a, reading.KeepsGraph (next a)) : reading.KeepsGraph (answer >>= next) := by
  cases answer with
  | error cause => trivial
  | ok a => exact h a

theorem readFirstKey_keepsGraph (reading : Reading) (placed : PlacedToken) (owner : BlockOwner) :
    reading.KeepsGraph (reading.readFirstKey placed owner) := by
  unfold readFirstKey
  split
  · exact goTo_keepsGraph reading _
  · exact bind_keepsGraph _ _ fun key => goTo_keepsGraph reading _

theorem afterPattern_keepsGraph (reading : Reading) (placed : PlacedToken) :
    reading.KeepsGraph (reading.afterPattern placed) := by
  unfold afterPattern
  split
  · split
    · exact goTo_keepsGraph reading _
    · exact goTo_keepsGraph reading _
    · exact ending_keepsGraph reading placed
  · exact expect_keepsGraph reading placed _ _ _
  · exact ending_keepsGraph reading placed
  · exact ending_keepsGraph reading placed

/-- A token keeps the graph, unless it completes a node. -/
theorem step_graph (reading : Reading) (placed : PlacedToken) :
    reading.KeepsGraph (reading.step placed) ∨
      ∃ head properties, reading.step placed = reading.addNode head properties := by
  -- only the two stages that may close a node complete one
  unfold step
  cases reading.stage with
  | nodeBlockOrClose head =>
    dsimp only
    split
    · exact Or.inl (goTo_keepsGraph reading _)
    · exact Or.inr ⟨head, [], rfl⟩
    · exact Or.inl trivial
  | nodeClose head properties =>
    dsimp only
    split
    · exact Or.inr ⟨head, properties, rfl⟩
    · exact Or.inl trivial
  | verb =>
    left
    dsimp only
    split <;> first | exact goTo_keepsGraph { reading with verb := _ } _ | trivial
  | nodeOpen => exact Or.inl (expect_keepsGraph reading placed _ _ _)
  | bindingName => exact Or.inl (expectName_keepsGraph reading placed _ _)
  | bindingColon name => exact Or.inl (expect_keepsGraph reading placed _ _ _)
  | kind name => exact Or.inl (expectName_keepsGraph reading placed _ _)
  | firstKey owner => exact Or.inl (readFirstKey_keepsGraph reading placed owner)
  | emptyBlockClose owner =>
    left
    dsimp only
    split
    · exact closeBlock_keepsGraph reading _ owner
    · trivial
  | key owner properties => exact Or.inl (bind_keepsGraph _ _ fun key => goTo_keepsGraph reading _)
  | keyColon owner properties key => exact Or.inl (expect_keepsGraph reading placed _ _ _)
  | value owner properties key => exact Or.inl (bind_keepsGraph _ _ fun value => goTo_keepsGraph reading _)
  | blockMore owner properties =>
    left
    dsimp only
    split
    · exact goTo_keepsGraph reading _
    · exact closeBlock_keepsGraph reading _ owner
    · trivial
  | patternMore id =>
    left
    dsimp only
    split
    · exact goTo_keepsGraph reading _
    · exact goTo_keepsGraph reading _
    · exact afterPattern_keepsGraph reading placed
  | edgeBracket source => exact Or.inl (expect_keepsGraph reading placed _ _ _)
  | edgeColon source => exact Or.inl (expect_keepsGraph reading placed _ _ _)
  | edgeLabel source => exact Or.inl (expectName_keepsGraph reading placed _ _)
  | edgeClose source label => exact Or.inl (expect_keepsGraph reading placed _ _ _)
  | edgeArrow source label => exact Or.inl (expect_keepsGraph { reading with openEdge := _ } placed _ _ _)
  | filterPath => exact Or.inl (bind_keepsGraph _ _ fun path => goTo_keepsGraph reading _)
  | filterComparison path =>
    left
    dsimp only
    split <;> first | exact goTo_keepsGraph reading _ | trivial
  | filterValue path comparison =>
    exact Or.inl (bind_keepsGraph _ _ fun value => goTo_keepsGraph { reading with filters := _ } _)
  | filterMore =>
    left
    dsimp only
    split
    · exact goTo_keepsGraph reading _
    · exact goTo_keepsGraph reading _
    · exact goTo_keepsGraph reading _
    · exact ending_keepsGraph reading placed
  | projectionPath =>
    exact Or.inl (bind_keepsGraph _ _ fun path => goTo_keepsGraph { reading with projections := _ } _)
  | projectionMore =>
    left
    dsimp only
    split
    · exact goTo_keepsGraph reading _
    · exact ending_keepsGraph reading placed
  | close => exact Or.inl (ending_keepsGraph reading placed)
  | finish =>
    left
    dsimp only
    split
    · rfl
    · trivial

/-- A completed node leaves the graph well-formed: its name is not bound to another kind. -/
theorem addNode_wellFormed {reading next : Reading} {head : NodeHead} {properties : List Property}
    (h : reading.graph.WellFormed) (ha : reading.addNode head properties = .ok (.inl next)) :
    next.graph.WellFormed := by
  unfold addNode at ha
  simp only at ha
  split at ha
  · cases ha
  · rename_i hconflict
    have hname : ∀ other ∈ reading.graph.nodes, other.name = (Node.ofBinding head.name head.kind properties).name →
        other.kind = (Node.ofBinding head.name head.kind properties).kind := by
      intro other hother (hn : other.name = head.name)
      rw [h.nodeOfBinding?_eq hother hn] at hconflict
      simpa [Option.filter_eq_none_iff, Node.ofBinding] using hconflict
    obtain ⟨hw, -, -⟩ := h.addNode rfl hname
    split at ha
    · cases ha
      exact hw
    · split at ha
      · cases ha
      · rename_i hadd
        cases ha
        exact (hw.addEdge hadd).1

/-- A completed node completes no query. -/
theorem addNode_ne_query (reading : Reading) (head : NodeHead) (properties : List Property) (query : Query) :
    reading.addNode head properties ≠ .ok (.inr query) := by
  unfold addNode
  dsimp only
  split
  · nofun
  · split
    · nofun
    · split <;> nofun

/-- A query that completes a reading with a well-formed graph has a well-formed pattern. -/
theorem run_wellFormed {tokens : List PlacedToken} {reading : Reading} {query : Query}
    (h : reading.graph.WellFormed) (hrun : reading.run tokens = .ok query) : query.graph.WellFormed := by
  induction tokens generalizing reading with
  | nil => cases hrun
  | cons placed rest ih =>
    unfold run at hrun
    split at hrun
    · cases hrun
    · rename_i hstep
      cases hrun
      rcases reading.step_graph placed with hkeep | ⟨head, properties, hadd⟩
      · rw [hstep] at hkeep
        exact (show query.graph = reading.graph from hkeep) ▸ h
      · rw [hstep] at hadd
        exact absurd hadd.symm (addNode_ne_query reading head properties query)
    · rename_i next hstep
      apply ih _ hrun
      rcases reading.step_graph placed with hkeep | ⟨head, properties, hadd⟩
      · rw [hstep] at hkeep
        exact (show next.graph = reading.graph from hkeep) ▸ h
      · rw [hstep] at hadd
        exact addNode_wellFormed h hadd.symm

end Reading

/-- Every query that a text writes has a well-formed pattern. -/
theorem parse_wellFormed {text : String} {query : Query} (h : parse text = .ok query) : query.graph.WellFormed :=
  Reading.run_wellFormed Graph.wellFormed_empty h

end ClusterQuery.Query
