import ClusterQuery.Proofs.Graph.Growing
import ClusterQuery.Proofs.Query.Pattern

/-!
# How a pattern is built

What is read of a pattern is added to its graph, node by node and edge by edge. An edge waits for its target under the
id of its source, and that id is one of the graph (`Built`), so no edge of a text is ever refused: a pattern grows by
additions that succeed (`run_built`).
-/

namespace ClusterQuery.Query

/-- The id of the node that an edge may start at. -/
def Stage.source? : Stage → Option String
  | .patternMore id => some id
  | .edgeBracket source => some source
  | .edgeColon source => some source
  | .edgeLabel source => some source
  | .edgeClose source _ => some source
  | .edgeArrow source _ => some source
  | _ => none

namespace Reading

/-- The ids that a reading goes on from: that of the node before, and that of an edge without its target. -/
def sources (reading : Reading) : List String :=
  reading.stage.source?.toList ++ (reading.openEdge.map (·.1)).toList

/-- The reading after a token goes on from ids that it went on from before, and no edge is refused. -/
def Carries (reading : Reading) : Outcome → Prop
  | .error cause => ∀ refusal, cause ≠ .graph refusal
  | .ok (.inl next) => next.sources ⊆ reading.sources
  | .ok (.inr _) => True

section Carrying

variable (reading : Reading) (placed : PlacedToken)

theorem unexpected_carries (expected : String) : reading.Carries (.error (.unexpected placed expected)) := by
  obtain ⟨token, place⟩ := placed
  cases token <;> exact nofun

variable {reading placed}

/-- A stage without a source of its own, or with that of the stage before. -/
theorem goTo_carries {next : Reading} {stage : Stage} (hedge : next.openEdge = reading.openEdge)
    (hstage : ∀ id ∈ stage.source?, id ∈ reading.stage.source?) : reading.Carries (next.goTo stage) := by
  intro id hid
  rw [sources, List.mem_append, Option.mem_toList, Option.mem_toList] at hid ⊢
  exact hid.imp (hstage id) (fun h => hedge ▸ h)

theorem expect_carries {next : Reading} {token : Token} {expected : String} {stage : Stage}
    (h : reading.Carries (next.goTo stage)) : reading.Carries (next.expect placed token expected stage) := by
  unfold expect
  split
  · exact h
  · exact unexpected_carries reading placed expected

theorem expectName_carries {expected : String} {stage : String → Stage}
    (h : ∀ name, reading.Carries (reading.goTo (stage name))) :
    reading.Carries (reading.expectName placed expected stage) := by
  unfold expectName
  split
  · exact h _
  · exact unexpected_carries reading placed expected

theorem expectPath_carries {expected : String} {next : String → Outcome} (h : ∀ path, reading.Carries (next path)) :
    reading.Carries (expectPath placed expected >>= next) := by
  unfold expectPath
  split
  · split
    · exact fun _ => nofun
    · exact h _
  · exact unexpected_carries reading placed expected

theorem expectLiteral_carries {next : Literal → Outcome} (h : ∀ value, reading.Carries (next value)) :
    reading.Carries (expectLiteral placed >>= next) := by
  unfold expectLiteral
  split
  · exact h _
  · exact h _
  · split
    · exact h _
    · exact fun _ => nofun
  · exact unexpected_carries reading placed _

theorem ending_carries : reading.Carries (reading.ending placed) := by
  unfold ending
  split
  · exact goTo_carries rfl nofun
  · trivial
  · exact unexpected_carries reading placed _

theorem closeBlock_carries (properties : List Property) (owner : BlockOwner) :
    reading.Carries (reading.closeBlock properties owner) := by
  cases owner <;> exact goTo_carries rfl nofun

theorem readFirstKey_carries (owner : BlockOwner) : reading.Carries (reading.readFirstKey placed owner) := by
  unfold readFirstKey
  split
  · exact goTo_carries rfl nofun
  · exact expectPath_carries fun _ => goTo_carries rfl nofun

theorem afterPattern_carries : reading.Carries (reading.afterPattern placed) := by
  unfold afterPattern
  split
  · split
    · exact goTo_carries rfl nofun
    · exact goTo_carries rfl nofun
    · exact ending_carries
  · exact expect_carries (goTo_carries rfl nofun)
  · exact ending_carries
  · exact ending_carries

end Carrying

/-- A token carries the sources on, unless it completes a node. -/
theorem step_carries (reading : Reading) (placed : PlacedToken) :
    reading.Carries (reading.step placed) ∨
      ∃ head properties, reading.step placed = reading.addNode head properties := by
  unfold step
  cases hstage : reading.stage with
  | nodeBlockOrClose head =>
    dsimp only
    split
    · exact Or.inl (goTo_carries rfl nofun)
    · exact Or.inr ⟨head, [], rfl⟩
    · exact Or.inl (unexpected_carries reading placed _)
  | nodeClose head properties =>
    dsimp only
    split
    · exact Or.inr ⟨head, properties, rfl⟩
    · exact Or.inl (unexpected_carries reading placed _)
  | edgeArrow source label =>
    -- the source of the stage is now that of the open edge
    left
    refine expect_carries fun id hid => ?_
    simp only [sources, hstage, Stage.source?] at hid ⊢
    simpa using Or.inl hid
  | nodeOpen | bindingColon | keyColon => exact Or.inl (expect_carries (goTo_carries rfl nofun))
  | edgeBracket | edgeColon | edgeClose =>
    exact Or.inl (expect_carries (goTo_carries rfl fun id hid => by rwa [hstage]))
  | bindingName | kind => exact Or.inl (expectName_carries fun _ => goTo_carries rfl nofun)
  | edgeLabel => exact Or.inl (expectName_carries fun _ => goTo_carries rfl fun id hid => by rwa [hstage])
  | key | filterPath | projectionPath => exact Or.inl (expectPath_carries fun _ => goTo_carries rfl nofun)
  | value | filterValue => exact Or.inl (expectLiteral_carries fun _ => goTo_carries rfl nofun)
  | firstKey owner => exact Or.inl (readFirstKey_carries owner)
  | close => exact Or.inl ending_carries
  | patternMore id =>
    left
    dsimp only
    split
    · exact goTo_carries rfl fun id hid => by rwa [hstage]
    · exact goTo_carries rfl nofun
    · exact afterPattern_carries
  | verb | emptyBlockClose | blockMore | filterComparison | filterMore | projectionMore | finish =>
    -- none of these stages has a source, and none that comes after them
    left
    dsimp only
    split
    all_goals first
      | exact goTo_carries rfl nofun
      | exact closeBlock_carries _ _
      | exact ending_carries
      | exact unexpected_carries reading placed _
      | exact fun _ => nofun
      | trivial

open ClusterQuery.Graph (Addition)

/-- The graph of the reading is made by additions, and the reading goes on from ids of it. -/
structure Built (reading : Reading) : Prop where
  grows : ∃ additions, reading.graph = Graph.empty.addAll additions
  sources_mem : ∀ id ∈ reading.sources, id ∈ reading.graph.ids

/-- Additions to a graph that grew make one that grew. -/
theorem grows_add {graph : Graph} (addition : Addition) (h : ∃ additions, graph = Graph.empty.addAll additions) :
    ∃ additions, graph.add addition = Graph.empty.addAll additions := by
  obtain ⟨additions, rfl⟩ := h
  exact ⟨additions ++ [addition], (Graph.addAll_concat _ _ _).symm⟩

/-- A completed node is added with its edge, which is not refused. -/
theorem Built.addNode {reading : Reading} (h : reading.Built) (head : NodeHead) (properties : List Property) :
    (∃ next, reading.addNode head properties = .ok (.inl next) ∧ next.Built) ∨
      ∃ name first second, reading.addNode head properties = .error (.conflictingBinding name first second) := by
  have hids : reading.graph.ids ⊆ (reading.graph.addNode (Node.ofBinding head.name head.kind properties)).ids :=
    Graph.ids_subset_add reading.graph (.node _)
  have hid : (Node.ofBinding head.name head.kind properties).id ∈
      (reading.graph.addNode (Node.ofBinding head.name head.kind properties)).ids := Graph.mem_ids_addNode _ _
  have hgrows := grows_add (.node (Node.ofBinding head.name head.kind properties)) h.grows
  unfold Reading.addNode
  dsimp only
  split
  · exact Or.inr ⟨_, _, _, rfl⟩
  · left
    split
    · rename_i hopen
      refine ⟨_, rfl, hgrows, fun id hmem => ?_⟩
      simp only [sources, hopen, Stage.source?, Option.map_none, Option.toList_none, Option.toList_some,
        List.append_nil, List.mem_singleton] at hmem
      exact hmem ▸ hid
    · rename_i source label hopen
      have hsource : source ∈ reading.graph.ids := h.sources_mem source (by simp [sources, hopen])
      cases hadd : (reading.graph.addNode (Node.ofBinding head.name head.kind properties)).addEdge
          ⟨source, (Node.ofBinding head.name head.kind properties).id, label⟩ with
      | error cause =>
        obtain ⟨hends, -⟩ := Graph.addEdge_eq_error_iff.1 hadd
        exact absurd hends (not_or.2 ⟨not_not.2 (hids hsource), not_not.2 hid⟩)
      | ok graph =>
        have hgraph : (reading.graph.addNode (Node.ofBinding head.name head.kind properties)).add
            (.edge ⟨source, (Node.ofBinding head.name head.kind properties).id, label⟩) = graph := by
          rw [Graph.add, hadd]
        refine ⟨_, rfl, hgraph ▸ grows_add (.edge _) hgrows, fun id hmem => ?_⟩
        simp only [sources, Stage.source?, Option.map_none, Option.toList_none, Option.toList_some,
          List.append_nil, List.mem_singleton] at hmem
        have hnodes : graph.ids = (reading.graph.addNode (Node.ofBinding head.name head.kind properties)).ids :=
          congrArg (List.map Node.id) (Graph.addEdge_cases hadd).2.2.1
        exact hnodes ▸ hmem ▸ hid

/-- A token leaves the reading built, and no edge is refused. -/
theorem Built.step {reading : Reading} (h : reading.Built) (placed : PlacedToken) :
    match reading.step placed with
    | .error cause => ∀ refusal, cause ≠ .graph refusal
    | .ok (.inl next) => next.Built
    | .ok (.inr query) => ∃ additions, query.graph = Graph.empty.addAll additions := by
  by_cases hadd : ∃ head properties, reading.step placed = reading.addNode head properties
  · obtain ⟨head, properties, hadd⟩ := hadd
    rw [hadd]
    obtain ⟨next, hnext, hbuilt⟩ | ⟨name, first, second, herror⟩ := h.addNode head properties
    · rw [hnext]
      exact hbuilt
    · rw [herror]
      exact fun _ => nofun
  · have hkeeps := (reading.step_graph placed).resolve_right hadd
    have hcarries := (reading.step_carries placed).resolve_right hadd
    generalize reading.step placed = outcome at hkeeps hcarries
    match outcome with
    | .error cause => exact hcarries
    | .ok (.inl next) =>
      have hgraph : next.graph = reading.graph := hkeeps
      exact ⟨hgraph ▸ h.grows, fun id hid => hgraph ▸ h.sources_mem id (hcarries hid)⟩
    | .ok (.inr query) =>
      have hgraph : query.graph = reading.graph := hkeeps
      show ∃ additions, query.graph = Graph.empty.addAll additions
      exact hgraph ▸ h.grows

/-- What is read from a built reading grew, and no edge of it is refused. -/
theorem run_built {tokens : List PlacedToken} {reading : Reading} (h : reading.Built) :
    (∀ query, reading.run tokens = .ok query → ∃ additions, query.graph = Graph.empty.addAll additions) ∧
      ∀ refusal, reading.run tokens ≠ .error (.graph refusal) := by
  induction tokens generalizing reading with
  | nil => exact ⟨nofun, nofun⟩
  | cons placed rest ih =>
    have hstep := h.step placed
    unfold run
    split <;> rename_i houtcome <;> rw [houtcome] at hstep
    · exact ⟨nofun, fun refusal hrun => hstep refusal (Except.error.inj hrun)⟩
    · exact ⟨fun query hrun => Except.ok.inj hrun ▸ hstep, nofun⟩
    · exact ih hstep

theorem built_start : start.Built where
  grows := ⟨[], rfl⟩
  sources_mem := nofun

end Reading

/-- A pattern grows by additions, and no edge of a text is refused. -/
theorem parse_built (text : String) :
    (∀ query, parse text = .ok query → ∃ additions, query.graph = Graph.empty.addAll additions) ∧
      ∀ refusal, parse text ≠ .error (.graph refusal) :=
  Reading.run_built Reading.built_start

/-- Whatever nodes and edges are added to a graph without nodes, its ids are those added in the order of their first
mention, its edges are distinct and between its nodes, and every key given to an id is there. Further additions leave
the first value of a key, and an edge is refused, and the graph left, when one of its ends is no node. The pattern of a
text grows in this way, but none of its edges is refused, its ids are those of its bindings, and its bindings are
distinct. -/
theorem patterns_grow :
    (∀ additions, Graph.Grown additions (Graph.empty.addAll additions)) ∧
    (∀ (graph : Graph) (additions : List Graph.Addition) (id key : String) (value : Literal),
      graph.value? id key = some value → (graph.addAll additions).value? id key = some value) ∧
    (∀ (graph : Graph) (edge : Edge),
      ((∃ cause, graph.addEdge edge = .error cause) ↔ edge.source ∉ graph.ids ∨ edge.target ∉ graph.ids) ∧
        ∀ cause, graph.addEdge edge = .error cause → graph.add (.edge edge) = graph) ∧
    ∀ text,
      (∀ query, parse text = .ok query →
        (∃ additions, query.graph = Graph.empty.addAll additions) ∧
          (∀ node ∈ query.graph.nodes, node.id = node.kind ++ "/" ++ node.name) ∧ query.graph.bindings.Nodup) ∧
        ∀ refusal, parse text ≠ .error (.graph refusal) := by
  refine ⟨Graph.grown_addAll, fun graph additions id key value hvalue => ?_, fun graph edge => ⟨?_, ?_⟩,
    fun text => ⟨fun query hquery => ?_, (parse_built text).2⟩⟩
  · rw [Graph.value?_addAll, hvalue, Option.some_or]
  · simp [Graph.addEdge_eq_error_iff]
  · intro cause hcause
    rw [Graph.add, hcause]
  · have hgraph := parse_wellFormed hquery
    exact ⟨(parse_built text).1 query hquery, hgraph.id_eq, hgraph.bindings_nodup⟩

end ClusterQuery.Query
