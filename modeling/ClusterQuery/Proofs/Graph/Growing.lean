import Mathlib.Data.List.Induction
import ClusterQuery.Proofs.Query.Mentions

/-!
# Graphs that grow

A graph grows by additions: a node, or an edge that is refused when one of its ends is no node. Adding a node puts a
new id last, and a key of a node keeps the value that came first (`value?_addNode`). So what a graph holds after any
additions can be read off them (`grown_addAll`): the ids in the order of their first mention, each once, and for a key
of an id the first value that was given (`value?_addAll`).
-/

namespace ClusterQuery.Graph

/-- What is added to a graph. -/
inductive Addition where
  | node (node : Node)
  | edge (edge : Edge)
  deriving DecidableEq, Repr

/-- The graph after an addition; a refused edge leaves it as it was. -/
def add (graph : Graph) : Addition → Graph
  | .node node => graph.addNode node
  | .edge edge =>
    match graph.addEdge edge with
    | .ok next => next
    | .error _ => graph

/-- The graph after additions, one by one. -/
def addAll (graph : Graph) (additions : List Addition) : Graph :=
  additions.foldl add graph

/-- The id that an addition mentions, if it is a node. -/
def Addition.id? : Addition → Option String
  | .node added => some added.id
  | .edge _ => none

/-- The properties that an addition gives to the node of an id. -/
def Addition.propertiesOf (id : String) : Addition → List Property
  | .node added => if added.id = id then added.properties else []
  | .edge _ => []

/-- The value of a key of the node of an id. -/
def value? (graph : Graph) (id key : String) : Option Literal :=
  (graph.node? id).bind (·.property? key)

variable {graph : Graph}

/-! ## Nodes -/

theorem propertyValue?_append (first second : List Property) (key : String) :
    propertyValue? (first ++ second) key = (propertyValue? first key).or (propertyValue? second key) := by
  simp [propertyValue?, List.find?_append, Option.map_or]

/-- Properties that are added change no key that is there. -/
theorem propertyValue?_addProperties (properties further : List Property) (key : String) :
    propertyValue? (Node.addProperties properties further) key =
      (propertyValue? properties key).or (propertyValue? further key) := by
  induction further generalizing properties with
  | nil => simp [Node.addProperties, propertyValue?]
  | cons property rest ih =>
    have hrest : propertyValue? (property :: rest) key =
        (propertyValue? [property] key).or (propertyValue? rest key) := propertyValue?_append [property] rest key
    rw [Node.addProperties, List.foldl_cons, ← Node.addProperties, ih, hrest, ← Option.or_assoc]
    congr 1
    split
    · exact propertyValue?_append properties [property] key
    · rename_i hthere
      by_cases hkey : property.key = key
      · -- the key is there, so its value stays
        subst hkey
        cases h : propertyValue? properties property.key with
        | none => exact absurd h (by simpa using hthere)
        | some value => rfl
      · simp [propertyValue?, hkey]

/-- The node of an id after one more: a known id takes the new properties, a new one the whole node. -/
theorem node?_addNode (graph : Graph) (node : Node) (id : String) :
    (graph.addNode node).node? id =
      if node.id = id then
        some ((graph.node? id).elim node fun first =>
          { first with properties := Node.addProperties first.properties node.properties })
      else graph.node? id := by
  obtain ⟨nodes, edges⟩ := graph
  simp only [node?, addNode]
  induction nodes with
  | nil => by_cases h : node.id = id <;> simp [addToNodes, h]
  | cons first rest ih =>
    rw [addToNodes]
    by_cases hsame : first.id = node.id
    · by_cases h : node.id = id
      · simp [hsame, h]
      · simp [hsame, h]
    · rw [if_neg hsame, List.find?_cons, List.find?_cons, ih]
      cases hfirst : first.id == id with
      | false => rfl
      | true =>
        have hne : node.id ≠ id := fun h => hsame ((beq_iff_eq.1 hfirst).trans h.symm)
        simp [hne]

/-- The value of a key after one more node is the value before, or that of the node when there was none. -/
theorem value?_addNode (graph : Graph) (node : Node) (id key : String) :
    (graph.addNode node).value? id key =
      (graph.value? id key).or (propertyValue? ((Addition.node node).propertiesOf id) key) := by
  rw [value?, value?, node?_addNode, Addition.propertiesOf]
  by_cases h : node.id = id
  · rw [if_pos h, if_pos h, Option.bind_some]
    cases graph.node? id with
    | none => rfl
    | some first => exact propertyValue?_addProperties _ _ key
  · simp [h, propertyValue?]

/-- A new id comes last, a known one stays where it is. -/
theorem ids_addNode (graph : Graph) (node : Node) :
    (graph.addNode node).ids = if node.id ∈ graph.ids then graph.ids else graph.ids ++ [node.id] := by
  split
  · rename_i h
    exact map_addToNodes_of_mem (·.id) (fun _ _ => rfl) h
  · rename_i h
    rw [ids, addNode, addToNodes_of_notMem h, List.map_append]
    rfl

theorem mem_ids_addNode (graph : Graph) (node : Node) : node.id ∈ (graph.addNode node).ids := by
  rw [ids_addNode]
  split
  · assumption
  · exact List.mem_append_right _ List.mem_cons_self

/-! ## Edges -/

/-- An edge is refused when one of its ends is no node. -/
theorem addEdge_eq_error_iff {edge : Edge} {cause : GraphError} :
    graph.addEdge edge = .error cause ↔
      (edge.source ∉ graph.ids ∨ edge.target ∉ graph.ids) ∧ cause = .invalidEdge edge.source edge.target := by
  have hmem (id : String) : (graph.node? id).isNone = true ↔ id ∉ graph.ids := by
    rw [← Bool.not_eq_false, node?_isNone_eq_false_iff]
  unfold addEdge
  simp only [Bool.or_eq_true, hmem]
  split
  · rename_i h
    simp [h, eq_comm]
  · rename_i h
    split <;> simp [h]

/-- An edge leaves the nodes, and is held after those before it, or among them. -/
theorem addEdge_cases {edge : Edge} {next : Graph} (h : graph.addEdge edge = .ok next) :
    edge.source ∈ graph.ids ∧ edge.target ∈ graph.ids ∧ next.nodes = graph.nodes ∧
      (next.edges = graph.edges ∨ edge ∉ graph.edges ∧ next.edges = graph.edges ++ [edge]) := by
  unfold addEdge at h
  split at h
  · cases h
  · rename_i hends
    rw [Bool.not_eq_true, Bool.or_eq_false_iff, node?_isNone_eq_false_iff, node?_isNone_eq_false_iff] at hends
    split at h
    · cases h
      exact ⟨hends.1, hends.2, rfl, Or.inl rfl⟩
    · rename_i hnew
      cases h
      exact ⟨hends.1, hends.2, rfl, Or.inr ⟨hnew, rfl⟩⟩

/-! ## Additions -/

/-- The ids after an addition. -/
theorem ids_add (graph : Graph) (addition : Addition) :
    (graph.add addition).ids =
      addition.id?.elim graph.ids fun id => if id ∈ graph.ids then graph.ids else graph.ids ++ [id] := by
  cases addition with
  | node node => exact ids_addNode graph node
  | edge edge =>
    rw [add]
    split
    · rename_i h
      exact congrArg (List.map (·.id)) (addEdge_cases h).2.2.1
    · rfl

/-- No addition takes an id away. -/
theorem ids_subset_add (graph : Graph) (addition : Addition) : graph.ids ⊆ (graph.add addition).ids := by
  rw [ids_add]
  cases addition.id? with
  | none => exact List.Subset.refl _
  | some id =>
    rw [Option.elim_some]
    split
    · exact List.Subset.refl _
    · exact List.subset_append_left _ _

/-- The value of a key after an addition is the value before, or the one that is added when there was none. -/
theorem value?_add (graph : Graph) (addition : Addition) (id key : String) :
    (graph.add addition).value? id key =
      (graph.value? id key).or (propertyValue? (addition.propertiesOf id) key) := by
  cases addition with
  | node node => exact value?_addNode graph node id key
  | edge edge =>
    have hnone : propertyValue? ((Addition.edge edge).propertiesOf id) key = none := rfl
    rw [hnone, Option.or_none, add]
    split
    · rename_i h
      rw [value?, value?, node?, node?, (addEdge_cases h).2.2.1]
    · rfl

/-- The value of a key after additions is the value before, or the first one that is added. -/
theorem value?_addAll (graph : Graph) (additions : List Addition) (id key : String) :
    (graph.addAll additions).value? id key =
      (graph.value? id key).or (propertyValue? (additions.flatMap (Addition.propertiesOf id)) key) := by
  induction additions generalizing graph with
  | nil => simp [addAll, propertyValue?]
  | cons addition rest ih =>
    rw [addAll, List.foldl_cons, ← addAll, ih, value?_add, Option.or_assoc, List.flatMap_cons, propertyValue?_append]

/-- What holds of the graph that additions make: its ids are those added, in the order of their first mention, its edges
are distinct and join its nodes, and a key that was given to an id is there. -/
structure Grown (additions : List Addition) (graph : Graph) : Prop extends Closed graph where
  ids_eq : graph.ids = (additions.filterMap Addition.id?).eraseDups
  edges_nodup : graph.edges.Nodup
  holds_keys : ∀ node, .node node ∈ additions → ∀ property ∈ node.properties,
    ∃ stored, graph.node? node.id = some stored ∧ (stored.property? property.key).isSome

/-- Additions keep edges distinct and between nodes. -/
theorem edges_add {addition : Addition} (h : graph.edges.Nodup)
    (hends : ∀ edge ∈ graph.edges, edge.source ∈ graph.ids ∧ edge.target ∈ graph.ids) :
    (graph.add addition).edges.Nodup ∧
      ∀ edge ∈ (graph.add addition).edges, edge.source ∈ (graph.add addition).ids ∧
        edge.target ∈ (graph.add addition).ids := by
  have hids : graph.ids ⊆ (graph.add addition).ids := ids_subset_add graph addition
  have hold : ∀ edge ∈ graph.edges, edge.source ∈ (graph.add addition).ids ∧ edge.target ∈ (graph.add addition).ids :=
    fun edge hedge => ⟨hids (hends edge hedge).1, hids (hends edge hedge).2⟩
  cases addition with
  | node node => exact ⟨h, hold⟩
  | edge edge =>
    cases hadd : graph.addEdge edge with
    | error cause =>
      have hsame : graph.add (.edge edge) = graph := by rw [add, hadd]
      rw [hsame] at hold ⊢
      exact ⟨h, hold⟩
    | ok next =>
      have hnext : graph.add (.edge edge) = next := by rw [add, hadd]
      rw [hnext] at hids hold ⊢
      obtain ⟨hsource, htarget, -, hedges | ⟨hnew, hedges⟩⟩ := addEdge_cases hadd
      · rw [hedges]
        exact ⟨h, hold⟩
      · rw [hedges]
        refine ⟨List.concat_eq_append ▸ h.concat hnew, fun other hother => ?_⟩
        rcases List.mem_append.1 hother with hother | hother
        · exact hold other hother
        · rw [List.mem_singleton.1 hother]
          exact ⟨hids hsource, hids htarget⟩

theorem addAll_concat (graph : Graph) (additions : List Addition) (addition : Addition) :
    graph.addAll (additions ++ [addition]) = (graph.addAll additions).add addition := by
  rw [addAll, List.foldl_append]
  rfl

/-- The graph that additions make. -/
theorem grown_addAll (additions : List Addition) : Grown additions (empty.addAll additions) := by
  have hids : (empty.addAll additions).ids = (additions.filterMap Addition.id?).eraseDups := by
    induction additions using List.reverseRecOn with
    | nil => rfl
    | append_singleton rest addition ih =>
      rw [addAll_concat, ids_add, ih, List.filterMap_append]
      cases hid : addition.id? with
      | none => simp [hid]
      | some id => simp [hid, eraseDups_concat]
  have hedges : (empty.addAll additions).edges.Nodup ∧ ∀ edge ∈ (empty.addAll additions).edges,
      edge.source ∈ (empty.addAll additions).ids ∧ edge.target ∈ (empty.addAll additions).ids := by
    clear hids
    induction additions using List.reverseRecOn with
    | nil => exact ⟨List.nodup_nil, fun _ h => absurd h List.not_mem_nil⟩
    | append_singleton rest addition ih =>
      rw [addAll_concat]
      exact edges_add ih.1 ih.2
  refine ⟨⟨hids ▸ nodup_eraseDups _, hedges.2⟩, hids, hedges.1, fun node hnode property hproperty => ?_⟩
  have hgiven : property ∈ additions.flatMap (Addition.propertiesOf node.id) :=
    List.mem_flatMap.2 ⟨.node node, hnode, by simpa [Addition.propertiesOf] using hproperty⟩
  have hvalue : ((empty.addAll additions).value? node.id property.key).isSome = true := by
    rw [value?_addAll, Option.isSome_or, Bool.or_eq_true, propertyValue?, Option.isSome_map, List.find?_isSome]
    exact Or.inr ⟨property, hgiven, beq_self_eq_true _⟩
  rw [value?, Option.isSome_bind, Option.any_eq_true] at hvalue
  exact hvalue

end ClusterQuery.Graph
