import Mathlib.Data.List.Nodup
import ClusterQuery.Graph.Basic
import ClusterQuery.Proofs.Keys

/-!
# Well-formed pattern graphs

In a well-formed graph ids and binding names are distinct, every id is that of its binding and kind, and edges join
nodes that stand. Adding a node keeps a graph so unless its name is bound to another kind (`WellFormed.addNode`), and
adding an edge always does (`WellFormed.addEdge`).
-/

namespace ClusterQuery.Graph

/-- The ids of the nodes, in order. -/
def ids (graph : Graph) : List String :=
  graph.nodes.map (·.id)

/-- Ids are distinct and edges join nodes of the graph. -/
structure Closed (graph : Graph) : Prop where
  ids_nodup : graph.ids.Nodup
  ends_mem : ∀ edge ∈ graph.edges, edge.source ∈ graph.ids ∧ edge.target ∈ graph.ids

/-- In a closed graph binding names are distinct too, every id is that of its binding, and no edge comes twice. -/
structure WellFormed (graph : Graph) : Prop extends Closed graph where
  bindings_nodup : graph.bindings.Nodup
  id_eq : ∀ node ∈ graph.nodes, node.id = Node.idOf node.kind node.name
  edges_nodup : graph.edges.Nodup

/-- The graph without nodes is well-formed. -/
theorem wellFormed_empty : empty.WellFormed where
  ids_nodup := List.nodup_nil
  ends_mem := fun _ h => absurd h List.not_mem_nil
  bindings_nodup := List.nodup_nil
  id_eq := fun _ h => absurd h List.not_mem_nil
  edges_nodup := List.nodup_nil

/-! ## Nodes -/

/-- A node of a new id comes last. -/
theorem addToNodes_of_notMem {node : Node} {nodes : List Node} (h : node.id ∉ nodes.map (·.id)) :
    addToNodes node nodes = nodes ++ [node] := by
  induction nodes with
  | nil => rfl
  | cons first rest ih =>
    simp only [List.map_cons, List.mem_cons, not_or] at h
    rw [addToNodes, if_neg (Ne.symm h.1), ih h.2, List.cons_append]

/-- What a node keeps when properties are added to it. -/
theorem map_addToNodes_of_mem {α : Type} {node : Node} {nodes : List Node} (f : Node → α)
    (hf : ∀ (first : Node) (properties : List Property), f { first with properties := properties } = f first)
    (h : node.id ∈ nodes.map (·.id)) : (addToNodes node nodes).map f = nodes.map f := by
  induction nodes with
  | nil => exact absurd h List.not_mem_nil
  | cons first rest ih =>
    rw [addToNodes]
    split
    · rw [List.map_cons, List.map_cons, hf]
    · rename_i hne
      simp only [List.map_cons, List.mem_cons] at h
      rw [List.map_cons, List.map_cons, ih (h.resolve_left (Ne.symm hne))]

/-- A node keeps a well-formed graph so when it has the id of its binding and the name is not bound to another kind. -/
theorem WellFormed.addNode {graph : Graph} (h : graph.WellFormed) {node : Node}
    (hid : node.id = Node.idOf node.kind node.name)
    (hname : ∀ other ∈ graph.nodes, other.name = node.name → other.kind = node.kind) :
    (graph.addNode node).WellFormed ∧ node.id ∈ (graph.addNode node).ids ∧
      ∀ id ∈ graph.ids, id ∈ (graph.addNode node).ids := by
  by_cases hmem : node.id ∈ graph.ids
  · -- the properties go to the node that stands, so ids, names and kinds are as before
    have hids : (graph.addNode node).ids = graph.ids := map_addToNodes_of_mem (·.id) (fun _ _ => rfl) hmem
    have hnames : (graph.addNode node).bindings = graph.bindings :=
      map_addToNodes_of_mem (·.name) (fun _ _ => rfl) hmem
    have htriples : (graph.addNode node).nodes.map (fun n => (n.id, n.kind, n.name)) =
        graph.nodes.map (fun n => (n.id, n.kind, n.name)) :=
      map_addToNodes_of_mem (fun n => (n.id, n.kind, n.name)) (fun _ _ => rfl) hmem
    refine ⟨⟨⟨hids ▸ h.ids_nodup, fun edge he => ?_⟩, hnames ▸ h.bindings_nodup, fun n hn => ?_, h.edges_nodup⟩,
      hids ▸ hmem, fun id hid => hids ▸ hid⟩
    · rw [hids]
      exact h.ends_mem edge he
    · have hin : (n.id, n.kind, n.name) ∈ graph.nodes.map (fun n => (n.id, n.kind, n.name)) :=
        htriples ▸ List.mem_map_of_mem hn
      obtain ⟨old, hold, he⟩ := List.mem_map.1 hin
      simp only [Prod.mk.injEq] at he
      rw [← he.1, ← he.2.1, ← he.2.2]
      exact h.id_eq old hold
  · have hnodes : (graph.addNode node).nodes = graph.nodes ++ [node] := addToNodes_of_notMem hmem
    have hids : (graph.addNode node).ids = graph.ids ++ [node.id] := by simp [ids, hnodes]
    have hnew : node.name ∉ graph.bindings := by
      intro hin
      obtain ⟨old, hold, he⟩ := List.mem_map.1 hin
      apply hmem
      rw [hid, ← hname old hold he, ← he, ← h.id_eq old hold]
      exact List.mem_map_of_mem hold
    refine ⟨⟨⟨?_, fun edge he => ?_⟩, ?_, fun n hn => ?_, h.edges_nodup⟩, by simp [hids],
      fun id hid => by simp [hids, hid]⟩
    · rw [hids]
      exact List.concat_eq_append ▸ h.ids_nodup.concat hmem
    · rw [hids, List.mem_append, List.mem_append]
      exact (h.ends_mem edge he).imp Or.inl Or.inl
    · rw [bindings, hnodes, List.map_append]
      exact List.concat_eq_append ▸ h.bindings_nodup.concat hnew
    · rw [hnodes, List.mem_append, List.mem_singleton] at hn
      rcases hn with hn | rfl
      · exact h.id_eq n hn
      · exact hid

/-- A binding name finds the one node that has it. -/
theorem WellFormed.nodeOfBinding?_eq {graph : Graph} (h : graph.WellFormed) {node : Node} (hn : node ∈ graph.nodes)
    {name : String} (hname : node.name = name) : graph.nodeOfBinding? name = some node :=
  find?_eq_of_nodup_map h.bindings_nodup hn hname

/-! ## Edges -/

/-- A node stands exactly when its id is among those of the graph. -/
theorem node?_isNone_eq_false_iff {graph : Graph} {id : String} : (graph.node? id).isNone = false ↔ id ∈ graph.ids := by
  simp [node?, ids]

/-- An edge keeps a well-formed graph so. -/
theorem WellFormed.addEdge {graph next : Graph} {edge : Edge} (h : graph.WellFormed)
    (ha : graph.addEdge edge = .ok next) : next.WellFormed ∧ next.nodes = graph.nodes := by
  unfold Graph.addEdge at ha
  split at ha
  · cases ha
  · rename_i hends
    rw [Bool.not_eq_true, Bool.or_eq_false_iff, node?_isNone_eq_false_iff, node?_isNone_eq_false_iff] at hends
    split at ha
    · cases ha
      exact ⟨h, rfl⟩
    · rename_i hnew
      cases ha
      refine ⟨⟨⟨h.ids_nodup, fun other ho => ?_⟩, h.bindings_nodup, h.id_eq,
        List.concat_eq_append ▸ h.edges_nodup.concat hnew⟩, rfl⟩
      rcases List.mem_append.1 ho with ho | ho
      · exact h.ends_mem other ho
      · rw [List.mem_singleton.1 ho]
        exact hends

end ClusterQuery.Graph
