import Mathlib.Data.List.Basic
import Mathlib.Data.List.Induction
import ClusterQuery.Proofs.Graph.WellFormed
import ClusterQuery.Proofs.Lists
import ClusterQuery.Proofs.Query.Grammar

/-!
# The graph of mentions

One more mention of a node or one more edge changes the graph of what has been mentioned as adding it does
(`nodesOf_concat`, `addEdge_graphOf`): a new node comes last, a known one takes the properties of new keys, and an edge
is held once. Ids tell bindings apart because kinds hold no slash (`idOf_injective`).
-/

namespace ClusterQuery.Query

/-- Neither the name nor the kind of a node holds the slash that joins them in its id. -/
def NodeHead.Slashless (head : NodeHead) : Prop :=
  '/' ∉ head.kind.toList ∧ '/' ∉ head.name.toList

namespace Phrase

/-! ## Properties -/

/-- Adding properties adds those of new keys. -/
theorem addProperties_eq (properties further : List Property) :
    Node.addProperties properties further = properties ++ newProperties (properties.map (·.key)) further := by
  induction further generalizing properties with
  | nil => simp [Node.addProperties, newProperties]
  | cons property rest ih =>
    have hknown : (propertyValue? properties property.key).isNone = true ↔ property.key ∉ properties.map (·.key) := by
      simp [propertyValue?]
    rw [Node.addProperties, List.foldl_cons, ← Node.addProperties, newProperties]
    by_cases h : property.key ∈ properties.map (·.key)
    · rw [if_neg (mt hknown.1 (not_not.2 h)), ih, if_pos h]
    · rw [if_pos (hknown.2 h), ih, if_neg h]
      simp

theorem newProperties_append (known : List String) (first second : List Property) :
    newProperties known (first ++ second) = newProperties known first ++
      newProperties (known ++ (newProperties known first).map (·.key)) second := by
  induction first generalizing known with
  | nil => simp [newProperties]
  | cons property rest ih =>
    rw [List.cons_append, newProperties, newProperties]
    split
    · exact ih known
    · simp [ih]

/-- The properties of one more mention are added to those of the mentions before it. -/
theorem mergedProperties_concat {blocks : List (List Property)} (h : blocks ≠ []) (block : List Property) :
    mergedProperties (blocks ++ [block]) = Node.addProperties (mergedProperties blocks) block := by
  obtain ⟨first, later, rfl⟩ := List.exists_cons_of_ne_nil h
  rw [addProperties_eq, List.cons_append, mergedProperties, mergedProperties, List.flatten_append,
    newProperties_append]
  simp

/-! ## Nodes -/

/-- A kind and a name without slashes can be read off their id. -/
theorem idOf_injective {head other : NodeHead} (h : head.Slashless)
    (he : Node.idOf head.kind head.name = Node.idOf other.kind other.name) : head = other := by
  have hlist := congrArg String.toList he
  simp only [Node.idOf, String.toList_append, String.reduceToList, List.append_assoc, List.cons_append,
    List.nil_append] at hlist
  obtain ⟨hkind, -, hname⟩ := (List.append_cons_inj_of_notMem h.1 h.2).1 hlist
  cases head
  cases other
  rw [NodeHead.mk.injEq]
  exact ⟨String.toList_injective hname, String.toList_injective hkind⟩

/-- Among nodes with the ids of distinct heads, a node of one of the heads adds its properties there. -/
theorem addToNodes_map {heads : List NodeHead} {nodeAt : NodeHead → Node} {head : NodeHead}
    (hnodup : heads.Nodup) (hid : ∀ other, (nodeAt other).id = Node.idOf other.kind other.name) (hmem : head ∈ heads)
    (hhead : head.Slashless) (properties : List Property) :
    Graph.addToNodes (Node.ofBinding head.name head.kind properties) (heads.map nodeAt) =
      heads.map fun other =>
        if other = head then
          { nodeAt other with properties := Node.addProperties (nodeAt other).properties properties }
        else nodeAt other := by
  induction heads with
  | nil => exact absurd hmem List.not_mem_nil
  | cons first rest ih =>
    obtain ⟨hfirst, hrest⟩ := List.nodup_cons.1 hnodup
    rw [List.map_cons, List.map_cons, Graph.addToNodes]
    by_cases he : first = head
    · subst he
      rw [if_pos (show _ = (Node.ofBinding first.name first.kind properties).id from hid first), if_pos rfl]
      congr 1
      refine List.map_congr_left fun other hother => (if_neg fun heq => ?_).symm
      exact hfirst (heq ▸ hother)
    · have hne : (nodeAt first).id ≠ (Node.ofBinding head.name head.kind properties).id := by
        rw [hid]
        exact fun heq => he (idOf_injective hhead heq.symm).symm
      rw [if_neg hne, if_neg he, ih hrest ((List.mem_cons.1 hmem).resolve_left (Ne.symm he))]

/-- A node that has been mentioned takes the properties of one more mention of it. -/
theorem nodeOf_concat_self {mentions : List Mention} {mention : Mention}
    (h : mention.head ∈ mentions.map Mention.head) :
    nodeOf (mentions ++ [mention]) mention.head =
      { nodeOf mentions mention.head with
        properties := Node.addProperties (nodeOf mentions mention.head).properties mention.properties } := by
  have hblocks : (mentions.filter (·.head = mention.head)).map Mention.properties ≠ [] := by
    obtain ⟨other, hother, he⟩ := List.mem_map.1 h
    exact List.ne_nil_of_mem (List.mem_map_of_mem (List.mem_filter.2 ⟨hother, decide_eq_true he⟩))
  simp [nodeOf, Node.ofBinding, List.filter_append, mergedProperties_concat hblocks]

/-- A mention of one node says nothing about another. -/
theorem nodeOf_concat_of_ne {mentions : List Mention} {mention : Mention} {head : NodeHead} (h : head ≠ mention.head) :
    nodeOf (mentions ++ [mention]) head = nodeOf mentions head := by
  simp [nodeOf, List.filter_append, Ne.symm h]

/-- A node that is mentioned for the first time has the properties of that mention. -/
theorem nodeOf_concat_new {mentions : List Mention} {mention : Mention} (h : mention.head ∉ mentions.map Mention.head) :
    nodeOf (mentions ++ [mention]) mention.head =
      Node.ofBinding mention.head.name mention.head.kind mention.properties := by
  have hnone : mentions.filter (·.head = mention.head) = [] :=
    List.filter_eq_nil_iff.2 fun other hother he => h (List.mem_map.2 ⟨other, hother, of_decide_eq_true he⟩)
  simp [nodeOf, List.filter_append, hnone, mergedProperties, newProperties]

/-- The ids of the nodes are those of the mentions. -/
theorem mem_ids_nodesOf {mentions : List Mention} {id : String} :
    id ∈ (nodesOf mentions).map (·.id) ↔ ∃ mention ∈ mentions, mention.id = id := by
  simp only [nodesOf, List.mem_map, List.mem_eraseDups, nodeOf, Node.ofBinding, Mention.id]
  constructor
  · rintro ⟨node, ⟨head, ⟨mention, hmention, rfl⟩, rfl⟩, rfl⟩
    exact ⟨mention, hmention, rfl⟩
  · rintro ⟨mention, hmention, rfl⟩
    exact ⟨_, ⟨mention.head, ⟨mention, hmention, rfl⟩, rfl⟩, rfl⟩

/-- One more mention adds its node to the nodes mentioned before. -/
theorem nodesOf_concat {mentions : List Mention} {mention : Mention} (h : mention.head.Slashless) :
    nodesOf (mentions ++ [mention]) =
      Graph.addToNodes (Node.ofBinding mention.head.name mention.head.kind mention.properties) (nodesOf mentions) := by
  rw [nodesOf, List.map_append, List.map_singleton, eraseDups_concat]
  by_cases hmem : mention.head ∈ mentions.map Mention.head
  · rw [if_pos hmem, nodesOf,
      addToNodes_map (nodup_eraseDups _) (fun _ => rfl) (List.mem_eraseDups.2 hmem) h]
    refine List.map_congr_left fun other _ => ?_
    split
    · rename_i he
      rw [he, nodeOf_concat_self hmem]
    · rename_i hne
      exact nodeOf_concat_of_ne hne
  · rw [if_neg hmem, List.map_append, List.map_singleton, nodeOf_concat_new hmem, Graph.addToNodes_of_notMem]
    · congr 1
      refine List.map_congr_left fun other hother => nodeOf_concat_of_ne ?_
      rintro rfl
      exact hmem (List.mem_eraseDups.1 hother)
    · rw [mem_ids_nodesOf]
      rintro ⟨other, hother, he⟩
      exact hmem (List.mem_map.2 ⟨other, hother, (idOf_injective h he.symm).symm⟩)

/-- The nodes that have a binding name are those that have been mentioned with it, each with the kind mentioned. -/
theorem exists_node_iff {mentions : List Mention} {name kind : String} :
    (∃ node ∈ nodesOf mentions, node.name = name ∧ node.kind = kind) ↔
      ∃ mention ∈ mentions, mention.head.name = name ∧ mention.head.kind = kind := by
  simp only [nodesOf, List.mem_map, List.mem_eraseDups, nodeOf, Node.ofBinding]
  constructor
  · rintro ⟨node, ⟨head, ⟨mention, hmention, rfl⟩, rfl⟩, h⟩
    exact ⟨mention, hmention, h⟩
  · rintro ⟨mention, hmention, h⟩
    exact ⟨_, ⟨mention.head, ⟨mention, hmention, rfl⟩, rfl⟩, h⟩

/-- One more mention leaves every binding one kind exactly when it gives its binding no other. -/
theorem oneKindEach_concat {mentions : List Mention} {mention : Mention} :
    OneKindEach (mentions ++ [mention]) ↔ OneKindEach mentions ∧
      ∀ other ∈ mentions, other.head.name = mention.head.name → other.head.kind = mention.head.kind := by
  simp only [OneKindEach, List.forall_mem_append, List.forall_mem_singleton]
  constructor
  · rintro ⟨hall, -⟩
    exact ⟨fun first hfirst => (hall first hfirst).1, fun other hother => (hall other hother).2⟩
  · rintro ⟨hall, hnew⟩
    exact ⟨fun first hfirst => ⟨hall first hfirst, hnew first hfirst⟩,
      fun second hsecond he => (hnew second hsecond he.symm).symm, fun _ => trivial⟩

/-- A binding name that finds a node has been mentioned with the kind of that node. -/
theorem exists_mention_of_nodeOfBinding? {mentions : List Mention} {edges : List Edge} {name : String} {node : Node}
    (h : (graphOf mentions edges).nodeOfBinding? name = some node) :
    ∃ mention ∈ mentions, mention.head.name = name ∧ mention.head.kind = node.kind := by
  rw [Graph.nodeOfBinding?] at h
  have hname := List.find?_some h
  exact exists_node_iff.1 ⟨node, List.mem_of_find?_eq_some h, beq_iff_eq.1 hname, rfl⟩

/-- A binding finds a node of another kind exactly when one more mention of it gives it a second kind. -/
theorem conflict_eq_none_iff {mentions : List Mention} (h : OneKindEach mentions) (edges : List Edge)
    (mention : Mention) :
    ((graphOf mentions edges).nodeOfBinding? mention.head.name).filter (·.kind ≠ mention.head.kind) = none ↔
      OneKindEach (mentions ++ [mention]) := by
  rw [oneKindEach_concat, and_iff_right h, Option.filter_eq_none_iff]
  constructor
  · intro hnone other hother hname
    obtain ⟨node, hnode, hn⟩ := exists_node_iff.2 ⟨other, hother, hname, rfl⟩
    cases hfound : (graphOf mentions edges).nodeOfBinding? mention.head.name with
    | none => exact absurd (beq_iff_eq.2 hn.1) (List.find?_eq_none.1 hfound node hnode)
    | some found =>
      -- the node found may come from another mention, but of the same kind
      obtain ⟨first, hfirst, hfirstName, hfirstKind⟩ := exists_mention_of_nodeOfBinding? hfound
      rw [h other hother first hfirst (hname.trans hfirstName.symm), hfirstKind]
      simpa using hnone found hfound
  · intro hall found hfound
    obtain ⟨first, hfirst, hfirstName, hfirstKind⟩ := exists_mention_of_nodeOfBinding? hfound
    have hkind : found.kind = mention.head.kind := hfirstKind.symm.trans (hall first hfirst hfirstName)
    simpa using hkind

theorem OneKindEach.of_append {mentions more : List Mention} (h : OneKindEach (mentions ++ more)) :
    OneKindEach mentions :=
  fun first hfirst second hsecond =>
    h first (List.mem_append_left more hfirst) second (List.mem_append_left more hsecond)

/-- One more mention adds its node to the graph. -/
theorem addNode_graphOf {mentions : List Mention} {mention : Mention} (h : mention.head.Slashless)
    (edges : List Edge) :
    (graphOf mentions edges).addNode (Node.ofBinding mention.head.name mention.head.kind mention.properties) =
      graphOf (mentions ++ [mention]) edges := by
  rw [graphOf, graphOf, nodesOf_concat h, Graph.addNode]

/-! ## Edges -/

/-- One more edge between nodes that have been mentioned is held once. -/
theorem addEdge_graphOf {mentions : List Mention} {edges : List Edge} {edge : Edge}
    (hsource : ∃ mention ∈ mentions, mention.id = edge.source)
    (htarget : ∃ mention ∈ mentions, mention.id = edge.target) :
    (graphOf mentions edges).addEdge edge = .ok (graphOf mentions (edges ++ [edge])) := by
  have hnode : ∀ id, (∃ mention ∈ mentions, mention.id = id) → ((graphOf mentions edges).node? id).isNone = false :=
    fun id hid => Graph.node?_isNone_eq_false_iff.2 (mem_ids_nodesOf.2 hid)
  rw [Graph.addEdge, hnode _ hsource, hnode _ htarget, if_neg (by simp), graphOf, graphOf, eraseDups_concat]
  by_cases h : edge ∈ edges
  · simp [h]
  · simp [h]

end Phrase

end ClusterQuery.Query
