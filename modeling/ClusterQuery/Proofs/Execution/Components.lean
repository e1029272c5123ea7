import ClusterQuery.Proofs.Execution.Comparing
import ClusterQuery.Proofs.Execution.Finding
import ClusterQuery.Proofs.Execution.Links
import ClusterQuery.Proofs.Graph.Forest

/-!
# Components of the result

The graph of a result has all nodes of the pattern and, of every component of its edges, either all of them or none
(`execute_component`). Where every document has its partners, an edge has documents at both ends or at neither
(`live_iff_of_partnered`), so what one node of a component has all of them have (`iff_of_reachable`). Patterns may
branch, run in cycles and come in several components.
-/

namespace ClusterQuery

variable {graph : Graph}

/-- Every node of a component has a matched document, and the result keeps all edges there. -/
structure Result.Whole (result found : Result) (graph : Graph)
    (component : (undirected graph.edges).ConnectedComponent) : Prop where
  matched : ∀ node ∈ graph.nodes, node.id ∈ component.supp → ∃ document, found.Finds node.name document
  kept : ∀ edge ∈ graph.edges, edge.source ∈ component.supp → edge ∈ result.graph.edges

/-- No node of a component has a matched document, and the result keeps no edge there. -/
structure Result.Void (result found : Result) (graph : Graph)
    (component : (undirected graph.edges).ConnectedComponent) : Prop where
  unmatched : ∀ node ∈ graph.nodes, node.id ∈ component.supp → found.binding? node.name = some []
  dropped : ∀ edge ∈ graph.edges, edge.source ∈ component.supp → edge ∉ result.graph.edges

/-- What the ends of every edge share, the ids of a component share. -/
theorem iff_of_reachable {edges : List Edge} {p : String → Prop} (h : ∀ edge ∈ edges, (p edge.source ↔ p edge.target))
    {id other : String} (hreach : (undirected edges).Reachable id other) : p id ↔ p other := by
  have hadj : ∀ first second, (undirected edges).Adj first second → (p first ↔ p second) := by
    intro first second hadj
    rw [undirected, SimpleGraph.fromEdgeSet_adj] at hadj
    obtain ⟨edge, hedge, hends⟩ := List.mem_map.1 hadj.1
    rcases Sym2.eq_iff.1 hends with ⟨rfl, rfl⟩ | ⟨rfl, rfl⟩
    · exact h edge hedge
    · exact (h edge hedge).symm
  obtain ⟨walk⟩ := hreach
  induction walk with
  | nil => rfl
  | cons hstep _ ih => exact (hadj _ _ hstep).trans ih

namespace Run

variable {rules : List Rule} {context : Context} {targets : List Target} {family : Link.Family}

/-! ## Nodes with documents -/

/-- The node of the id has documents. -/
def Live (graph : Graph) (family : Link.Family) (id : String) : Prop :=
  ∃ document, Holds graph family id document

/-- Where every document at the ends of an edge has a partner, there are documents at both or at neither. -/
theorem live_iff_of_partnered {nodes : List (Node × Kind)} {edge : Edge}
    (h : Partnered rules nodes (Holds graph family) edge) :
    Live graph family edge.source ↔ Live graph family edge.target := by
  constructor
  · rintro ⟨a, ha⟩
    obtain ⟨b, hb, -⟩ := h.1 a ha
    exact ⟨b, hb⟩
  · rintro ⟨b, hb⟩
    obtain ⟨a, ha, -⟩ := h.2 b hb
    exact ⟨a, ha⟩

/-- A node of a closed pattern has a target, and what it holds are the documents of the target. -/
theorem exists_pair (hc : graph.Closed) (hnodes : targets.map (·.node) = graph.nodes)
    (hlength : targets.length = family.length) {node : Node} (hnode : node ∈ graph.nodes) :
    ∃ pair ∈ targets.zip family, pair.1.node = node ∧
      ∀ document, Holds graph family node.id document ↔ document ∈ pair.2 := by
  rw [← hnodes] at hnode
  obtain ⟨target, htarget, rfl⟩ := List.mem_map.1 hnode
  obtain ⟨position, hbound, rfl⟩ := List.getElem_of_mem htarget
  have hfamily : position < family.length := hlength ▸ hbound
  refine ⟨(targets[position], family[position]), ?_, rfl, fun document => ?_⟩
  · exact List.mem_of_getElem (i := position) (h := by simp [hbound, hfamily]) (by simp)
  · have hid : graph.ids[position]? = some targets[position].node.id := by
      rw [← ids_eq hnodes, List.getElem?_map, List.getElem?_eq_getElem hbound]
      rfl
    rw [holds_iff hc hid, Link.listAt, List.getD_eq_getElem?_getD, List.getElem?_eq_getElem hfamily, Option.getD_some]

/-- The graph of a result keeps the edges between nodes with documents. -/
theorem mem_resultGraph_edges (hc : graph.Closed) (hnodes : targets.map (·.node) = graph.nodes)
    (hlength : targets.length = family.length) {edge : Edge} :
    edge ∈ (resultGraph graph targets family).edges ↔
      edge ∈ graph.edges ∧ Live graph family edge.source ∧ Live graph family edge.target := by
  have hids : (((targets.zip family).reverse).map (·.1.node.id)).Nodup := by
    rw [List.map_reverse, List.nodup_reverse]
    have hfst := List.map_fst_zip (Nat.le_of_eq hlength)
    have hall := hc.ids_nodup
    rw [← ids_eq hnodes, ← hfst, List.map_map] at hall
    exact hall
  -- the last target of an id is the only one
  have hlive : ∀ node ∈ graph.nodes,
      (((targets.zip family).reverse.find? (·.1.node.id == node.id)).any fun pair => !pair.2.isEmpty) = true ↔
        Live graph family node.id := by
    intro node hnode
    obtain ⟨pair, hpair, rfl, hholds⟩ := exists_pair hc hnodes hlength hnode
    rw [find?_eq_of_nodup_map hids (List.mem_reverse.2 hpair) rfl]
    simp only [Live, hholds, Option.any_some, Bool.not_eq_true', List.isEmpty_eq_false_iff_exists_mem]
  have hmem : ∀ id ∈ graph.ids, (id ∈ (graph.nodes.filter fun node =>
      ((targets.zip family).reverse.find? (·.1.node.id == node.id)).any fun pair => !pair.2.isEmpty).map (·.id) ↔
        Live graph family id) := by
    intro id hid
    obtain ⟨node, hnode, rfl⟩ := List.mem_map.1 hid
    rw [← hlive node hnode]
    constructor
    · intro hmem
      obtain ⟨other, hother, hsame⟩ := List.mem_map.1 hmem
      have hfound := (List.mem_filter.1 hother).2
      rwa [hsame] at hfound
    · exact fun hfound => List.mem_map_of_mem (List.mem_filter.2 ⟨hnode, hfound⟩)
  rw [resultGraph, Graph.restrict, List.mem_filter]
  refine and_congr_right fun hedge => ?_
  obtain ⟨hsource, htarget⟩ := hc.ends_mem edge hedge
  rw [Bool.and_eq_true, decide_eq_true_iff, decide_eq_true_iff, hmem _ hsource, hmem _ htarget]

/-- Where every document has its partners, a component of a pattern is whole in the result or void. -/
theorem whole_or_void (hc : graph.Closed) (hnodes : targets.map (·.node) = graph.nodes)
    (hlength : targets.length = family.length) {nodes : List (Node × Kind)}
    (hall : ∀ edge ∈ graph.edges, Partnered rules nodes (Holds graph family) edge) {result found : Result}
    (hgraph : result.graph = resultGraph graph targets family)
    (hfound : ∀ pair ∈ targets.zip family, found.binding? pair.1.node.name = some pair.2)
    (component : (undirected graph.edges).ConnectedComponent) :
    result.Whole found graph component ∨ result.Void found graph component := by
  obtain ⟨id, rfl⟩ := component.exists_rep
  -- all ids of the component have documents when one has
  have hsame : ∀ other ∈ ((undirected graph.edges).connectedComponentMk id).supp,
      (Live graph family other ↔ Live graph family id) := fun other hother =>
    iff_of_reachable (fun edge hedge => live_iff_of_partnered (hall edge hedge))
      (SimpleGraph.ConnectedComponent.exact hother)
  by_cases hlive : Live graph family id
  · refine Or.inl ⟨fun node hnode hmem => ?_, fun edge hedge hmem => ?_⟩
    · obtain ⟨pair, hpair, rfl, hholds⟩ := exists_pair hc hnodes hlength hnode
      obtain ⟨document, hdocument⟩ := (hsame _ hmem).2 hlive
      exact ⟨document, pair.2, hfound pair hpair, (hholds document).1 hdocument⟩
    · have hsource := (hsame _ hmem).2 hlive
      rw [hgraph, mem_resultGraph_edges hc hnodes hlength]
      exact ⟨hedge, hsource, (live_iff_of_partnered (hall edge hedge)).1 hsource⟩
  · refine Or.inr ⟨fun node hnode hmem => ?_, fun edge hedge hmem hkept => ?_⟩
    · obtain ⟨pair, hpair, rfl, hholds⟩ := exists_pair hc hnodes hlength hnode
      rw [hfound pair hpair, Option.some.injEq, List.eq_nil_iff_forall_not_mem]
      exact fun document hdocument => hlive ((hsame _ hmem).1 ⟨document, (hholds document).2 hdocument⟩)
    · rw [hgraph, mem_resultGraph_edges hc hnodes hlength] at hkept
      exact hlive ((hsame _ hmem).1 hkept.2.1)

/-! ## From a query to its result -/

/-- An update of the documents of a target answers as many documents. -/
theorem length_of_mapM_update {target : Target} {patch : Document} {documents updated : List Document}
    {engine after : Engine} (h : documents.mapM (update target patch) engine = (.ok updated, after)) :
    updated.length = documents.length := by
  obtain ⟨hall, -⟩ := mapM_forall₂ (K := fun _ => True) (R := fun _ _ => True) (fun _ _ _ _ _ _ => ⟨trivial, trivial⟩)
    trivial h
  exact hall.length_eq.symm

/-- Updates of the documents of targets answer, for each target, as many documents. -/
theorem exists_of_mem_updated {entries : List ((Target × List Document) × Document)}
    {updated : List (Target × List Document)}
    {step : (Target × List Document) × Document → Run (Target × List Document)}
    (hstep : ∀ entry, step entry = do return (entry.1.1, ← entry.1.2.mapM (update entry.1.1 entry.2)))
    {engine after : Engine} (h : entries.mapM step engine = (.ok updated, after)) {answer : Target × List Document}
    (hanswer : answer ∈ updated) : ∃ entry ∈ entries, answer.1 = entry.1.1 ∧ answer.2.length = entry.1.2.length := by
  have hone : ∀ entry answer before after, True → step entry before = (.ok answer, after) →
      (answer.1 = entry.1.1 ∧ answer.2.length = entry.1.2.length) ∧ True := by
    intro entry answer before after _ hone
    rw [hstep] at hone
    obtain ⟨documents, middle, hdocuments, hone⟩ := bind_eq_ok.1 hone
    obtain ⟨rfl, -⟩ := pure_eq_ok.1 hone
    exact ⟨⟨rfl, length_of_mapM_update hdocuments⟩, trivial⟩
  obtain ⟨hall, -⟩ := mapM_forall₂ (K := fun _ => True) hone trivial h
  obtain ⟨entry, hmem⟩ := exists_mem_zip hall.flip.length_eq hanswer
  exact ⟨entry, (List.of_mem_zip hmem).2, List.forall₂_zip hall.flip hmem⟩

/-- Finding, assigning and deleting match the pattern, and the result shows as many documents of a target as are matched
for it. -/
theorem exists_matched_of_act {query : Query} {engine after : Engine} {result : Result}
    (hclause : query.clause ≠ .create) (h : act rules context query targets engine = (.ok result, after)) :
    ∃ family matching shown, matched rules context query.graph targets engine = (.ok family, matching) ∧
      (∀ entry ∈ shown, ∃ documents, (entry.1, documents) ∈ targets.zip family ∧
        entry.2.length = documents.length) ∧
      result = ⟨bindingsOf shown, resultGraph query.graph targets family, 0⟩ := by
  unfold act at h
  cases hcase : query.clause with
  | find filters texts =>
    rw [hcase] at h
    obtain ⟨projections, family, -, hmatched, rfl⟩ := find_eq_ok_iff.1 h
    refine ⟨family, after, _, hmatched, fun entry hentry => ?_, rfl⟩
    obtain ⟨⟨target, documents⟩, hpair, hshown⟩ := List.mem_filterMap.1 hentry
    dsimp only at hshown
    split at hshown
    · cases hshown
      exact ⟨documents, hpair, rfl⟩
    · obtain ⟨paths, -, rfl⟩ := Option.map_eq_some_iff.1 hshown
      exact ⟨documents, hpair, List.length_map _⟩
  | create => exact absurd hcase hclause
  | assign assignments =>
    rw [hcase] at h
    obtain ⟨patches, _, hread, h⟩ := bind_eq_ok.1 h
    obtain ⟨-, rfl⟩ := ofExcept_eq_ok.1 hread
    obtain ⟨family, matching, hmatched, h⟩ := bind_eq_ok.1 h
    obtain ⟨updated, last, hupdated, h⟩ := bind_eq_ok.1 h
    obtain ⟨rfl, -⟩ := pure_eq_ok.1 h
    refine ⟨family, matching, updated, hmatched, fun entry hentry => ?_, rfl⟩
    obtain ⟨⟨⟨_, documents⟩, _⟩, hsource, rfl, hcount⟩ := exists_of_mem_updated (fun _ => rfl) hupdated hentry
    exact ⟨documents, (List.of_mem_zip hsource).1, hcount⟩
  | delete =>
    rw [hcase] at h
    obtain ⟨family, matching, hmatched, h⟩ := bind_eq_ok.1 h
    obtain ⟨_, _, -, h⟩ := bind_eq_ok.1 h
    obtain ⟨rfl, -⟩ := pure_eq_ok.1 h
    exact ⟨family, matching, targets.zip family, hmatched, fun entry hentry => ⟨entry.2, hentry, rfl⟩, rfl⟩

/-- When a query that finds, assigns or deletes succeeds, the query that only finds what it matches succeeds from the
same engine, and the result shows as many documents under a binding as that finds there. The graph of the result has the
nodes of the pattern and some of its edges, in order, and every component of the pattern is whole there or void. -/
theorem execute_component {text : String} {query : Query} {rules : List Rule} {context : Context}
    {before after : Engine} {result : Result} (hparse : Query.parse text = .ok query)
    (hclause : query.clause ≠ .create) (h : execute rules context query before = (.ok result, after)) :
    ∃ found seen, execute rules context query.matching before = (.ok found, seen) ∧
      (∀ binding documents, result.binding? binding = some documents →
        ∃ matched, found.binding? binding = some matched ∧ documents.length = matched.length) ∧
      result.graph.nodes = query.graph.nodes ∧ result.graph.edges.Sublist query.graph.edges ∧
      ∀ component : (undirected query.graph.edges).ConnectedComponent,
        result.Whole found query.graph component ∨ result.Void found query.graph component := by
  have hw := Query.parse_wellFormed hparse
  obtain ⟨started, targets, planned, told, done, hstart, hplan, htold, hact, -⟩ := execute_eq_ok h
  obtain ⟨kinds, hplanned⟩ := planned_spec hw.bindings_nodup hstart hplan htold
  obtain ⟨family, matching, shown, hmatched, hshown, rfl⟩ := exists_matched_of_act hclause hact
  have hlength := (matched_fetches hmatched).2.length_eq
  have hnames := hplanned.names_nodup hw.bindings_nodup hlength
  -- what is matched has all its partners
  obtain ⟨links, fetched, hlinks, -, hnarrow⟩ := matched_eq_ok_iff.1 hmatched
  have hall := (arcConsistent_iff hw.toClosed hplanned.nodes_eq hlinks family).2
    (Link.narrowAll_eq_some_iff_core.1 hnarrow).2
  obtain ⟨seen, hfound⟩ := execute_matching hstart hplan htold hmatched
  refine ⟨_, seen, hfound, fun binding documents hbinding => ?_, rfl, List.filter_sublist, fun component => ?_⟩
  · have hmem := Keyed.mem_of_mem_ofList (Keyed.mem_of_lookup hbinding)
    obtain ⟨entry, hentry, heq⟩ := List.mem_map.1 hmem
    cases heq
    obtain ⟨matched, hpair, hcount⟩ := hshown entry hentry
    exact ⟨matched, binding?_of_mem hnames hpair, hcount⟩
  · exact whole_or_void hw.toClosed hplanned.nodes_eq hlength hall rfl (fun pair => binding?_of_mem hnames) component

/-! ## A sample: replica sets with pods, but without deployments -/

namespace Sample

def unownedSetsText : String :=
  "MATCH (d:Deployment)-[:OWNS]->(s:ReplicaSet), (r:ReplicaSet)-[:OWNS]->(p:Pod) RETURN p.metadata.name"

/-- The replica sets of deployments, and replica sets with their pods, of which the names are asked for. -/
def unownedSets : Query :=
  ⟨⟨[Node.ofBinding "d" "Deployment" [], Node.ofBinding "s" "ReplicaSet" [], Node.ofBinding "r" "ReplicaSet" [],
      Node.ofBinding "p" "Pod" []],
    [⟨"Deployment/d", "ReplicaSet/s", "OWNS"⟩, ⟨"ReplicaSet/r", "Pod/p", "OWNS"⟩]⟩, .find [] ["p.metadata.name"]⟩

end Sample

/-- Without deployments the one component is void; the other is whole. -/
theorem execute_component_unownedSets :
    Query.parse Sample.unownedSetsText = .ok Sample.unownedSets ∧ Sample.unownedSets.clause ≠ .create ∧
      ∃ result after found seen,
        execute Rule.standard ⟨"default", false⟩ Sample.unownedSets Sample.cluster = (.ok result, after) ∧
        execute Rule.standard ⟨"default", false⟩ Sample.unownedSets.matching Sample.cluster = (.ok found, seen) ∧
        result.Void found Sample.unownedSets.graph (SimpleGraph.connectedComponentMk _ "ReplicaSet/s") ∧
        result.Whole found Sample.unownedSets.graph (SimpleGraph.connectedComponentMk _ "Pod/p") := by
  have hparse : Query.parse Sample.unownedSetsText = .ok Sample.unownedSets := by decide +kernel
  have hview : (execute Rule.standard ⟨"default", false⟩ Sample.unownedSets Sample.cluster).1.toOption.map
      (fun result => result.graph.edges) = some [⟨"ReplicaSet/r", "Pod/p", "OWNS"⟩] := by
    decide +kernel
  obtain ⟨result, after, hrun, hedges⟩ := exists_of_view hview
  obtain ⟨found, seen, hfound, -, -, -, hall⟩ := execute_component hparse nofun hrun
  refine ⟨hparse, nofun, result, after, found, seen, hrun, hfound, ?_, ?_⟩
  · refine (hall _).resolve_left fun hwhole => ?_
    have hkept := hwhole.kept ⟨"Deployment/d", "ReplicaSet/s", "OWNS"⟩ List.mem_cons_self
      (SimpleGraph.ConnectedComponent.sound (reachable_of_mem List.mem_cons_self))
    rw [hedges] at hkept
    exact absurd hkept (by decide)
  · refine (hall _).resolve_right fun hvoid => ?_
    have hmem : (⟨"ReplicaSet/r", "Pod/p", "OWNS"⟩ : Edge) ∈ Sample.unownedSets.graph.edges := by decide
    refine hvoid.dropped _ hmem (SimpleGraph.ConnectedComponent.sound (reachable_of_mem hmem)) ?_
    rw [hedges]
    exact List.mem_singleton_self _

end Run

end ClusterQuery
