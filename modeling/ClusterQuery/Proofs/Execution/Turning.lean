import ClusterQuery.Proofs.Execution.Comparing
import ClusterQuery.Proofs.Execution.Match
import ClusterQuery.Proofs.Execution.Placing

/-!
# Edges the other way round

Neither the type of an edge nor, between nodes of different kinds, its direction shows in what a query finds
(`Run.execute_find_turned`). The rule that joins two kinds is found from either side, with the other kind as the parent
(`Rule.find?_swap`), so a turned edge has the turned link, which asks for the same partners (`Link.supported_turned`).
-/

namespace ClusterQuery

namespace Rule

/-- Between different kinds a rule goes the other way when the kinds are swapped. -/
theorem direction?_swap (rule : Rule) {a b : String} (h : Text.sameIgnoringCase a b = false) :
    rule.direction? b a = (rule.direction? a b).map (!·) := by
  unfold direction?
  by_cases hforth : (Text.sameIgnoringCase rule.parent a && Text.sameIgnoringCase rule.child b) = true
  · have hback : ¬(Text.sameIgnoringCase rule.parent b && Text.sameIgnoringCase rule.child a) = true := by
      -- else the parent would be the same as both
      simp only [Text.sameIgnoringCase, Bool.and_eq_true, beq_iff_eq, beq_eq_false_iff_ne] at hforth h ⊢
      exact fun hback => h (hforth.1.symm.trans hback.1)
    rw [if_pos hforth, if_neg hback, if_pos hforth]
    rfl
  · rw [if_neg hforth, if_neg hforth]
    split <;> rfl

/-- The first rule that joins two different kinds is the first that joins them swapped, with the other as the parent. -/
theorem find?_swap (rules : List Rule) {a b : String} (h : Text.sameIgnoringCase a b = false) :
    find? rules b a =
      (find? rules a b).map fun (position, rule, sourceIsParent) => (position, rule, !sourceIsParent) := by
  unfold find?
  rw [List.map_findSome?]
  congr 1
  funext ⟨rule, position⟩
  simp only [Function.comp_apply, direction?_swap rule h, Option.map_map]
  rfl

end Rule

namespace Link

/-- The link from the other end. -/
def turned (link : Link) : Link :=
  ⟨link.target, link.source, fun a b => link.linked b a⟩

/-- A link asks for the same partners from either end. -/
theorem supported_turned (link : Link) (family : Family) : link.turned.Supported family ↔ link.Supported family :=
  and_comm

/-- The link of a rule whose source is the child is the one whose source is the parent, turned. -/
theorem ofRule_not (source target : Nat) (rule : Rule) (sourceIsParent : Bool) :
    ofRule target source rule (!sourceIsParent) = (ofRule source target rule sourceIsParent).turned := by
  cases sourceIsParent <;> rfl

end Link

/-- The kind of the node of an id, as its identifier is resolved. -/
def Graph.kindOf? (graph : Graph) (engine : Engine) (id : String) : Option Kind :=
  (graph.node? id).bind fun node => engine.cache.kindOf? engine.gateway.store.listings node.kind

/-- The second edge joins the nodes that the first does, whatever its type, and in the same direction unless the nodes
have kinds that differ by more than the case of ASCII letters. -/
def Edge.Turned (kindOf? : String → Option Kind) (edge other : Edge) : Prop :=
  other.source = edge.source ∧ other.target = edge.target ∨
    other.source = edge.target ∧ other.target = edge.source ∧
      ∀ a b, kindOf? edge.source = some a → kindOf? edge.target = some b →
        Text.sameIgnoringCase a.kind b.kind = false

/-- The patterns have the same nodes, and each edge of the one stands for an edge of the other. -/
structure Graph.Turned (kindOf? : String → Option Kind) (graph other : Graph) : Prop where
  nodes_eq : other.nodes = graph.nodes
  forth : ∀ edge ∈ graph.edges, ∃ turned ∈ other.edges, edge.Turned kindOf? turned
  back : ∀ turned ∈ other.edges, ∃ edge ∈ graph.edges, edge.Turned kindOf? turned

/-- Turning some of the edges, one by one. -/
theorem Graph.turned_of_forall₂ {kindOf? : String → Option Kind} {graph other : Graph}
    (hnodes : other.nodes = graph.nodes) (h : List.Forall₂ (Edge.Turned kindOf?) graph.edges other.edges) :
    graph.Turned kindOf? other := by
  refine ⟨hnodes, fun edge hedge => ?_, fun turned hturned => ?_⟩
  · obtain ⟨turned, hpair⟩ := exists_mem_zip h.length_eq hedge
    exact ⟨turned, (List.of_mem_zip hpair).2, List.forall₂_zip h hpair⟩
  · obtain ⟨edge, hpair⟩ := exists_mem_zip h.flip.length_eq hturned
    exact ⟨edge, (List.of_mem_zip hpair).2, List.forall₂_zip h.flip hpair⟩

/-- A turned edge is turned back to the first. -/
theorem Edge.Turned.symm {kindOf? : String → Option Kind} {edge other : Edge} (h : edge.Turned kindOf? other) :
    other.Turned kindOf? edge := by
  rcases h with ⟨hsource, htarget⟩ | ⟨hsource, htarget, hdiffer⟩
  · exact Or.inl ⟨hsource.symm, htarget.symm⟩
  · refine Or.inr ⟨htarget.symm, hsource.symm, fun a b ha hb => ?_⟩
    rw [hsource] at ha
    rw [htarget] at hb
    have hback := hdiffer b a hb ha
    simp only [Text.sameIgnoringCase, beq_eq_false_iff_ne] at hback ⊢
    exact hback.symm

theorem Graph.Turned.symm {kindOf? : String → Option Kind} {graph other : Graph} (h : graph.Turned kindOf? other) :
    other.Turned kindOf? graph where
  nodes_eq := h.nodes_eq.symm
  forth := fun edge hedge => (h.back edge hedge).imp fun _ hback => ⟨hback.1, hback.2.symm⟩
  back := fun edge hedge => (h.forth edge hedge).imp fun _ hforth => ⟨hforth.1, hforth.2.symm⟩

/-- A turned edge joins a node to itself where the first does. -/
theorem Edge.Turned.ne {kindOf? : String → Option Kind} {edge other : Edge} (h : edge.Turned kindOf? other)
    (hne : edge.source ≠ edge.target) : other.source ≠ other.target := by
  rcases h with ⟨hsource, htarget⟩ | ⟨hsource, htarget, -⟩
  · rwa [hsource, htarget]
  · rw [hsource, htarget]
    exact hne.symm

namespace Run

variable {rules : List Rule} {context : Context} {query : Query} {targets : List Target} {engine after : Engine}

/-- The first target of a node id has the kind of its node. -/
theorem kindOf?_of_planned (hplan : plan query context engine = (.ok targets, after)) {id : String} {position : Nat}
    (h : targetPosition? targets id = some position) :
    ∃ target, targets[position]? = some target ∧ query.graph.kindOf? engine id = some target.kind := by
  obtain ⟨-, kinds, htargets, hkinds⟩ := plan_spec hplan
  have hsubjects := (Query.targets_placed htargets).subjects_eq
  have hnodes := Query.map_node_targets hkinds.length_eq htargets
  obtain ⟨target, htarget, -⟩ := exists_of_targetPosition? h
  have hfound : query.graph.node? id = some target.node := by
    have hfind : targets.find? (·.node.id == id) = some target := by
      rw [List.find?_eq_bind_findIdx?_getElem?]
      exact Option.bind_eq_some_iff.2 ⟨position, h, htarget⟩
    rw [Graph.node?, ← hnodes, List.find?_map]
    exact Option.map_eq_some_iff.2 ⟨target, hfind, rfl⟩
  have hmem : target.subject ∈ query.graph.nodes.zip kinds :=
    hsubjects ▸ List.mem_map_of_mem (List.mem_of_getElem? htarget)
  exact ⟨target, htarget, by rw [Graph.kindOf?, hfound]; exact List.forall₂_zip hkinds hmem⟩

/-- A turned edge has the same link as before or the turned one. -/
theorem linkOf?_turned (hplan : plan query context engine = (.ok targets, after)) {edge other : Edge}
    (hturned : edge.Turned (query.graph.kindOf? engine) other) {found : Option Link}
    (h : linkOf? rules targets edge = .ok found) :
    linkOf? rules targets other = .ok found ∨ linkOf? rules targets other = .ok (found.map Link.turned) := by
  rcases hturned with ⟨hsource, htarget⟩ | ⟨hsource, htarget, hdiffer⟩
  · left
    rw [← h, linkOf?, linkOf?, hsource, htarget]
  · right
    rw [linkOf?] at h
    rw [linkOf?, hsource, htarget]
    cases hfirst : targetPosition? targets edge.source with
    | none =>
      rw [hfirst] at h
      cases h
      cases targetPosition? targets edge.target <;> rfl
    | some source =>
      cases hsecond : targetPosition? targets edge.target with
      | none =>
        rw [hfirst, hsecond] at h
        cases h
        rfl
      | some target =>
        rw [hfirst, hsecond] at h
        dsimp only at h ⊢
        obtain ⟨a, ha, hkind⟩ := kindOf?_of_planned hplan hfirst
        obtain ⟨b, hb, hkind'⟩ := kindOf?_of_planned hplan hsecond
        rw [kindAt_eq ha, kindAt_eq hb] at h ⊢
        rw [Rule.find?_swap rules (hdiffer _ _ hkind hkind')]
        cases hrule : Rule.find? rules a.kind.kind b.kind.kind with
        | none =>
          rw [hrule] at h
          cases h
        | some joining =>
          obtain ⟨position, rule, sourceIsParent⟩ := joining
          rw [hrule] at h
          cases h
          exact congrArg (fun link => Except.ok (some link)) (Link.ofRule_not source target rule sourceIsParent)

/-- The link of an edge between two nodes joins two positions. -/
theorem ne_of_linkOf? {edge : Edge} {link : Link} (h : linkOf? rules targets edge = .ok (some link))
    (hne : edge.source ≠ edge.target) : link.source ≠ link.target := by
  unfold linkOf? at h
  split at h
  · rename_i source target hsource htarget
    split at h
    · cases h
      obtain ⟨first, hfirst, hid⟩ := exists_of_targetPosition? hsource
      obtain ⟨second, hsecond, hid'⟩ := exists_of_targetPosition? htarget
      intro heq
      have hsame : source = target := heq
      rw [hsame, hsecond] at hfirst
      cases hfirst
      exact hne (hid.symm.trans hid')
    · cases h
  · cases h

/-- The links of a turned pattern ask for the same partners. -/
theorem exists_linksOf_turned (hplan : plan query context engine = (.ok targets, after)) {first second : Graph}
    (hturned : first.Turned (query.graph.kindOf? engine) second) {links : List Link}
    (h : linksOf rules first targets = .ok links) : ∃ others, linksOf rules second targets = .ok others ∧
      ∀ family, Link.ArcConsistent others family ↔ Link.ArcConsistent links family := by
  obtain ⟨found, hfound, -⟩ := exists_filterMap_of_filterMapM h
  have hmade : ∃ others, linksOf rules second targets = .ok others := by
    refine exists_filterMapM_eq_ok fun other hother => ?_
    obtain ⟨edge, hedge, hpair⟩ := hturned.back other hother
    rcases linkOf?_turned hplan hpair (hfound edge hedge) with hsame | hsame
    · exact ⟨_, hsame⟩
    · exact ⟨_, hsame⟩
  obtain ⟨others, hothers⟩ := hmade
  refine ⟨others, hothers, fun family => ⟨fun hall link hlink => ?_, fun hall link hlink => ?_⟩⟩
  · obtain ⟨edge, hedge, hmake⟩ := (mem_linksOf h).1 hlink
    obtain ⟨other, hother, hpair⟩ := hturned.forth edge hedge
    rcases linkOf?_turned hplan hpair hmake with hsame | hsame
    · exact hall link ((mem_linksOf hothers).2 ⟨other, hother, hsame⟩)
    · exact (link.supported_turned family).1 (hall _ ((mem_linksOf hothers).2 ⟨other, hother, hsame⟩))
  · obtain ⟨other, hother, hmake⟩ := (mem_linksOf hothers).1 hlink
    obtain ⟨edge, hedge, hpair⟩ := hturned.back other hother
    rcases linkOf?_turned hplan hpair.symm hmake with hsame | hsame
    · exact hall link ((mem_linksOf h).2 ⟨edge, hedge, hsame⟩)
    · exact (link.supported_turned family).1 (hall _ ((mem_linksOf h).2 ⟨edge, hedge, hsame⟩))

/-- Turning edges between nodes of kinds that differ by more than the case of ASCII letters, and renaming edge types, in
a pattern without an edge from a node to itself: the query that finds documents succeeds when it did before, and has the
same documents in the same order under every binding. -/
theorem execute_find_turned (rules : List Rule) (context : Context) (filters : List Filter) (texts : List String)
    {graph other : Graph} {before : Engine} (hloop : ∀ edge ∈ graph.edges, edge.source ≠ edge.target)
    (hturned : graph.Turned (graph.kindOf? before) other) :
    (execute rules context ⟨other, .find filters texts⟩ before).1.toOption.map Result.bindings =
      (execute rules context ⟨graph, .find filters texts⟩ before).1.toOption.map Result.bindings := by
  have hsame : plan ⟨other, .find filters texts⟩ context = plan ⟨graph, .find filters texts⟩ context := by
    unfold plan Query.targets
    rw [hturned.nodes_eq]
  rw [execute_fst, execute_fst, hsame, bind_apply, bind_apply]
  rcases hplan : plan ⟨graph, .find filters texts⟩ context before with ⟨cause | targets, planned⟩
  · rfl
  refine find_bindings_congr ?_ context texts planned
  have hloop' : ∀ edge ∈ other.edges, edge.source ≠ edge.target := fun turned hmem =>
    (hturned.back turned hmem).elim fun edge hback => hback.2.ne (hloop edge hback.1)
  rcases hlinks : linksOf rules graph targets with cause | links
  · refine Or.inr ⟨⟨cause, rfl⟩, ?_⟩
    rcases hothers : linksOf rules other targets with cause' | others
    · exact ⟨cause', rfl⟩
    · obtain ⟨links, hmade, -⟩ := exists_linksOf_turned hplan hturned.symm hothers
      exact absurd (hlinks.symm.trans hmade) nofun
  · obtain ⟨others, hothers, hsupported⟩ := exists_linksOf_turned hplan hturned hlinks
    have hends : ∀ link ∈ links, link.source ≠ link.target := by
      intro link hlink
      obtain ⟨edge, hedge, hmake⟩ := (mem_linksOf hlinks).1 hlink
      exact ne_of_linkOf? hmake (hloop edge hedge)
    have hends' : ∀ link ∈ others, link.source ≠ link.target := by
      intro link hlink
      obtain ⟨edge, hedge, hmake⟩ := (mem_linksOf hothers).1 hlink
      exact ne_of_linkOf? hmake (hloop' edge hedge)
    exact Or.inl ⟨links, others, rfl, hothers, Link.narrowAll_congr hends hends' hsupported⟩

/-! ## A sample: pods and the replica set that owns them -/

namespace Sample

/-- The pattern of a replica set and its pods. -/
def setToPod : Graph :=
  ⟨[Node.ofBinding "r" "ReplicaSet" [], Node.ofBinding "p" "Pod" []], [⟨"ReplicaSet/r", "Pod/p", "OWNS"⟩]⟩

/-- The same nodes, with the edge from the pod. -/
def podToSet : Graph :=
  { setToPod with edges := [⟨"Pod/p", "ReplicaSet/r", "OWNED_BY"⟩] }

end Sample

/-- The edge from the pod to its replica set, by another name, finds the same pods. -/
theorem execute_find_turned_setToPod :
    (∀ edge ∈ Sample.setToPod.edges, edge.source ≠ edge.target) ∧
      Sample.setToPod.Turned (Sample.setToPod.kindOf? Sample.cluster) Sample.podToSet ∧
      (execute Rule.standard ⟨"default", false⟩ ⟨Sample.podToSet, .find [] []⟩ Sample.cluster).1.toOption.map
          Result.bindings =
        (execute Rule.standard ⟨"default", false⟩ ⟨Sample.setToPod, .find [] []⟩ Sample.cluster).1.toOption.map
          Result.bindings ∧
      (execute Rule.standard ⟨"default", false⟩ ⟨Sample.setToPod, .find [] []⟩ Sample.cluster).1.toOption.map
          (fun result => (result.binding? "p").map (·.map Document.name?)) =
        some (some [some "web-1-a", some "old-1-a"]) := by
  have hloop : ∀ edge ∈ Sample.setToPod.edges, edge.source ≠ edge.target := by decide
  have hset : (Sample.setToPod.kindOf? Sample.cluster "ReplicaSet/r").map (·.kind) = some "ReplicaSet" := by
    decide +kernel
  have hpod : (Sample.setToPod.kindOf? Sample.cluster "Pod/p").map (·.kind) = some "Pod" := by decide +kernel
  have hturned : Sample.setToPod.Turned (Sample.setToPod.kindOf? Sample.cluster) Sample.podToSet := by
    refine Graph.turned_of_forall₂ rfl (.cons (Or.inr ⟨rfl, rfl, fun a b ha hb => ?_⟩) .nil)
    obtain ⟨_, hfirst, hkind⟩ := Option.map_eq_some_iff.1 hset
    obtain ⟨_, hsecond, hkind'⟩ := Option.map_eq_some_iff.1 hpod
    cases ha.symm.trans hfirst
    cases hb.symm.trans hsecond
    rw [hkind, hkind']
    decide
  refine ⟨hloop, hturned, execute_find_turned _ _ _ _ hloop hturned, ?_⟩
  decide +kernel

end Run

end ClusterQuery
