import ClusterQuery.Proofs.Execution.Ending
import ClusterQuery.Proofs.Graph.Forest

/-!
# Full matches

On a pattern that is a forest, partners along every edge are enough: narrowing keeps a document exactly when it
belongs to a choice of one document for every node of the component (`narrowAll_forest`). A choice is kept by
narrowing since by itself it is a family with all partners; a document that is kept extends to a choice by
`exists_isMatch`.
-/

namespace ClusterQuery.Run

variable {rules : List Rule} {graph : Graph} {targets : List Target} {links : List Link}

/-- The family of a choice: its documents, each alone in the list of its node, and nothing outside the component. -/
noncomputable def chosen (graph : Graph) (id : String) (pick : String → Document) : Link.Family :=
  open Classical in
  graph.ids.map fun other => if (undirected graph.edges).Reachable id other then [pick other] else []

/-- What the family of a choice holds. -/
theorem mem_chosen {id : String} {pick : String → Document} {position : Nat} {document : Document} :
    document ∈ Link.listAt (chosen graph id pick) position ↔
      ∃ other, graph.ids[position]? = some other ∧ (undirected graph.edges).Reachable id other ∧
        document = pick other := by
  simp only [chosen, Link.listAt, List.getD_eq_getElem?_getD, List.getElem?_map]
  cases graph.ids[position]? with
  | none => simp
  | some other => by_cases h : (undirected graph.edges).Reachable id other <;> simp [h]

/-- The family of a choice holds the pick of every node of the component. -/
theorem holds_chosen {id other : String} {pick : String → Document} {document : Document} :
    Holds graph (chosen graph id pick) other document ↔
      other ∈ graph.ids ∧ (undirected graph.edges).Reachable id other ∧ document = pick other := by
  constructor
  · rintro ⟨position, hposition, hmem⟩
    obtain ⟨other', hother, hreach, heq⟩ := mem_chosen.1 hmem
    rw [hposition, Option.some.injEq] at hother
    subst hother
    exact ⟨List.mem_of_getElem? hposition, hreach, heq⟩
  · rintro ⟨hmem, hreach, heq⟩
    obtain ⟨position, hposition⟩ := List.getElem?_of_mem hmem
    exact ⟨position, hposition, mem_chosen.2 ⟨other, hposition, hreach, heq⟩⟩

/-- In the family of a choice every document has its partners. -/
theorem partnered_chosen (hc : graph.Closed) {holds : String → Document → Prop} {id : String}
    {pick : String → Document} (h : IsMatch holds (Joins rules (targets.map Target.subject)) graph.edges id pick)
    {edge : Edge} (he : edge ∈ graph.edges) :
    Partnered rules (targets.map Target.subject) (Holds graph (chosen graph id pick)) edge := by
  have hends := reachable_of_mem he
  obtain ⟨hsource, htarget⟩ := hc.ends_mem edge he
  constructor
  · intro a ha
    obtain ⟨-, hreach, rfl⟩ := holds_chosen.1 ha
    exact ⟨pick edge.target, holds_chosen.2 ⟨htarget, hreach.trans hends, rfl⟩, h.joined edge he hreach⟩
  · intro b hb
    obtain ⟨-, hreach, rfl⟩ := holds_chosen.1 hb
    have hreach' := hreach.trans hends.symm
    exact ⟨pick edge.source, holds_chosen.2 ⟨hsource, hreach', rfl⟩, h.joined edge he hreach'⟩

/-- On a pattern whose edges form a forest narrowing ends, and it keeps a fetched document of a node exactly when some
choice of one fetched document for every node of its component picks it and joins the documents of every edge there. -/
theorem narrowAll_forest (hc : graph.Closed) (hnodes : targets.map (·.node) = graph.nodes)
    (hforest : IsForest graph.edges) (hlinks : linksOf rules graph targets = .ok links) (family : Link.Family) :
    ∃ kept, Link.narrowAll links family = some kept ∧
      ∀ id document, Holds graph family id document →
        (Holds graph kept id document ↔
          ∃ pick, pick id = document ∧
            IsMatch (Holds graph family) (Joins rules (targets.map Target.subject)) graph.edges id pick) := by
  have hrep := linksOf_forall₂ hc hnodes hlinks
  have hloop : ∀ link ∈ links, link.source ≠ link.target :=
    (forall_mem_iff_of_forall₂ hrep fun _ _ hr => not_congr (hr.loop_iff hc).symm).1 hforest.no_loop
  obtain ⟨kept, hkept⟩ := Link.exists_narrowAll_eq hloop family
  obtain ⟨hcore, hall⟩ := Link.narrowAll_eq_some_iff_core.1 hkept
  refine ⟨kept, hkept, fun id document hfetched => ⟨fun hholds => ?_, ?_⟩⟩
  · obtain ⟨pick, hpick, hmatch⟩ :=
      exists_isMatch hforest ((arcConsistent_iff hc hnodes hlinks kept).2 hall) hholds
    exact ⟨pick, hpick, fun other hreach => (hmatch.held other hreach).mono hcore.isCut.below, hmatch.joined⟩
  · rintro ⟨pick, rfl, hmatch⟩
    have hchosen : Link.Below (chosen graph id pick) family := by
      refine below_of_holds hc (by simp [chosen]) fun other document hdocument => ?_
      obtain ⟨-, hreach, rfl⟩ := holds_chosen.1 hdocument
      exact hmatch.held other hreach
    have hsettled : Link.ArcConsistent links (chosen graph id pick) :=
      (arcConsistent_iff hc hnodes hlinks _).1 fun edge he => partnered_chosen hc hmatch he
    obtain ⟨position, hposition, -⟩ := hfetched
    have hpicked : Holds graph (chosen graph id pick) id (pick id) :=
      holds_chosen.2 ⟨List.mem_of_getElem? hposition, SimpleGraph.Reachable.refl id, rfl⟩
    exact hpicked.mono (hcore.greatest _ hchosen hsettled.settled)

/-! ## A sample: a chain of owners -/

namespace Sample

/-- Deployments with their replica sets and the pods of those. -/
def owners : Graph :=
  ⟨[Node.ofBinding "d" "Deployment" [], Node.ofBinding "r" "ReplicaSet" [], Node.ofBinding "p" "Pod" []],
    [⟨"Deployment/d", "ReplicaSet/r", "OWNS"⟩, ⟨"ReplicaSet/r", "Pod/p", "OWNS"⟩]⟩

/-- The target of a node, without conditions. -/
def targetOf (node : Node) (coordinate : Coordinate) : Target :=
  ⟨node, ⟨coordinate, node.kind, true⟩, Search.everything, []⟩

def ownerTargets : List Target :=
  [targetOf (Node.ofBinding "d" "Deployment" []) ⟨"apps", "v1", "deployments"⟩,
    targetOf (Node.ofBinding "r" "ReplicaSet" []) ⟨"apps", "v1", "replicasets"⟩,
    targetOf (Node.ofBinding "p" "Pod" []) ⟨"", "v1", "pods"⟩]

end Sample

/-- The strayed pod has its replica set, but no choice of deployment, replica set and pod picks it. -/
theorem narrowAll_forest_owners :
    Sample.owners.Closed ∧ Sample.ownerTargets.map (·.node) = Sample.owners.nodes ∧ IsForest Sample.owners.edges ∧
      linksOf Rule.standard Sample.owners Sample.ownerTargets =
        .ok [Link.Sample.deploymentOwnsSet, Link.Sample.setOwnsPod] ∧
      Holds Sample.owners Link.Sample.fetched "Pod/p" Link.Sample.strayedPod ∧
      ¬∃ pick, pick "Pod/p" = Link.Sample.strayedPod ∧
        IsMatch (Holds Sample.owners Link.Sample.fetched) (Joins Rule.standard (Sample.ownerTargets.map Target.subject))
          Sample.owners.edges "Pod/p" pick := by
  have hclosed : Sample.owners.Closed := ⟨by decide, by decide⟩
  have hforest : IsForest Sample.owners.edges := by
    -- each edge starts at a node that no later edge has
    refine isForest_cons.2 ⟨isForest_cons.2 ⟨isForest_nil, fun h => ?_⟩, fun h => ?_⟩
    · exact absurd (eq_of_reachable (by simp) h) (by decide)
    · exact absurd (eq_of_reachable (by simp [Edge.ends]) h) (by decide)
  have hlinks : linksOf Rule.standard Sample.owners Sample.ownerTargets =
      .ok [Link.Sample.deploymentOwnsSet, Link.Sample.setOwnsPod] := rfl
  have hfetched : Holds Sample.owners Link.Sample.fetched "Pod/p" Link.Sample.strayedPod :=
    ⟨2, rfl, List.mem_cons_of_mem _ List.mem_cons_self⟩
  obtain ⟨kept, hkept, hiff⟩ := narrowAll_forest hclosed rfl hforest hlinks Link.Sample.fetched
  refine ⟨hclosed, rfl, hforest, hlinks, hfetched, fun hpick => ?_⟩
  have hholds := (hiff "Pod/p" Link.Sample.strayedPod hfetched).2 hpick
  have hleft : Link.narrowAll [Link.Sample.deploymentOwnsSet, Link.Sample.setOwnsPod] Link.Sample.fetched =
      some [[Link.Sample.deployment], [Link.Sample.ownedSet], [Link.Sample.ownedPod]] :=
    Link.narrowAll_eq_some_iff.2 (.again rfl (.quiet rfl))
  rw [hleft, Option.some.injEq] at hkept
  subst hkept
  have hmem := (holds_iff hclosed (show Sample.owners.ids[2]? = some "Pod/p" from rfl)).1 hholds
  have hname := congrArg Document.name? (List.mem_singleton.1 hmem)
  exact absurd hname (by decide)

end ClusterQuery.Run
