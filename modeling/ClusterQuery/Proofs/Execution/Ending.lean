import ClusterQuery.Proofs.Execution.Links
import ClusterQuery.Proofs.Query.Pattern
import ClusterQuery.Proofs.Relation.Core

/-!
# When narrowing ends

A round that finds documents to drop leaves fewer, unless the family is one that no edge changes. There only an edge
from a node to itself can still find some: those that refer to no document of the node. So narrowing ends exactly when
the core has none of these (`narrowing_ends_iff`), and without such edges it always does (`exists_narrowAll_eq`).
-/

namespace ClusterQuery

namespace Link

/-- In a family that no edge changes, partners are missing only along edges from a position to itself. -/
theorem Settled.arcConsistent_iff {links : List Link} {family : Family} (h : Settled links family) :
    ArcConsistent links family ↔ ∀ link ∈ links, link.source = link.target →
      ∀ a ∈ listAt family link.source, ∃ b ∈ listAt family link.source, link.linked a b = true :=
  forall₂_congr fun link hl => supported_iff_of_narrow_eq (h link hl)

/-- A round that finds documents to drop leaves fewer, exactly when the family has all partners or some edge changes
it. -/
theorem narrowRound_progress_iff (links : List Link) (family : Family) :
    ((narrowRound links family).2 = true → count (narrowRound links family).1 < count family) ↔
      (Settled links family → ArcConsistent links family) := by
  constructor
  · intro hprogress hs
    by_cases hflag : (narrowRound links family).2 = true
    · have hlt := hprogress hflag
      rw [hs.narrowRound_eq] at hlt
      exact absurd hlt (Nat.lt_irrefl _)
    · exact (narrowRound_quiet (Bool.eq_false_iff.2 hflag)).2
  · intro hall hflag
    rcases count_narrowRound_lt_or_settled links family with hlt | hs
    · exact hlt
    · rw [hs.narrowRound_flag, List.any_eq_true] at hflag
      obtain ⟨link, hl, hd⟩ := hflag
      rw [drops_eq_false_iff.2 (hall hs link hl)] at hd
      cases hd

/-- Narrowing ends exactly when every document of the core has its partners. -/
theorem exists_ends_iff (links : List Link) (family : Family) :
    (∃ result, Ends links family result) ↔ ∀ core, IsCore links family core → ArcConsistent links core := by
  constructor
  · rintro ⟨result, hends⟩ core hcore
    obtain ⟨hresult, hall⟩ := narrowAll_eq_some_iff_core.1 (narrowAll_eq_some_iff.2 hends)
    rwa [hcore.unique hresult]
  · intro hall
    obtain ⟨core, hcore, -⟩ := narrowAll_spec links family
    exact ⟨core, narrowAll_eq_some_iff.1 (narrowAll_eq_some_iff_core.2 ⟨hcore, hall core hcore⟩)⟩

/-- Without an edge from a position to itself narrowing gives a result. -/
theorem exists_narrowAll_eq {links : List Link} (h : ∀ link ∈ links, link.source ≠ link.target) (family : Family) :
    ∃ result, narrowAll links family = some result := by
  obtain ⟨result, hends⟩ := (exists_ends_iff links family).2 fun core hcore =>
    hcore.settled.arcConsistent_iff.2 fun link hl he => absurd he (h link hl)
  exact ⟨result, narrowAll_eq_some_iff.2 hends⟩

end Link

namespace Run

/-- Along every edge from a node to itself, each document of the node is linked to one of the node. -/
def LoopsPartnered (rules : List Rule) (nodes : List (Node × Kind)) (graph : Graph) (family : Link.Family) : Prop :=
  ∀ edge ∈ graph.edges, edge.source = edge.target →
    ∀ a, Holds graph family edge.source a → ∃ b, Holds graph family edge.source b ∧ Joins rules nodes edge a b

/-- In a family that no edge changes, partners are missing only along edges from a node to itself. -/
theorem arcConsistent_iff_loopsPartnered {rules : List Rule} {graph : Graph} {targets : List Target}
    {links : List Link} (hc : graph.Closed) (hnodes : targets.map (·.node) = graph.nodes)
    (hlinks : linksOf rules graph targets = .ok links) {family : Link.Family} (h : Link.Settled links family) :
    Link.ArcConsistent links family ↔ LoopsPartnered rules (targets.map Target.subject) graph family := by
  rw [h.arcConsistent_iff, LoopsPartnered]
  refine (forall_mem_iff_of_forall₂ (linksOf_forall₂ hc hnodes hlinks) fun edge link hr => ?_).symm
  simp only [hr.loop_iff hc, holds_iff hc hr.source_at, hr.linked_iff]

/-- Narrowing the pattern of a query ends exactly when, in what no edge changes any more, each document is linked to
one of its node along every edge from the node to itself. A round that finds documents to drop leaves fewer exactly
when some edge changes the family or the same holds of it. -/
theorem narrowing_ends_iff {text : String} {query : Query} {rules : List Rule} {targets : List Target}
    {links : List Link} (hparse : Query.parse text = .ok query) (hnodes : targets.map (·.node) = query.graph.nodes)
    (hlinks : linksOf rules query.graph targets = .ok links) (family : Link.Family) :
    ((∃ result, Link.Ends links family result) ↔
        ∀ core, Link.IsCore links family core → LoopsPartnered rules (targets.map Target.subject) query.graph core) ∧
      (((Link.narrowRound links family).2 = true →
          Link.count (Link.narrowRound links family).1 < Link.count family) ↔
        (Link.Settled links family → LoopsPartnered rules (targets.map Target.subject) query.graph family)) := by
  have hc := (Query.parse_wellFormed hparse).toClosed
  rw [Link.exists_ends_iff, Link.narrowRound_progress_iff]
  exact ⟨forall₂_congr fun core hcore => arcConsistent_iff_loopsPartnered hc hnodes hlinks hcore.settled,
    imp_congr_right fun hs => arcConsistent_iff_loopsPartnered hc hnodes hlinks hs⟩

/-! ## A sample: pods that follow a leader -/

namespace Sample

/-- The pods that are peers of pods. -/
def peers : Query :=
  ⟨⟨[Node.ofBinding "a" "Pod" []], [⟨"Pod/a", "Pod/a", "PEER"⟩]⟩, .find [] []⟩

/-- The group of the one pod is the group that the other looks for. -/
def peerRule : Rule := ⟨"Pod", "Pod", .fieldReference "metadata.labels.group" "metadata.labels.peer"⟩

/-- The pods of the default namespace. -/
def pods : Target :=
  ⟨Node.ofBinding "a" "Pod" [], ⟨⟨"", "v1", "pods"⟩, "Pod", true⟩,
    { Search.everything with inNamespace := some "default" }, []⟩

/-- The link of the pods to themselves. -/
def podToPod : Link := .ofRule 0 0 peerRule true

/-- A pod with labels. -/
def pod (name : String) (labels : Fields) : Document :=
  .object [("apiVersion", .string "v1"), ("kind", .string "Pod"),
    ("metadata", .object [("labels", .object labels), ("name", .string name), ("namespace", .string "default")])]

/-- A pod that is in the group it looks for. -/
def leader : Document := pod "leader" [("group", .string "g"), ("peer", .string "g")]

/-- A pod in no group that looks for the leader's. -/
def follower : Document := pod "follower" [("peer", .string "g")]

end Sample

/-- A leader without followers is its own peer, and narrowing ends with it. -/
theorem narrowing_ends_iff_leader :
    Query.parse "MATCH (a:Pod)-[:PEER]->(a:Pod)" = .ok Sample.peers ∧
      [Sample.pods].map (·.node) = Sample.peers.graph.nodes ∧
      linksOf [Sample.peerRule] Sample.peers.graph [Sample.pods] = .ok [Sample.podToPod] ∧
      ∀ core, Link.IsCore [Sample.podToPod] [[Sample.leader]] core →
        LoopsPartnered [Sample.peerRule] [Sample.pods.subject] Sample.peers.graph core := by
  have hparse : Query.parse "MATCH (a:Pod)-[:PEER]->(a:Pod)" = .ok Sample.peers := by decide +kernel
  have hnodes : [Sample.pods].map (·.node) = Sample.peers.graph.nodes := rfl
  have hlinks : linksOf [Sample.peerRule] Sample.peers.graph [Sample.pods] = .ok [Sample.podToPod] := rfl
  have hround : Link.narrowRound [Sample.podToPod] [[Sample.leader]] = ([[Sample.leader]], false) := rfl
  exact ⟨hparse, hnodes, hlinks, (narrowing_ends_iff hparse hnodes hlinks _).1.1 ⟨_, Link.Ends.quiet hround⟩⟩

/-- A leader and a follower: a round finds that no pod looks for the follower's group, but what it keeps at the source
of the edge is overwritten by what it keeps at the target, where the follower stands; so the rounds never end. -/
theorem narrowing_of_follower_never_ends :
    Query.parse "MATCH (a:Pod)-[:PEER]->(a:Pod)" = .ok Sample.peers ∧
      linksOf [Sample.peerRule] Sample.peers.graph [Sample.pods] = .ok [Sample.podToPod] ∧
      Link.narrowRound [Sample.podToPod] [[Sample.leader, Sample.follower]] =
        ([[Sample.leader, Sample.follower]], true) ∧
      ¬∃ result, Link.Ends [Sample.podToPod] [[Sample.leader, Sample.follower]] result := by
  have hround : Link.narrowRound [Sample.podToPod] [[Sample.leader, Sample.follower]] =
      ([[Sample.leader, Sample.follower]], true) := rfl
  refine ⟨by decide +kernel, rfl, hround, fun ⟨result, hends⟩ => ?_⟩
  have hs : Link.Settled [Sample.podToPod] [[Sample.leader, Sample.follower]] :=
    Link.settled_of_narrowRound_eq (congrArg Prod.fst hround)
  exact Link.not_ends_of_settled hs (hs.narrowRound_flag.symm.trans (congrArg Prod.snd hround)) hends

end Run

end ClusterQuery
