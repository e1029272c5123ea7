import Mathlib.Data.List.Nodup
import ClusterQuery.Proofs.Execution.Conditions
import ClusterQuery.Proofs.Graph.WellFormed
import ClusterQuery.Proofs.Relation.Round

/-!
# The links of a pattern

What the edges of a pattern ask of documents is said here by node ids (`Joins`, `Partnered`). A run makes one link of
every edge, between the positions of its ends and with the same demand (`linksOf_forall₂`), so a family has the partners
that the links ask for when it has those that the edges do (`arcConsistent_iff`).
-/

namespace ClusterQuery

namespace Run

/-- Two documents are linked along an edge between nodes with their kinds: the first rule that joins the kinds links
them. -/
def Joins (rules : List Rule) (nodes : List (Node × Kind)) (edge : Edge) (a b : Document) : Prop :=
  ∃ source ∈ nodes, ∃ target ∈ nodes, source.1.id = edge.source ∧ target.1.id = edge.target ∧
    ∃ position rule sourceIsParent,
      Rule.find? rules source.2.kind target.2.kind = some (position, rule, sourceIsParent) ∧
        (if sourceIsParent then rule.links a b else rule.links b a) = true

/-- Every document at an end of an edge has a partner at the other end. -/
def Partnered (rules : List Rule) (nodes : List (Node × Kind)) (holds : String → Document → Prop) (edge : Edge) :
    Prop :=
  (∀ a, holds edge.source a → ∃ b, holds edge.target b ∧ Joins rules nodes edge a b) ∧
    ∀ b, holds edge.target b → ∃ a, holds edge.source a ∧ Joins rules nodes edge a b

/-- A document stands in the list of a node of a pattern. -/
def Holds (graph : Graph) (family : Link.Family) (id : String) (document : Document) : Prop :=
  ∃ position, graph.ids[position]? = some id ∧ document ∈ Link.listAt family position

/-- A link stands for an edge: it joins the positions of its ends and links the documents that the edge does. -/
structure Represents (rules : List Rule) (graph : Graph) (targets : List Target) (edge : Edge) (link : Link) :
    Prop where
  source_at : graph.ids[link.source]? = some edge.source
  target_at : graph.ids[link.target]? = some edge.target
  linked_iff : ∀ a b, link.linked a b = true ↔ Joins rules (targets.map Target.subject) edge a b

/-! ## Positions -/

/-- The position of a node id holds a target of that id. -/
theorem exists_of_targetPosition? {targets : List Target} {id : String} {position : Nat}
    (h : targetPosition? targets id = some position) :
    ∃ target, targets[position]? = some target ∧ target.node.id = id := by
  obtain ⟨hlt, heq, -⟩ := List.findIdx?_eq_some_iff_getElem.1 h
  exact ⟨targets[position], List.getElem?_eq_getElem hlt, by simpa using heq⟩

/-- Every id of a target has a position. -/
theorem targetPosition?_ne_none {targets : List Target} {id : String} (h : id ∈ targets.map (·.node.id)) :
    targetPosition? targets id ≠ none := by
  obtain ⟨target, hmem, heq⟩ := List.mem_map.1 h
  intro hnone
  have hall := List.findIdx?_eq_none_iff.1 hnone target hmem
  simp [heq] at hall

/-- The kind at the position of a target is its kind. -/
theorem kindAt_eq {targets : List Target} {position : Nat} {target : Target} (h : targets[position]? = some target) :
    kindAt targets position = target.kind.kind := by
  simp [kindAt, h]

/-- The ids of targets are those of the graph whose nodes they are for. -/
theorem ids_eq {graph : Graph} {targets : List Target} (h : targets.map (·.node) = graph.nodes) :
    targets.map (·.node.id) = graph.ids := by
  rw [Graph.ids, ← h, List.map_map]
  rfl

/-- A node of a closed pattern has one position. -/
theorem holds_iff {graph : Graph} (hc : graph.Closed) {family : Link.Family} {id : String} {document : Document}
    {position : Nat} (h : graph.ids[position]? = some id) :
    Holds graph family id document ↔ document ∈ Link.listAt family position := by
  constructor
  · rintro ⟨other, hother, hmem⟩
    rwa [(List.getElem?_inj (List.getElem?_eq_some_iff.1 h).1 hc.ids_nodup).1 (h.trans hother.symm)]
  · exact fun hmem => ⟨position, h, hmem⟩

/-- A node holds what it holds in a family below. -/
theorem Holds.mono {graph : Graph} {small large : Link.Family} (h : Link.Below small large) {id : String}
    {document : Document} (hholds : Holds graph small id document) : Holds graph large id document := by
  obtain ⟨position, hposition, hmem⟩ := hholds
  exact ⟨position, hposition, h position hmem⟩

/-- A family lies below another when its nodes hold no more. -/
theorem below_of_holds {graph : Graph} (hc : graph.Closed) {small large : Link.Family}
    (hlength : small.length ≤ graph.ids.length)
    (h : ∀ id document, Holds graph small id document → Holds graph large id document) : Link.Below small large := by
  intro position document hmem
  cases hposition : graph.ids[position]? with
  | none =>
    rw [Link.listAt_eq_nil (Nat.le_trans hlength (List.getElem?_eq_none_iff.1 hposition))] at hmem
    cases hmem
  | some id => exact (holds_iff hc hposition).1 (h id document ⟨position, hposition, hmem⟩)

/-! ## One link for every edge -/

/-- The link of an edge stands for it. -/
theorem represents_of_linkOf? {rules : List Rule} {graph : Graph} {targets : List Target} (hc : graph.Closed)
    (hnodes : targets.map (·.node) = graph.nodes) {edge : Edge} {link : Link}
    (h : linkOf? rules targets edge = .ok (some link)) : Represents rules graph targets edge link := by
  have hids : (targets.map (·.node.id)).Nodup := ids_eq hnodes ▸ hc.ids_nodup
  unfold linkOf? at h
  split at h
  · rename_i source target hsource htarget
    obtain ⟨first, hfirst, hfid⟩ := exists_of_targetPosition? hsource
    obtain ⟨second, hsecond, hsid⟩ := exists_of_targetPosition? htarget
    rw [kindAt_eq hfirst, kindAt_eq hsecond] at h
    split at h
    · rename_i position rule sourceIsParent hrule
      cases h
      refine ⟨by simp [← ids_eq hnodes, Link.ofRule, hfirst, hfid],
        by simp [← ids_eq hnodes, Link.ofRule, hsecond, hsid], fun a b => ⟨fun hl => ?_, ?_⟩⟩
      · exact ⟨first.subject, List.mem_map_of_mem (List.mem_of_getElem? hfirst), second.subject,
          List.mem_map_of_mem (List.mem_of_getElem? hsecond), hfid, hsid, position, rule, sourceIsParent, hrule, hl⟩
      · -- targets with distinct ids are told apart by them
        rintro ⟨_, hf, _, hs, hf', hs', position', rule', sourceIsParent', hrule', hl⟩
        obtain ⟨first', hfm, rfl⟩ := List.mem_map.1 hf
        obtain ⟨second', hsm, rfl⟩ := List.mem_map.1 hs
        obtain rfl := List.inj_on_of_nodup_map hids hfm (List.mem_of_getElem? hfirst) (hf'.trans hfid.symm)
        obtain rfl := List.inj_on_of_nodup_map hids hsm (List.mem_of_getElem? hsecond) (hs'.trans hsid.symm)
        cases hrule.symm.trans hrule'
        exact hl
    · cases h
  · cases h

/-- An edge between ids of targets has a link or no rule. -/
theorem linkOf?_ne_none {rules : List Rule} {targets : List Target} {edge : Edge}
    (hsource : edge.source ∈ targets.map (·.node.id)) (htarget : edge.target ∈ targets.map (·.node.id)) :
    linkOf? rules targets edge ≠ .ok none := by
  unfold linkOf?
  split
  · split <;> nofun
  · rename_i hnone
    cases hs : targetPosition? targets edge.source with
    | none => exact absurd hs (targetPosition?_ne_none hsource)
    | some source =>
      cases ht : targetPosition? targets edge.target with
      | none => exact absurd ht (targetPosition?_ne_none htarget)
      | some target => exact absurd ht (hnone source target hs)

section Pattern

variable {rules : List Rule} {graph : Graph} {targets : List Target} {links : List Link}

/-- The links of a closed pattern stand for its edges, one for each and in order. -/
theorem linksOf_forall₂ (hc : graph.Closed) (hnodes : targets.map (·.node) = graph.nodes)
    (h : linksOf rules graph targets = .ok links) :
    List.Forall₂ (Represents rules graph targets) graph.edges links := by
  have hids := ids_eq hnodes
  refine (filterMapM_eq_ok (fun edge he => ?_) h).imp fun edge link hl => represents_of_linkOf? hc hnodes hl
  exact linkOf?_ne_none (hids ▸ (hc.ends_mem edge he).1) (hids ▸ (hc.ends_mem edge he).2)

/-- A link joins a position to itself when its edge joins a node to itself. -/
theorem Represents.loop_iff (hc : graph.Closed) {edge : Edge} {link : Link}
    (h : Represents rules graph targets edge link) : link.source = link.target ↔ edge.source = edge.target := by
  constructor
  · intro heq
    have hs := h.source_at
    rw [heq, h.target_at] at hs
    exact (Option.some.inj hs).symm
  · intro heq
    refine (List.getElem?_inj (List.getElem?_eq_some_iff.1 h.source_at).1 hc.ids_nodup).1 ?_
    rw [h.source_at, h.target_at, heq]

/-- The documents at the ends of an edge have the partners that its link asks for. -/
theorem Represents.supported_iff (hc : graph.Closed) {edge : Edge} {link : Link}
    (h : Represents rules graph targets edge link) (family : Link.Family) :
    Partnered rules (targets.map Target.subject) (Holds graph family) edge ↔ link.Supported family := by
  simp only [Partnered, Link.Supported, holds_iff hc h.source_at, holds_iff hc h.target_at, h.linked_iff]

/-- A family has the partners that the links of a pattern ask for exactly when it has those that the edges do. -/
theorem arcConsistent_iff (hc : graph.Closed) (hnodes : targets.map (·.node) = graph.nodes)
    (h : linksOf rules graph targets = .ok links) (family : Link.Family) :
    (∀ edge ∈ graph.edges, Partnered rules (targets.map Target.subject) (Holds graph family) edge) ↔
      Link.ArcConsistent links family :=
  forall_mem_iff_of_forall₂ (linksOf_forall₂ hc hnodes h) fun _ _ hr => hr.supported_iff hc family

end Pattern

end Run

end ClusterQuery
