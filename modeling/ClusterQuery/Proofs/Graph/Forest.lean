import Mathlib.Combinatorics.SimpleGraph.Acyclic
import ClusterQuery.Graph.Basic

/-!
# Forests

Patterns whose edges, read as undirected, form a forest. There a choice of entries for the nodes of a component can be
put together edge by edge: an edge of a forest joins two components of the others (`isForest_cons`), and a choice for
one is grafted onto a choice for the other (`IsMatch.graft`). So entries that have partners along every edge are entries
of a choice for the whole component (`exists_isMatch`).
-/

namespace ClusterQuery

/-- The two ends of an edge, in no order. -/
def Edge.ends (edge : Edge) : Sym2 String :=
  s(edge.source, edge.target)

/-- The ids joined by edges, read as undirected. -/
def undirected (edges : List Edge) : SimpleGraph String :=
  .fromEdgeSet {pair | pair ∈ edges.map Edge.ends}

/-- The edges, read as undirected, form a forest: none joins an id to itself, no two join the same ids, and no cycle
runs along them. -/
structure IsForest (edges : List Edge) : Prop where
  no_loop : ∀ edge ∈ edges, edge.source ≠ edge.target
  no_parallel : (edges.map Edge.ends).Nodup
  no_cycle : (undirected edges).IsAcyclic

/-- A choice for the component of a node: every node there gets an entry that it holds, and the entries at the ends of
every edge are joined. -/
structure IsMatch {α : Type} (holds : String → α → Prop) (joins : Edge → α → α → Prop) (edges : List Edge)
    (id : String) (pick : String → α) : Prop where
  held : ∀ other, (undirected edges).Reachable id other → holds other (pick other)
  joined : ∀ edge ∈ edges, (undirected edges).Reachable id edge.source →
    joins edge (pick edge.source) (pick edge.target)

/-! ## Components -/

/-- The ends of an edge are in one component. -/
theorem reachable_of_mem {edges : List Edge} {edge : Edge} (h : edge ∈ edges) :
    (undirected edges).Reachable edge.source edge.target := by
  by_cases heq : edge.source = edge.target
  · rw [heq]
  · apply SimpleGraph.Adj.reachable
    rw [undirected, SimpleGraph.fromEdgeSet_adj]
    exact ⟨List.mem_map.2 ⟨edge, h, rfl⟩, heq⟩

/-- One more edge adds its pair. -/
theorem undirected_cons (edge : Edge) (rest : List Edge) :
    undirected (edge :: rest) = undirected rest ⊔ SimpleGraph.edge edge.source edge.target := by
  rw [undirected, undirected, SimpleGraph.edge, ← SimpleGraph.fromEdgeSet_union]
  congr 1
  ext pair
  simp [Edge.ends]

/-- No edges form a forest. -/
theorem isForest_nil : IsForest [] := by
  refine ⟨fun _ hmem => absurd hmem List.not_mem_nil, List.nodup_nil, ?_⟩
  simp [undirected]

/-- Edges form a forest exactly when all but the first do and the first joins two of their components. -/
theorem isForest_cons {edge : Edge} {rest : List Edge} :
    IsForest (edge :: rest) ↔ IsForest rest ∧ ¬(undirected rest).Reachable edge.source edge.target := by
  constructor
  · intro h
    obtain ⟨hnew, hrest⟩ := List.nodup_cons.1 h.no_parallel
    have hcycle := h.no_cycle
    rw [undirected_cons, SimpleGraph.isAcyclic_sup_fromEdgeSet_iff] at hcycle
    refine ⟨⟨fun other ho => h.no_loop other (List.mem_cons_of_mem edge ho), hrest, hcycle.1⟩, fun hreach => ?_⟩
    rcases hcycle.2 hreach with heq | hadj
    · exact h.no_loop edge List.mem_cons_self heq
    · exact hnew ((SimpleGraph.fromEdgeSet_adj _).1 hadj).1
  · rintro ⟨hrest, hcut⟩
    refine ⟨List.forall_mem_cons.2 ⟨fun heq => hcut (heq ▸ SimpleGraph.Reachable.refl _), hrest.no_loop⟩,
      List.nodup_cons.2 ⟨fun hmem => ?_, hrest.no_parallel⟩, ?_⟩
    · -- an edge with the same ends would join them already
      obtain ⟨other, ho, heq⟩ := List.mem_map.1 hmem
      have hreach := reachable_of_mem ho
      rcases Sym2.eq_iff.1 heq with ⟨hs, ht⟩ | ⟨hs, ht⟩
      · rw [hs, ht] at hreach
        exact hcut hreach
      · rw [hs, ht] at hreach
        exact hcut hreach.symm
    · rw [undirected_cons, SimpleGraph.isAcyclic_sup_fromEdgeSet_iff]
      exact ⟨hrest.no_cycle, fun hreach => absurd hreach hcut⟩

/-- From an id that is an end of no edge only the id itself is reached. -/
theorem eq_of_reachable {edges : List Edge} {id other : String} (hid : ∀ edge ∈ edges, id ∉ edge.ends)
    (h : (undirected edges).Reachable id other) : other = id := by
  rw [SimpleGraph.reachable_iff_reflTransGen] at h
  induction h with
  | refl => rfl
  | tail _ hadj ih =>
    subst ih
    obtain ⟨edge, he, heq⟩ := List.mem_map.1 ((SimpleGraph.fromEdgeSet_adj _).1 hadj).1
    exact absurd (heq ▸ Sym2.mem_mk_left _ _) (hid edge he)

/-- A neighbour along one more edge is a neighbour along the others or at the other end of the edge. -/
theorem adj_cons {edge : Edge} {rest : List Edge} {near far first second : String} (hends : edge.ends = s(near, far))
    (h : (undirected (edge :: rest)).Adj first second) :
    (undirected rest).Adj first second ∨ first = near ∧ second = far ∨ first = far ∧ second = near := by
  rw [undirected, SimpleGraph.fromEdgeSet_adj] at h
  obtain ⟨hmem, hne⟩ := h
  rcases List.mem_cons.1 hmem with heq | hmem
  · rw [hends] at heq
    exact Or.inr (Sym2.eq_iff.1 heq)
  · left
    rw [undirected, SimpleGraph.fromEdgeSet_adj]
    exact ⟨hmem, hne⟩

/-- What one more edge at the component of a node brings in is the component at its far end. -/
theorem reachable_cons {edge : Edge} {rest : List Edge} {near far id other : String} (hends : edge.ends = s(near, far))
    (hid : (undirected rest).Reachable id near) (h : (undirected (edge :: rest)).Reachable id other) :
    (undirected rest).Reachable id other ∨ (undirected rest).Reachable far other := by
  rw [SimpleGraph.reachable_iff_reflTransGen] at h
  induction h with
  | refl => exact Or.inl (SimpleGraph.Reachable.refl id)
  | tail _ hadj ih =>
    rcases adj_cons hends hadj with hold | ⟨rfl, rfl⟩ | ⟨rfl, rfl⟩
    · exact ih.imp (·.trans hold.reachable) (·.trans hold.reachable)
    · exact Or.inr (SimpleGraph.Reachable.refl _)
    · exact Or.inl hid

/-- One more edge away from the component of a node brings nothing in. -/
theorem reachable_cons_of_not {edge : Edge} {rest : List Edge} {id other : String}
    (hsource : ¬(undirected rest).Reachable id edge.source) (htarget : ¬(undirected rest).Reachable id edge.target)
    (h : (undirected (edge :: rest)).Reachable id other) : (undirected rest).Reachable id other := by
  rw [SimpleGraph.reachable_iff_reflTransGen] at h
  induction h with
  | refl => exact SimpleGraph.Reachable.refl id
  | tail _ hadj ih =>
    rcases adj_cons (rfl : edge.ends = _) hadj with hold | ⟨rfl, rfl⟩ | ⟨rfl, rfl⟩
    · exact ih.trans hold.reachable
    · exact absurd ih hsource
    · exact absurd ih htarget

/-! ## Choices -/

section Choices

variable {α : Type} {holds : String → α → Prop} {joins : Edge → α → α → Prop}

open Classical in
/-- A choice, and a further one where it differs: in the component of an id. -/
noncomputable def grafted (edges : List Edge) (far : String) (further pick : String → α) (id : String) : α :=
  if (undirected edges).Reachable far id then further id else pick id

/-- In its component the further choice counts. -/
theorem grafted_of_reachable {edges : List Edge} {far id : String} {further pick : String → α}
    (h : (undirected edges).Reachable far id) : grafted edges far further pick id = further id :=
  if_pos h

/-- Elsewhere the first choice counts. -/
theorem grafted_of_not_reachable {edges : List Edge} {far id : String} {further pick : String → α}
    (h : ¬(undirected edges).Reachable far id) : grafted edges far further pick id = pick id :=
  if_neg h

/-- Choices for the two components that an edge joins make one for the whole, if the edge joins their entries. -/
theorem IsMatch.graft {edge : Edge} {rest : List Edge} {near far id : String} {pick further : String → α}
    (hends : edge.ends = s(near, far)) (hcut : ¬(undirected rest).Reachable near far)
    (hid : (undirected rest).Reachable id near) (h : IsMatch holds joins rest id pick)
    (h' : IsMatch holds joins rest far further)
    (hjoins : ∀ whole : String → α, whole near = pick near → whole far = further far →
      joins edge (whole edge.source) (whole edge.target)) :
    ∃ whole, whole id = pick id ∧ IsMatch holds joins (edge :: rest) id whole := by
  refine ⟨grafted rest far further pick, grafted_of_not_reachable fun hr => hcut (hr.trans hid).symm, ?_, ?_⟩
  · intro other hreach
    by_cases hfar : (undirected rest).Reachable far other
    · rw [grafted_of_reachable hfar]
      exact h'.held other hfar
    · rw [grafted_of_not_reachable hfar]
      exact h.held other ((reachable_cons hends hid hreach).resolve_right hfar)
  · intro other hmem hreach
    rcases List.mem_cons.1 hmem with rfl | hmem
    · exact hjoins _ (grafted_of_not_reachable fun hr => hcut hr.symm)
        (grafted_of_reachable (SimpleGraph.Reachable.refl far))
    · -- an edge of the rest lies in one of the two components
      have hends' := reachable_of_mem hmem
      by_cases hfar : (undirected rest).Reachable far other.source
      · rw [grafted_of_reachable hfar, grafted_of_reachable (hfar.trans hends')]
        exact h'.joined other hmem hfar
      · rw [grafted_of_not_reachable hfar, grafted_of_not_reachable fun hf => hfar (hf.trans hends'.symm)]
        exact h.joined other hmem ((reachable_cons hends hid hreach).resolve_right hfar)

/-- A choice for the component of a node stays one when an edge away from it comes in. -/
theorem IsMatch.cons {edge : Edge} {rest : List Edge} {id : String} {pick : String → α}
    (h : IsMatch holds joins rest id pick) (hsource : ¬(undirected rest).Reachable id edge.source)
    (htarget : ¬(undirected rest).Reachable id edge.target) : IsMatch holds joins (edge :: rest) id pick := by
  refine ⟨fun other hreach => h.held other (reachable_cons_of_not hsource htarget hreach), fun other hmem hreach => ?_⟩
  have hreach' := reachable_cons_of_not hsource htarget hreach
  rcases List.mem_cons.1 hmem with rfl | hmem
  · exact absurd hreach' hsource
  · exact h.joined other hmem hreach'

/-- In a forest whose entries have partners along every edge, every entry belongs to a choice for its component. -/
theorem exists_isMatch {edges : List Edge} (hforest : IsForest edges)
    (hpartner : ∀ edge ∈ edges, (∀ a, holds edge.source a → ∃ b, holds edge.target b ∧ joins edge a b) ∧
      ∀ b, holds edge.target b → ∃ a, holds edge.source a ∧ joins edge a b)
    {id : String} {entry : α} (h : holds id entry) : ∃ pick, pick id = entry ∧ IsMatch holds joins edges id pick := by
  induction edges generalizing id entry with
  | nil =>
    refine ⟨fun _ => entry, rfl, fun other hreach => ?_, fun _ hmem => absurd hmem List.not_mem_nil⟩
    have heq : id = other := by simpa [undirected] using hreach
    exact heq ▸ h
  | cons edge rest ih =>
    obtain ⟨hrest, hcut⟩ := isForest_cons.1 hforest
    obtain ⟨hsource, htarget⟩ := hpartner edge List.mem_cons_self
    have ih' := fun {id : String} {entry : α} (h : holds id entry) =>
      ih hrest (fun other ho => hpartner other (List.mem_cons_of_mem edge ho)) h
    obtain ⟨pick, hpick, hmatch⟩ := ih' h
    by_cases hs : (undirected rest).Reachable id edge.source
    · obtain ⟨b, hb, hjoin⟩ := hsource _ (hmatch.held _ hs)
      obtain ⟨further, rfl, hfurther⟩ := ih' hb
      obtain ⟨whole, hwhole, hw⟩ := hmatch.graft rfl hcut hs hfurther fun whole hnear hfar => by rwa [hnear, hfar]
      exact ⟨whole, hwhole.trans hpick, hw⟩
    · by_cases ht : (undirected rest).Reachable id edge.target
      · obtain ⟨a, ha, hjoin⟩ := htarget _ (hmatch.held _ ht)
        obtain ⟨further, rfl, hfurther⟩ := ih' ha
        obtain ⟨whole, hwhole, hw⟩ := hmatch.graft Sym2.eq_swap (fun hr => hcut hr.symm) ht hfurther
          fun whole hnear hfar => by rwa [hnear, hfar]
        exact ⟨whole, hwhole.trans hpick, hw⟩
      · exact ⟨pick, hpick, hmatch.cons hs ht⟩

end Choices

end ClusterQuery
