import ClusterQuery.Proofs.Relation.Cut

/-!
# Rounds of narrowing

What one edge and one round of edges do to a family: they cut it (`isCut_narrowRound`), they keep every smaller family
that no edge changes (`below_narrowRound`), and a round that finds nothing to drop leaves a family in which every
document has a partner along every edge (`narrowRound_quiet`). Edge and round are monotone, so the order of the edges
does not matter for what survives.
-/

namespace ClusterQuery.Link

/-- Every document at an end of the edge has a partner at the other end. -/
def Supported (link : Link) (family : Family) : Prop :=
  (∀ a ∈ listAt family link.source, ∃ b ∈ listAt family link.target, link.linked a b = true) ∧
    ∀ b ∈ listAt family link.target, ∃ a ∈ listAt family link.source, link.linked a b = true

/-- Every document has a partner along every edge at its position. -/
def ArcConsistent (links : List Link) (family : Family) : Prop :=
  ∀ link ∈ links, link.Supported family

/-- No edge changes the family. -/
def Settled (links : List Link) (family : Family) : Prop :=
  ∀ link ∈ links, link.narrow family = family

/-! ## One edge -/

/-- The lists after one edge: at its target those with a partner at the source, at its source those with a partner at
the target; the target comes last when the two are one position. -/
theorem listAt_narrow (link : Link) (family : Family) (position : Nat) :
    listAt (link.narrow family) position =
      if position = link.target then link.keptTarget family
      else if position = link.source then link.keptSource family
      else listAt family position := by
  simp only [narrow, listAt_set, List.length_set]
  by_cases ht : position = link.target
  · by_cases hlt : link.target < family.length
    · simp [ht, hlt]
    · -- beyond the family there is nothing to filter
      simp [ht, hlt, keptTarget, listAt_eq_nil (Nat.le_of_not_lt hlt)]
  · by_cases hs : position = link.source
    · by_cases hlt : link.source < family.length
      · simp [hs, hs ▸ ht, Ne.symm (hs ▸ ht), hlt]
      · simp [hs, hs ▸ ht, Ne.symm (hs ▸ ht), hlt, keptSource, listAt_eq_nil (Nat.le_of_not_lt hlt)]
    · simp [ht, hs, Ne.symm ht, Ne.symm hs]

/-- A document stays at the source if it stood there and has a partner. -/
theorem mem_keptSource {link : Link} {family : Family} {a : Document} :
    a ∈ link.keptSource family ↔
      a ∈ listAt family link.source ∧ ∃ b ∈ listAt family link.target, link.linked a b = true := by
  simp [keptSource]

/-- A document stays at the target if it stood there and has a partner. -/
theorem mem_keptTarget {link : Link} {family : Family} {b : Document} :
    b ∈ link.keptTarget family ↔
      b ∈ listAt family link.target ∧ ∃ a ∈ listAt family link.source, link.linked a b = true := by
  simp [keptTarget]

/-- An edge cuts the family. -/
theorem isCut_narrow (link : Link) (family : Family) : IsCut family (link.narrow family) := by
  refine isCut_iff.2 ⟨by simp [narrow], fun position => ?_⟩
  rw [listAt_narrow]
  split
  · rename_i ht
    exact ⟨_, by rw [ht]; rfl⟩
  · split
    · rename_i hs
      exact ⟨_, by rw [hs]; rfl⟩
    · exact (isCut_iff.1 (IsCut.refl family)).2 position

/-- Of two families, an edge leaves less of the smaller. -/
theorem narrow_mono (link : Link) {small large : Family} (h : Below small large) :
    Below (link.narrow small) (link.narrow large) := by
  intro position
  simp only [listAt_narrow]
  split
  · intro b hb
    obtain ⟨hb, a, ha, hl⟩ := mem_keptTarget.1 hb
    exact mem_keptTarget.2 ⟨h _ hb, a, h _ ha, hl⟩
  · split
    · intro a ha
      obtain ⟨ha, b, hb, hl⟩ := mem_keptSource.1 ha
      exact mem_keptSource.2 ⟨h _ ha, b, h _ hb, hl⟩
    · exact h position

/-- An edge finds nothing to drop exactly when every document at its ends has a partner. -/
theorem drops_eq_false_iff {link : Link} {family : Family} : link.drops family = false ↔ link.Supported family := by
  simp only [drops, keptSource, keptTarget, Bool.or_eq_false_iff, bne_eq_false_iff_eq,
    List.length_filter_eq_length_iff, List.any_eq_true, Supported]

/-- An edge leaves a family as it is when every document at its ends has a partner. -/
theorem Supported.narrow_eq {link : Link} {family : Family} (h : link.Supported family) :
    link.narrow family = family := by
  refine ext_listAt (isCut_narrow link family).length_eq fun position => ?_
  rw [listAt_narrow]
  split
  · rename_i ht
    rw [ht]
    exact List.filter_eq_self.2 fun b hb => List.any_eq_true.2 (h.2 b hb)
  · split
    · rename_i hs
      rw [hs]
      exact List.filter_eq_self.2 fun a ha => List.any_eq_true.2 (h.1 a ha)
    · rfl

/-- In a family that an edge leaves as it is, every document at the target of the edge has a partner. -/
theorem exists_source_of_narrow_eq {link : Link} {family : Family} (h : link.narrow family = family) :
    ∀ b ∈ listAt family link.target, ∃ a ∈ listAt family link.source, link.linked a b = true := by
  intro b hb
  rw [← h, listAt_narrow, if_pos rfl] at hb
  exact (mem_keptTarget.1 hb).2

/-- In a family that an edge between two positions leaves as it is, every document at its ends has a partner. -/
theorem supported_of_narrow_eq {link : Link} {family : Family} (h : link.narrow family = family)
    (hne : link.source ≠ link.target) : link.Supported family := by
  refine ⟨fun a ha => ?_, exists_source_of_narrow_eq h⟩
  rw [← h, listAt_narrow, if_neg hne, if_pos rfl] at ha
  exact (mem_keptSource.1 ha).2

/-- A family that an edge leaves as it is lacks a partner only at the source of an edge from a position to itself. -/
theorem supported_iff_of_narrow_eq {link : Link} {family : Family} (h : link.narrow family = family) :
    link.Supported family ↔ (link.source = link.target →
      ∀ a ∈ listAt family link.source, ∃ b ∈ listAt family link.source, link.linked a b = true) := by
  constructor
  · intro hs he a ha
    obtain ⟨b, hb, hl⟩ := hs.1 a ha
    exact ⟨b, he ▸ hb, hl⟩
  · intro hself
    by_cases hne : link.source = link.target
    · exact ⟨fun a ha => hne ▸ hself hne a ha, exists_source_of_narrow_eq h⟩
    · exact supported_of_narrow_eq h hne

/-- A family whose documents all have their partners is changed by no edge. -/
theorem ArcConsistent.settled {links : List Link} {family : Family} (h : ArcConsistent links family) :
    Settled links family :=
  fun link hl => (h link hl).narrow_eq

/-! ## One round -/

/-- A round cuts the family. -/
theorem isCut_narrowRound (links : List Link) (family : Family) : IsCut family (narrowRound links family).1 := by
  induction links generalizing family with
  | nil => exact IsCut.refl family
  | cons link rest ih => exact (isCut_narrow link family).trans (ih (link.narrow family))

/-- A round keeps every smaller family that no edge changes. -/
theorem below_narrowRound {links : List Link} {small family : Family} (hs : Settled links small)
    (h : Below small family) : Below small (narrowRound links family).1 := by
  induction links generalizing family with
  | nil => exact h
  | cons link rest ih =>
    apply ih fun other hother => hs other (List.mem_cons_of_mem link hother)
    have hmono := narrow_mono link h
    rwa [hs link List.mem_cons_self] at hmono

/-- A round leaves a family that no edge changes as it is. -/
theorem Settled.narrowRound_eq {links : List Link} {family : Family} (h : Settled links family) :
    (narrowRound links family).1 = family := by
  have hcut := isCut_narrowRound links family
  exact (hcut.eq_of_below (IsCut.refl family) hcut.below (below_narrowRound h (Below.refl family)))

/-- A round that leaves the family as it is consists of edges that do. -/
theorem settled_of_narrowRound_eq {links : List Link} {family : Family} (h : (narrowRound links family).1 = family) :
    Settled links family := by
  induction links with
  | nil => exact fun _ hmem => absurd hmem List.not_mem_nil
  | cons link rest ih =>
    -- the round goes from the family down to the family, so its first edge cannot have dropped anything
    have hrest := (isCut_narrowRound rest (link.narrow family)).count_le
    have hfirst : link.narrow family = family := by
      apply (isCut_narrow link family).eq_of_count_le
      have hc : count (narrowRound rest (link.narrow family)).1 = count family := congrArg count h
      omega
    have htail : (narrowRound rest family).1 = family := by
      have h' : (narrowRound rest (link.narrow family)).1 = family := h
      rwa [hfirst] at h'
    intro other hother
    rcases List.mem_cons.1 hother with rfl | hother
    · exact hfirst
    · exact ih htail other hother

/-- A round over a family that no edge changes finds documents to drop if some edge does. -/
theorem Settled.narrowRound_flag {links : List Link} {family : Family} (h : Settled links family) :
    (narrowRound links family).2 = links.any (·.drops family) := by
  induction links with
  | nil => rfl
  | cons link rest ih =>
    have hfirst : link.narrow family = family := h link List.mem_cons_self
    simp only [narrowRound, List.any_cons, hfirst]
    rw [ih fun other hother => h other (List.mem_cons_of_mem link hother)]

/-- A round that finds nothing to drop leaves the family as it is, and every document has its partners. -/
theorem narrowRound_quiet {links : List Link} {family : Family} (h : (narrowRound links family).2 = false) :
    (narrowRound links family).1 = family ∧ ArcConsistent links family := by
  induction links with
  | nil => exact ⟨rfl, fun _ hmem => absurd hmem List.not_mem_nil⟩
  | cons link rest ih =>
    simp only [narrowRound, Bool.or_eq_false_iff] at h
    have hs : link.Supported family := drops_eq_false_iff.1 h.1
    have hrest := h.2
    rw [hs.narrow_eq] at hrest
    obtain ⟨heq, hall⟩ := ih hrest
    refine ⟨by simp only [narrowRound, hs.narrow_eq, heq], fun other hother => ?_⟩
    rcases List.mem_cons.1 hother with rfl | hother
    · exact hs
    · exact hall other hother

/-- A round leaves fewer documents, or none of its edges changes the family. -/
theorem count_narrowRound_lt_or_settled (links : List Link) (family : Family) :
    count (narrowRound links family).1 < count family ∨ Settled links family := by
  have hcut := isCut_narrowRound links family
  by_cases hlt : count (narrowRound links family).1 < count family
  · exact Or.inl hlt
  · exact Or.inr (settled_of_narrowRound_eq (hcut.eq_of_count_le (Nat.le_of_not_lt hlt)))

end ClusterQuery.Link
