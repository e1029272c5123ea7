import ClusterQuery.Relation.Narrowing

/-!
# Cuts of families

A cut of a family keeps, at every position, the documents that pass a test of that position: their order and number
stay, and equal documents of one list are kept or dropped together. Two cuts of one family that hold the same
documents are equal (`IsCut.eq_of_below`), so a cut is pinned down by what it holds.
-/

namespace ClusterQuery.Link

/-- The family keeps, at every position of another, the documents that pass a test of that position. -/
def IsCut (family cut : Family) : Prop :=
  ∃ keep : Nat → Document → Bool, cut = family.mapIdx fun position documents => documents.filter (keep position)

/-- Every document of the first family stands at the same position of the second. -/
def Below (small large : Family) : Prop :=
  ∀ position, listAt small position ⊆ listAt large position

/-! ## Lists by position -/

/-- A replaced list stands at its position, if the family has that position. -/
theorem listAt_set (family : Family) (i j : Nat) (documents : List Document) :
    listAt (family.set i documents) j = if i = j ∧ j < family.length then documents else listAt family j := by
  simp only [listAt, List.getD_eq_getElem?_getD, List.getElem?_set]
  by_cases hij : i = j
  · subst hij
    by_cases hlt : i < family.length
    · simp [hlt]
    · simp [hlt]
  · simp [hij]

/-- Beyond the positions of a family there are no documents. -/
theorem listAt_eq_nil {family : Family} {position : Nat} (h : family.length ≤ position) :
    listAt family position = [] := by
  simp [listAt, List.getD_eq_getElem?_getD, List.getElem?_eq_none h]

/-- Two families of one length with the same list at every position are equal. -/
theorem ext_listAt {family other : Family} (hlen : family.length = other.length)
    (h : ∀ position, listAt family position = listAt other position) : family = other := by
  apply List.ext_getElem hlen
  intro position h1 h2
  have hp := h position
  simpa only [listAt, List.getD_eq_getElem?_getD, List.getElem?_eq_getElem h1, List.getElem?_eq_getElem h2,
    Option.getD_some] using hp

/-- A family lies below itself. -/
theorem Below.refl (family : Family) : Below family family :=
  fun _ => List.Subset.refl _

/-! ## Cuts -/

/-- What a test of every position leaves at one of them. -/
theorem listAt_mapIdx_filter (keep : Nat → Document → Bool) (family : Family) (position : Nat) :
    listAt (family.mapIdx fun position documents => documents.filter (keep position)) position =
      (listAt family position).filter (keep position) := by
  simp only [listAt, List.getD_eq_getElem?_getD, List.getElem?_mapIdx]
  cases family[position]? <;> simp

/-- A cut, list by list. -/
theorem isCut_iff {family cut : Family} :
    IsCut family cut ↔ cut.length = family.length ∧
      ∀ position, ∃ keep : Document → Bool, listAt cut position = (listAt family position).filter keep := by
  constructor
  · rintro ⟨keep, rfl⟩
    exact ⟨by simp, fun position => ⟨keep position, listAt_mapIdx_filter keep family position⟩⟩
  · rintro ⟨hlen, h⟩
    refine ⟨fun position => (h position).choose, ext_listAt (by simp [hlen]) fun position => ?_⟩
    rw [listAt_mapIdx_filter]
    exact (h position).choose_spec

theorem IsCut.length_eq {family cut : Family} (h : IsCut family cut) : cut.length = family.length :=
  (isCut_iff.1 h).1

/-- A family is a cut of itself. -/
theorem IsCut.refl (family : Family) : IsCut family family :=
  isCut_iff.2 ⟨rfl, fun _ => ⟨fun _ => true, (List.filter_eq_self.2 fun _ _ => rfl).symm⟩⟩

/-- Cuts compose. -/
theorem IsCut.trans {family middle cut : Family} (h : IsCut family middle) (h' : IsCut middle cut) :
    IsCut family cut := by
  rw [isCut_iff] at *
  refine ⟨h'.1.trans h.1, fun position => ?_⟩
  obtain ⟨first, hfirst⟩ := h.2 position
  obtain ⟨second, hsecond⟩ := h'.2 position
  refine ⟨fun document => first document && second document, ?_⟩
  simp [hsecond, hfirst, List.filter_filter, Bool.and_comm]

/-- At every position a cut holds documents of the family, in their order. -/
theorem IsCut.listAt_sublist {family cut : Family} (h : IsCut family cut) (position : Nat) :
    (listAt cut position).Sublist (listAt family position) := by
  obtain ⟨keep, hkeep⟩ := (isCut_iff.1 h).2 position
  rw [hkeep]
  exact List.filter_sublist

/-- A cut holds only documents of the family. -/
theorem IsCut.below {family cut : Family} (h : IsCut family cut) : Below cut family :=
  fun position => (h.listAt_sublist position).subset

/-- At every position, whatever is drawn from the family and held by the cut is drawn from the cut. -/
theorem IsCut.sublist {family cut : Family} (h : IsCut family cut) {position : Nat} {documents : List Document}
    (hsub : documents.Sublist (listAt family position)) (hmem : documents ⊆ listAt cut position) :
    documents.Sublist (listAt cut position) := by
  obtain ⟨keep, hkeep⟩ := (isCut_iff.1 h).2 position
  have hall : documents.filter keep = documents := by
    rw [List.filter_eq_self]
    intro document hd
    have hc := hmem hd
    rw [hkeep] at hc
    exact (List.mem_filter.1 hc).2
  rw [hkeep, ← hall]
  exact hsub.filter keep

/-- Of two cuts of one family, the one that holds less is a cut of the other. -/
theorem IsCut.of_below {family small large : Family} (hs : IsCut family small) (hl : IsCut family large)
    (h : Below small large) : IsCut large small := by
  rw [isCut_iff] at *
  refine ⟨hs.1.trans hl.1.symm, fun position => ?_⟩
  obtain ⟨kept, hkept⟩ := hs.2 position
  obtain ⟨more, hmore⟩ := hl.2 position
  refine ⟨kept, ?_⟩
  rw [hkept, hmore, List.filter_filter]
  apply List.filter_congr
  intro document hd
  by_cases hk : kept document
  · have hin : document ∈ listAt large position := h position (by rw [hkept]; exact List.mem_filter.2 ⟨hd, hk⟩)
    rw [hmore] at hin
    simp [hk, (List.mem_filter.1 hin).2]
  · simp [hk]

/-- Documents count list by list. -/
theorem count_cons (documents : List Document) (rest : Family) :
    count (documents :: rest) = documents.length + count rest := by
  simp [count]

/-- A cut has at most as many documents as the family. -/
theorem IsCut.count_le {family cut : Family} (h : IsCut family cut) : count cut ≤ count family := by
  obtain ⟨keep, rfl⟩ := h
  induction family generalizing keep with
  | nil => simp
  | cons documents rest ih =>
    have hrest := ih fun position => keep (position + 1)
    have hfirst := List.length_filter_le (keep 0) documents
    simp only [List.mapIdx_cons, count_cons] at hrest ⊢
    omega

/-- A cut with as many documents as the family is the family. -/
theorem IsCut.eq_of_count_le {family cut : Family} (h : IsCut family cut) (hc : count family ≤ count cut) :
    cut = family := by
  obtain ⟨keep, rfl⟩ := h
  induction family generalizing keep with
  | nil => rfl
  | cons documents rest ih =>
    have hrest : count (rest.mapIdx fun position documents => documents.filter (keep (position + 1))) ≤ count rest :=
      IsCut.count_le ⟨fun position => keep (position + 1), rfl⟩
    have hfirst := List.length_filter_le (keep 0) documents
    simp only [List.mapIdx_cons, count_cons] at hc hrest ⊢
    rw [ih (fun position => keep (position + 1)) (by omega)]
    rw [List.length_filter_eq_length_iff.1 (by omega) |> List.filter_eq_self.2]

/-- Two cuts of one family that hold the same documents are equal. -/
theorem IsCut.eq_of_below {family first second : Family} (h : IsCut family first) (h' : IsCut family second)
    (hle : Below first second) (hge : Below second first) : first = second := by
  have hsub := h.of_below h' hle
  exact hsub.eq_of_count_le (h'.of_below h hge).count_le

end ClusterQuery.Link
