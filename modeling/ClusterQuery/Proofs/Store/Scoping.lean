import Mathlib.Data.List.Perm.Basic
import ClusterQuery.Proofs.Store.Identities

/-!
# Changes within a namespace

An object of a kind that has namespaces lies within a namespace or outside it (`Document.Within`); that is told by its
own group, version and kind, so a catalog must have each kind once (`KindsDistinct`). When all that is removed from a
store and added to it lies within a namespace, what is outside stays as it was and in order (`Exchanged.filter_eq`). A
removal that is addressed to a namespace takes away nothing else (`Store.Reduced.delete`).
-/

namespace ClusterQuery

/-- Under each group and version the listings have every kind at most once. -/
def KindsDistinct (listings : List Listing) : Prop :=
  ∀ groupVersion : String,
    (((listings.filter (·.groupVersion == groupVersion)).flatMap (·.resources)).map (·.kind)).Nodup

/-- Where kinds are distinct, there are no two resources of one kind to disagree. -/
theorem KindsDistinct.scopesAgree {listings : List Listing} (h : KindsDistinct listings) : ScopesAgree listings := by
  intro listing hlisting other hother hversion resource hresource sibling hsibling hkind
  have hmem : ∀ {found : Listing}, found ∈ listings → found.groupVersion = listing.groupVersion →
      ∀ {served : Resource}, served ∈ found.resources →
        served ∈ (listings.filter (·.groupVersion == listing.groupVersion)).flatMap (·.resources) :=
    fun hfound hsame _ hserved =>
      List.mem_flatMap.2 ⟨_, List.mem_filter.2 ⟨hfound, beq_iff_eq.2 hsame⟩, hserved⟩
  rw [List.inj_on_of_nodup_map (h listing.groupVersion) (hmem hother hversion hsibling) (hmem hlisting rfl hresource)
    hkind]

/-- The standard catalog has every kind once. -/
theorem kindsDistinct_standardListings : KindsDistinct standardListings :=
  nodup_map_resources (by decide)

namespace Document

/-- The document is an object of a resource that has namespaces. -/
def Namespaced (listings : List Listing) (document : Document) : Prop :=
  ∃ listing ∈ listings, ∃ resource ∈ listing.resources, resource.namespaced = true ∧
    document.isInstance listing.groupVersion resource.kind = true

instance (listings : List Listing) : DecidablePred (Namespaced listings) := fun document =>
  inferInstanceAs (Decidable (∃ listing ∈ listings, ∃ resource ∈ listing.resources, resource.namespaced = true ∧
    document.isInstance listing.groupVersion resource.kind = true))

/-- The document is in the namespace, if it is an object of a resource that has namespaces. -/
def Within (listings : List Listing) (name : String) (document : Document) : Prop :=
  document.Namespaced listings → document.namespace? = some name

instance (listings : List Listing) (name : String) : DecidablePred (Within listings name) := fun document =>
  inferInstanceAs (Decidable (document.Namespaced listings → document.namespace? = some name))

variable {listings : List Listing} {name : String} {document : Document} {kind : Kind}

/-- A document that has the group, the version and the kind of a kind of the catalog, or none, is within a namespace
when it is there for a kind that has namespaces. -/
theorem within_of_stringAt? (hserved : kind.ServedBy listings)
    (hversion : ∀ text, document.stringAt? ["apiVersion"] = some text → text = kind.coordinate.apiVersion)
    (hkind : ∀ text, document.stringAt? ["kind"] = some text → text = kind.kind)
    (hplace : kind.namespaced = true → document.namespace? = some name) : document.Within listings name := by
  rintro ⟨listing, hlisting, resource, hresource, hnamespaced, hinstance⟩
  obtain ⟨hfirst, hsecond⟩ := Bool.and_eq_true_iff.1 hinstance
  refine hplace ?_
  rw [← hserved.scope listing hlisting (hversion _ (beq_iff_eq.1 hfirst)) resource hresource
    (hkind _ (beq_iff_eq.1 hsecond)), hnamespaced]

/-- So is an object of the kind. -/
theorem within_of_isInstance (hserved : kind.ServedBy listings)
    (hinstance : document.isInstance kind.coordinate.apiVersion kind.kind = true)
    (hplace : kind.namespaced = true → document.namespace? = some name) : document.Within listings name := by
  obtain ⟨hfirst, hsecond⟩ := Bool.and_eq_true_iff.1 hinstance
  refine within_of_stringAt? hserved (fun text htext => ?_) (fun text htext => ?_) hplace
  · exact Option.some.inj (htext.symm.trans (beq_iff_eq.1 hfirst))
  · exact Option.some.inj (htext.symm.trans (beq_iff_eq.1 hsecond))

end Document

/-! ## Changes -/

/-- Objects become others: some are removed, the rest stays in order, and after it some are added. -/
def Exchanged (objects others removed added : List Document) : Prop :=
  ∃ kept, others = kept ++ added ∧ kept.Sublist objects ∧ objects.Perm (kept ++ removed)

theorem Exchanged.refl (objects : List Document) : Exchanged objects objects [] [] :=
  ⟨objects, (List.append_nil _).symm, List.Sublist.refl _, by rw [List.append_nil]⟩

/-- Adding alone. -/
theorem Exchanged.append (objects added : List Document) : Exchanged objects (objects ++ added) [] added :=
  ⟨objects, rfl, List.Sublist.refl _, by rw [List.append_nil]⟩

/-- One more removal. -/
theorem Exchanged.eraseIdx {objects others removed : List Document} (h : Exchanged objects others removed [])
    {position : Nat} (hbound : position < others.length) :
    Exchanged objects (others.eraseIdx position) (others[position] :: removed) [] := by
  obtain ⟨kept, heq, hsub, hperm⟩ := h
  obtain rfl : others = kept := heq.trans (List.append_nil kept)
  refine ⟨others.eraseIdx position, (List.append_nil _).symm, (List.eraseIdx_sublist _ _).trans hsub, ?_⟩
  refine hperm.trans (List.Perm.trans ?_ List.perm_middle.symm)
  exact (List.getElem_cons_eraseIdx_perm hbound).symm.append_right removed

/-- Objects of a kind of which none is removed or added stay as they are, in order. -/
theorem Exchanged.filter_eq {objects others removed added : List Document} (h : Exchanged objects others removed added)
    {p : Document → Bool} (hp : ∀ document ∈ removed ++ added, p document = false) :
    others.filter p = objects.filter p := by
  obtain ⟨kept, rfl, hsub, hperm⟩ := h
  have hnone : ∀ documents ⊆ removed ++ added, documents.filter p = [] := fun documents hsubset =>
    List.filter_eq_nil_iff.2 fun document hmem => by rw [hp document (hsubset hmem)]; decide
  rw [List.filter_append, hnone added (List.subset_append_right _ _), List.append_nil]
  refine (hsub.filter p).eq_of_length ?_
  have hlength := (hperm.filter p).length_eq
  rw [List.filter_append, hnone removed (List.subset_append_left _ _), List.append_nil] at hlength
  exact hlength.symm

namespace Store

variable {listings : List Listing} {name : String} {objects : List Document} {store : Store}

/-- The store has the catalog, and of the objects those that are left when some within the namespace are removed. -/
structure Reduced (listings : List Listing) (name : String) (objects : List Document) (store : Store) : Prop where
  listings_eq : store.listings = listings
  exchanged : ∃ removed, Exchanged objects store.objects removed [] ∧
    ∀ document ∈ removed, document.Within listings name

/-- A removal that is addressed to the namespace, for a kind that has namespaces, takes nothing else away. -/
theorem Reduced.delete (h : Reduced listings name objects store) {kind : Kind} (hserved : kind.ServedBy listings)
    {inNamespace : Option String} (hplace : kind.namespaced = true → inNamespace = some name) (called : String) :
    Reduced listings name objects (store.delete kind.coordinate inNamespace called).2 := by
  obtain ⟨hlistings, removed, hexchanged, hwithin⟩ := h
  have hsame : ∀ call, Reduced listings name objects (store.record call) := fun _ =>
    ⟨hlistings, removed, hexchanged, hwithin⟩
  unfold Store.delete
  dsimp only
  split
  · exact hsame _
  · rename_i resource hresource
    split
    · exact hsame _
    · rename_i position hposition
      obtain ⟨hbound, hobject, -⟩ := List.findIdx?_eq_some_iff_getElem.1 hposition
      refine ⟨hlistings, store.objects[position] :: removed, hexchanged.eraseIdx hbound,
        List.forall_mem_cons.2 ⟨?_, hwithin⟩⟩
      -- the object is of the resource, and where the call looks
      obtain ⟨found, hfound, hkind, hnamespaced⟩ := hserved.resource
      rw [hlistings, hfound] at hresource
      cases hresource
      simp only [isObject, Bool.and_eq_true, beq_iff_eq] at hobject
      rw [hkind] at hobject
      refine Document.within_of_isInstance hserved hobject.1.1 fun hall => ?_
      rw [hobject.1.2, hnamespaced, if_pos hall, hplace hall]

end Store

end ClusterQuery
