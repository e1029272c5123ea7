import ClusterQuery.Proofs.Document.Merging
import ClusterQuery.Store.Basic

/-!
# What creation stores

A store that creates an object completes its metadata (`Store.Completes`) and puts it after the objects it has
(`Store.create_eq_ok`). Completion writes the namespace and an id that is missing, and keeps what the document has
anywhere else (`Store.Completes.at?_eq_some`).
-/

namespace ClusterQuery

/-- A document whose metadata is changed has the changed fields there, and elsewhere what it had. -/
theorem Document.get?_of_withMetadata? {document stored : Document} {change : Fields → Fields}
    (h : document.withMetadata? change = some stored) (key : String) : stored.get? key =
      if key = "metadata" then some (.object (change (((document.get? "metadata").bind fields?).getD [])))
        else document.get? key := by
  cases document with
  | object fields =>
    unfold withMetadata? at h
    dsimp only at h
    split at h
    · rename_i metadata hmetadata
      cases h
      show List.lookup key (Keyed.insert _ _ _) = _
      rw [Keyed.lookup_insert, get?, hmetadata]
      rfl
    · cases h
    · rename_i hmetadata
      cases h
      show List.lookup key (Keyed.insert _ _ _) = _
      rw [Keyed.lookup_insert, get?, hmetadata]
      rfl
  | _ => cases h

namespace Store

variable {listings : List Listing} {coordinate : Coordinate} {inNamespace : Option String} {document stored : Document}

/-- New metadata has the given namespace, if one is given, an id, and all else that it had. -/
theorem lookup_newMetadata (inNamespace : Option String) (uid : String) (metadata : Fields) (key : String) :
    (newMetadata inNamespace uid metadata).lookup key =
      if key = "namespace" then (inNamespace.map Document.string).or (metadata.lookup key)
      else if key = "uid" then (metadata.lookup key).or (some (.string uid))
      else metadata.lookup key := by
  have hcompleted : ∀ placed : Fields,
      (if (placed.lookup "uid").isSome then placed else Keyed.insert "uid" (.string uid) placed).lookup key =
        if key = "uid" then (placed.lookup key).or (some (.string uid)) else placed.lookup key := by
    intro placed
    by_cases hkey : key = "uid"
    · rw [if_pos hkey, hkey]
      cases hheld : placed.lookup "uid" with
      | none => simp [Keyed.lookup_insert]
      | some held => simp [hheld]
    · rw [if_neg hkey]
      split
      · rfl
      · rw [Keyed.lookup_insert, if_neg hkey]
  cases inNamespace with
  | none =>
    refine (hcompleted metadata).trans ?_
    by_cases hkey : key = "namespace"
    · simp [hkey]
    · rw [if_neg hkey]
  | some name =>
    refine (hcompleted _).trans ?_
    rw [Keyed.lookup_insert]
    by_cases hkey : key = "namespace"
    · simp [hkey]
    · rw [if_neg hkey, if_neg hkey]

/-- What a store makes of a document to be created in a namespace, if its resource has namespaces. -/
def Completes (listings : List Listing) (coordinate : Coordinate) (inNamespace : Option String)
    (document stored : Document) : Prop :=
  ∃ resource uid, resourceAt? listings coordinate = some resource ∧
    document.withMetadata? (newMetadata (if resource.namespaced then inNamespace else none) uid) = some stored

/-- A creation that succeeds puts the completed document after the objects of the store. -/
theorem create_eq_ok {store after : Store} (h : store.create coordinate inNamespace document = (.ok stored, after)) :
    Completes store.listings coordinate inNamespace document stored ∧ after.listings = store.listings ∧
      after.objects = store.objects ++ [stored] := by
  unfold create at h
  split at h
  · cases h
  · dsimp only at h
    split at h
    · cases h
    · rename_i resource hresource
      -- the same namespace is written and looked in
      generalize hplace : (if resource.namespaced = true then inNamespace else none) = place at h
      split at h
      · cases h
      · rename_i completed hcompleted
        split at h
        · cases h
        · cases h
          exact ⟨⟨resource, _, hresource, hplace ▸ hcompleted⟩, rfl, rfl⟩

/-- A creation that fails leaves the objects and the catalog. -/
theorem create_eq_error {store after : Store} {cause : StoreError}
    (h : store.create coordinate inNamespace document = (.error cause, after)) :
    after.listings = store.listings ∧ after.objects = store.objects := by
  unfold create at h
  split at h
  · cases h
    exact ⟨rfl, rfl⟩
  · dsimp only at h
    split at h
    · cases h
      exact ⟨rfl, rfl⟩
    · rename_i resource hresource
      -- the same namespace is written and looked in
      generalize (if resource.namespaced = true then inNamespace else none) = place at h
      split at h
      · cases h
        exact ⟨rfl, rfl⟩
      · split at h
        · cases h
          exact ⟨rfl, rfl⟩
        · cases h

namespace Completes

variable (h : Completes listings coordinate inNamespace document stored)

include h

/-- What is stored has all values of the document but those at, above or below the namespace. -/
theorem at?_eq_some {path : List String} {value : Document} (hvalue : document.at? path = some value)
    (hpath : ¬Comparable path ["metadata", "namespace"]) : stored.at? path = some value := by
  obtain ⟨resource, uid, -, hstored⟩ := h
  cases path with
  | nil => exact absurd (Or.inl List.nil_prefix) hpath
  | cons key rest =>
    rw [Document.at?_cons] at hvalue ⊢
    rw [Document.get?_of_withMetadata? hstored]
    split
    · rename_i hkey
      subst hkey
      obtain ⟨metadata, hmetadata, hrest⟩ := Option.bind_eq_some_iff.1 hvalue
      cases rest with
      | nil => exact absurd (Or.inl (by decide)) hpath
      | cons inner more =>
        obtain ⟨held, hheld, hmore⟩ := Option.bind_eq_some_iff.1 hrest
        have hinner : inner ≠ "namespace" := by
          rintro rfl
          exact hpath (Or.inr ⟨more, rfl⟩)
        cases metadata with
        | object fields =>
          rw [hmetadata]
          show (List.lookup inner (newMetadata _ uid fields)).bind _ = _
          rw [lookup_newMetadata, if_neg hinner, show fields.lookup inner = some held from hheld]
          split <;> exact hmore
        | _ => cases hheld
    · exact hvalue

/-- What is stored has the namespace that it was created in, if its resource has namespaces. -/
theorem namespace?_eq {resource : Resource} {name : String}
    (hresource : resourceAt? listings coordinate = some resource) (hnamespaced : resource.namespaced = true)
    (hname : inNamespace = some name) : stored.namespace? = some name := by
  obtain ⟨found, uid, hfound, hstored⟩ := h
  rw [hresource] at hfound
  cases hfound
  rw [if_pos hnamespaced, hname] at hstored
  rw [Document.namespace?, Document.stringAt?, Document.at?_cons, Document.get?_of_withMetadata? hstored, if_pos rfl,
    Option.bind_some, Document.at?_cons, Document.get?, lookup_newMetadata, if_pos rfl]
  rfl

end Completes

end Store

end ClusterQuery
