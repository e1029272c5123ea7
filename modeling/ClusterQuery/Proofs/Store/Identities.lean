import ClusterQuery.Proofs.Catalog.Resolution
import ClusterQuery.Proofs.Store.Inserting
import ClusterQuery.Proofs.Store.Removing

/-!
# Identities in a store

A document that belongs to a kind (`Document.BelongsTo`) is stored under the identity that a call for its name addresses
(`Kind.identityAt`). So a creation adds that identity or finds it taken (`Store.create_of_belongsTo`), an update leaves
all identities as they are (`Store.update_identities`), and a removal takes one away (`Store.delete_identities`):
identities that are distinct stay distinct (`Store.DistinctIn`).
-/

namespace ClusterQuery

/-- The identity under which a call for a name addresses an object of a kind. -/
def Kind.identityAt (kind : Kind) (inNamespace name : Option String) : Identity :=
  ⟨some kind.coordinate.apiVersion, some kind.kind, if kind.namespaced then inNamespace else none, name⟩

/-- Resources of one group, version and kind agree on whether they have namespaces. -/
def ScopesAgree (listings : List Listing) : Prop :=
  ∀ listing ∈ listings, ∀ other ∈ listings, other.groupVersion = listing.groupVersion →
    ∀ resource ∈ listing.resources, ∀ sibling ∈ other.resources, sibling.kind = resource.kind →
      sibling.namespaced = resource.namespaced

instance : DecidablePred ScopesAgree := fun listings =>
  inferInstanceAs (Decidable (∀ listing ∈ listings, ∀ other ∈ listings, other.groupVersion = listing.groupVersion →
    ∀ resource ∈ listing.resources, ∀ sibling ∈ other.resources, sibling.kind = resource.kind →
      sibling.namespaced = resource.namespaced))

/-- The catalog has the kind: the resource at its coordinate is of the kind, and every resource of the group, the
version and the kind has namespaces when the kind has. -/
structure Kind.ServedBy (kind : Kind) (listings : List Listing) : Prop where
  resource : ∃ resource, resourceAt? listings kind.coordinate = some resource ∧ resource.kind = kind.kind ∧
    resource.namespaced = kind.namespaced
  scope : ∀ listing ∈ listings, listing.groupVersion = kind.coordinate.apiVersion →
    ∀ resource ∈ listing.resources, resource.kind = kind.kind → resource.namespaced = kind.namespaced

/-- A kind of a catalog with distinct plural names, whose resources of one kind agree, is one that the catalog has. -/
theorem Kind.Listed.servedBy {listings : List Listing} {kind : Kind} (h : kind.Listed listings)
    (hplurals : PluralsDistinct listings) (hscopes : ScopesAgree listings) : kind.ServedBy listings := by
  refine ⟨h.resourceAt?_eq hplurals, ?_⟩
  obtain ⟨listing, hlisting, parts, hparts, resource, hresource, rfl⟩ := h
  intro other hother hversion sibling hsibling hkind
  rw [Kind.ofResource, apiVersion_of_parseGroupVersion hparts] at hversion
  exact hscopes listing hlisting other hother hversion resource hresource sibling hsibling hkind

/-- The identity has no namespace when it is one of a resource of the whole cluster. -/
def Identity.Fits (listings : List Listing) (identity : Identity) : Prop :=
  ∀ listing ∈ listings, ∀ resource ∈ listing.resources, resource.namespaced = false →
    identity.apiVersion = some listing.groupVersion → identity.kind = some resource.kind → identity.inNamespace = none

/-- What a call for a kind of the catalog addresses fits the catalog. -/
theorem Kind.ServedBy.fits {listings : List Listing} {kind : Kind} (h : kind.ServedBy listings)
    (inNamespace name : Option String) : (kind.identityAt inNamespace name).Fits listings := by
  intro listing hlisting resource hresource hwide hversion hkind
  have hscope := h.scope listing hlisting (Option.some.inj hversion).symm resource hresource
    (Option.some.inj hkind).symm
  rw [Kind.identityAt, ← hscope, hwide]
  rfl

/-- The document is of a kind, and carries no namespace when the kind is one of the whole cluster. -/
structure Document.BelongsTo (document : Document) (kind : Kind) : Prop where
  apiVersion_eq : document.stringAt? ["apiVersion"] = some kind.coordinate.apiVersion
  kind_eq : document.stringAt? ["kind"] = some kind.kind
  namespace_eq : kind.namespaced = false → document.namespace? = none

namespace Document

variable {document stored : Document} {kind : Kind} {change : Fields → Fields}

/-- A document that belongs to a kind has the identity at its own namespace and name. -/
theorem BelongsTo.identity_eq (h : document.BelongsTo kind) :
    document.identity = kind.identityAt document.namespace? document.name? := by
  rw [identity, Kind.identityAt, h.apiVersion_eq, h.kind_eq]
  cases hnamespaced : kind.namespaced with
  | true => rfl
  | false => rw [h.namespace_eq hnamespaced]; rfl

theorem at?_singleton (document : Document) (key : String) : document.at? [key] = document.get? key := by
  rw [at?_cons]
  cases document.get? key <;> rfl

/-- An object of a kind of the catalog belongs to it when its identity fits the catalog. -/
theorem belongsTo_of_isInstance {listings : List Listing} (hserved : kind.ServedBy listings)
    (hinstance : document.isInstance kind.coordinate.apiVersion kind.kind = true)
    (hfits : document.identity.Fits listings) : document.BelongsTo kind := by
  obtain ⟨hversion, hkind⟩ := Bool.and_eq_true_iff.1 hinstance
  obtain ⟨resource, hresource, hsame, hnamespaced⟩ := hserved.resource
  obtain ⟨listing, hlisting, hmem⟩ := List.mem_flatMap.1 (List.mem_of_find?_eq_some hresource)
  obtain ⟨hlisting, hgroup⟩ := List.mem_filter.1 hlisting
  refine ⟨beq_iff_eq.1 hversion, beq_iff_eq.1 hkind, fun hwide => ?_⟩
  refine hfits listing hlisting resource hmem (hnamespaced.trans hwide) ?_ ?_
  · rw [beq_iff_eq.1 hgroup]
    exact beq_iff_eq.1 hversion
  · rw [hsame]
    exact beq_iff_eq.1 hkind

/-- A change of the metadata leaves all other fields, and changes the fields there. -/
theorem at?_of_withMetadata? (h : document.withMetadata? change = some stored) :
    (∀ key, key ≠ "metadata" → stored.at? [key] = document.at? [key]) ∧
      ∃ metadata : Fields, ∀ key, document.at? ["metadata", key] = metadata.lookup key ∧
        stored.at? ["metadata", key] = (change metadata).lookup key := by
  have hstored := get?_of_withMetadata? h
  refine ⟨fun key hkey => by rw [at?_singleton, at?_singleton, hstored, if_neg hkey],
    ((document.get? "metadata").bind fields?).getD [], fun key => ⟨?_, ?_⟩⟩
  · cases document with
    | object fields =>
      rw [withMetadata?] at h
      rw [at?_cons, get?]
      rcases hmetadata : fields.lookup "metadata" with _ | (_ | _ | _ | _ | _ | inner)
      all_goals rw [hmetadata] at h
      · rfl
      · cases h
      · cases h
      · cases h
      · cases h
      · cases h
      · exact at?_singleton (.object inner) key
    | _ => cases h
  · rw [at?_cons, hstored, if_pos rfl, Option.bind_some, at?_singleton]
    rfl

/-- What has a name has metadata that can be changed. -/
theorem exists_withMetadata?_eq_some {name : String} (hname : document.name? = some name) (change : Fields → Fields) :
    ∃ stored, document.withMetadata? change = some stored := by
  obtain ⟨value, hvalue, -⟩ := Option.bind_eq_some_iff.1 hname
  obtain ⟨metadata, hmetadata, hinner⟩ := Option.bind_eq_some_iff.1 hvalue
  obtain ⟨held, hheld, -⟩ := Option.bind_eq_some_iff.1 hinner
  cases document with
  | object fields =>
    have hlookup : fields.lookup "metadata" = some metadata := hmetadata
    cases metadata with
    | object inner => exact ⟨_, by rw [withMetadata?, hlookup]⟩
    | _ => cases hheld
  | _ => cases hmetadata

end Document

namespace Store

variable {kind : Kind} {document stored : Document} {inNamespace : Option String} {name : String}

/-- A document that belongs to a kind is completed to one of the identity that a call for its name addresses. -/
theorem identity_of_newMetadata {uid : String} (h : document.BelongsTo kind)
    (hplaced : kind.namespaced = true → inNamespace ≠ none)
    (hstored : document.withMetadata? (newMetadata (if kind.namespaced then inNamespace else none) uid) =
      some stored) : stored.identity = kind.identityAt inNamespace document.name? := by
  obtain ⟨hfields, metadata, hmetadata⟩ := Document.at?_of_withMetadata? hstored
  obtain ⟨hname, hname'⟩ := hmetadata "name"
  obtain ⟨hplace, hplace'⟩ := hmetadata "namespace"
  rw [lookup_newMetadata, if_neg (by decide), if_neg (by decide), ← hname] at hname'
  rw [lookup_newMetadata, if_pos rfl, ← hplace] at hplace'
  have hnamespace : stored.namespace? = if kind.namespaced then inNamespace else none := by
    rw [Document.namespace?, Document.stringAt?, hplace']
    cases hnamespaced : kind.namespaced with
    | true =>
      obtain ⟨place, rfl⟩ := Option.ne_none_iff_exists'.1 (hplaced hnamespaced)
      rfl
    | false => exact h.namespace_eq hnamespaced
  rw [Document.identity, Kind.identityAt, ← h.apiVersion_eq, ← h.kind_eq, hnamespace, Document.name?, Document.name?,
    Document.stringAt?, Document.stringAt?, Document.stringAt?, hname', hfields _ (by decide), hfields _ (by decide)]
  rfl

/-- A document that is given an id keeps its identity. -/
theorem identity_of_withUidOf {old : Document} (h : withUidOf old document = some stored) :
    stored.identity = document.identity := by
  unfold withUidOf at h
  split at h
  · obtain ⟨hfields, metadata, hmetadata⟩ := Document.at?_of_withMetadata? h
    have hkept : ∀ key, key ≠ "uid" → stored.at? ["metadata", key] = document.at? ["metadata", key] := by
      intro key hkey
      rw [(hmetadata key).2, (hmetadata key).1, Keyed.lookup_insert, if_neg hkey]
    simp only [Document.identity, Document.namespace?, Document.name?, Document.stringAt?,
      hkept "name" (by decide), hkept "namespace" (by decide), hfields "kind" (by decide),
      hfields "apiVersion" (by decide)]
  · cases h
    rfl

/-! ## Calls about a kind of the catalog -/

/-- The identities of the objects. -/
def identities (store : Store) : List Identity :=
  store.objects.map Document.identity

/-- A call for a kind addresses the same at the resource of the kind. -/
theorem addressed_eq_identityAt {resource : Resource} (hkind : resource.kind = kind.kind)
    (hnamespaced : resource.namespaced = kind.namespaced) (inNamespace : Option String) (name : String) :
    addressed kind.coordinate resource inNamespace name = kind.identityAt inNamespace name := by
  rw [addressed, Kind.identityAt, hkind, hnamespaced]

/-- Creating a document without a name fails. -/
theorem create_of_name?_eq_none (store : Store) (coordinate : Coordinate) (inNamespace : Option String)
    (hname : document.name? = none) :
    store.create coordinate inNamespace document = (.error (.invalid "metadata.name is required"), store) := by
  rw [create, hname]

/-- Creating a document that belongs to a kind of the catalog: when its identity is taken it ends in the error for that;
else the document is stored under it. -/
theorem create_of_belongsTo {store : Store} (hserved : kind.ServedBy store.listings) (h : document.BelongsTo kind)
    (hplaced : kind.namespaced = true → inNamespace ≠ none) (hname : document.name? = some name) :
    (kind.identityAt inNamespace name ∈ store.identities → ∃ detail after,
      store.create kind.coordinate inNamespace document = (.error (.alreadyExists detail), after) ∧
        after.objects = store.objects) ∧
    (kind.identityAt inNamespace name ∉ store.identities → ∃ stored after,
      store.create kind.coordinate inNamespace document = (.ok stored, after) ∧
        after.identities = store.identities ++ [kind.identityAt inNamespace name]) := by
  obtain ⟨resource, hresource, hkind, hnamespaced⟩ := hserved.resource
  obtain ⟨stored, hstored⟩ := Document.exists_withMetadata?_eq_some hname
    (newMetadata (if resource.namespaced then inNamespace else none) (store.uids store.nextUid))
  have htaken : (position? store.objects kind.coordinate.apiVersion resource.kind
      (if resource.namespaced then inNamespace else none) name).isSome = true ↔
      kind.identityAt inNamespace name ∈ store.identities := by
    rw [isSome_position?_iff, addressed_eq_identityAt hkind hnamespaced]
    rfl
  rw [create, hname]
  simp only [hresource, hstored]
  constructor
  · intro hmem
    rw [if_pos (htaken.2 hmem)]
    exact ⟨_, _, rfl, rfl⟩
  · intro hfree
    rw [if_neg (mt htaken.1 hfree)]
    refine ⟨stored, _, rfl, ?_⟩
    rw [hnamespaced] at hstored
    rw [← hname, ← identity_of_newMetadata h hplaced hstored]
    exact List.map_append

/-- Updating with a document that belongs to a kind of the catalog leaves the identities as they are: it is put in the
place of the object of its own identity. -/
theorem update_identities {store : Store} (hserved : kind.ServedBy store.listings) (h : document.BelongsTo kind) :
    (store.update kind.coordinate (if kind.namespaced then document.namespace? else none) document).2.identities =
      store.identities := by
  obtain ⟨resource, hresource, hkind, hnamespaced⟩ := hserved.resource
  unfold update
  split
  · rfl
  · rename_i name hname
    simp only [hresource]
    split
    · rfl
    · rename_i position hposition
      split
      · rfl
      · rename_i stored hstored
        obtain ⟨hbound, hobject, -⟩ := List.findIdx?_eq_some_iff_getElem.1 hposition
        -- the object in whose place it is put has the identity of the document
        have hsame : stored.identity = store.objects[position].identity := by
          rw [identity_of_withUidOf hstored, h.identity_eq, isObject_iff.1 hobject, hkind, hnamespaced, hname,
            Kind.identityAt]
          cases kind.namespaced <;> rfl
        have hself := List.set_getElem_self (show position < store.identities.length by simpa [identities] using hbound)
        rw [identities, List.map_set, hsame]
        simpa [identities] using hself

/-- Removing takes identities away, and leaves the others in order. -/
theorem delete_identities (store : Store) (coordinate : Coordinate) (inNamespace : Option String) (name : String) :
    (store.delete coordinate inNamespace name).2.identities.Sublist store.identities := by
  unfold delete
  dsimp only
  split
  · exact List.Sublist.refl _
  · split
    · exact List.Sublist.refl _
    · exact (List.eraseIdx_sublist _ _).map _

/-! ## Distinct identities -/

/-- The identities are distinct and fit a catalog. -/
structure DistinctIn (listings : List Listing) (identities : List Identity) : Prop where
  nodup : identities.Nodup
  fits : ∀ identity ∈ identities, identity.Fits listings

/-- Fewer identities are distinct too. -/
theorem DistinctIn.sublist {listings : List Listing} {identities fewer : List Identity}
    (h : DistinctIn listings identities) (hsub : fewer.Sublist identities) : DistinctIn listings fewer :=
  ⟨h.nodup.sublist hsub, fun identity hmem => h.fits identity (hsub.subset hmem)⟩

/-- One more identity that fits keeps them distinct when it is not among them. -/
theorem DistinctIn.concat {listings : List Listing} {identities : List Identity} {identity : Identity}
    (h : DistinctIn listings identities) (hfits : identity.Fits listings) (hfree : identity ∉ identities) :
    DistinctIn listings (identities ++ [identity]) :=
  ⟨List.concat_eq_append ▸ h.nodup.concat hfree,
    List.forall_mem_append.2 ⟨h.fits, List.forall_mem_singleton.2 hfits⟩⟩

/-- Creating a document that belongs to a kind of the catalog keeps the identities distinct. -/
theorem distinctIn_create {store : Store} (hserved : kind.ServedBy store.listings) (hbelongs : document.BelongsTo kind)
    (hplaced : kind.namespaced = true → inNamespace ≠ none) (h : DistinctIn store.listings store.identities) :
    DistinctIn store.listings (store.create kind.coordinate inNamespace document).2.identities := by
  cases hname : document.name? with
  | none =>
    rw [create_of_name?_eq_none store kind.coordinate inNamespace hname]
    exact h
  | some name =>
    obtain ⟨htaken, hfree⟩ := create_of_belongsTo hserved hbelongs hplaced hname
    by_cases hmem : kind.identityAt inNamespace name ∈ store.identities
    · obtain ⟨detail, after, hcreate, hobjects⟩ := htaken hmem
      rw [hcreate, identities, hobjects]
      exact h
    · obtain ⟨stored, after, hcreate, hidentities⟩ := hfree hmem
      rw [hcreate, hidentities]
      exact h.concat (hserved.fits inNamespace name) hmem

end Store

end ClusterQuery
