import ClusterQuery.Proofs.Execution.Finding
import ClusterQuery.Proofs.Store.Removing

/-!
# Where documents are looked for

A document that has been found is addressed by its kind, its namespace and its name to be written or removed
(`Kind.addressOf?`). The object there is the one that was found when objects are looked for where they are
(`Engine.Homed`), which regular catalogs and objects see to (`Engine.homed_of_listed`).
-/

namespace ClusterQuery

/-- Objects of a kind are looked for where they are: one that carries a namespace is in it, for the kind and for the
resource that the store has at its coordinate. -/
def Kind.Homes (kind : Kind) (store : Store) : Prop :=
  ∀ resource, resourceAt? store.listings kind.coordinate = some resource → ∀ object ∈ store.objects,
    object.isInstance kind.coordinate.apiVersion resource.kind = true → object.namespace? ≠ none →
      kind.namespaced = true ∧ resource.namespaced = true

/-- Objects of every kind that an identifier means are looked for where they are. -/
def Engine.Homed (engine : Engine) : Prop :=
  ∀ identifier kind, engine.cache.kindOf? engine.gateway.store.listings identifier = some kind →
    kind.Homes engine.gateway.store

/-- Over a catalog that has each plural name once under a group and version, and with a cache that comes from it, every
object is looked for where it is when none of a resource of the whole cluster carries a namespace. -/
theorem Engine.homed_of_listed {engine : Engine} (hdistinct : PluralsDistinct engine.gateway.store.listings)
    (hreached : engine.cache.Reached engine.gateway.store.listings)
    (hobjects : ∀ listing ∈ engine.gateway.store.listings, ∀ resource ∈ listing.resources,
      resource.namespaced = false → ∀ object ∈ engine.gateway.store.objects,
        object.isInstance listing.groupVersion resource.kind = true → object.namespace? = none) : engine.Homed := by
  intro identifier kind hkind resource hresource object hobject hinstance hnamespace
  have hlisted := hreached.listed hkind
  obtain ⟨found, hfound, hkindOf, hnamespaced⟩ := hlisted.resourceAt?_eq hdistinct
  rw [hfound] at hresource
  cases hresource
  obtain ⟨listing, hlisting, parts, hparts, served, hserved, rfl⟩ := hlisted
  have hall : served.namespaced = true := by
    cases hwide : served.namespaced with
    | true => rfl
    | false =>
      rw [hkindOf, Kind.ofResource, apiVersion_of_parseGroupVersion hparts] at hinstance
      exact absurd (hobjects listing hlisting served hserved hwide object hobject hinstance) hnamespace
  exact ⟨hall, hnamespaced.trans hall⟩

/-- An object whose namespace, if it carries one, counts for the kind and for the resource is addressed by its
identity. -/
theorem Store.addressed_eq_identity {kind : Kind} {resource : Resource} {object : Document} {name : String}
    (hinstance : object.isInstance kind.coordinate.apiVersion resource.kind = true) (hname : object.name? = some name)
    (hplaced : object.namespace? ≠ none → kind.namespaced = true ∧ resource.namespaced = true) :
    addressed kind.coordinate resource (if kind.namespaced then object.namespace? else none) name =
      object.identity := by
  obtain ⟨hversion, hkind⟩ := Bool.and_eq_true_iff.1 hinstance
  rw [addressed, Document.identity, beq_iff_eq.1 hversion, beq_iff_eq.1 hkind, hname]
  congr 1
  cases hnamespace : object.namespace? with
  | none => simp
  | some place =>
    obtain ⟨hall, hall'⟩ := hplaced (by simp [hnamespace])
    simp [hall, hall']

/-- The identity of the object that a document of a kind is written over. -/
def Kind.addressOf? (kind : Kind) (listings : List Listing) (document : Document) : Option Identity :=
  match resourceAt? listings kind.coordinate, document.name? with
  | some resource, some name =>
    some (Store.addressed kind.coordinate resource (if kind.namespaced then document.namespace? else none) name)
  | _, _ => none

/-- Over a catalog and objects where each is looked for where it is, an object of a kind is written over itself. -/
theorem Kind.addressOf?_eq_identity {kind : Kind} {store : Store} (hhomes : kind.Homes store) {resource : Resource}
    (hresource : resourceAt? store.listings kind.coordinate = some resource) {object : Document}
    (hmem : object ∈ store.objects)
    (hinstance : object.isInstance kind.coordinate.apiVersion resource.kind = true) {identity : Identity}
    (h : kind.addressOf? store.listings object = some identity) : identity = object.identity := by
  unfold addressOf? at h
  rw [hresource] at h
  cases hname : object.name? with
  | none =>
    rw [hname] at h
    cases h
  | some name =>
    rw [hname] at h
    cases h
    exact Store.addressed_eq_identity hinstance hname (hhomes resource hresource object hmem hinstance)

/-- A target addresses a document where it is: the document is stored, and of the resource of the target, which looks
for it in the namespace that it carries. -/
structure Addresses (store : Store) (target : Target) (document : Document) : Prop where
  stored : document ∈ store.objects
  served : ∃ resource, resourceAt? store.listings target.kind.coordinate = some resource
  placed : ∀ resource, resourceAt? store.listings target.kind.coordinate = some resource →
    document.isInstance target.kind.coordinate.apiVersion resource.kind = true ∧
      (document.namespace? ≠ none → target.kind.namespaced = true ∧ resource.namespaced = true)

/-- A call about a document that its target addresses is about the object of its identity. -/
theorem Addresses.addressed_eq {store : Store} {target : Target} {document : Document}
    (h : Addresses store target document) {resource : Resource}
    (hresource : resourceAt? store.listings target.kind.coordinate = some resource) {name : String}
    (hname : document.name? = some name) :
    Store.addressed target.kind.coordinate resource (target.namespaceOf document) name = document.identity :=
  Store.addressed_eq_identity (h.placed resource hresource).1 hname (h.placed resource hresource).2

namespace Run

variable {engine after : Engine}

/-- Where every object is looked for where it is, a target addresses what is matched for it. -/
theorem addresses_of_matched {rules : List Rule} {context : Context} {graph : Graph} {targets : List Target}
    {family : Link.Family} (h : matched rules context graph targets engine = (.ok family, after))
    (hhomed : ∀ target ∈ targets, target.kind.Homes engine.gateway.store) {pair : Target × List Document}
    (hpair : pair ∈ targets.zip family) {document : Document} (hmem : document ∈ pair.2) :
    Addresses engine.gateway.store pair.1 document := by
  obtain ⟨fetched, ⟨resource, hresource, rfl⟩, hsub⟩ := List.forall₂_zip (matched_fetches h).2 hpair
  obtain ⟨hstored, hpasses⟩ := List.mem_filter.1 (hsub hmem)
  have hinstance := (Store.passes_eq_true_iff.1 (Bool.and_eq_true_iff.1 hpasses).1).1
  refine ⟨hstored, ⟨resource, hresource⟩, fun other hother => ?_⟩
  rw [hresource] at hother
  cases hother
  exact ⟨hinstance, hhomed _ (List.of_mem_zip hpair).1 resource hresource document hstored hinstance⟩

/-- Planned targets address in the store before the plan what is matched for them. -/
theorem Planned.addresses {context : Context} {query : Query} {before told : Engine} {kinds : List Kind}
    {targets : List Target} (h : Planned context query before told kinds targets) (hhomed : before.Homed)
    {rules : List Rule} {family : Link.Family}
    (hmatched : matched rules context query.graph targets told = (.ok family, after)) :
    ∀ pair ∈ targets.zip family, ∀ document ∈ pair.2, Addresses before.gateway.store pair.1 document := by
  obtain ⟨calls, hanswered⟩ := h.answered
  intro pair hpair document hdocument
  have hhomes : ∀ target ∈ targets, target.kind.Homes told.gateway.store := by
    intro target htarget
    rw [Kind.Homes, hanswered.listings_eq, hanswered.objects_eq]
    exact hhomed target.node.kind target.kind (h.kindOf?_eq htarget)
  obtain ⟨hstored, hserved, hplaced⟩ := addresses_of_matched hmatched hhomes hpair hdocument
  rw [hanswered.objects_eq] at hstored
  rw [hanswered.listings_eq] at hserved hplaced
  exact ⟨hstored, hserved, hplaced⟩

end Run

end ClusterQuery
