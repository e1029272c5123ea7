import Mathlib.Data.List.Flatten
import Mathlib.Data.List.Nodup
import Mathlib.Data.List.TakeDrop
import ClusterQuery.Catalog.Cache
import ClusterQuery.Proofs.Keys

/-!
# Kinds that come from a catalog

Every kind that a cache holds or a search finds is one that the listings have, under the name that they have it by
(`Cache.Reached.listed`). Where the plural names of one group and version are distinct, a kind leads back to its
resource (`Kind.Listed.resourceAt?_eq`). What an identifier means does not depend on what has been resolved before it
(`Cache.kindOf?_resolveIn`).
-/

namespace ClusterQuery

/-- Under each group and version the listings have every plural name at most once. -/
def PluralsDistinct (listings : List Listing) : Prop :=
  ∀ groupVersion : String,
    (((listings.filter (·.groupVersion == groupVersion)).flatMap (·.resources)).map (·.name)).Nodup

/-- The listings have a resource of the kind. -/
def Kind.Listed (listings : List Listing) (kind : Kind) : Prop :=
  ∃ listing ∈ listings, ∃ parts, parseGroupVersion listing.groupVersion = .ok parts ∧
    ∃ resource ∈ listing.resources, kind = .ofResource parts resource

/-- A field that tells all resources of a catalog apart tells those of one group and version apart. -/
theorem nodup_map_resources {field : Resource → String} {listings : List Listing}
    (h : ((listings.flatMap (·.resources)).map field).Nodup) (groupVersion : String) :
    (((listings.filter (·.groupVersion == groupVersion)).flatMap (·.resources)).map field).Nodup :=
  h.sublist ((List.filter_sublist.flatMap _).map _)

/-- The standard catalog has every plural name once. -/
theorem pluralsDistinct_standardListings : PluralsDistinct standardListings :=
  nodup_map_resources (by decide)

/-! ## From a kind back to its resource -/

/-- The group and the version of a text write it again. -/
theorem apiVersion_of_parseGroupVersion {text name : String} {parts : String × String}
    (h : parseGroupVersion text = .ok parts) : (⟨parts.1, parts.2, name⟩ : Coordinate).apiVersion = text := by
  unfold parseGroupVersion at h
  rw [List.span_eq_takeWhile_dropWhile] at h
  have happend := List.takeWhile_append_dropWhile (p := (· ≠ '/')) (l := text.toList)
  cases hdrop : text.toList.dropWhile (· ≠ '/') with
  | nil =>
    rw [hdrop] at h
    dsimp only at h
    split at h
    · cases h
    · cases h
      simp [Coordinate.apiVersion]
  | cons c version =>
    have hslash : c = '/' := by
      have hhead := List.head?_dropWhile_not (· ≠ '/') text.toList
      rw [hdrop] at hhead
      simpa using hhead
    rw [hdrop, hslash] at happend
    rw [hdrop] at h
    dsimp only at h
    split at h
    · cases h
    · rename_i hne
      cases h
      have hgroup : String.ofList (text.toList.takeWhile (· ≠ '/')) ≠ "" := by
        intro heq
        exact hne (Or.inl (by simpa using congrArg String.toList heq))
      rw [Coordinate.apiVersion, if_neg hgroup]
      apply String.toList_injective
      simpa using happend

/-- The coordinate of a resource of the listings is its own. -/
theorem resourceAt?_ofResource {listings : List Listing} (hdistinct : PluralsDistinct listings) {listing : Listing}
    (hlisting : listing ∈ listings) {parts : String × String}
    (hparts : parseGroupVersion listing.groupVersion = .ok parts) {resource : Resource}
    (hresource : resource ∈ listing.resources) :
    resourceAt? listings (Kind.ofResource parts resource).coordinate = some resource := by
  rw [resourceAt?, Kind.ofResource, apiVersion_of_parseGroupVersion hparts]
  refine find?_eq_of_nodup_map (hdistinct listing.groupVersion) (List.mem_flatMap.2 ⟨listing, ?_, hresource⟩) rfl
  exact List.mem_filter.2 ⟨hlisting, beq_self_eq_true _⟩

/-- A kind of the listings leads back to its resource. -/
theorem Kind.Listed.resourceAt?_eq {listings : List Listing} {kind : Kind} (hdistinct : PluralsDistinct listings)
    (h : kind.Listed listings) :
    ∃ resource, resourceAt? listings kind.coordinate = some resource ∧ resource.kind = kind.kind ∧
      resource.namespaced = kind.namespaced := by
  obtain ⟨listing, hlisting, parts, hparts, resource, hresource, rfl⟩ := h
  exact ⟨resource, resourceAt?_ofResource hdistinct hlisting hparts hresource, rfl, rfl⟩

/-- A kind that a search finds is one of the listings. -/
theorem listed_of_findKind? {key : String} {listings : List Listing} {kind : Kind}
    (h : findKind? key listings = .ok (some kind)) : kind.Listed listings := by
  induction listings with
  | nil => cases h
  | cons listing rest ih =>
    unfold findKind? at h
    split at h
    · rename_i resource hfind
      cases hparts : parseGroupVersion listing.groupVersion with
      | error cause =>
        rw [hparts] at h
        cases h
      | ok parts =>
        rw [hparts] at h
        cases h
        exact ⟨listing, List.mem_cons_self, parts, hparts, resource, List.mem_of_find?_eq_some hfind, rfl⟩
    · obtain ⟨other, hother, hrest⟩ := ih h
      exact ⟨other, List.mem_cons_of_mem listing hother, hrest⟩

/-! ## What warming offers to a cache -/

namespace Cache

/-- The keys of a resource, each with the kind. -/
def offersOf (parts : String × String) (resource : Resource) : List (String × Kind) :=
  resource.aliases.map fun name => (keyOf name, .ofResource parts resource)

/-- What warming offers to a cache: the keys of all resources, up to a malformed group and version. -/
def offered : List Listing → List (String × Kind)
  | [] => []
  | listing :: rest =>
    match parseGroupVersion listing.groupVersion with
    | .error _ => []
    | .ok parts => listing.resources.flatMap (offersOf parts) ++ offered rest

/-- The cache with every offer that it has no entry for when its turn comes. -/
def fill (cache : Cache) (offers : List (String × Kind)) : Cache :=
  offers.foldl (fun cache offer => cache.insert offer.1 offer.2) cache

end Cache

namespace Filling

/-- A filling that has taken every offer in its turn. -/
def fill (filling : Filling) (offers : List (String × Kind)) : Filling :=
  offers.foldl (fun filling offer => filling.insert offer.1 offer.2) filling

theorem fill_append (filling : Filling) (offers more : List (String × Kind)) :
    filling.fill (offers ++ more) = (filling.fill offers).fill more :=
  List.foldl_append

/-- The resources of a listing are taken alias by alias. -/
theorem foldl_insertAliases (filling : Filling) (parts : String × String) (resources : List Resource) :
    resources.foldl (fun filling resource => filling.insertAliases (.ofResource parts resource) resource.aliases)
      filling = filling.fill (resources.flatMap (Cache.offersOf parts)) := by
  rw [fill, List.foldl_flatMap]
  simp only [Cache.offersOf, List.foldl_map, insertAliases]

/-- An offer that is counted is one that the cache takes. -/
theorem cache_insert (filling : Filling) (key : String) (kind : Kind) :
    (filling.insert key kind).cache = filling.cache.insert key kind := by
  unfold insert
  split
  · rename_i hheld
    exact (if_pos hheld).symm
  · rfl

theorem cache_fill (filling : Filling) (offers : List (String × Kind)) :
    (filling.fill offers).cache = filling.cache.fill offers := by
  induction offers generalizing filling with
  | nil => rfl
  | cons offer rest ih =>
    have hstep : filling.fill (offer :: rest) = (filling.insert offer.1 offer.2).fill rest := rfl
    rw [hstep, ih, cache_insert]
    rfl

/-- Warming takes what is offered, whether or not it comes to the end; if it does, it answers the count. -/
theorem warmFrom_eq (filling : Filling) (listings : List Listing) :
    (filling.warmFrom listings).2 = (filling.fill (Cache.offered listings)).cache ∧
      ∀ count, (filling.warmFrom listings).1 = .ok count → (filling.fill (Cache.offered listings)).added = count := by
  induction listings generalizing filling with
  | nil =>
    refine ⟨rfl, fun count h => ?_⟩
    cases h
    rfl
  | cons listing rest ih =>
    rw [warmFrom, Cache.offered]
    cases parseGroupVersion listing.groupVersion with
    | error cause => exact ⟨rfl, nofun⟩
    | ok parts =>
      dsimp only
      rw [foldl_insertAliases, fill_append]
      exact ih _

end Filling

/-! ## Caches -/

/-- Warming takes what is offered, whether or not it comes to the end. -/
theorem Cache.warmFrom_snd (cache : Cache) (listings : List Listing) :
    (cache.warmFrom listings).2 = cache.fill (offered listings) := by
  rw [warmFrom, ((Filling.mk cache 0).warmFrom_eq listings).1, Filling.cache_fill]

namespace Cache

/-- The kind of an identifier: the one that the cache has, or else the one that the listings say. -/
def kindOf? (cache : Cache) (listings : List Listing) (identifier : String) : Option Kind :=
  match cache.lookup (keyOf identifier) with
  | some kind => some kind
  | none =>
    match findKind? (keyOf identifier) listings with
    | .ok found => found
    | .error _ => none

/-- The caches that a catalog leads to: the empty one, and those that resolving an identifier and warming leave. -/
inductive Reached (listings : List Listing) : Cache → Prop where
  | empty : Reached listings empty
  | resolved {cache : Cache} (identifier : String) (h : Reached listings cache) :
      Reached listings (cache.resolveIn identifier listings).2
  | warmed {cache : Cache} (h : Reached listings cache) : Reached listings (cache.warmFrom listings).2

/-- Every kind of the cache is one of the listings. -/
def HoldsListed (listings : List Listing) (cache : Cache) : Prop :=
  ∀ key kind, cache.lookup key = some kind → kind.Listed listings

/-- An insertion under a key that is free puts the kind there and leaves the other keys as they are. -/
theorem lookup_insert (cache : Cache) (key other : String) (kind : Kind) :
    (cache.insert key kind).lookup other =
      if other = key ∧ cache.lookup key = none then some kind else cache.lookup other := by
  unfold insert
  cases hkey : cache.lookup key with
  | some held => simp
  | none =>
    rw [if_neg (by simp), lookup, Keyed.lookup_insert]
    by_cases heq : other = key
    · simp [heq]
    · simp [heq, lookup]

theorem HoldsListed.insert {listings : List Listing} {cache : Cache} {key : String} {kind : Kind}
    (h : cache.HoldsListed listings) (hkind : kind.Listed listings) :
    (cache.insert key kind).HoldsListed listings := by
  intro other found hfound
  rw [lookup_insert] at hfound
  split at hfound
  · cases hfound
    exact hkind
  · exact h other found hfound

theorem HoldsListed.fill {listings : List Listing} {cache : Cache} (h : cache.HoldsListed listings)
    {offers : List (String × Kind)} (hoffers : ∀ offer ∈ offers, offer.2.Listed listings) :
    (cache.fill offers).HoldsListed listings := by
  induction offers generalizing cache with
  | nil => exact h
  | cons offer rest ih =>
    obtain ⟨hoffer, hrest⟩ := List.forall_mem_cons.1 hoffers
    exact ih (h.insert hoffer) hrest

/-- What is offered is a kind of the listings. -/
theorem listed_of_mem_offered {listings : List Listing} {offer : String × Kind} (h : offer ∈ offered listings) :
    offer.2.Listed listings := by
  induction listings with
  | nil => cases h
  | cons listing rest ih =>
    rw [offered] at h
    cases hparts : parseGroupVersion listing.groupVersion with
    | error cause =>
      rw [hparts] at h
      cases h
    | ok parts =>
      rw [hparts] at h
      rcases List.mem_append.1 h with h | h
      · obtain ⟨resource, hresource, h⟩ := List.mem_flatMap.1 h
        obtain ⟨name, -, rfl⟩ := List.mem_map.1 h
        exact ⟨listing, List.mem_cons_self, parts, hparts, resource, hresource, rfl⟩
      · obtain ⟨other, hother, hrest⟩ := ih h
        exact ⟨other, List.mem_cons_of_mem listing hother, hrest⟩

/-- Warming keeps a cache to kinds of the listings, also when it stops half way. -/
theorem HoldsListed.warmFrom {listings : List Listing} {cache : Cache} (h : cache.HoldsListed listings) :
    (cache.warmFrom listings).2.HoldsListed listings := by
  rw [warmFrom_snd]
  exact h.fill fun _ => listed_of_mem_offered

/-- Resolving keeps a cache to kinds of the listings. -/
theorem HoldsListed.resolveIn {listings : List Listing} {cache : Cache} (h : cache.HoldsListed listings)
    (identifier : String) : (cache.resolveIn identifier listings).2.HoldsListed listings := by
  unfold Cache.resolveIn
  split
  · exact h
  · exact h
  · rename_i kind hfind
    exact h.insert (listed_of_findKind? hfind)

/-- Every kind of a cache that a catalog leads to is one of the catalog. -/
theorem Reached.holdsListed {listings : List Listing} {cache : Cache} (h : cache.Reached listings) :
    cache.HoldsListed listings := by
  induction h with
  | empty => exact fun _ _ hfound => nomatch hfound
  | resolved identifier _ ih => exact ih.resolveIn identifier
  | warmed _ ih => exact ih.warmFrom

/-- What an identifier means to a cache that a catalog leads to is a kind of the catalog. -/
theorem Reached.listed {listings : List Listing} {cache : Cache} (h : cache.Reached listings) {identifier : String}
    {kind : Kind} (hkind : cache.kindOf? listings identifier = some kind) : kind.Listed listings := by
  unfold kindOf? at hkind
  split at hkind
  · rename_i hlookup
    cases hkind
    exact h.holdsListed _ _ hlookup
  · split at hkind
    · rename_i found hfind
      subst hkind
      exact listed_of_findKind? hfind
    · cases hkind

/-- What resolving answers is what the listings say. -/
theorem findKind?_of_resolveIn {cache : Cache} {listings : List Listing} {identifier : String} {kind : Kind}
    (h : (cache.resolveIn identifier listings).1 = .ok kind) :
    findKind? (keyOf identifier) listings = .ok (some kind) := by
  unfold Cache.resolveIn at h
  split at h
  · cases h
  · cases h
  · rename_i found hfind
    cases h
    exact hfind

/-- Resolving one identifier changes what none of them means. -/
theorem kindOf?_resolveIn (cache : Cache) (listings : List Listing) (identifier other : String) :
    (cache.resolveIn identifier listings).2.kindOf? listings other = cache.kindOf? listings other := by
  unfold Cache.resolveIn
  split
  · rfl
  · rfl
  · rename_i kind hfind
    unfold kindOf?
    rw [lookup_insert]
    by_cases hnew : keyOf other = keyOf identifier ∧ cache.lookup (keyOf identifier) = none
    · rw [if_pos hnew, hnew.1, hnew.2, hfind]
    · rw [if_neg hnew]

end Cache

end ClusterQuery
