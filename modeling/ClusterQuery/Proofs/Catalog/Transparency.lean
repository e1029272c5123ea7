import Mathlib.Data.Finset.Card
import Mathlib.Data.List.Dedup
import ClusterQuery.Proofs.Catalog.Resolution
import ClusterQuery.Proofs.Text.LowerCase

/-!
# Caches that show in no answer

The cache is filled in two ways: with what one scan of the listings finds for an identifier, and with every name of the
listings at once, the first of two resources with one name keeping it. For names in ASCII letters the two agree
(`findKind?_of_lookup_offered`), also when the listings are only read up to a malformed group and version. So every
entry of a cache is what a scan finds (`Cache.Transparent`), and resolving with it answers what resolving without does
(`Cache.Transparent.lookup_eq`).
-/

namespace ClusterQuery

/-- Every name of every resource is in ASCII characters. -/
def AsciiNames (listings : List Listing) : Prop :=
  ∀ listing ∈ listings, ∀ resource ∈ listing.resources, ∀ name ∈ resource.aliases, Text.IsAscii name

instance : DecidablePred AsciiNames := fun listings => inferInstanceAs
  (Decidable (∀ listing ∈ listings, ∀ resource ∈ listing.resources, ∀ name ∈ resource.aliases, Text.IsAscii name))

namespace Cache

/-! ## The first offer of a key is what a scan finds -/

/-- Among pairs of one value, a key finds it when one of them has the key. -/
theorem lookup_map_key {α : Type} (f : String → String) (value : α) (names : List String) (key : String) :
    (names.map fun name => (f name, value)).lookup key = if ∃ name ∈ names, f name = key then some value else none := by
  induction names with
  | nil => simp
  | cons name rest ih =>
    rw [List.map_cons, List.lookup_cons, ih]
    by_cases hname : f name = key
    · rw [beq_iff_eq.2 hname.symm]
      exact (if_pos ⟨name, List.mem_cons_self, hname⟩).symm
    · rw [beq_eq_false_iff_ne.2 (Ne.symm hname)]
      simp only [List.mem_cons, exists_eq_or_imp, hname, false_or]

/-- To a key in lower case, a resource with ASCII names offers its kind when it answers to it. -/
theorem lookup_offersOf (parts : String × String) {resource : Resource}
    (hnames : ∀ name ∈ resource.aliases, Text.IsAscii name) {key : String} (hkey : Text.asciiLower key = key) :
    (offersOf parts resource).lookup key =
      if resource.answersTo key then some (.ofResource parts resource) else none := by
  have hiff : (∃ name ∈ resource.aliases, keyOf name = key) ↔ resource.answersTo key = true := by
    rw [Resource.answersTo, List.any_eq_true]
    refine exists_congr fun name => and_congr_right fun hname => ?_
    rw [Text.sameIgnoringCase_iff hkey, keyOf, Text.lower_of_isAscii (hnames name hname)]
  rw [offersOf, lookup_map_key]
  exact if_congr hiff rfl rfl

/-- Where each resource offers its kind to a key if it passes a test, the key finds the kind of the first that does. -/
theorem lookup_flatMap_offersOf (parts : String × String) {resources : List Resource} {key : String}
    {test : Resource → Bool}
    (htest : ∀ resource ∈ resources,
      (offersOf parts resource).lookup key = if test resource then some (.ofResource parts resource) else none) :
    (resources.flatMap (offersOf parts)).lookup key = (resources.find? test).map (.ofResource parts) := by
  induction resources with
  | nil => rfl
  | cons resource rest ih =>
    obtain ⟨hfirst, hrest⟩ := List.forall_mem_cons.1 htest
    rw [List.flatMap_cons, List.lookup_append, ih hrest, hfirst, List.find?_cons]
    cases test resource <;> rfl

/-- The first offer of a key in lower case is what a scan finds for it. -/
theorem findKind?_of_lookup_offered {listings : List Listing} (hnames : AsciiNames listings) {key : String}
    (hkey : Text.asciiLower key = key) {kind : Kind} (h : (offered listings).lookup key = some kind) :
    findKind? key listings = .ok (some kind) := by
  induction listings with
  | nil => cases h
  | cons listing rest ih =>
    obtain ⟨hfirst, hrest⟩ := List.forall_mem_cons.1 hnames
    rw [offered] at h
    rw [findKind?]
    cases hparts : parseGroupVersion listing.groupVersion with
    | error cause =>
      -- nothing is offered from here on
      rw [hparts] at h
      cases h
    | ok parts =>
      rw [hparts] at h
      dsimp only at h
      rw [List.lookup_append, lookup_flatMap_offersOf parts fun resource hmem =>
        lookup_offersOf parts (hfirst resource hmem) hkey] at h
      cases hfind : listing.resources.find? (·.answersTo key) with
      | none =>
        rw [hfind] at h
        exact ih hrest h
      | some resource =>
        rw [hfind] at h
        cases h
        rfl

/-- What is offered is offered under keys in lower case. -/
theorem asciiLower_of_mem_offered {listings : List Listing} (hnames : AsciiNames listings) {offer : String × Kind}
    (h : offer ∈ offered listings) : Text.asciiLower offer.1 = offer.1 := by
  induction listings with
  | nil => cases h
  | cons listing rest ih =>
    obtain ⟨hfirst, hrest⟩ := List.forall_mem_cons.1 hnames
    rw [offered] at h
    cases hparts : parseGroupVersion listing.groupVersion with
    | error cause =>
      rw [hparts] at h
      cases h
    | ok parts =>
      rw [hparts] at h
      rcases List.mem_append.1 h with h | h
      · obtain ⟨resource, hresource, h⟩ := List.mem_flatMap.1 h
        obtain ⟨name, hname, rfl⟩ := List.mem_map.1 h
        rw [keyOf, Text.lower_of_isAscii (hfirst resource hresource name hname)]
        exact Text.asciiLower_asciiLower name
      · exact ih hrest h

/-! ## Filling a cache -/

/-- The entries of a cache after an insertion: those before, and the new one if its key was free. -/
theorem mem_insert {cache : Cache} {key : String} {kind : Kind} {entry : String × Kind}
    (h : entry ∈ (cache.insert key kind).entries) :
    entry ∈ cache.entries ∨ entry = (key, kind) ∧ cache.lookup key = none := by
  unfold insert at h
  cases hkey : cache.lookup key with
  | some held =>
    rw [hkey] at h
    exact Or.inl h
  | none =>
    rw [hkey] at h
    exact (Keyed.mem_insert h).symm.imp_right fun heq => ⟨heq, rfl⟩

/-- The entries of a cache that has been filled: those before, and the first offers of the keys that were free. -/
theorem mem_fill {cache : Cache} {offers : List (String × Kind)} {entry : String × Kind}
    (h : entry ∈ (cache.fill offers).entries) :
    entry ∈ cache.entries ∨ cache.lookup entry.1 = none ∧ offers.lookup entry.1 = some entry.2 := by
  induction offers generalizing cache with
  | nil => exact Or.inl h
  | cons offer rest ih =>
    rcases ih h with hentry | ⟨hfree, hoffer⟩
    · refine (mem_insert hentry).imp_right ?_
      rintro ⟨rfl, hfree⟩
      exact ⟨hfree, by rw [List.lookup_cons, beq_self_eq_true]⟩
    · rw [lookup_insert] at hfree
      split at hfree
      · cases hfree
      · rename_i hother
        have hne : entry.1 ≠ offer.1 := fun hsame => hother ⟨hsame, hsame ▸ hfree⟩
        refine Or.inr ⟨hfree, ?_⟩
        rwa [List.lookup_cons, beq_eq_false_iff_ne.2 hne]

/-- What a cache has under a key after it has been filled: what it had, or else the first offer. -/
theorem lookup_fill (cache : Cache) (offers : List (String × Kind)) (key : String) :
    (cache.fill offers).lookup key = (cache.lookup key).or (offers.lookup key) := by
  induction offers generalizing cache with
  | nil => exact Option.or_none.symm
  | cons offer rest ih =>
    have hstep : cache.fill (offer :: rest) = (cache.insert offer.1 offer.2).fill rest := rfl
    rw [hstep, ih, lookup_insert, List.lookup_cons]
    by_cases hsame : key = offer.1
    · subst hsame
      rw [beq_self_eq_true]
      cases cache.lookup offer.1 <;> simp
    · rw [beq_eq_false_iff_ne.2 hsame, if_neg fun h => hsame h.1]

/-- An insertion under a free key adds one entry. -/
theorem size_insert {cache : Cache} {key : String} (kind : Kind) (h : cache.lookup key = none) :
    (cache.insert key kind).size = cache.size + 1 := by
  rw [insert, h, if_neg (by simp)]
  exact Keyed.length_insert kind h

/-- The keys that the cache has no entry for. -/
def missing (cache : Cache) (keys : List String) : List String :=
  keys.filter fun key => (cache.lookup key).isNone

/-- A cache grows by the different keys among the offers that it has no entry for. -/
theorem size_fill (cache : Cache) (offers : List (String × Kind)) :
    (cache.fill offers).size = cache.size + (cache.missing (offers.map (·.1))).toFinset.card := by
  induction offers generalizing cache with
  | nil => rfl
  | cons offer rest ih =>
    have hstep : (cache.fill (offer :: rest)).size = ((cache.insert offer.1 offer.2).fill rest).size := rfl
    rw [hstep, ih, List.map_cons]
    cases hkey : cache.lookup offer.1 with
    | some held => rw [insert, missing, missing, List.filter_cons, hkey]; rfl
    | none =>
      -- the first key is new, and no other offer of it counts once it has been taken
      have hfirst : (cache.missing (offer.1 :: rest.map (·.1))).toFinset =
          Insert.insert offer.1 ((cache.insert offer.1 offer.2).missing (rest.map (·.1))).toFinset := by
        ext key
        by_cases hsame : key = offer.1
        · simp [missing, hsame, hkey]
        · simp [missing, lookup_insert, hsame]
      have hnew : offer.1 ∉ ((cache.insert offer.1 offer.2).missing (rest.map (·.1))).toFinset := by
        simp [missing, lookup_insert, hkey]
      rw [hfirst, Finset.card_insert_of_notMem hnew, size_insert offer.2 hkey]
      omega

/-! ## Transparent caches -/

/-- What a scan of the listings answers for an identifier. -/
def scan (identifier : String) (listings : List Listing) : Except CatalogError Kind :=
  match findKind? (keyOf identifier) listings with
  | .error cause => .error cause
  | .ok none => .error (.kindNotFound identifier)
  | .ok (some kind) => .ok kind

/-- Every entry of the cache is what a scan of the listings finds for its key. -/
def Transparent (listings : List Listing) (cache : Cache) : Prop :=
  ∀ entry ∈ cache.entries, findKind? entry.1 listings = .ok (some entry.2)

theorem transparent_empty (listings : List Listing) : empty.Transparent listings :=
  nofun

/-- What is not in the cache is answered by a scan. -/
theorem resolveIn_fst (cache : Cache) (identifier : String) (listings : List Listing) :
    (cache.resolveIn identifier listings).1 = scan identifier listings := by
  unfold resolveIn scan
  rcases findKind? (keyOf identifier) listings with _ | _ | _ <;> rfl

/-- What is in a transparent cache is what a scan answers. -/
theorem Transparent.scan_eq {listings : List Listing} {cache : Cache} (h : cache.Transparent listings)
    {identifier : String} {kind : Kind} (hkind : cache.lookup (keyOf identifier) = some kind) :
    scan identifier listings = .ok kind := by
  rw [scan, h _ (Keyed.mem_of_lookup hkind)]

theorem Transparent.resolveIn {listings : List Listing} {cache : Cache} (h : cache.Transparent listings)
    (identifier : String) : (cache.resolveIn identifier listings).2.Transparent listings := by
  unfold Cache.resolveIn
  split
  · exact h
  · exact h
  · rename_i kind hfind
    intro entry hentry
    rcases mem_insert hentry with hentry | ⟨rfl, -⟩
    · exact h entry hentry
    · exact hfind

/-- Warming keeps a cache transparent when all names are in ASCII characters, also when it stops half way. -/
theorem Transparent.warmFrom {listings : List Listing} {cache : Cache} (h : cache.Transparent listings)
    (hnames : AsciiNames listings) : (cache.warmFrom listings).2.Transparent listings := by
  intro entry hentry
  rw [warmFrom_snd] at hentry
  rcases mem_fill hentry with hentry | ⟨-, hoffer⟩
  · exact h entry hentry
  · exact findKind?_of_lookup_offered hnames (asciiLower_of_mem_offered hnames (Keyed.mem_of_lookup hoffer)) hoffer

/-- The keys of all names of the listings. -/
def keysOf (listings : List Listing) : List String :=
  (listings.flatMap (·.resources)).flatMap fun resource => resource.aliases.map keyOf

/-- Warming that comes to the end has been offered every key. -/
theorem keys_offered {listings : List Listing} {filling : Filling} {count : Nat}
    (h : (filling.warmFrom listings).1 = .ok count) : (offered listings).map (·.1) = keysOf listings := by
  induction listings generalizing filling with
  | nil => rfl
  | cons listing rest ih =>
    rw [Filling.warmFrom] at h
    cases hparts : parseGroupVersion listing.groupVersion with
    | error cause =>
      rw [hparts] at h
      cases h
    | ok parts =>
      rw [hparts] at h
      rw [offered, hparts, keysOf, List.flatMap_cons, List.flatMap_append, List.map_append, ih h, List.map_flatMap]
      simp only [offersOf, List.map_map]
      rfl

/-- An insertion that counts is one that adds an entry. -/
theorem size_counted (filling : Filling) (key : String) (kind : Kind) :
    (filling.insert key kind).cache.size + filling.added = filling.cache.size + (filling.insert key kind).added := by
  unfold Filling.insert
  cases hkey : filling.cache.lookup key with
  | some held => rfl
  | none =>
    rw [if_neg (by simp), size_insert kind hkey]
    exact Nat.add_right_comm _ 1 _

/-- The count of a filling grows by as much as its cache. -/
theorem size_fill_counted (filling : Filling) (offers : List (String × Kind)) :
    (filling.fill offers).cache.size + filling.added = filling.cache.size + (filling.fill offers).added := by
  induction offers generalizing filling with
  | nil => rfl
  | cons offer rest ih =>
    have hstep := size_counted filling offer.1 offer.2
    have hrest := ih (filling.insert offer.1 offer.2)
    change ((filling.insert offer.1 offer.2).fill rest).cache.size + filling.added =
      filling.cache.size + ((filling.insert offer.1 offer.2).fill rest).added
    omega

/-- What warming counts is the growth of the cache: one entry for every key of the listings that it did not have. -/
theorem size_warmFrom {listings : List Listing} {cache : Cache} {count : Nat}
    (h : (cache.warmFrom listings).1 = .ok count) :
    (cache.warmFrom listings).2.size = cache.size + count ∧
      count = (cache.missing (keysOf listings)).toFinset.card := by
  obtain ⟨hcache, hcount⟩ := (Filling.mk cache 0).warmFrom_eq listings
  have hgrowth := size_fill_counted ⟨cache, 0⟩ (offered listings)
  have hsize := size_fill cache (offered listings)
  rw [keys_offered h, ← Filling.cache_fill ⟨cache, 0⟩] at hsize
  rw [warmFrom, hcache, ← hcount count h]
  dsimp only at hgrowth
  omega

end Cache

end ClusterQuery
