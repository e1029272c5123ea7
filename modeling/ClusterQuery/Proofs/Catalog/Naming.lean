import ClusterQuery.Proofs.Answers
import ClusterQuery.Proofs.Catalog.WriteOnce

/-!
# What the names of a catalog resolve to

A catalog is its resources in order of discovery (`served`), and a search takes the first that answers to the key
(`findKind?_eq`). The coordinate of a resource leads back to it (`resourceAt?_of_mem_served`).

A warmed cache has for every name of the catalog the first resource with a name of the same lower case. A search in the
listings has the identifier in lower case, but of the names in the catalog it ignores the case of the ASCII letters
only. So it may pass by the very resource that brings the name (`Engine.resolve_accented`), and finds the same resource
as the warmed cache when that has a name in lower case but for ASCII letters (`Engine.resolve_listedName`).
-/

namespace ClusterQuery

/-- The resources of the listings in order of discovery, each with its group and version. -/
def served (listings : List Listing) : List (String × Resource) :=
  listings.flatMap fun listing => listing.resources.map (listing.groupVersion, ·)

/-- Every group and version of the listings is well formed. -/
def VersionsWellFormed (listings : List Listing) : Prop :=
  ∀ listing ∈ listings, ∃ parts, parseGroupVersion listing.groupVersion = .ok parts

variable {listings : List Listing} {key name : String} {kind : Kind}

theorem mem_served {entry : String × Resource} : entry ∈ served listings ↔
    ∃ listing ∈ listings, entry.1 = listing.groupVersion ∧ entry.2 ∈ listing.resources := by
  constructor
  · intro h
    obtain ⟨listing, hlisting, h⟩ := List.mem_flatMap.1 h
    obtain ⟨resource, hresource, rfl⟩ := List.mem_map.1 h
    exact ⟨listing, hlisting, rfl, hresource⟩
  · obtain ⟨groupVersion, resource⟩ := entry
    rintro ⟨listing, hlisting, rfl, hresource⟩
    exact List.mem_flatMap.2 ⟨listing, hlisting, List.mem_map_of_mem hresource⟩

/-- The first served resource that passes a test is in the first listing that has one. -/
theorem find?_served_cons (listing : Listing) (rest : List Listing) (test : Resource → Bool) :
    (served (listing :: rest)).find? (test ·.2) =
      ((listing.resources.find? test).map (listing.groupVersion, ·)).or ((served rest).find? (test ·.2)) := by
  rw [served, List.flatMap_cons, List.find?_append, List.find?_map]
  rfl

/-- The kind of a served resource, if its group and version are well formed. -/
def kindOfServed (entry : String × Resource) : Except CatalogError Kind :=
  (parseGroupVersion entry.1).map (.ofResource · entry.2)

/-- A search gives the kind of the first served resource that answers to the key. -/
theorem findKind?_eq (key : String) (listings : List Listing) :
    findKind? key listings = match (served listings).find? (·.2.answersTo key) with
      | some entry => (kindOfServed entry).map some
      | none => .ok none := by
  induction listings with
  | nil => rfl
  | cons listing rest ih =>
    rw [findKind?, find?_served_cons listing rest (·.answersTo key), ih]
    cases listing.resources.find? (·.answersTo key) with
    | none => rfl
    | some resource =>
      rw [Option.map_some, Option.some_or]
      dsimp only [kindOfServed]
      cases parseGroupVersion listing.groupVersion <;> rfl

/-! ## From a kind back to its resource -/

/-- The coordinate of a served resource is its own. -/
theorem resourceAt?_of_mem_served (hdistinct : PluralsDistinct listings) {entry : String × Resource}
    (hentry : entry ∈ served listings) {parts : String × String} (hparts : parseGroupVersion entry.1 = .ok parts) :
    resourceAt? listings (Kind.ofResource parts entry.2).coordinate = some entry.2 := by
  obtain ⟨listing, hlisting, hversion, hresource⟩ := mem_served.1 hentry
  exact resourceAt?_ofResource hdistinct hlisting (hversion ▸ hparts) hresource

/-- Where plural names are distinct, served resources of one kind are the same. -/
theorem eq_of_kindOfServed (hdistinct : PluralsDistinct listings) {entry other : String × Resource}
    (hentry : entry ∈ served listings) (hother : other ∈ served listings) (hkind : kindOfServed entry = .ok kind)
    (hkind' : kindOfServed other = .ok kind) : entry = other := by
  obtain ⟨parts, hparts, rfl⟩ := map_eq_ok.1 hkind
  obtain ⟨parts', hparts', heq⟩ := map_eq_ok.1 hkind'
  have hcoordinate : (Kind.ofResource parts' other.2).coordinate = (Kind.ofResource parts entry.2).coordinate := by
    rw [heq]
  have htext : (Kind.ofResource parts entry.2).coordinate.apiVersion = entry.1 := apiVersion_of_parseGroupVersion hparts
  have hversion : other.1 = entry.1 := by
    rw [← htext, ← hcoordinate]
    exact (apiVersion_of_parseGroupVersion hparts').symm
  have hresource := resourceAt?_of_mem_served hdistinct hentry hparts
  rw [← hcoordinate, resourceAt?_of_mem_served hdistinct hother hparts'] at hresource
  exact Prod.ext hversion.symm (Option.some.inj hresource).symm

/-! ## Names in any letters -/

namespace Resource

/-- One of the names is the key when both are in lower case. -/
def isNamed (resource : Resource) (key : String) : Bool :=
  resource.aliases.any (Cache.keyOf · == key)

variable {resource : Resource}

theorem isNamed_iff : resource.isNamed key = true ↔ ∃ other ∈ resource.aliases, Cache.keyOf other = key := by
  rw [isNamed, List.any_eq_true]
  exact exists_congr fun other => and_congr_right fun _ => beq_iff_eq

/-- One of the names comes to the lower case of the identifier when its ASCII letters are put in lower case. -/
def Spells (resource : Resource) (identifier : String) : Prop :=
  ∃ other ∈ resource.aliases, Text.asciiLower other = Cache.keyOf identifier

/-- To an identifier in lower case answers what spells it. -/
theorem answersTo_keyOf_iff : resource.answersTo (Cache.keyOf name) = true ↔ resource.Spells name := by
  rw [answersTo, List.any_eq_true]
  exact exists_congr fun other => and_congr_right fun _ => Text.sameIgnoringCase_iff (Text.asciiLower_lower name)

/-- What spells an identifier is named by it. -/
theorem Spells.isNamed (h : resource.Spells name) : resource.isNamed (Cache.keyOf name) = true := by
  obtain ⟨other, hother, hlower⟩ := h
  exact isNamed_iff.2 ⟨other, hother, Text.lower_of_asciiLower_eq hlower⟩

/-- What is named by an identifier spells it when its names are in ASCII characters. -/
theorem spells_of_isAscii (hnames : ∀ other ∈ resource.aliases, Text.IsAscii other)
    (h : resource.isNamed (Cache.keyOf name) = true) : resource.Spells name := by
  obtain ⟨other, hother, hlower⟩ := isNamed_iff.1 h
  exact ⟨other, hother, (Text.lower_of_isAscii (hnames other hother)).symm.trans hlower⟩

end Resource

namespace Cache

/-- What a whole catalog offers to a key is the kind of the first served resource that is named by it. -/
theorem lookup_offered (hformed : VersionsWellFormed listings) (key : String) : (offered listings).lookup key =
    ((served listings).find? (·.2.isNamed key)).bind fun entry => (kindOfServed entry).toOption := by
  induction listings with
  | nil => rfl
  | cons listing rest ih =>
    obtain ⟨⟨parts, hparts⟩, hrest⟩ := List.forall_mem_cons.1 hformed
    have hoffers : ∀ resource ∈ listing.resources, (offersOf parts resource).lookup key =
        if resource.isNamed key then some (.ofResource parts resource) else none := by
      intro resource _
      rw [offersOf, lookup_map_key]
      exact if_congr Resource.isNamed_iff.symm rfl rfl
    rw [offered, hparts]
    dsimp only
    rw [List.lookup_append, lookup_flatMap_offersOf parts hoffers, ih hrest,
      find?_served_cons listing rest (·.isNamed key)]
    cases listing.resources.find? (·.isNamed key) with
    | none => rfl
    | some resource =>
      rw [Option.map_some, Option.some_or, Option.map_some, Option.some_or, Option.bind_some, kindOfServed, hparts]
      rfl

end Cache

/-- Where a second test implies the first, the first entry that passes the first test is also the first that passes the
second, if it passes it at all. -/
theorem find?_eq_some_iff_of_imp {α : Type} {test test' : α → Bool} (himp : ∀ a, test' a = true → test a = true)
    {entries : List α} {entry : α} (h : entries.find? test = some entry) :
    entries.find? test' = some entry ↔ test' entry = true := by
  refine ⟨List.find?_some, fun hentry => ?_⟩
  obtain ⟨-, before, rest, rfl, hbefore⟩ := List.find?_eq_some_iff_append.1 h
  refine List.find?_eq_some_iff_append.2 ⟨hentry, before, rest, rfl, fun other hother => ?_⟩
  have hnot := hbefore other hother
  rw [Bool.not_eq_true'] at hnot ⊢
  exact Bool.eq_false_iff.2 fun h => Bool.eq_false_iff.1 hnot (himp other h)

namespace Engine

variable {engine : Engine}

/-- Without a cache an identifier is answered by the first served resource that answers to it. -/
theorem resolve_of_empty (hdiscover : engine.gateway.discover.1 = .ok listings) (hempty : engine.cache = Cache.empty)
    (name : String) : (engine.resolve name).1 =
      match (served listings).find? (·.2.answersTo (Cache.keyOf name)) with
      | some entry => kindOfServed entry
      | none => .error (.kindNotFound name) := by
  obtain ⟨gateway, hgateway⟩ : ∃ gateway, engine.gateway.discover = (.ok listings, gateway) :=
    ⟨_, Prod.ext hdiscover rfl⟩
  have hlookup : engine.cache.lookup (Cache.keyOf name) = none := by
    rw [hempty]
    rfl
  rw [resolve, hlookup, hgateway]
  dsimp only
  rw [Cache.resolveIn_fst, Cache.scan, findKind?_eq]
  cases (served listings).find? (·.2.answersTo (Cache.keyOf name)) with
  | none => rfl
  | some entry =>
    dsimp only
    cases kindOfServed entry <;> rfl

/-- After warming an identifier is answered by the first served resource that is named by it. -/
theorem resolve_warm (hdiscover : engine.gateway.discover.1 = .ok listings) (hempty : engine.cache = Cache.empty)
    (hformed : VersionsWellFormed listings) {entry : String × Resource}
    (hentry : (served listings).find? (·.2.isNamed (Cache.keyOf name)) = some entry)
    (hkind : kindOfServed entry = .ok kind) : (engine.warm.2.resolve name).1 = .ok kind := by
  have hlookup : engine.warm.2.cache.lookup (Cache.keyOf name) = some kind := by
    rw [cache_warm hdiscover, hempty, Cache.warmFrom_snd, Cache.lookup_fill, Cache.lookup_offered hformed, hentry,
      Option.bind_some, hkind]
    rfl
  rw [resolve_of_lookup hlookup]

/-- In a catalog of well formed groups and versions every name leads to a resource, which a warmed cache has: the first
that has a name of the same lower case. A search without a cache answers with the first resource that spells the name,
if there is one. That is the same resource if it spells the name, as it does in ASCII catalogs, and, where plural names
are distinct, only then. -/
theorem resolve_listedName (hdiscover : engine.gateway.discover.1 = .ok listings) (hempty : engine.cache = Cache.empty)
    (hformed : VersionsWellFormed listings) (hname : ∃ entry ∈ served listings, name ∈ entry.2.aliases) :
    ∃ entry kind, (served listings).find? (·.2.isNamed (Cache.keyOf name)) = some entry ∧
      kindOfServed entry = .ok kind ∧
      (engine.warm.2.resolve name).1 = .ok kind ∧
      ((engine.resolve name).1 =
        match (served listings).find? (·.2.answersTo (Cache.keyOf name)) with
        | some other => kindOfServed other
        | none => .error (.kindNotFound name)) ∧
      (∀ other : Resource, other.answersTo (Cache.keyOf name) = true ↔ other.Spells name) ∧
      (entry.2.Spells name → (engine.resolve name).1 = .ok kind) ∧
      (AsciiNames listings → entry.2.Spells name) ∧
      (PluralsDistinct listings → (engine.resolve name).1 = .ok kind → entry.2.Spells name) := by
  obtain ⟨holder, hholder, hname⟩ := hname
  have hnamed : holder.2.isNamed (Cache.keyOf name) = true := Resource.isNamed_iff.2 ⟨name, hname, rfl⟩
  obtain ⟨entry, hentry⟩ : ∃ entry, (served listings).find? (·.2.isNamed (Cache.keyOf name)) = some entry := by
    rw [← Option.isSome_iff_exists, List.find?_isSome]
    exact ⟨holder, hholder, hnamed⟩
  have hmem := List.mem_of_find?_eq_some hentry
  obtain ⟨listing, hlisting, hversion, hresource⟩ := mem_served.1 hmem
  obtain ⟨parts, hparts⟩ := hformed listing hlisting
  have hkind : kindOfServed entry = .ok (.ofResource parts entry.2) := by
    rw [kindOfServed, hversion, hparts]
    rfl
  have hcold := resolve_of_empty hdiscover hempty name
  -- what spells the name is named by it, so the first resource of that name is passed by or found
  have himp : ∀ other : String × Resource, other.2.answersTo (Cache.keyOf name) = true →
      other.2.isNamed (Cache.keyOf name) = true := fun other h => (Resource.answersTo_keyOf_iff.1 h).isNamed
  have hfirst := find?_eq_some_iff_of_imp himp hentry
  refine ⟨entry, _, hentry, hkind, resolve_warm hdiscover hempty hformed hentry hkind, hcold,
    fun other => Resource.answersTo_keyOf_iff, fun hspells => ?_, fun hnames => ?_, fun hdistinct hsame => ?_⟩
  · rw [hcold, hfirst.2 (Resource.answersTo_keyOf_iff.2 hspells)]
    exact hkind
  · have hnamed : entry.2.isNamed (Cache.keyOf name) = true := by simpa using List.find?_some hentry
    exact Resource.spells_of_isAscii (hnames listing hlisting entry.2 hresource) hnamed
  · rw [hsame] at hcold
    cases hfound : (served listings).find? (·.2.answersTo (Cache.keyOf name)) with
    | none =>
      rw [hfound] at hcold
      cases hcold
    | some other =>
      rw [hfound] at hcold
      obtain rfl := eq_of_kindOfServed hdistinct (List.mem_of_find?_eq_some hfound) hmem hcold.symm hkind
      exact Resource.answersTo_keyOf_iff.1 (hfirst.1 hfound)

namespace Sample

/-- A catalog of one resource whose kind has a capital letter outside ASCII. -/
def eclairs (shortNames : List String) : List Listing :=
  [⟨"v1", [.inNamespaces "éclairs" "Éclair" shortNames]⟩]

/-- The engine over a store of that catalog. -/
def eclairEngine (shortNames : List String) : Engine :=
  .ofStore (.ofObjects (eclairs shortNames) [])

/-- The kind that the catalog has. -/
def eclair : Kind := ⟨⟨"", "v1", "éclairs"⟩, "Éclair", true⟩

end Sample

/-- A short name that spells the kind in small letters lets it be found. -/
theorem resolve_listedName_shortName :
    ((Sample.eclairEngine ["éclair"]).warm.2.resolve "Éclair").1 = .ok Sample.eclair ∧
      ((Sample.eclairEngine ["éclair"]).resolve "Éclair").1 = .ok Sample.eclair := by
  have hformed : VersionsWellFormed (Sample.eclairs ["éclair"]) := List.forall_mem_singleton.2 ⟨_, rfl⟩
  have hname : ∃ entry ∈ served (Sample.eclairs ["éclair"]), "Éclair" ∈ entry.2.aliases :=
    ⟨_, List.mem_singleton_self _, List.mem_cons_of_mem _ List.mem_cons_self⟩
  have hdiscover : (Sample.eclairEngine ["éclair"]).gateway.discover.1 = .ok (Sample.eclairs ["éclair"]) := rfl
  obtain ⟨entry, kind, hentry, hkind, hwarm, -, -, hcold, -, -⟩ := resolve_listedName hdiscover rfl hformed hname
  obtain rfl := List.mem_singleton.1 (List.mem_of_find?_eq_some hentry)
  obtain rfl : Sample.eclair = kind := Except.ok.inj hkind
  exact ⟨hwarm, hcold ⟨"éclair", by decide, by decide +kernel⟩⟩

/-- Without it the search passes by the kind under its own name, which a warmed cache knows. -/
theorem resolve_accented :
    VersionsWellFormed (Sample.eclairs []) ∧ (∃ entry ∈ served (Sample.eclairs []), "Éclair" ∈ entry.2.aliases) ∧
      (Sample.eclairEngine []).gateway.discover.1 = .ok (Sample.eclairs []) ∧
      (Sample.eclairEngine []).cache = Cache.empty ∧
      ((Sample.eclairEngine []).warm.2.resolve "Éclair").1 = .ok Sample.eclair ∧
      ((Sample.eclairEngine []).resolve "Éclair").1 = .error (.kindNotFound "Éclair") := by
  refine ⟨List.forall_mem_singleton.2 ⟨_, rfl⟩,
    ⟨_, List.mem_singleton_self _, List.mem_cons_of_mem _ List.mem_cons_self⟩, rfl, rfl, ?_, ?_⟩
  · decide +kernel
  · decide +kernel

end Engine

end ClusterQuery
