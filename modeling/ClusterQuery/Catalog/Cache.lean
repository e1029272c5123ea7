import ClusterQuery.Catalog.Kind
import ClusterQuery.Keyed

/-!
# The cache of kinds

Kinds by lower-cased identifier, in ascending order of the identifiers. An identifier is looked up once; what the cache
has under it stays until the cache is cleared. The two ways to fill it are functions of what discovery answers; warming
counts the entries that it makes.
-/

namespace ClusterQuery

/-- Cached kinds by lower-cased identifier, in ascending order. -/
structure Cache where
  entries : List (String × Kind)
  deriving DecidableEq, Repr

namespace Cache

/-- The cache without entries. -/
def empty : Cache := ⟨[]⟩

/-- The key of an identifier. -/
def keyOf (identifier : String) : String :=
  Text.lower identifier

/-- The kind under a key. -/
def lookup (cache : Cache) (key : String) : Option Kind :=
  cache.entries.lookup key

/-- The cache with a kind under a key, unless the key has one already. -/
def insert (cache : Cache) (key : String) (kind : Kind) : Cache :=
  if (cache.lookup key).isSome then cache else ⟨Keyed.insert key kind cache.entries⟩

/-- How many entries there are. -/
def size (cache : Cache) : Nat :=
  cache.entries.length

/-- What the listings say about an identifier that the cache does not have. -/
def resolveIn (cache : Cache) (identifier : String) (listings : List Listing) : Except CatalogError Kind × Cache :=
  match findKind? (keyOf identifier) listings with
  | .error cause => (.error cause, cache)
  | .ok none => (.error (.kindNotFound identifier), cache)
  | .ok (some kind) => (.ok kind, cache.insert (keyOf identifier) kind)

end Cache

/-- A cache that is being filled, and how many entries it got so far. -/
structure Filling where
  cache : Cache
  added : Nat
  deriving DecidableEq, Repr

namespace Filling

/-- A kind under a key, which counts, unless the key has one already. -/
def insert (filling : Filling) (key : String) (kind : Kind) : Filling :=
  if (filling.cache.lookup key).isSome then filling else ⟨filling.cache.insert key kind, filling.added + 1⟩

/-- A kind under each of the aliases that has none yet. -/
def insertAliases (filling : Filling) (kind : Kind) (aliases : List String) : Filling :=
  aliases.foldl (fun filling name => filling.insert (Cache.keyOf name) kind) filling

/-- The number of entries and the cache after every alias of the listings; at the first malformed group and version the
filling stops with the cache as it is by then. -/
def warmFrom (filling : Filling) : List Listing → Except CatalogError Nat × Cache
  | [] => (.ok filling.added, filling.cache)
  | listing :: rest =>
    match parseGroupVersion listing.groupVersion with
    | .error cause => (.error cause, filling.cache)
    | .ok parts =>
      let filled := listing.resources.foldl
        (fun filling resource => filling.insertAliases (.ofResource parts resource) resource.aliases) filling
      filled.warmFrom rest

end Filling

/-- How many entries the cache gets from the listings, and the cache with them. -/
def Cache.warmFrom (cache : Cache) (listings : List Listing) : Except CatalogError Nat × Cache :=
  (Filling.mk cache 0).warmFrom listings

end ClusterQuery
