import ClusterQuery.Catalog.Cache
import ClusterQuery.Store.Gateway

/-!
# Engines

An engine is what queries run on: the gateway to a store, the cache of resource kinds and the log. Every step gives an
answer or an error and the engine after it, so what a failed step has done is in its engine.
-/

namespace ClusterQuery

/-- The gateway, the cache of kinds and the lines logged so far. -/
structure Engine where
  gateway : Gateway
  cache : Cache
  log : List String

namespace Engine

/-- The engine over a store, before anything has run. -/
def ofStore (store : Store) : Engine :=
  ⟨Gateway.ofStore store, Cache.empty, []⟩

/-- The engine with one more line in its log. -/
def note (engine : Engine) (line : String) : Engine :=
  { engine with log := engine.log ++ [line] }

/-- The kind of an identifier: from the cache, or else from one discovery call, whose answer the cache keeps. -/
def resolve (engine : Engine) (identifier : String) : Except CatalogError Kind × Engine :=
  match engine.cache.lookup (Cache.keyOf identifier) with
  | some kind => (.ok kind, engine)
  | none =>
    match engine.gateway.discover with
    | (.error cause, gateway) => (.error (.discovery cause), { engine with gateway := gateway })
    | (.ok listings, gateway) =>
      let (answer, cache) := engine.cache.resolveIn identifier listings
      (answer, { engine with gateway := gateway, cache := cache })

/-- Fills the cache from one discovery call and answers the number of new entries. -/
def warm (engine : Engine) : Except CatalogError Nat × Engine :=
  match engine.gateway.discover with
  | (.error cause, gateway) => (.error (.discovery cause), { engine with gateway := gateway })
  | (.ok listings, gateway) =>
    match engine.cache.warmFrom listings with
    | (.error cause, cache) => (.error cause, { engine with gateway := gateway, cache := cache })
    | (.ok added, cache) =>
      (.ok added,
        { engine with gateway := gateway, cache := cache }.note
          ("resolver cache warmed with " ++ toString added ++ " new entries"))

/-- Empties the cache. -/
def clearCache (engine : Engine) : Engine :=
  { engine.note ("clearing " ++ toString engine.cache.size ++ " resolver cache entries") with cache := Cache.empty }

end Engine

end ClusterQuery
