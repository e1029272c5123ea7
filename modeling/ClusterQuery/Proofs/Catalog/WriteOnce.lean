import ClusterQuery.Execution.Engine
import ClusterQuery.Proofs.Catalog.Transparency

/-!
# The cache is written once

An entry of the cache is made where there is none, and stays until the cache is cleared. So a cache only grows
(`Cache.Grows`), whatever the catalog says when it is discovered: between two discoveries it may be another, be
malformed, or not be told at all. In a run of uses each of which finds a gateway of its own, an identifier that has a
kind is answered by it from then on, and nobody asks for the catalog (`Engine.writeOnce_afterUses`).
-/

namespace ClusterQuery

namespace Cache

/-- The second cache has the entries of the first, in order, and perhaps more. -/
structure Grows (before after : Cache) : Prop where
  sublist : before.entries.Sublist after.entries
  lookup : ∀ key kind, before.lookup key = some kind → after.lookup key = some kind
  ascending : Keyed.Ascending before.entries → Keyed.Ascending after.entries

theorem Grows.refl (cache : Cache) : cache.Grows cache :=
  ⟨List.Sublist.refl _, fun _ _ h => h, fun h => h⟩

theorem Grows.trans {first second third : Cache} (h : first.Grows second) (h' : second.Grows third) :
    first.Grows third :=
  ⟨h.sublist.trans h'.sublist, fun key kind hkind => h'.lookup key kind (h.lookup key kind hkind),
    fun hfirst => h'.ascending (h.ascending hfirst)⟩

/-- An insertion makes an entry where there is none. -/
theorem grows_insert (cache : Cache) (key : String) (kind : Kind) : cache.Grows (cache.insert key kind) where
  sublist := by
    unfold insert
    cases hkey : cache.lookup key with
    | some held => exact List.Sublist.refl _
    | none => exact Keyed.sublist_insert kind hkey
  lookup := fun other found hfound => by
    rw [lookup_insert, if_neg, hfound]
    rintro ⟨rfl, hfree⟩
    exact absurd (hfound.symm.trans hfree) (Option.some_ne_none found)
  ascending := fun h => by
    unfold insert
    split
    · exact h
    · exact Keyed.ascending_insert key kind h

theorem grows_fill (cache : Cache) (offers : List (String × Kind)) : cache.Grows (cache.fill offers) := by
  induction offers generalizing cache with
  | nil => exact Grows.refl cache
  | cons offer rest ih => exact (grows_insert cache offer.1 offer.2).trans (ih _)

/-- Warming only adds entries, also when it stops half way. -/
theorem grows_warmFrom (cache : Cache) (listings : List Listing) : cache.Grows (cache.warmFrom listings).2 := by
  rw [warmFrom_snd]
  exact grows_fill cache _

theorem grows_resolveIn (cache : Cache) (identifier : String) (listings : List Listing) :
    cache.Grows (cache.resolveIn identifier listings).2 := by
  unfold resolveIn
  split
  · exact Grows.refl cache
  · exact Grows.refl cache
  · exact grows_insert cache _ _

/-- A cache that has nothing for an identifier has its kind when resolving has found one, and else is left. -/
theorem resolveIn_keeps {cache : Cache} {identifier : String} (listings : List Listing)
    (hfree : cache.lookup (keyOf identifier) = none) :
    (∀ kind, (cache.resolveIn identifier listings).1 = .ok kind →
      (cache.resolveIn identifier listings).2.lookup (keyOf identifier) = some kind) ∧
    ∀ cause, (cache.resolveIn identifier listings).1 = .error cause →
      (cache.resolveIn identifier listings).2 = cache := by
  unfold resolveIn
  split
  · exact ⟨nofun, fun _ _ => rfl⟩
  · exact ⟨nofun, fun _ _ => rfl⟩
  · refine ⟨fun kind h => ?_, nofun⟩
    cases h
    rw [lookup_insert, if_pos ⟨rfl, hfree⟩]

end Cache

/-- What a cache is used for. -/
inductive Use where
  | resolve (identifier : String)
  | warm
  | clear
  deriving DecidableEq

/-- Discovery may be answered by any catalog and by any error. -/
theorem Gateway.exists_discover_eq (answer : Except StoreError (List Listing)) :
    ∃ gateway : Gateway, gateway.discover.1 = answer := by
  cases answer with
  | ok listings => exact ⟨Gateway.ofStore (Store.ofObjects listings []), rfl⟩
  | error cause => exact ⟨⟨Store.ofObjects [] [], some ⟨[.discover], cause, 0⟩⟩, rfl⟩

namespace Engine

/-- The engine with another gateway. -/
def facing (engine : Engine) (gateway : Gateway) : Engine :=
  { engine with gateway := gateway }

/-- The engine after a use of its cache. -/
def afterUse (engine : Engine) : Use → Engine
  | .resolve identifier => (engine.resolve identifier).2
  | .warm => engine.warm.2
  | .clear => engine.clearCache

/-- The engine after uses of its cache, each of which finds a gateway of its own. -/
def afterUses (engine : Engine) (uses : List (Gateway × Use)) : Engine :=
  uses.foldl (fun engine asked => (engine.facing asked.1).afterUse asked.2) engine

/-- What is cached is answered, and nothing is asked for. -/
theorem resolve_of_lookup {engine : Engine} {identifier : String} {kind : Kind}
    (h : engine.cache.lookup (Cache.keyOf identifier) = some kind) :
    engine.resolve identifier = (.ok kind, engine) := by
  rw [resolve, h]

/-- Resolving leaves the kind that it answers in the cache; when it fails it leaves the cache. -/
theorem resolve_cases (engine : Engine) (identifier : String) :
    (∃ kind, (engine.resolve identifier).1 = .ok kind ∧
      (engine.resolve identifier).2.cache.lookup (Cache.keyOf identifier) = some kind ∧
      engine.cache.Grows (engine.resolve identifier).2.cache) ∨
    ∃ cause, (engine.resolve identifier).1 = .error cause ∧ (engine.resolve identifier).2.cache = engine.cache := by
  cases hlookup : engine.cache.lookup (Cache.keyOf identifier) with
  | some kind =>
    rw [resolve_of_lookup hlookup]
    exact Or.inl ⟨kind, rfl, hlookup, Cache.Grows.refl _⟩
  | none =>
    unfold resolve
    rw [hlookup]
    rcases engine.gateway.discover with ⟨cause | listings, gateway⟩
    · exact Or.inr ⟨_, rfl, rfl⟩
    · dsimp only
      have hkeeps := Cache.resolveIn_keeps listings hlookup
      cases hanswer : (engine.cache.resolveIn identifier listings).1 with
      | error cause => exact Or.inr ⟨cause, rfl, hkeeps.2 cause hanswer⟩
      | ok kind =>
        exact Or.inl ⟨kind, rfl, hkeeps.1 kind hanswer, Cache.grows_resolveIn engine.cache identifier listings⟩

/-- Warming fills the cache from the catalog that discovery tells, whether or not it comes to the end. -/
theorem cache_warm {engine : Engine} {listings : List Listing} (h : engine.gateway.discover.1 = .ok listings) :
    engine.warm.2.cache = (engine.cache.warmFrom listings).2 := by
  obtain ⟨gateway, hdiscover⟩ : ∃ gateway, engine.gateway.discover = (.ok listings, gateway) := ⟨_, Prod.ext h rfl⟩
  rw [warm, hdiscover]
  dsimp only
  split
  all_goals
    rename_i hfilled
    exact (congrArg Prod.snd hfilled).symm

/-- Warming an engine only adds entries to its cache, also when the catalog is not told. -/
theorem grows_warm (engine : Engine) : engine.cache.Grows engine.warm.2.cache := by
  cases h : engine.gateway.discover.1 with
  | error cause =>
    have hdiscover : engine.gateway.discover = (.error cause, engine.gateway.discover.2) := Prod.ext h rfl
    rw [warm, hdiscover]
    exact Cache.Grows.refl _
  | ok listings =>
    rw [cache_warm h]
    exact Cache.grows_warmFrom engine.cache listings

/-- A use other than clearing only adds entries. -/
theorem grows_afterUse (engine : Engine) {asked : Use} (h : asked ≠ .clear) :
    engine.cache.Grows (engine.afterUse asked).cache := by
  cases asked with
  | resolve identifier =>
    rcases resolve_cases engine identifier with ⟨_, -, -, hgrows⟩ | ⟨_, -, hsame⟩
    · exact hgrows
    · rw [afterUse, hsame]
      exact Cache.Grows.refl _
  | warm => exact grows_warm engine
  | clear => exact absurd rfl h

/-- Uses other than clearing only add entries. -/
theorem grows_afterUses {uses : List (Gateway × Use)} (h : ∀ asked ∈ uses, asked.2 ≠ .clear) (engine : Engine) :
    engine.cache.Grows (engine.afterUses uses).cache := by
  induction uses generalizing engine with
  | nil => exact Cache.Grows.refl _
  | cons asked rest ih =>
    obtain ⟨hfirst, hrest⟩ := List.forall_mem_cons.1 h
    exact (grows_afterUse (engine.facing asked.1) hfirst).trans (ih hrest _)

/-- Every use leaves the identifiers of the cache in ascending order. -/
theorem ascending_afterUses (uses : List (Gateway × Use)) {engine : Engine}
    (h : Keyed.Ascending engine.cache.entries) : Keyed.Ascending (engine.afterUses uses).cache.entries := by
  induction uses generalizing engine with
  | nil => exact h
  | cons asked rest ih =>
    have hstep : Keyed.Ascending ((engine.facing asked.1).afterUse asked.2).cache.entries := by
      by_cases hclear : asked.2 = .clear
      · rw [hclear]
        exact List.Pairwise.nil
      · exact (grows_afterUse (engine.facing asked.1) hclear).ascending h
    exact ih hstep

/-- The cache of an engine is written once, whatever gateways the engine faces. -/
structure WriteOnce (engine : Engine) : Prop where
  /-- Each identifier is there once. -/
  ascending : Keyed.Ascending engine.cache.entries
  mem_entries_iff : ∀ key kind, (key, kind) ∈ engine.cache.entries ↔ engine.cache.lookup key = some kind
  /-- A kind that is answered is cached. -/
  cached : ∀ gateway identifier kind, ((engine.facing gateway).resolve identifier).1 = .ok kind →
    ((engine.facing gateway).resolve identifier).2.cache.lookup (Cache.keyOf identifier) = some kind
  /-- A kind that is cached is answered, without a call, under every spelling, until the cache is cleared. -/
  kept : ∀ key kind, engine.cache.lookup key = some kind →
    ∀ uses : List (Gateway × Use), (∀ asked ∈ uses, asked.2 ≠ .clear) →
      ∀ gateway identifier, Cache.keyOf identifier = key →
        ((engine.afterUses uses).facing gateway).resolve identifier =
          (.ok kind, (engine.afterUses uses).facing gateway)
  /-- Resolving that fails leaves the cache. -/
  left : ∀ gateway identifier cause, ((engine.facing gateway).resolve identifier).1 = .error cause →
    ((engine.facing gateway).resolve identifier).2.cache = engine.cache
  /-- Warming that fails leaves all entries, and so does warming that does not. -/
  grows : ∀ gateway, engine.cache.entries.Sublist (engine.facing gateway).warm.2.cache.entries

/-- Whatever discovery answers, and it may answer anything, the cache that uses have led to from an empty one is written
once. -/
theorem writeOnce_afterUses :
    (∀ answer, ∃ gateway : Gateway, gateway.discover.1 = answer) ∧
    ∀ (store : Store) (uses : List (Gateway × Use)), ((ofStore store).afterUses uses).WriteOnce := by
  refine ⟨Gateway.exists_discover_eq, fun store uses => ?_⟩
  have hascending : Keyed.Ascending ((ofStore store).afterUses uses).cache.entries :=
    ascending_afterUses uses List.Pairwise.nil
  generalize (ofStore store).afterUses uses = engine at hascending
  refine ⟨hascending, fun key kind => hascending.lookup_eq_some_iff.symm, fun gateway identifier kind hok => ?_,
    fun key kind hcached later hkept gateway identifier hkey => ?_, fun gateway identifier cause herror => ?_,
    fun gateway => (grows_warm (engine.facing gateway)).sublist⟩
  · rcases resolve_cases (engine.facing gateway) identifier with ⟨found, hfound, hlookup, -⟩ | ⟨_, hfailed, -⟩
    · rw [hok] at hfound
      cases hfound
      exact hlookup
    · rw [hok] at hfailed
      cases hfailed
  · subst hkey
    exact resolve_of_lookup ((grows_afterUses hkept engine).lookup _ kind hcached)
  · rcases resolve_cases (engine.facing gateway) identifier with ⟨_, hfound, -, -⟩ | ⟨_, -, hsame⟩
    · rw [herror] at hfound
      cases hfound
    · exact hsame

end Engine

end ClusterQuery
