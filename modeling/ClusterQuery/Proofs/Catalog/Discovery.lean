import Mathlib.Algebra.Order.BigOperators.Group.Finset
import Mathlib.Data.Finset.Card
import Mathlib.Data.Fintype.Basic
import Mathlib.Logic.Function.Basic
import Mathlib.Logic.Relation
import ClusterQuery.Execution.Engine
import ClusterQuery.Proofs.Catalog.Resolution

/-!
# Resolving at the same time

Callers that resolve identifiers at the same time share the cache and a lock. Each reads the cache; one that misses
waits for the lock and reads again under it, and only one that misses again discovers the catalog, keeps what it says
and releases the lock. The steps of the callers come in any order (`Resolving.Step`), so a miss may be out of date when
the lock is taken. Whoever is past the lock is alone there and has seen the cache without its key (`Resolving.Sound`):
no key is discovered twice with success, and the answers to one key agree.
-/

namespace ClusterQuery

/-- The listings have a kind for the key. -/
def resolvable (listings : List Listing) (key : String) : Bool :=
  match findKind? key listings with
  | .ok (some _) => true
  | _ => false

/-- What a cache without the key of an identifier has after resolving it: nothing new, if the listings have no kind for
the key, or else that kind under it. -/
theorem Cache.resolveIn_of_lookup_eq_none (listings : List Listing) {cache : Cache} {identifier : String}
    (hmissed : cache.lookup (keyOf identifier) = none) :
    (resolvable listings (keyOf identifier) = false ∧
      ∃ cause, cache.resolveIn identifier listings = (.error cause, cache)) ∨
    (resolvable listings (keyOf identifier) = true ∧ ∃ kind after,
      cache.resolveIn identifier listings = (.ok kind, after) ∧
      ∀ key, after.lookup key = if key = keyOf identifier then some kind else cache.lookup key) := by
  unfold resolveIn resolvable
  rcases findKind? (keyOf identifier) listings with cause | _ | kind
  · exact Or.inl ⟨rfl, cause, rfl⟩
  · exact Or.inl ⟨rfl, .kindNotFound identifier, rfl⟩
  · refine Or.inr ⟨rfl, kind, _, rfl, fun key => ?_⟩
    rw [lookup_insert, hmissed]
    simp

namespace Resolving

/-- How far a call has come. -/
inductive Stage where
  | asked
  /-- The cache had no kind, and the lock is wanted. -/
  | waiting
  /-- The lock is held, and the cache is still to be read again. -/
  | entered
  /-- The cache had no kind under the lock either. -/
  | unseen
  /-- The catalog has been discovered. -/
  | told
  /-- The lock is still held. -/
  | leaving (answer : Except CatalogError Kind)
  | answered (answer : Except CatalogError Kind)
  deriving DecidableEq

/-- The cache and the lock that the callers share, how far each has come, and who has discovered the catalog, in
order. -/
structure Scene (Caller : Type) where
  cache : Cache
  lock : Option Caller
  stage : Caller → Stage
  discoveries : List Caller

/-- The scene before the first step. -/
def Scene.start (Caller : Type) (cache : Cache) : Scene Caller :=
  ⟨cache, none, fun _ => .asked, []⟩

variable {Caller : Type}

/-- The key that a caller looks up. -/
def keyAt (identifier : Caller → String) (caller : Caller) : String :=
  Cache.keyOf (identifier caller)

/-- The keys that have been discovered with success, in order. -/
def Scene.successes (identifier : Caller → String) (listings : List Listing) (scene : Scene Caller) : List String :=
  (scene.discoveries.map (keyAt identifier)).filter (resolvable listings)

section Steps

variable [DecidableEq Caller] (identifier : Caller → String) (listings : List Listing)

/-- The scene with a caller at another stage. -/
def Scene.moved (scene : Scene Caller) (caller : Caller) (stage : Stage) : Scene Caller :=
  { scene with stage := Function.update scene.stage caller stage }

/-- What reading the cache for a caller leads to. -/
def Scene.read (scene : Scene Caller) (caller : Caller) (hit : Kind → Stage) (miss : Stage) : Scene Caller :=
  match scene.cache.lookup (keyAt identifier caller) with
  | some kind => scene.moved caller (hit kind)
  | none => scene.moved caller miss

/-- The scene after the next step of a caller, if the caller can take one: it cannot while it wants a lock that is held,
nor after its answer. What is kept in the cache is answered as it stands there. -/
def Scene.advance (scene : Scene Caller) (caller : Caller) : Option (Scene Caller) :=
  match scene.stage caller with
  | .asked => some (scene.read identifier caller (fun kind => .answered (.ok kind)) .waiting)
  | .waiting => if scene.lock.isNone then some { scene.moved caller .entered with lock := some caller } else none
  | .entered => some (scene.read identifier caller (fun kind => .leaving (.ok kind)) .unseen)
  | .unseen => some { scene.moved caller .told with discoveries := scene.discoveries ++ [caller] }
  | .told =>
    let (answer, cache) := scene.cache.resolveIn (identifier caller) listings
    let stands := answer.map fun kind => (cache.lookup (keyAt identifier caller)).getD kind
    some { scene.moved caller (.leaving stands) with cache := cache }
  | .leaving answer => some { scene.moved caller (.answered answer) with lock := none }
  | .answered _ => none

/-- One step of some caller. -/
def Step (before after : Scene Caller) : Prop :=
  ∃ caller, before.advance identifier listings caller = some after

/-- The steps of callers in an order in which each can be taken. -/
theorem reached_of_foldlM (callers : List Caller) {before after : Scene Caller}
    (h : callers.foldlM (Scene.advance identifier listings) before = some after) :
    Relation.ReflTransGen (Step identifier listings) before after := by
  induction callers generalizing before with
  | nil =>
    cases h
    exact .refl
  | cons caller rest ih =>
    rw [List.foldlM_cons] at h
    obtain ⟨middle, hfirst, hrest⟩ := Option.bind_eq_some_iff.1 h
    exact .head ⟨caller, hfirst⟩ (ih hrest)

end Steps

/-! ## What holds at every stage -/

/-- The stages at which a caller holds the lock. -/
def Stage.inside : Stage → Bool
  | .entered | .unseen | .told | .leaving _ => true
  | _ => false

section Invariant

variable (identifier : Caller → String) (listings : List Listing)

/-- What the answer of a caller tells: a kind is what the cache has, and after an error the caller has asked the
catalog, which has no kind for it. -/
def Scene.Bears (scene : Scene Caller) (caller : Caller) : Except CatalogError Kind → Prop
  | .ok kind => scene.cache.lookup (keyAt identifier caller) = some kind
  | .error _ => caller ∈ scene.discoveries ∧ resolvable listings (keyAt identifier caller) = false

/-- What the stage of a caller tells. -/
def Scene.Fits (scene : Scene Caller) (caller : Caller) : Stage → Prop
  | .asked | .waiting | .entered => caller ∉ scene.discoveries
  | .unseen => caller ∉ scene.discoveries ∧ scene.cache.lookup (keyAt identifier caller) = none
  | .told => caller ∈ scene.discoveries ∧ scene.cache.lookup (keyAt identifier caller) = none
  | .leaving answer | .answered answer => scene.Bears identifier listings caller answer

/-- A scene to which steps have led from a cache. -/
structure Sound (start : Cache) (scene : Scene Caller) : Prop where
  fits : ∀ caller, scene.Fits identifier listings caller (scene.stage caller)
  holder : ∀ caller, scene.lock = some caller ↔ (scene.stage caller).inside = true
  /-- The cache has lost nothing. -/
  kept : ∀ key kind, start.lookup key = some kind → scene.cache.lookup key = some kind
  /-- What the cache has gained has been discovered. -/
  known : ∀ key kind, scene.cache.lookup key = some kind →
    start.lookup key = some kind ∨ key ∈ scene.successes identifier listings
  uncached : ∀ caller ∈ scene.discoveries, start.lookup (keyAt identifier caller) = none
  /-- What has been discovered is in the cache, but for that of the caller who is about to put it there. -/
  pending : ∀ caller ∈ scene.discoveries, resolvable listings (keyAt identifier caller) = true →
    scene.stage caller = .told ∨ scene.cache.lookup (keyAt identifier caller) ≠ none
  nodup : scene.discoveries.Nodup
  once : (scene.successes identifier listings).Nodup

end Invariant

section Facts

variable {identifier : Caller → String} {listings : List Listing} {start : Cache} {before after scene : Scene Caller}
  {caller : Caller}

theorem mem_successes {key : String} : key ∈ scene.successes identifier listings ↔
    (∃ caller ∈ scene.discoveries, keyAt identifier caller = key) ∧ resolvable listings key = true := by
  rw [Scene.successes, List.mem_filter, List.mem_map]

theorem sound_start (cache : Cache) : Sound identifier listings cache (Scene.start Caller cache) where
  fits := fun _ => List.not_mem_nil
  holder := fun _ => ⟨nofun, nofun⟩
  kept := fun _ _ h => h
  known := fun _ _ h => Or.inl h
  uncached := nofun
  pending := nofun
  nodup := List.nodup_nil
  once := List.nodup_nil

/-- The stage of the caller that is moved. -/
theorem Scene.stage_moved_self [DecidableEq Caller] (scene : Scene Caller) (caller : Caller) (stage : Stage) :
    (scene.moved caller stage).stage caller = stage :=
  Function.update_self ..

/-- The stage of any other caller. -/
theorem Scene.stage_moved_of_ne [DecidableEq Caller] (scene : Scene Caller) {caller other : Caller} (h : other ≠ caller)
    (stage : Stage) : (scene.moved caller stage).stage other = scene.stage other :=
  Function.update_of_ne h ..

/-- What a stage tells stays true while others go on: the cache grows, and only the caller itself discovers the catalog
for it. -/
theorem Scene.Fits.of_grows {stage : Stage} (h : before.Fits identifier listings caller stage)
    (hmem : caller ∈ after.discoveries ↔ caller ∈ before.discoveries)
    (hgrows : ∀ key kind, before.cache.lookup key = some kind → after.cache.lookup key = some kind)
    (hinside : stage.inside = true → after.cache = before.cache) : after.Fits identifier listings caller stage := by
  have hbears : ∀ answer, before.Bears identifier listings caller answer → after.Bears identifier listings caller answer
    | .ok kind, hb => hgrows _ kind hb
    | .error _, hb => ⟨hmem.2 hb.1, hb.2⟩
  cases stage with
  | asked => exact fun hin => h (hmem.1 hin)
  | waiting => exact fun hin => h (hmem.1 hin)
  | entered => exact fun hin => h (hmem.1 hin)
  | unseen => exact ⟨fun hin => h.1 (hmem.1 hin), hinside rfl ▸ h.2⟩
  | told => exact ⟨hmem.2 h.1, hinside rfl ▸ h.2⟩
  | leaving answer => exact hbears answer h
  | answered answer => exact hbears answer h

variable [DecidableEq Caller]

/-- What the stages tell after a step of one caller, when the step spares the others. -/
theorem fits_moved {stage : Stage} (h : Sound identifier listings start before)
    (hstage : after.stage = Function.update before.stage caller stage)
    (hfits : after.Fits identifier listings caller stage)
    (hmem : ∀ other ≠ caller, other ∈ after.discoveries ↔ other ∈ before.discoveries)
    (hgrows : ∀ key kind, before.cache.lookup key = some kind → after.cache.lookup key = some kind)
    (hcache : ∀ other ≠ caller, before.lock = some other → after.cache = before.cache) (other : Caller) :
    after.Fits identifier listings other (after.stage other) := by
  rw [hstage]
  by_cases hother : other = caller
  · rw [hother, Function.update_self]
    exact hfits
  · rw [Function.update_of_ne hother]
    exact (h.fits other).of_grows (hmem other hother) hgrows fun hinside =>
      hcache other hother ((h.holder other).2 hinside)

/-- Who holds the lock after a step that neither takes nor releases it. -/
theorem holder_moved {stage : Stage} (h : Sound identifier listings start before)
    (hstage : after.stage = Function.update before.stage caller stage)
    (hinside : stage.inside = (before.stage caller).inside) (hlock : after.lock = before.lock) (other : Caller) :
    after.lock = some other ↔ (after.stage other).inside = true := by
  rw [hlock, h.holder other, hstage]
  by_cases hother : other = caller
  · rw [hother, Function.update_self, hinside]
  · rw [Function.update_of_ne hother]

/-- A caller may go to a stage that tells what holds and holds the lock or does not, as the one before. -/
theorem Sound.moved {stage : Stage} (h : Sound identifier listings start scene)
    (hinside : stage.inside = (scene.stage caller).inside) (hfits : scene.Fits identifier listings caller stage)
    (hcaller : caller ∉ scene.discoveries) : Sound identifier listings start (scene.moved caller stage) where
  fits := fits_moved h rfl hfits (fun _ _ => Iff.rfl)
    (fun _ _ hfound => hfound) fun _ _ _ => rfl
  holder := holder_moved h rfl hinside rfl
  kept := h.kept
  known := h.known
  uncached := h.uncached
  pending := fun other hother hkey => by
    have hne : other ≠ caller := fun heq => hcaller (heq ▸ hother)
    exact (h.pending other hother hkey).imp_left (scene.stage_moved_of_ne hne _).trans
  nodup := h.nodup
  once := h.once

/-- Reading the cache keeps a scene sound, whatever it finds. -/
theorem Sound.read {hit : Kind → Stage} {miss : Stage} (h : Sound identifier listings start scene)
    (hcaller : caller ∉ scene.discoveries) (hhit : ∀ kind, (hit kind).inside = (scene.stage caller).inside)
    (hmiss : miss.inside = (scene.stage caller).inside)
    (hfound : ∀ kind, scene.cache.lookup (keyAt identifier caller) = some kind →
      scene.Fits identifier listings caller (hit kind))
    (hnone : scene.cache.lookup (keyAt identifier caller) = none → scene.Fits identifier listings caller miss) :
    Sound identifier listings start (scene.read identifier caller hit miss) := by
  unfold Scene.read
  split
  · rename_i kind hlookup
    exact h.moved (hhit kind) (hfound kind hlookup) hcaller
  · rename_i hlookup
    exact h.moved hmiss (hnone hlookup) hcaller

/-- Taking the lock when it is free. -/
theorem Sound.enter (h : Sound identifier listings start scene) (hstage : scene.stage caller = .waiting)
    (hfree : scene.lock = none) :
    Sound identifier listings start { scene.moved caller .entered with lock := some caller } where
  fits := by
    have hfits := h.fits caller
    rw [hstage] at hfits
    exact fits_moved h rfl hfits (fun _ _ => Iff.rfl) (fun _ _ hfound => hfound) fun _ _ _ => rfl
  holder := fun other => by
    by_cases hother : other = caller
    · rw [hother]
      exact ⟨fun _ => congrArg Stage.inside (scene.stage_moved_self caller .entered), fun _ => rfl⟩
    · have hout : (scene.stage other).inside = false := by
        rw [Bool.eq_false_iff, Ne, ← h.holder other, hfree]
        exact nofun
      have hsame : (scene.moved caller .entered).stage other = scene.stage other := scene.stage_moved_of_ne hother _
      rw [hsame, hout]
      exact ⟨fun heq => absurd (Option.some.inj heq).symm hother, nofun⟩
  kept := h.kept
  known := h.known
  uncached := h.uncached
  pending := fun other hother hkey => by
    have hne : other ≠ caller := by
      rintro rfl
      have hfits := h.fits other
      rw [hstage] at hfits
      exact hfits hother
    exact (h.pending other hother hkey).imp_left (scene.stage_moved_of_ne hne _).trans
  nodup := h.nodup
  once := h.once

/-- Discovering the catalog: the caller is alone past the lock, and its key is not in the cache, so nobody has
discovered it with success. -/
theorem Sound.discover (h : Sound identifier listings start scene) (hstage : scene.stage caller = .unseen) :
    Sound identifier listings start
      { scene.moved caller .told with discoveries := scene.discoveries ++ [caller] } := by
  have hfits := h.fits caller
  rw [hstage] at hfits
  obtain ⟨hcaller, hmissed⟩ := hfits
  have hlock : scene.lock = some caller := (h.holder caller).2 (by rw [hstage]; rfl)
  have hnew : resolvable listings (keyAt identifier caller) = true →
      keyAt identifier caller ∉ scene.successes identifier listings := by
    intro hkey hmem
    obtain ⟨⟨other, hother, heq⟩, -⟩ := mem_successes.1 hmem
    rcases h.pending other hother (heq ▸ hkey) with htold | hheld
    · have hsame : scene.lock = some other := (h.holder other).2 (by rw [htold]; rfl)
      rw [hlock] at hsame
      cases hsame
      exact hcaller hother
    · rw [heq] at hheld
      exact hheld hmissed
  have hsuccesses : ({ scene.moved caller .told with discoveries := scene.discoveries ++ [caller] } :
      Scene Caller).successes identifier listings = scene.successes identifier listings ++
        [keyAt identifier caller].filter (resolvable listings) := by
    rw [Scene.successes, List.map_append, List.filter_append]
    rfl
  refine ⟨?_, ?_, h.kept, fun key kind hfound => ?_, fun other hother => ?_, fun other hother hkey => ?_, ?_, ?_⟩
  · refine fits_moved h rfl ⟨List.mem_append_right _ List.mem_cons_self, hmissed⟩ (fun other hne => ?_)
      (fun _ _ hfound => hfound) fun _ _ _ => rfl
    simp [hne]
  · exact holder_moved h rfl (by rw [hstage]; rfl) rfl
  · rw [hsuccesses]
    exact (h.known key kind hfound).imp_right (List.mem_append_left _)
  · rcases List.mem_append.1 hother with hother | hother
    · exact h.uncached other hother
    · rw [List.mem_singleton.1 hother]
      cases hstart : start.lookup (keyAt identifier caller) with
      | none => rfl
      | some kind => exact absurd (h.kept _ kind hstart) (by rw [hmissed]; exact nofun)
  · rcases List.mem_append.1 hother with hother | hother
    · have hne : other ≠ caller := fun heq => hcaller (heq ▸ hother)
      exact (h.pending other hother hkey).imp_left (scene.stage_moved_of_ne hne _).trans
    · rw [List.mem_singleton.1 hother]
      exact Or.inl (scene.stage_moved_self caller .told)
  · exact List.nodup_append.2 ⟨h.nodup, List.nodup_singleton caller, fun other hother last hlast => by
      rw [List.mem_singleton.1 hlast]
      exact fun heq => hcaller (heq ▸ hother)⟩
  · rw [hsuccesses]
    refine List.nodup_append.2 ⟨h.once, (List.nodup_singleton _).filter _, fun key hkey last hlast => ?_⟩
    obtain ⟨hlast, hres⟩ := List.mem_filter.1 hlast
    rw [List.mem_singleton.1 hlast] at hres ⊢
    exact fun heq => hnew hres (heq ▸ hkey)

/-- Keeping what the catalog says, and answering what the cache then has. -/
theorem Sound.keep (h : Sound identifier listings start scene) (hstage : scene.stage caller = .told)
    {cache : Cache} {answer : Except CatalogError Kind}
    (hkeep : scene.cache.resolveIn (identifier caller) listings = (answer, cache)) :
    Sound identifier listings start { scene.moved caller
      (.leaving (answer.map fun kind => (cache.lookup (keyAt identifier caller)).getD kind)) with cache := cache } := by
  have hfits := h.fits caller
  rw [hstage] at hfits
  obtain ⟨hcaller, hmissed⟩ := hfits
  have hlock : scene.lock = some caller := (h.holder caller).2 (by rw [hstage]; rfl)
  have hothers : ∀ other ≠ caller, scene.lock = some other → cache = scene.cache := by
    intro other hne hother
    rw [hlock] at hother
    exact absurd (Option.some.inj hother).symm hne
  rcases Cache.resolveIn_of_lookup_eq_none listings hmissed with
    ⟨hnone, cause, heq⟩ | ⟨hsome, kind, after, heq, hlookup⟩
  · rw [heq] at hkeep
    cases hkeep
    refine ⟨?_, holder_moved h rfl (by rw [hstage]; rfl) rfl, h.kept, h.known, h.uncached,
      fun other hother hkey => ?_, h.nodup, h.once⟩
    · exact fits_moved h rfl ⟨hcaller, hnone⟩ (fun _ _ => Iff.rfl) (fun _ _ hfound => hfound) hothers
    · have hne : other ≠ caller := by
        rintro rfl
        exact absurd (hnone.symm.trans hkey) nofun
      exact (h.pending other hother hkey).imp_left (scene.stage_moved_of_ne hne _).trans
  · rw [heq] at hkeep
    cases hkeep
    have hgrows : ∀ key held, scene.cache.lookup key = some held → cache.lookup key = some held := by
      intro key held hheld
      rw [hlookup, if_neg, hheld]
      rintro rfl
      exact absurd (hmissed.symm.trans hheld) nofun
    have hown : cache.lookup (keyAt identifier caller) = some kind := by rw [hlookup, keyAt, if_pos rfl]
    refine ⟨?_, holder_moved h rfl (by rw [hstage]; rfl) rfl,
      fun key held hheld => hgrows key held (h.kept key held hheld), fun key held hheld => ?_, h.uncached,
      fun other hother hkey => ?_, h.nodup, h.once⟩
    · refine fits_moved h rfl ?_ (fun _ _ => Iff.rfl) hgrows hothers
      rw [hown]
      exact hown
    · rw [hlookup] at hheld
      split at hheld
      · rename_i hkey
        exact Or.inr (mem_successes.2 ⟨⟨caller, hcaller, hkey.symm⟩, hkey ▸ hsome⟩)
      · exact h.known key held hheld
    · refine Or.inr ?_
      by_cases hne : other = caller
      · rw [hne, hown]
        exact nofun
      · rcases h.pending other hother hkey with htold | hheld
        · have hsame : scene.lock = some other := (h.holder other).2 (by rw [htold]; rfl)
          rw [hlock] at hsame
          exact absurd (Option.some.inj hsame).symm hne
        · obtain ⟨held, hheld⟩ := Option.ne_none_iff_exists'.1 hheld
          rw [hgrows _ held hheld]
          exact nofun

/-- Releasing the lock and returning. -/
theorem Sound.leave {answer : Except CatalogError Kind} (h : Sound identifier listings start scene)
    (hstage : scene.stage caller = .leaving answer) :
    Sound identifier listings start { scene.moved caller (.answered answer) with lock := none } where
  fits := by
    have hfits := h.fits caller
    rw [hstage] at hfits
    exact fits_moved h rfl hfits (fun _ _ => Iff.rfl) (fun _ _ hfound => hfound) fun _ _ _ => rfl
  holder := fun other => by
    have hlock : scene.lock = some caller := (h.holder caller).2 (by rw [hstage]; rfl)
    have hout : ((scene.moved caller (.answered answer)).stage other).inside = false := by
      by_cases hother : other = caller
      · rw [hother, scene.stage_moved_self]
        rfl
      · rw [scene.stage_moved_of_ne hother, Bool.eq_false_iff, Ne, ← h.holder other, hlock]
        exact fun heq => hother (Option.some.inj heq).symm
    rw [hout]
    exact ⟨nofun, nofun⟩
  kept := h.kept
  known := h.known
  uncached := h.uncached
  pending := fun other hother hkey => by
    rcases h.pending other hother hkey with htold | hheld
    · have hne : other ≠ caller := by
        rintro rfl
        exact absurd (hstage.symm.trans htold) nofun
      exact Or.inl ((scene.stage_moved_of_ne hne _).trans htold)
    · exact Or.inr hheld
  nodup := h.nodup
  once := h.once

/-- A step keeps a scene sound. -/
theorem Sound.step (h : Sound identifier listings start before) (hstep : Step identifier listings before after) :
    Sound identifier listings start after := by
  obtain ⟨caller, hadvance⟩ := hstep
  have hfits := h.fits caller
  unfold Scene.advance at hadvance
  cases hstage : before.stage caller with
  | asked =>
    rw [hstage] at hadvance hfits
    cases hadvance
    exact h.read hfits (fun _ => by rw [hstage]; rfl) (by rw [hstage]; rfl) (fun _ hfound => hfound) fun _ => hfits
  | waiting =>
    rw [hstage] at hadvance
    obtain ⟨hfree, hafter⟩ := Option.ite_none_right_eq_some.1 hadvance
    cases hafter
    exact h.enter hstage (Option.isNone_iff_eq_none.1 hfree)
  | entered =>
    rw [hstage] at hadvance hfits
    cases hadvance
    exact h.read hfits (fun _ => by rw [hstage]; rfl) (by rw [hstage]; rfl) (fun _ hfound => hfound) fun hnone =>
      ⟨hfits, hnone⟩
  | unseen =>
    rw [hstage] at hadvance
    cases hadvance
    exact h.discover hstage
  | told =>
    rw [hstage] at hadvance
    cases hadvance
    exact h.keep hstage rfl
  | leaving answer =>
    rw [hstage] at hadvance
    cases hadvance
    exact h.leave hstage
  | answered answer =>
    rw [hstage] at hadvance
    cases hadvance

/-- Every scene that steps lead to is sound. -/
theorem sound_of_reached
    (h : Relation.ReflTransGen (Step identifier listings) (Scene.start Caller start) scene) :
    Sound identifier listings start scene := by
  induction h with
  | refl => exact sound_start start
  | tail _ hstep ih => exact ih.step hstep

/-! ## Every caller can get its answer -/

/-- Only a caller that wants the lock while it is held, or that has its answer, cannot take a step. -/
theorem Scene.advance_eq_none_iff : scene.advance identifier listings caller = none ↔
    (scene.stage caller = .waiting ∧ scene.lock ≠ none) ∨ ∃ answer, scene.stage caller = .answered answer := by
  unfold advance
  cases scene.stage caller with
  | waiting => cases scene.lock <;> simp
  | answered answer => simp
  | asked | entered | unseen | told | leaving _ => simp

/-- While a caller has no answer, some caller can take a step: whoever holds the lock, or else the caller itself. -/
theorem Sound.exists_step (h : Sound identifier listings start scene)
    (hleft : ∀ answer, scene.stage caller ≠ .answered answer) : ∃ after, Step identifier listings scene after := by
  have hable : ∃ able, scene.advance identifier listings able ≠ none := by
    cases hlock : scene.lock with
    | none =>
      refine ⟨caller, fun hnone => ?_⟩
      rcases Scene.advance_eq_none_iff.1 hnone with ⟨-, hheld⟩ | ⟨answer, hanswered⟩
      · exact hheld hlock
      · exact hleft answer hanswered
    | some holder =>
      have hinside := (h.holder holder).1 hlock
      refine ⟨holder, fun hnone => ?_⟩
      rcases Scene.advance_eq_none_iff.1 hnone with ⟨hstage, -⟩ | ⟨answer, hstage⟩
      all_goals
        rw [hstage] at hinside
        exact absurd hinside nofun
  obtain ⟨able, hable⟩ := hable
  obtain ⟨after, hafter⟩ := Option.ne_none_iff_exists'.1 hable
  exact ⟨after, able, hafter⟩

/-- How many steps a stage is away from its answer at most. -/
def Stage.left : Stage → Nat
  | .asked => 6
  | .waiting => 5
  | .entered => 4
  | .unseen => 3
  | .told => 2
  | .leaving _ => 1
  | .answered _ => 0

/-- A step brings its caller on and moves nobody else. -/
theorem Scene.stage_of_advance (h : before.advance identifier listings caller = some after) :
    ∃ stage, after.stage = Function.update before.stage caller stage ∧ stage.left < (before.stage caller).left := by
  have hread : ∀ (hit : Kind → Stage) (miss : Stage), ∃ stage,
      (before.read identifier caller hit miss).stage = Function.update before.stage caller stage ∧
        (stage = miss ∨ ∃ kind, stage = hit kind) := by
    intro hit miss
    unfold Scene.read
    split
    · exact ⟨_, rfl, Or.inr ⟨_, rfl⟩⟩
    · exact ⟨_, rfl, Or.inl rfl⟩
  unfold Scene.advance at h
  cases hstage : before.stage caller with
  | asked =>
    rw [hstage] at h
    cases h
    obtain ⟨stage, hafter, rfl | ⟨kind, rfl⟩⟩ := hread (fun kind => .answered (.ok kind)) .waiting
    all_goals exact ⟨_, hafter, by simp only [Stage.left]; omega⟩
  | waiting =>
    rw [hstage] at h
    obtain ⟨-, hafter⟩ := Option.ite_none_right_eq_some.1 h
    cases hafter
    exact ⟨_, rfl, by simp only [Stage.left]; omega⟩
  | entered =>
    rw [hstage] at h
    cases h
    obtain ⟨stage, hafter, rfl | ⟨kind, rfl⟩⟩ := hread (fun kind => .leaving (.ok kind)) .unseen
    all_goals exact ⟨_, hafter, by simp only [Stage.left]; omega⟩
  | unseen | told | leaving _ =>
    rw [hstage] at h
    cases h
    exact ⟨_, rfl, by simp only [Stage.left]; omega⟩
  | answered answer =>
    rw [hstage] at h
    cases h

/-- From every sound scene steps lead to one in which all callers have their answers. -/
theorem Sound.exists_answered [Fintype Caller] (h : Sound identifier listings start scene) :
    ∃ last, Relation.ReflTransGen (Step identifier listings) scene last ∧
      ∀ caller, ∃ answer, last.stage caller = .answered answer := by
  induction hsteps : ∑ caller, (scene.stage caller).left using Nat.strong_induction_on generalizing scene with
  | _ steps ih =>
    by_cases hdone : ∀ caller, ∃ answer, scene.stage caller = .answered answer
    · exact ⟨scene, .refl, hdone⟩
    · obtain ⟨caller, hleft⟩ := not_forall.1 hdone
      obtain ⟨after, mover, hadvance⟩ := h.exists_step (not_exists.1 hleft)
      obtain ⟨stage, hstage, hless⟩ := Scene.stage_of_advance hadvance
      have hsum : ∑ caller, (after.stage caller).left < steps := by
        rw [← hsteps]
        refine Finset.sum_lt_sum (fun other _ => ?_) ⟨mover, Finset.mem_univ mover, ?_⟩
        · rw [hstage]
          by_cases hother : other = mover
          · rw [hother, Function.update_self]
            exact hless.le
          · rw [Function.update_of_ne hother]
        · rw [hstage, Function.update_self]
          exact hless
      obtain ⟨last, hrun, hlast⟩ := ih _ hsum (h.step ⟨mover, hadvance⟩) rfl
      exact ⟨last, .head ⟨mover, hadvance⟩ hrun, hlast⟩

/-- A caller that nobody crosses gets the answer of resolving its identifier, and leaves the cache as that does. -/
theorem exists_alone {engine : Engine} (hcatalog : engine.gateway.discover.1 = .ok listings) (caller : Caller) :
    ∃ last, Relation.ReflTransGen (Step identifier listings) (Scene.start Caller engine.cache) last ∧
      last.stage caller = .answered (engine.resolve (identifier caller)).1 ∧
      last.cache = (engine.resolve (identifier caller)).2.cache := by
  obtain ⟨gateway, hgateway⟩ : ∃ gateway, engine.gateway.discover = (.ok listings, gateway) :=
    ⟨_, Prod.ext hcatalog rfl⟩
  unfold Engine.resolve
  rw [hgateway]
  cases hlookup : engine.cache.lookup (Cache.keyOf (identifier caller)) with
  | some kind =>
    refine ⟨(Scene.start Caller engine.cache).moved caller (.answered (.ok kind)), .single ⟨caller, ?_⟩,
      Scene.stage_moved_self .., rfl⟩
    simp only [Scene.advance, Scene.read, Scene.start, keyAt, hlookup]
  | none =>
    refine ⟨{ (Scene.start Caller engine.cache).moved caller
        (.answered (engine.cache.resolveIn (identifier caller) listings).1) with
      cache := (engine.cache.resolveIn (identifier caller) listings).2, discoveries := [caller] },
      reached_of_foldlM identifier listings (List.replicate 6 caller) ?_, Scene.stage_moved_self .., rfl⟩
    have hstands : (engine.cache.resolveIn (identifier caller) listings).1.map (fun kind =>
        ((engine.cache.resolveIn (identifier caller) listings).2.lookup (Cache.keyOf (identifier caller))).getD kind) =
          (engine.cache.resolveIn (identifier caller) listings).1 := by
      rcases Cache.resolveIn_of_lookup_eq_none listings hlookup with
        ⟨-, cause, heq⟩ | ⟨-, kind, after, heq, hafter⟩
      · rw [heq]
        rfl
      · rw [heq]
        simp only [Except.map, hafter, if_pos, Option.getD_some]
    simp [List.replicate, Scene.advance, Scene.read, Scene.start, Scene.moved, keyAt, hlookup, hstands]

end Facts

/-! ## What all interleavings agree on -/

section Outcomes

variable {identifier : Caller → String} {listings : List Listing} {start : Cache} {scene : Scene Caller}
  {caller : Caller}

/-- A caller whose key the catalog does not have comes to an error, if it has discovered the catalog. -/
theorem Sound.error_iff (h : Sound identifier listings start scene) {answer : Except CatalogError Kind}
    (hstage : scene.stage caller = .answered answer) :
    (∃ cause, answer = .error cause) ↔
      caller ∈ scene.discoveries ∧ resolvable listings (keyAt identifier caller) = false := by
  have hbears : scene.Bears identifier listings caller answer := by
    have hfits := h.fits caller
    rwa [hstage] at hfits
  cases answer with
  | error cause => exact ⟨fun _ => hbears, fun _ => ⟨cause, rfl⟩⟩
  | ok kind =>
    refine ⟨nofun, fun ⟨hcaller, hnone⟩ => ?_⟩
    rcases h.known _ kind hbears with hstart | hmem
    · exact absurd ((h.uncached caller hcaller).symm.trans hstart) nofun
    · exact absurd ((mem_successes.1 hmem).2.symm.trans hnone) nofun

/-- When all callers have their answers, the keys discovered with success are those that were not in the cache and that
the catalog has. -/
theorem Sound.mem_successes_iff (h : Sound identifier listings start scene)
    (hdone : ∀ caller, ∃ answer, scene.stage caller = .answered answer) {key : String} :
    key ∈ scene.successes identifier listings ↔
      (∃ caller, keyAt identifier caller = key) ∧ start.lookup key = none ∧ resolvable listings key = true := by
  rw [mem_successes]
  constructor
  · rintro ⟨⟨caller, hcaller, rfl⟩, hkey⟩
    exact ⟨⟨caller, rfl⟩, h.uncached caller hcaller, hkey⟩
  · rintro ⟨⟨caller, rfl⟩, hstart, hkey⟩
    obtain ⟨answer, hstage⟩ := hdone caller
    have hbears : scene.Bears identifier listings caller answer := by
      have hfits := h.fits caller
      rwa [hstage] at hfits
    cases answer with
    | error cause => exact absurd (hbears.2.symm.trans hkey) nofun
    | ok kind =>
      rcases h.known _ kind hbears with hcached | hmem
      · exact absurd (hstart.symm.trans hcached) nofun
      · exact mem_successes.1 hmem

/-- The call has ended with an error. -/
def Stage.failed : Stage → Bool
  | .answered (.error _) => true
  | _ => false

/-- When all callers have their answers, those that have discovered the catalog without success are those that
failed. -/
theorem Sound.card_failed [DecidableEq Caller] [Fintype Caller] (h : Sound identifier listings start scene)
    (hdone : ∀ caller, ∃ answer, scene.stage caller = .answered answer) :
    (scene.discoveries.filter fun caller => !resolvable listings (keyAt identifier caller)).length =
      (Finset.univ.filter fun caller => (scene.stage caller).failed = true).card := by
  rw [← List.toFinset_card_of_nodup (h.nodup.filter _)]
  congr 1
  ext caller
  obtain ⟨answer, hstage⟩ := hdone caller
  have herror := h.error_iff hstage
  rw [List.mem_toFinset, List.mem_filter, Bool.not_eq_true', ← herror, Finset.mem_filter, hstage]
  cases answer with
  | error cause => exact ⟨fun _ => ⟨Finset.mem_univ caller, rfl⟩, fun _ => ⟨cause, rfl⟩⟩
  | ok kind => exact ⟨nofun, fun ⟨_, hfailed⟩ => absurd hfailed nofun⟩

/-- When all callers have their answers, the discoveries with success are as many as the keys that were not in the cache
and that the catalog has. -/
theorem Sound.length_successes [Fintype Caller] (h : Sound identifier listings start scene)
    (hdone : ∀ caller, ∃ answer, scene.stage caller = .answered answer) :
    (scene.successes identifier listings).length = ((Finset.univ.image (keyAt identifier)).filter fun key =>
      start.lookup key = none ∧ resolvable listings key = true).card := by
  rw [← List.toFinset_card_of_nodup h.once]
  congr 1
  ext key
  rw [List.mem_toFinset, h.mem_successes_iff hdone, Finset.mem_filter, Finset.mem_image]
  simp only [Finset.mem_univ, true_and]

end Outcomes

/-- Whatever the order in which the steps of concurrent callers come, no key is discovered with success more than once,
and none that was in the cache at the start is discovered at all; the kinds answered for one key are the same; and when
all callers have their answers, the catalog has been discovered once for every key that was not in the cache and that it
has, and once for every call that failed. -/
theorem discovers_once {Caller : Type} [DecidableEq Caller] [Fintype Caller] {identifier : Caller → String}
    {listings : List Listing} {start : Cache} {scene : Scene Caller}
    (h : Relation.ReflTransGen (Step identifier listings) (Scene.start Caller start) scene) :
    (scene.successes identifier listings).Nodup ∧
    (∀ caller ∈ scene.discoveries, start.lookup (keyAt identifier caller) = none) ∧
    (∀ first second kind kind', keyAt identifier first = keyAt identifier second →
      scene.stage first = .answered (.ok kind) → scene.stage second = .answered (.ok kind') → kind = kind') ∧
    ((∀ caller, ∃ answer, scene.stage caller = .answered answer) →
      scene.discoveries.length = ((Finset.univ.image (keyAt identifier)).filter fun key =>
          start.lookup key = none ∧ resolvable listings key = true).card +
        (Finset.univ.filter fun caller => (scene.stage caller).failed = true).card) := by
  have hsound := sound_of_reached h
  refine ⟨hsound.once, hsound.uncached, fun first second kind kind' hkey hfirst hsecond => ?_, fun hdone => ?_⟩
  · have hheld : scene.cache.lookup (keyAt identifier first) = some kind := by
      have hfits := hsound.fits first
      rwa [hfirst] at hfits
    have hheld' : scene.cache.lookup (keyAt identifier second) = some kind' := by
      have hfits := hsound.fits second
      rwa [hsecond] at hfits
    rw [hkey, hheld'] at hheld
    exact (Option.some.inj hheld).symm
  · rw [← hsound.length_successes hdone, ← hsound.card_failed hdone, Scene.successes, List.filter_map, List.length_map]
    exact List.length_eq_length_filter_add _

namespace Sample

/-- Two callers ask for one kind in different letters, a third for none. -/
def asked : Fin 3 → String
  | 0 => "pods"
  | 1 => "PODS"
  | 2 => "gizmos"

/-- All three miss before the first takes the lock. -/
def crossing : List (Fin 3) := [0, 1, 2, 0, 0, 0, 0, 0, 1, 1, 1, 2, 2, 2, 2, 2]

/-- The kind that the standard catalog has for pods. -/
def pods : Kind := .ofResource ("", "v1") (.inNamespaces "pods" "Pod" ["po"])

end Sample

/-- Three callers who all miss at first: the catalog is discovered by the first and by the one who fails. -/
theorem discovers_once_crossing : ∃ scene : Scene (Fin 3),
    Relation.ReflTransGen (Step Sample.asked standardListings) (Scene.start (Fin 3) Cache.empty) scene ∧
    scene.discoveries = [0, 2] ∧ scene.stage 1 = .answered (.ok Sample.pods) ∧
    scene.stage 2 = .answered (.error (.kindNotFound "gizmos")) ∧
    (scene.successes Sample.asked standardListings).Nodup ∧
    scene.discoveries.length = ((Finset.univ.image (keyAt Sample.asked)).filter fun key =>
        Cache.empty.lookup key = none ∧ resolvable standardListings key = true).card +
      (Finset.univ.filter fun caller => (scene.stage caller).failed = true).card := by
  have hview : (Sample.crossing.foldlM (Scene.advance Sample.asked standardListings)
      (Scene.start (Fin 3) Cache.empty)).map
        (fun scene => (scene.discoveries, scene.stage 0, scene.stage 1, scene.stage 2)) =
      some ([0, 2], .answered (.ok Sample.pods), .answered (.ok Sample.pods),
        .answered (.error (.kindNotFound "gizmos"))) := by decide +kernel
  obtain ⟨scene, hrun, hscene⟩ := Option.map_eq_some_iff.1 hview
  obtain ⟨hdiscoveries, hfirst, hsecond, hthird⟩ : scene.discoveries = [0, 2] ∧
      scene.stage 0 = .answered (.ok Sample.pods) ∧ scene.stage 1 = .answered (.ok Sample.pods) ∧
      scene.stage 2 = .answered (.error (.kindNotFound "gizmos")) := by
    simpa only [Prod.mk.injEq] using hscene
  have hreached := reached_of_foldlM Sample.asked standardListings _ hrun
  obtain ⟨honce, -, -, hcount⟩ := discovers_once hreached
  refine ⟨scene, hreached, hdiscoveries, hsecond, hthird, honce, hcount fun caller => ?_⟩
  match caller with
  | 0 => exact ⟨_, hfirst⟩
  | 1 => exact ⟨_, hsecond⟩
  | 2 => exact ⟨_, hthird⟩

end Resolving

end ClusterQuery
