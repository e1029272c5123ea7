import ClusterQuery.Proofs.Catalog.Naming
import ClusterQuery.Proofs.Execution.Placing

/-!
# Calls that find their resource

The resource that an identifier is resolved to and the one that the store has at its coordinate are the same
(`findKind?_served`), when the plural names of a group and version are distinct. So the store knows what a query calls
it about: every call since its start is about a coordinate of the catalog (`Engine.Serving`), and no call about such a
coordinate fails for want of a resource (`Store.Serves`).
-/

namespace ClusterQuery

/-- The coordinate that a call is about, if it is about one. -/
def Call.coordinate? : Call → Option Coordinate
  | .discover => none
  | .list resource .. | .create resource .. | .update resource .. | .delete resource .. => some resource

/-- The resource that a search matches is the one that the store looks up under the coordinate it answers. -/
theorem findKind?_served {listings : List Listing} (hdistinct : PluralsDistinct listings) {key : String} {kind : Kind}
    (h : findKind? key listings = .ok (some kind)) :
    ∃ entry, (served listings).find? (·.2.answersTo key) = some entry ∧
      resourceAt? listings kind.coordinate = some entry.2 ∧ entry.2.kind = kind.kind ∧
      entry.2.namespaced = kind.namespaced ∧ kind.coordinate.apiVersion = entry.1 := by
  rw [findKind?_eq] at h
  cases hentry : (served listings).find? (·.2.answersTo key) with
  | none =>
    rw [hentry] at h
    cases h
  | some entry =>
    rw [hentry] at h
    obtain ⟨found, hfound, hsame⟩ := map_eq_ok.1 h
    obtain rfl := Option.some.inj hsame
    obtain ⟨parts, hparts, rfl⟩ := map_eq_ok.1 hfound
    exact ⟨entry, rfl, resourceAt?_of_mem_served hdistinct (List.mem_of_find?_eq_some hentry) hparts, rfl, rfl,
      apiVersion_of_parseGroupVersion hparts⟩

/-! ## What the store answers about a resource that it has -/

/-- The store has the resource at a coordinate, and calls about it fail for other reasons only. -/
structure Store.Serves (store : Store) (coordinate : Coordinate) : Prop where
  resource : ∃ resource, resourceAt? store.listings coordinate = some resource
  list : ∀ search cause, (store.list coordinate search).1 = .error cause → store.listFailure = some cause
  create : ∀ inNamespace document cause, (store.create coordinate inNamespace document).1 = .error cause →
    ∃ text, cause = .invalid text ∨ cause = .alreadyExists text
  update : ∀ inNamespace document cause, (store.update coordinate inNamespace document).1 = .error cause →
    (∃ text, cause = .invalid text) ∨ ∃ name, document.name? = some name ∧ cause = unknownObject coordinate name
  delete : ∀ inNamespace name cause, (store.delete coordinate inNamespace name).1 = .error cause →
    cause = unknownObject coordinate name

namespace Store

variable {store : Store} {coordinate : Coordinate}

/-- A store that has the resource at a coordinate serves it. -/
theorem serves_of_resourceAt? {resource : Resource} (h : resourceAt? store.listings coordinate = some resource) :
    store.Serves coordinate where
  resource := ⟨resource, h⟩
  list := fun search cause hfailed => by
    unfold list at hfailed
    rw [h] at hfailed
    cases hlist : store.listFailure with
    | none =>
      rw [hlist] at hfailed
      cases hfailed
    | some error =>
      rw [hlist] at hfailed
      cases hfailed
      rfl
  create := fun inNamespace document cause hfailed => by
    unfold create at hfailed
    split at hfailed
    · cases hfailed
      exact ⟨_, Or.inl rfl⟩
    · rw [h] at hfailed
      dsimp only at hfailed
      -- the same namespace is written and looked in
      generalize (if resource.namespaced = true then inNamespace else none) = place at hfailed
      split at hfailed
      · cases hfailed
        exact ⟨_, Or.inl rfl⟩
      · split at hfailed
        · cases hfailed
          exact ⟨_, Or.inr rfl⟩
        · cases hfailed
  update := fun inNamespace document cause hfailed => by
    unfold update at hfailed
    split at hfailed
    · cases hfailed
      exact Or.inl ⟨_, rfl⟩
    · rename_i name hname
      rw [h] at hfailed
      dsimp only at hfailed
      split at hfailed
      · cases hfailed
        exact Or.inr ⟨name, hname, rfl⟩
      · split at hfailed
        · cases hfailed
          exact Or.inl ⟨_, rfl⟩
        · cases hfailed
  delete := fun inNamespace name cause hfailed => by
    unfold delete at hfailed
    rw [h] at hfailed
    dsimp only at hfailed
    split at hfailed
    · cases hfailed
      rfl
    · cases hfailed

/-! ## What goes on record -/

/-- From the first store to the second the catalog has stayed, and at most one call has gone on record, about the
coordinate. -/
structure Asked (coordinate : Coordinate) (before after : Store) : Prop where
  listings_eq : after.listings = before.listings
  calls : ∃ calls, after.calls = before.calls ++ calls ∧ ∀ call ∈ calls, call.coordinate? = some coordinate

theorem asked_list (store : Store) (coordinate : Coordinate) (search : Search) :
    Asked coordinate store (store.list coordinate search).2 := by
  rw [list_snd]
  exact ⟨rfl, [_], rfl, List.forall_mem_singleton.2 rfl⟩

theorem asked_create (store : Store) (coordinate : Coordinate) (inNamespace : Option String) (document : Document) :
    Asked coordinate store (store.create coordinate inNamespace document).2 where
  listings_eq := (create_snd store coordinate inNamespace document).1
  calls := by
    unfold create
    split
    · -- a document without a name is refused before the call is recorded
      exact ⟨[], (List.append_nil _).symm, nofun⟩
    · dsimp only
      repeat' split
      all_goals exact ⟨[_], rfl, List.forall_mem_singleton.2 rfl⟩

theorem asked_update (store : Store) (coordinate : Coordinate) (inNamespace : Option String) (document : Document) :
    Asked coordinate store (store.update coordinate inNamespace document).2 where
  listings_eq := (update_snd store coordinate inNamespace document).1
  calls := by
    unfold update
    split
    · exact ⟨[], (List.append_nil _).symm, nofun⟩
    · dsimp only
      repeat' split
      all_goals exact ⟨[_], rfl, List.forall_mem_singleton.2 rfl⟩

theorem asked_delete (store : Store) (coordinate : Coordinate) (inNamespace : Option String) (name : String) :
    Asked coordinate store (store.delete coordinate inNamespace name).2 where
  listings_eq := (delete_snd store coordinate inNamespace name).1
  calls := by
    unfold delete
    dsimp only
    repeat' split
    all_goals exact ⟨[_], rfl, List.forall_mem_singleton.2 rfl⟩

end Store

/-- The call is about nothing, or about a coordinate that every store of the catalog serves. -/
def Call.FindsResource (listings : List Listing) (call : Call) : Prop :=
  ∀ coordinate, call.coordinate? = some coordinate →
    ∀ store : Store, store.listings = listings → store.Serves coordinate

/-- Discovery is about no coordinate. -/
theorem Call.findsResource_discover (listings : List Listing) : Call.discover.FindsResource listings := by
  intro coordinate h
  cases h

/-- The store has the catalog, and all calls on record after the given ones find their resource. -/
structure Store.Serving (listings : List Listing) (start : List Call) (store : Store) : Prop where
  listings_eq : store.listings = listings
  calls : ∃ calls, store.calls = start ++ calls ∧ ∀ call ∈ calls, call.FindsResource listings

variable {listings : List Listing} {start : List Call} {coordinate : Coordinate}

/-- One more call about a coordinate that stores of the catalog serve finds its resource too. -/
theorem Store.Serving.asked {store after : Store} (h : store.Serving listings start)
    (hasked : Asked coordinate store after)
    (hserves : ∀ store : Store, store.listings = listings → store.Serves coordinate) :
    after.Serving listings start := by
  obtain ⟨calls, hcalls, hfind⟩ := h.calls
  obtain ⟨more, hmore, habout⟩ := hasked.calls
  refine ⟨hasked.listings_eq.trans h.listings_eq, calls ++ more, ?_, List.forall_mem_append.2 ⟨hfind, ?_⟩⟩
  · rw [hmore, hcalls, List.append_assoc]
  · intro call hcall other hother
    rw [habout call hcall] at hother
    cases hother
    exact hserves

/-! ## Whole queries -/

namespace Engine

/-- The store of the engine serves, and its cache is one that the catalog leads to. -/
structure Serving (listings : List Listing) (start : List Call) (engine : Engine) : Prop where
  store : engine.gateway.store.Serving listings start
  reached : engine.cache.Reached listings

/-- Calls about a coordinate of the catalog find their resource. -/
theorem about_serving {resource : Resource} (h : resourceAt? listings coordinate = some resource) :
    About (Serving listings start) coordinate := by
  have hserves : ∀ store : Store, store.listings = listings → store.Serves coordinate := by
    rintro store rfl
    exact Store.serves_of_resourceAt? h
  -- a call that gets through to the store is recorded there
  have hcall : ∀ {α : Type} {name : CallName} {call : Store → Store.Answer α} {engine : Engine},
      (∀ store : Store, Store.Asked coordinate store (call store).2) → engine.Serving listings start →
      Serving listings start { engine with gateway := (engine.gateway.guarded name call).2 } := by
    intro α name call engine hasked hengine
    refine ⟨?_, hengine.reached⟩
    exact Gateway.guarded_keeps (M := Store.Serving listings start)
      (fun store hstore => hstore.asked (hasked store) hserves) hengine.store
  exact ⟨fun _ search => hcall fun store => store.asked_list coordinate search,
    fun _ inNamespace document => hcall fun store => store.asked_create coordinate inNamespace document,
    fun _ inNamespace document => hcall fun store => store.asked_update coordinate inNamespace document,
    fun _ inNamespace name => hcall fun store => store.asked_delete coordinate inNamespace name⟩

/-- Resolving calls about nothing and leads to another cache of the catalog. -/
theorem Serving.resolve {engine : Engine} (h : engine.Serving listings start) (identifier : String) :
    (engine.resolve identifier).2.Serving listings start := by
  refine ⟨resolve_keeps (M := fun gateway => gateway.store.Serving listings start) (fun gateway hgateway => ?_)
    identifier h.store, ?_⟩
  · refine Gateway.guarded_keeps (M := Store.Serving listings start) (fun store hstore => ?_) hgateway
    obtain ⟨calls, hcalls, hfind⟩ := hstore.calls
    refine ⟨hstore.listings_eq, calls ++ [.discover], ?_, List.forall_mem_append.2 ⟨hfind, ?_⟩⟩
    · rw [Store.discover, Store.record, hcalls, List.append_assoc]
    · exact List.forall_mem_singleton.2 (Call.findsResource_discover listings)
  · unfold Engine.resolve
    cases engine.cache.lookup (Cache.keyOf identifier) with
    | some kind => exact h.reached
    | none =>
      rcases hdiscover : engine.gateway.discover with ⟨cause | found, gateway⟩
      · exact h.reached
      · obtain ⟨rfl, -⟩ := Gateway.discover_eq_ok hdiscover
        rw [h.store.listings_eq]
        exact .resolved identifier h.reached

end Engine

namespace Run

/-- The store has the resources of all planned targets. -/
theorem exists_resource_of_plan (hdistinct : PluralsDistinct listings) {query : Query} {context : Context}
    {targets : List Target} {before planned : Engine} (hbefore : before.Serving listings start)
    (h : plan query context before = (.ok targets, planned)) :
    ∀ target ∈ targets, ∃ resource, resourceAt? listings target.kind.coordinate = some resource := by
  intro target htarget
  have hkind := kindOf?_of_plan h target htarget
  rw [hbefore.store.listings_eq] at hkind
  obtain ⟨resource, hresource, -⟩ := (hbefore.reached.listed hkind).resourceAt?_eq hdistinct
  exact ⟨resource, hresource⟩

/-- Over a catalog that has each plural name once under a group and version, what an identifier is resolved to is what
the store has at its coordinate, and no call of a query fails for want of its resource. -/
theorem execute_serving (hdistinct : PluralsDistinct listings) :
    (∀ key kind, findKind? key listings = .ok (some kind) →
      ∃ entry, (served listings).find? (·.2.answersTo key) = some entry ∧
        resourceAt? listings kind.coordinate = some entry.2 ∧ entry.2.kind = kind.kind ∧
        entry.2.namespaced = kind.namespaced ∧ kind.coordinate.apiVersion = entry.1) ∧
    ∀ rules context query before answer after, before.gateway.store.listings = listings →
      before.cache.Reached listings → execute rules context query before = (answer, after) →
      after.gateway.store.listings = listings ∧ after.cache.Reached listings ∧
        ∃ calls, after.gateway.store.calls = before.gateway.store.calls ++ calls ∧
          ∀ call ∈ calls, call.FindsResource listings := by
  refine ⟨fun key kind => findKind?_served hdistinct, ?_⟩
  intro rules context query before answer after hlistings hreached hrun
  have hall : Preserves (Engine.Serving listings before.gateway.store.calls) (execute rules context query) := by
    refine preserves_execute_of_about (fun first second htraced hfirst => ?_)
      (fun engine identifier hengine => hengine.resolve identifier)
      (fun engine targets planned hengine hplan => ?_) rules
    · exact ⟨by rw [htraced.gateway_eq]; exact hfirst.store, by rw [htraced.cache_eq]; exact hfirst.reached⟩
    · intro target htarget
      obtain ⟨resource, hresource⟩ := exists_resource_of_plan hdistinct hengine hplan target htarget
      exact Engine.about_serving hresource
  have hserving := hall before ⟨⟨hlistings, [], (List.append_nil _).symm, nofun⟩, hreached⟩
  rw [hrun] at hserving
  exact ⟨hserving.store.listings_eq, hserving.reached, hserving.store.calls⟩

namespace Sample

/-- A deployment by the short name of its kind, which is in a group. -/
def newDeployment : Query :=
  ⟨⟨[Node.ofBinding "d" "deploy" [⟨"name", .string "web"⟩]], []⟩, .create⟩

end Sample

/-- A deployment is created under the group, the version and the plural name that its short name is resolved to. -/
theorem execute_serving_newDeployment : PluralsDistinct standardListings ∧
    (∃ kind resource, findKind? "deploy" standardListings = .ok (some kind) ∧
      resourceAt? standardListings kind.coordinate = some resource ∧ kind.coordinate.apiVersion = "apps/v1") ∧
    ∃ answer after, execute Rule.standard ⟨"default", false⟩ Sample.newDeployment
        (Engine.ofStore (Store.ofObjects standardListings [])) = (answer, after) ∧
      after.gateway.store.calls =
        [.discover, .create ⟨"apps", "v1", "deployments"⟩ (some "default") "web"] ∧
      ∀ call ∈ after.gateway.store.calls, call.FindsResource standardListings := by
  obtain ⟨hresolved, hexecuted⟩ := execute_serving pluralsDistinct_standardListings
  have hkind : findKind? "deploy" standardListings =
      .ok (some ⟨⟨"apps", "v1", "deployments"⟩, "Deployment", true⟩) := by decide +kernel
  obtain ⟨entry, -, hresource, -⟩ := hresolved _ _ hkind
  have hrecord : (execute Rule.standard ⟨"default", false⟩ Sample.newDeployment
      (Engine.ofStore (Store.ofObjects standardListings []))).2.gateway.store.calls =
        [.discover, .create ⟨"apps", "v1", "deployments"⟩ (some "default") "web"] := by decide +kernel
  rcases hrun : execute Rule.standard ⟨"default", false⟩ Sample.newDeployment
    (Engine.ofStore (Store.ofObjects standardListings [])) with ⟨answer, after⟩
  rw [hrun] at hrecord
  obtain ⟨-, -, calls, hcalls, hfind⟩ := hexecuted _ _ _ _ _ _ rfl Cache.Reached.empty hrun
  refine ⟨pluralsDistinct_standardListings, ⟨_, entry.2, hkind, hresource, rfl⟩, answer, after, rfl, hrecord, ?_⟩
  rw [hcalls]
  exact hfind

end Run

end ClusterQuery
