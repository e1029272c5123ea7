import ClusterQuery.Proofs.Catalog.Resolution
import ClusterQuery.Proofs.Execution.Planning

/-!
# What a run reads from the store

Planning a query and fetching its documents only ask the store: its objects and its catalog stay, and the calls go on
record (`Engine.Answered`). Every node gets the kind that its identifier means to the cache and the catalog
(`plan_spec`), and every target the stored objects that its node and the filters ask for, in store order (`fetch_spec`).
-/

namespace ClusterQuery

/-- From the first engine to the second the store has only answered calls: it has them on record, and its objects and
its catalog are as before. -/
structure Engine.Answered (before after : Engine) (calls : List Call) : Prop where
  objects_eq : after.gateway.store.objects = before.gateway.store.objects
  listings_eq : after.gateway.store.listings = before.gateway.store.listings
  calls_eq : after.gateway.store.calls = before.gateway.store.calls ++ calls

namespace Engine

theorem Answered.trans {first second third : Engine} {calls more : List Call} (h : first.Answered second calls)
    (h' : second.Answered third more) : first.Answered third (calls ++ more) :=
  ⟨h'.objects_eq.trans h.objects_eq, h'.listings_eq.trans h.listings_eq,
    by rw [h'.calls_eq, h.calls_eq, List.append_assoc]⟩

/-- Tracing asks the store nothing. -/
theorem Traced.answered {before after : Engine} (h : before.Traced after) : before.Answered after [] := by
  refine ⟨?_, ?_, ?_⟩ <;> simp [h.gateway_eq]

/-- What follows tracing and a run of calls asks the store what the calls ask. -/
theorem Answered.traced {first second third : Engine} {calls : List Call} (h : first.Answered second calls)
    (h' : second.Traced third) : first.Answered third calls :=
  List.append_nil calls ▸ h.trans h'.answered

end Engine

namespace Gateway

variable {gateway after : Gateway}

/-- A call that reaches the store gives its answer. -/
theorem reach_eq_ok {α : Type} {fault : Option Fault} {call : Store → Store.Answer α} {a : α}
    (h : gateway.reach fault call = (.ok a, after)) : call gateway.store = (.ok a, after.store) := by
  obtain ⟨hanswer, rfl⟩ := Prod.mk.inj h
  exact Prod.ext hanswer rfl

/-- A call that succeeds has reached the store. -/
theorem guarded_eq_ok {α : Type} {name : CallName} {call : Store → Store.Answer α} {a : α}
    (h : gateway.guarded name call = (.ok a, after)) : call gateway.store = (.ok a, after.store) := by
  unfold guarded at h
  split at h
  · exact reach_eq_ok h
  · split at h
    · split at h
      · cases (Prod.mk.inj h).1
      · exact reach_eq_ok h
    · exact reach_eq_ok h

/-- The catalog that is discovered is the one of the store. -/
theorem discover_eq_ok {listings : List Listing} (h : gateway.discover = (.ok listings, after)) :
    listings = gateway.store.listings ∧ after.store = gateway.store.record .discover := by
  have hcall : gateway.store.discover = (.ok listings, after.store) := guarded_eq_ok h
  obtain ⟨hanswer, hstore⟩ := Prod.mk.inj hcall
  cases hanswer
  exact ⟨rfl, hstore.symm⟩

/-- The objects that are listed are those of the store that pass the search, in store order. -/
theorem list_eq_ok {coordinate : Coordinate} {search : Search} {documents : List Document}
    (h : gateway.list coordinate search = (.ok documents, after)) :
    after.store = gateway.store.record (.list coordinate search.inNamespace search.fields.text search.labels.text) ∧
      ∃ resource, resourceAt? gateway.store.listings coordinate = some resource ∧
        documents = gateway.store.objects.filter (Store.passes coordinate resource search) := by
  have hlist := guarded_eq_ok h
  unfold Store.list at hlist
  split at hlist
  · cases (Prod.mk.inj hlist).1
  · split at hlist
    · cases (Prod.mk.inj hlist).1
    · rename_i resource hresource
      obtain ⟨hanswer, hstore⟩ := Prod.mk.inj hlist
      cases hanswer
      exact ⟨hstore.symm, resource, hresource, rfl⟩

end Gateway

/-! ## Kinds -/

/-- The store has answered discovery only, and every identifier means what it meant. -/
structure Engine.Resolving (before after : Engine) : Prop where
  answered : ∃ calls, before.Answered after calls ∧ ∀ call ∈ calls, call = .discover
  kindOf?_eq : ∀ identifier, after.cache.kindOf? after.gateway.store.listings identifier =
    before.cache.kindOf? before.gateway.store.listings identifier

/-- An identifier that is resolved gets the kind that it means. -/
theorem Engine.resolve_eq_ok {engine after : Engine} {identifier : String} {kind : Kind}
    (h : engine.resolve identifier = (.ok kind, after)) :
    engine.cache.kindOf? engine.gateway.store.listings identifier = some kind ∧ engine.Resolving after := by
  unfold resolve at h
  split at h
  · rename_i found hfound
    cases h
    exact ⟨by rw [Cache.kindOf?, hfound], ⟨[], (Traced.refl _).answered, nofun⟩, fun _ => rfl⟩
  · rename_i hmiss
    split at h
    · cases (Prod.mk.inj h).1
    · rename_i listings gateway hdiscover
      obtain ⟨rfl, hstore⟩ := Gateway.discover_eq_ok hdiscover
      have hanswer : (engine.cache.resolveIn identifier engine.gateway.store.listings).1 = .ok kind :=
        congrArg Prod.fst h
      obtain rfl := congrArg Prod.snd h
      have hlistings : gateway.store.listings = engine.gateway.store.listings := by rw [hstore]; rfl
      refine ⟨?_, ⟨[.discover], ⟨by rw [hstore]; rfl, hlistings, by rw [hstore]; rfl⟩, by simp⟩, fun other => ?_⟩
      · rw [Cache.kindOf?, hmiss, Cache.findKind?_of_resolveIn hanswer]
      · exact hlistings ▸ Cache.kindOf?_resolveIn _ _ _ _

theorem Engine.Resolving.trans {first second third : Engine} (h : first.Resolving second)
    (h' : second.Resolving third) : first.Resolving third := by
  obtain ⟨calls, hcalls, hall⟩ := h.answered
  obtain ⟨more, hmore, hall'⟩ := h'.answered
  exact ⟨⟨calls ++ more, hcalls.trans hmore, List.forall_mem_append.2 ⟨hall, hall'⟩⟩,
    fun identifier => (h'.kindOf?_eq identifier).trans (h.kindOf?_eq identifier)⟩

/-- Tracing resolves nothing. -/
theorem Engine.Traced.resolving {before after : Engine} (h : before.Traced after) : before.Resolving after :=
  ⟨⟨[], h.answered, nofun⟩, fun _ => by rw [h.cache_eq, h.gateway_eq]⟩

namespace Run

variable {engine after : Engine}

/-- A node that is resolved after others gets the kind that its identifier means. -/
theorem resolveNode_step (node : Node) (kind : Kind) (before after : Engine) (hkept : engine.Resolving before)
    (h : resolveNode node before = (.ok kind, after)) :
    engine.cache.kindOf? engine.gateway.store.listings node.kind = some kind ∧ engine.Resolving after := by
  unfold resolveNode at h
  split at h
  · rename_i found middle hfound
    cases h
    obtain ⟨hkind, hnext⟩ := Engine.resolve_eq_ok hfound
    exact ⟨(hkept.kindOf?_eq _).symm.trans hkind, hkept.trans hnext⟩
  · cases (Prod.mk.inj h).1

/-- A plan gives every node the kind that its identifier means to the cache and the catalog, after discovery only. -/
theorem plan_spec {query : Query} {context : Context} {targets : List Target}
    (h : plan query context engine = (.ok targets, after)) :
    engine.Resolving after ∧ ∃ kinds, query.targets context kinds = .ok targets ∧
      List.Forall₂ (fun node kind => engine.cache.kindOf? engine.gateway.store.listings node.kind = some kind)
        query.graph.nodes kinds := by
  obtain ⟨kinds, middle, hkinds, h⟩ := bind_eq_ok.1 h
  obtain ⟨htargets, rfl⟩ := ofExcept_eq_ok.1 h
  obtain ⟨hall, hresolving⟩ := mapM_forall₂ resolveNode_step (Engine.Traced.refl engine).resolving hkinds
  exact ⟨hresolving, kinds, htargets, hall⟩

/-! ## Documents -/

/-- The call that lists the objects of a target. -/
def listCall (target : Target) : Call :=
  .list target.kind.coordinate target.search.inNamespace target.search.fields.text target.search.labels.text

/-- The documents are the stored objects that pass the search and the predicates of a target, in store order. -/
def Fetches (store : Store) (target : Target) (documents : List Document) : Prop :=
  ∃ resource, resourceAt? store.listings target.kind.coordinate = some resource ∧
    documents = store.objects.filter fun object =>
      Store.passes target.kind.coordinate resource target.search object && target.accepts object

/-- What is kept of an answer: its documents that pass the predicates of the target. -/
def Keeps (searched : Target × Except StoreError (List Document)) (documents : List Document) : Prop :=
  ∃ found, searched.2 = .ok found ∧ documents = found.filter searched.1.accepts

/-- Keeping what passes the predicates asks the store nothing. -/
theorem keep_step {context : Context} (searched : Target × Except StoreError (List Document))
    (documents : List Document) (before after : Engine) (hkept : engine.Traced before)
    (h : keep context searched.1 searched.2 before = (.ok documents, after)) :
    Keeps searched documents ∧ engine.Traced after := by
  obtain ⟨target, answer⟩ := searched
  cases answer with
  | error cause => cases h
  | ok found =>
    obtain ⟨_, middle, htrace, h⟩ := bind_eq_ok.1 h
    obtain ⟨rfl, rfl⟩ := pure_eq_ok.1 h
    exact ⟨⟨found, rfl, rfl⟩, hkept.trans (traced_of_trace htrace)⟩

/-- Searching for all targets makes one call for each, in order; where every answer is kept, each target gets the stored
objects that pass its search and its predicates. -/
theorem searchAll_spec {targets : List Target} {answers : List (Except StoreError (List Document))}
    {family : Link.Family} (h : searchAll targets engine = (answers, after))
    (hkept : List.Forall₂ Keeps (targets.zip answers) family) :
    engine.Answered after (targets.map listCall) ∧ List.Forall₂ (Fetches engine.gateway.store) targets family := by
  induction targets generalizing engine after answers family with
  | nil =>
    obtain ⟨rfl, rfl⟩ := Prod.mk.inj h
    cases hkept
    exact ⟨(Engine.Traced.refl _).answered, List.Forall₂.nil⟩
  | cons target rest ih =>
    cases hlist : engine.gateway.list target.kind.coordinate target.search with
    | mk answer gateway =>
      cases hrest : searchAll rest { engine with gateway := gateway } with
      | mk others last =>
        simp only [searchAll, hlist, hrest] at h
        obtain ⟨rfl, rfl⟩ := Prod.mk.inj h
        rw [List.zip_cons_cons] at hkept
        obtain ⟨documents, tail, ⟨found, rfl, rfl⟩, htail, rfl⟩ := List.forall₂_cons_left_iff.1 hkept
        obtain ⟨hstore, resource, hresource, rfl⟩ := Gateway.list_eq_ok hlist
        obtain ⟨hanswered, hall⟩ := ih hrest htail
        have hfirst : engine.Answered { engine with gateway := gateway } [listCall target] := by
          refine ⟨?_, ?_, ?_⟩ <;> simp [hstore, Store.record, listCall]
        refine ⟨hfirst.trans hanswered, List.Forall₂.cons ⟨resource, hresource, ?_⟩ (hall.imp fun t found hf => ?_)⟩
        · rw [List.filter_filter]
          simp only [Bool.and_comm]
        · -- the call that went before is on record, and that is all
          obtain ⟨resource, hresource, hfound⟩ := hf
          rw [hfirst.listings_eq] at hresource
          rw [hfirst.objects_eq] at hfound
          exact ⟨resource, hresource, hfound⟩

/-- Fetching makes one list call for each target, in order, and gives each the stored objects that pass its search and
its predicates. -/
theorem fetch_spec {context : Context} {targets : List Target} {family : Link.Family}
    (h : fetch context targets engine = (.ok family, after)) :
    engine.Answered after (targets.map listCall) ∧ List.Forall₂ (Fetches engine.gateway.store) targets family := by
  obtain ⟨answers, middle, hsearch, h⟩ := bind_eq_ok.1 h
  obtain ⟨hkept, htraced⟩ := mapM_forall₂ keep_step (Engine.Traced.refl middle) h
  cases hall : searchAll targets engine with
  | mk found last =>
    rw [hall] at hsearch
    cases hsearch
    obtain ⟨hanswered, hfetched⟩ := searchAll_spec hall hkept
    exact ⟨hanswered.traced htraced, hfetched⟩

end Run

end ClusterQuery
