import ClusterQuery.Proofs.Execution.Ending
import ClusterQuery.Proofs.Execution.Finding
import ClusterQuery.Proofs.Execution.Outcomes

/-!
# Finding cannot fail

Where no call is made to fail (`Engine.Unhindered`), what identifiers mean can be resolved, and targets whose resources
the catalog has can be searched for. So a pattern without edges from a node to itself is matched whenever its targets
can be planned and its edges have rules (`Run.exists_execute_finding`).
-/

namespace ClusterQuery

/-- Every resource that the targets ask for is in the catalog. -/
def Serves (listings : List Listing) (targets : List Target) : Prop :=
  ∀ target ∈ targets, ∃ resource, resourceAt? listings target.kind.coordinate = some resource

/-- Without a fault every call reaches the store. -/
theorem Gateway.guarded_of_fault_eq_none {α : Type} {gateway : Gateway} (h : gateway.fault = none) (name : CallName)
    (call : Store → Store.Answer α) :
    gateway.guarded name call = ((call gateway.store).1, ⟨(call gateway.store).2, none⟩) := by
  unfold guarded
  rw [h]
  rfl

namespace Engine

/-- What an identifier means is resolved. -/
theorem exists_resolve_eq_ok {engine : Engine} (h : engine.Unhindered) {identifier : String} {kind : Kind}
    (hkind : engine.cache.kindOf? engine.gateway.store.listings identifier = some kind) :
    ∃ after, engine.resolve identifier = (.ok kind, after) ∧ after.Unhindered := by
  unfold Cache.kindOf? at hkind
  unfold resolve
  cases hlookup : engine.cache.lookup (Cache.keyOf identifier) with
  | some found =>
    rw [hlookup] at hkind
    cases hkind
    exact ⟨engine, rfl, h⟩
  | none =>
    rw [hlookup] at hkind
    dsimp only at hkind ⊢
    rw [Gateway.discover, Gateway.guarded_of_fault_eq_none h.fault_eq]
    cases hfind : findKind? (Cache.keyOf identifier) engine.gateway.store.listings with
    | error cause =>
      rw [hfind] at hkind
      cases hkind
    | ok found =>
      rw [hfind] at hkind
      obtain rfl : found = some kind := hkind
      simp only [Store.discover, Cache.resolveIn, hfind]
      exact ⟨_, rfl, rfl, h.listFailure_eq⟩

/-- A list of a resource that the catalog has is answered. -/
theorem exists_list_eq_ok {engine : Engine} (h : engine.Unhindered) {target : Target} {resource : Resource}
    (hresource : resourceAt? engine.gateway.store.listings target.kind.coordinate = some resource) :
    ∃ documents gateway, engine.gateway.list target.kind.coordinate target.search = (.ok documents, gateway) ∧
      Unhindered { engine with gateway := gateway } := by
  rw [Gateway.list, Gateway.guarded_of_fault_eq_none h.fault_eq]
  simp only [Store.list, h.listFailure_eq, hresource]
  exact ⟨_, _, rfl, rfl, h.listFailure_eq⟩

end Engine

namespace Engine.Means

variable {before after : Engine}
  (h : after.Means before.gateway.store.listings (before.cache.kindOf? before.gateway.store.listings))

include h

/-- Where the catalog and the meanings have stayed, an engine is as regular as before. -/
theorem regular (hregular : before.Regular) : after.Regular := by
  refine ⟨h.listings_eq ▸ hregular.distinct, fun identifier kind hkind => ?_⟩
  rw [h.listings_eq, h.kindOf?_eq] at hkind
  rw [h.listings_eq]
  exact hregular.listed identifier kind hkind

/-- Where the catalog and the meanings have stayed, nodes have the kinds that they had. -/
theorem kinds_iff {nodes : List Node} {kinds : List Kind} :
    List.Forall₂ (fun node kind => after.cache.kindOf? after.gateway.store.listings node.kind = some kind) nodes kinds ↔
      List.Forall₂ (fun node kind =>
        before.cache.kindOf? before.gateway.store.listings node.kind = some kind) nodes kinds := by
  simp only [h.listings_eq, h.kindOf?_eq]

end Engine.Means

/-- The kinds that identifiers mean are the only ones. -/
theorem kinds_unique {meaning : String → Option Kind} {nodes : List Node} {kinds others : List Kind}
    (h : List.Forall₂ (fun node kind => meaning node.kind = some kind) nodes kinds)
    (h' : List.Forall₂ (fun node kind => meaning node.kind = some kind) nodes others) : kinds = others := by
  refine List.right_unique_forall₂' (fun node kind other hkind hother => ?_) h h'
  exact Option.some.inj (hkind.symm.trans hother)

namespace Run

variable {engine : Engine}

/-- A list of steps succeeds when each of them does from every engine that the steps before it may leave. -/
theorem exists_mapM_eq_ok {α β : Type} {K : Engine → Prop} {R : α → β → Prop} {step : α → Run β}
    (hstep : ∀ entry answer, R entry answer → ∀ before, K before →
      ∃ after, step entry before = (.ok answer, after) ∧ K after)
    {entries : List α} {answers : List β} (hall : List.Forall₂ R entries answers) (hkept : K engine) :
    ∃ after, entries.mapM step engine = (.ok answers, after) ∧ K after := by
  induction hall generalizing engine with
  | nil => exact ⟨engine, rfl, hkept⟩
  | @cons entry answer rest others hfirst _ ih =>
    obtain ⟨middle, hran, hmiddle⟩ := hstep entry answer hfirst engine hkept
    obtain ⟨after, hrest, hafter⟩ := ih hmiddle
    refine ⟨after, ?_, hafter⟩
    rw [List.mapM_cons]
    exact bind_eq_ok.2 ⟨answer, middle, hran, bind_eq_ok.2 ⟨others, after, hrest, rfl⟩⟩

/-- Where the nodes have kinds and targets can be made of them, they are planned. -/
theorem exists_plan_eq_ok {query : Query} {context : Context} {kinds : List Kind} {targets : List Target}
    (h : engine.Unhindered)
    (hkinds : List.Forall₂ (fun node kind =>
      engine.cache.kindOf? engine.gateway.store.listings node.kind = some kind) query.graph.nodes kinds)
    (htargets : query.targets context kinds = .ok targets) :
    ∃ after, plan query context engine = (.ok targets, after) ∧ after.Unhindered := by
  have hresolved : ∃ after, query.graph.nodes.mapM resolveNode engine = (.ok kinds, after) ∧
      (engine.Resolving after ∧ after.Unhindered) := by
    refine exists_mapM_eq_ok (fun node kind hkind before hbefore => ?_) hkinds
      ⟨(Engine.Traced.refl engine).resolving, h⟩
    obtain ⟨hresolving, hunhindered⟩ := hbefore
    have hmeans := (hresolving.kindOf?_eq node.kind).trans hkind
    obtain ⟨after, hran, hafter⟩ := Engine.exists_resolve_eq_ok hunhindered hmeans
    have hnode : resolveNode node before = (.ok kind, after) := by
      simp only [resolveNode, hran]
    exact ⟨after, hnode, (resolveNode_step node kind before after hresolving hnode).2, hafter⟩
  obtain ⟨after, hran, -, hafter⟩ := hresolved
  exact ⟨after, bind_eq_ok.2 ⟨kinds, after, hran, ofExcept_eq_ok.2 ⟨htargets, rfl⟩⟩, hafter⟩

/-- All searches for resources of the catalog are answered. -/
theorem exists_searchAll_eq (targets : List Target) (h : engine.Unhindered)
    (hserves : Serves engine.gateway.store.listings targets) :
    ∃ (found : List (List Document)) (after : Engine),
      searchAll targets engine = (found.map .ok, after) ∧ found.length = targets.length ∧
      after.Unhindered := by
  induction targets generalizing engine with
  | nil => exact ⟨[], engine, rfl, rfl, h⟩
  | cons target rest ih =>
    obtain ⟨⟨resource, hresource⟩, hrest⟩ := List.forall_mem_cons.1 hserves
    obtain ⟨documents, gateway, hlist, hlisted⟩ := Engine.exists_list_eq_ok h hresource
    have hlistings : gateway.store.listings = engine.gateway.store.listings := by
      rw [(Gateway.list_eq_ok hlist).1]
      rfl
    have hserved : Serves gateway.store.listings rest := by
      rw [hlistings]
      exact hrest
    obtain ⟨others, after, hall, hlength, hafter⟩ := ih hlisted hserved
    refine ⟨documents :: others, after, ?_, by simp [hlength], hafter⟩
    simp only [searchAll, hlist, hall, List.map_cons]

/-- What all searches find is fetched. -/
theorem exists_fetch_of_searchAll (context : Context) {targets : List Target} {found : List (List Document)}
    {searched : Engine} (hsearch : searchAll targets engine = (found.map .ok, searched)) :
    ∃ family after, fetch context targets engine = (.ok family, after) := by
  have hkept : ∃ after, (targets.zip (found.map Except.ok)).mapM
      (fun entry => keep context entry.1 entry.2) searched =
        (.ok ((targets.zip found).map fun entry => entry.2.filter entry.1.accepts), after) ∧ True := by
    refine exists_mapM_eq_ok (R := Keeps) (K := fun _ => True) (fun entry documents hkeeps before _ => ?_) ?_ trivial
    · obtain ⟨target, answer⟩ := entry
      obtain ⟨all, hall, rfl⟩ := hkeeps
      subst hall
      exact ⟨_, bind_eq_ok.2 ⟨(), _, rfl, rfl⟩, trivial⟩
    · rw [List.zip_map_right, List.forall₂_map_left_iff, List.forall₂_map_right_iff, List.forall₂_same]
      exact fun entry _ => ⟨entry.2, rfl, rfl⟩
  obtain ⟨after, hran, -⟩ := hkept
  refine ⟨_, after, bind_eq_ok.2 ⟨found.map .ok, searched, ?_, hran⟩⟩
  show ((.ok (searchAll targets engine).1, (searchAll targets engine).2) : Except ExecutionError _ × Engine) = _
  rw [hsearch]

/-- What is asked for is fetched. -/
theorem exists_fetch_eq_ok (context : Context) {targets : List Target} (h : engine.Unhindered)
    (hserves : Serves engine.gateway.store.listings targets) :
    ∃ family after, fetch context targets engine = (.ok family, after) := by
  obtain ⟨found, searched, hsearch, -, -⟩ := exists_searchAll_eq targets h hserves
  exact exists_fetch_of_searchAll context hsearch

/-- A query whose targets have been planned ends as its clause does; the rest is tracing. -/
theorem exists_execute_of_act {rules : List Rule} {context : Context} {query : Query} {targets : List Target}
    {started planned told done : Engine} {acted : Except ExecutionError Result}
    (hstart : trace context ("executing " ++ query.text) engine = (.ok (), started))
    (hplan : plan query context started = (.ok targets, planned))
    (htold : (targets.forM fun target => trace context (targetLine target)) planned = (.ok (), told))
    (hact : act rules context query targets told = (acted, done)) :
    ∃ after, execute rules context query engine = (acted, after) ∧ done.Traced after := by
  unfold execute
  rw [bind_apply, hstart]
  dsimp only
  rw [bind_apply, hplan]
  dsimp only
  rw [bind_apply, htold]
  dsimp only
  rw [bind_apply, hact]
  cases acted with
  | error cause => exact ⟨done, rfl, Engine.Traced.refl done⟩
  | ok result => exact ⟨_, rfl, traced_of_trace rfl⟩

/-- What has been matched has links for its edges. -/
theorem exists_linksOf_of_matched {rules : List Rule} {context : Context} {graph : Graph} {targets : List Target}
    {family : Link.Family} {after : Engine} (h : matched rules context graph targets engine = (.ok family, after)) :
    ∃ links, linksOf rules graph targets = .ok links := by
  obtain ⟨links, middle, hread, -⟩ := bind_eq_ok.1 h
  exact ⟨links, (ofExcept_eq_ok.1 hread).1⟩

/-- Without an edge from a node to itself, what is fetched is narrowed to a match. -/
theorem exists_matched_eq_ok {rules : List Rule} {context : Context} {graph : Graph} {targets : List Target}
    {links : List Link} {fetched : Link.Family} {after : Engine} (hc : graph.Closed)
    (hnodes : targets.map (·.node) = graph.nodes) (hloops : ∀ edge ∈ graph.edges, edge.source ≠ edge.target)
    (hlinks : linksOf rules graph targets = .ok links) (hfetch : fetch context targets engine = (.ok fetched, after)) :
    ∃ family, matched rules context graph targets engine = (.ok family, after) := by
  have hapart : ∀ link ∈ links, link.source ≠ link.target := by
    refine (forall_mem_iff_of_forall₂ (linksOf_forall₂ hc hnodes hlinks) fun edge link hr => ?_).1 hloops
    exact not_congr (hr.loop_iff hc).symm
  obtain ⟨family, hfamily⟩ := Link.exists_narrowAll_eq hapart fetched
  refine ⟨family, bind_eq_ok.2 ⟨links, engine, ofExcept_eq_ok.2 ⟨hlinks, rfl⟩, ?_⟩⟩
  refine bind_eq_ok.2 ⟨fetched, after, hfetch, ?_⟩
  rw [hfamily]
  rfl

/-- The catalog has the resources of planned targets. -/
theorem Planned.serves {context : Context} {query : Query} {before told : Engine} {kinds : List Kind}
    {targets : List Target} (h : Planned context query before told kinds targets) (hregular : before.Regular) :
    Serves told.gateway.store.listings targets := by
  obtain ⟨calls, hanswered⟩ := h.answered
  intro target htarget
  have hlisted := hregular.listed _ _ (h.kindOf?_eq htarget)
  obtain ⟨resource, hresource, -, -⟩ := hlisted.resourceAt?_eq hregular.distinct
  rw [hanswered.listings_eq]
  exact ⟨resource, hresource⟩

/-- Where no call is made to fail, the nodes have kinds, and targets can be made of them, a pattern whose edges have
rules and join different nodes is found. -/
theorem exists_execute_finding {query : Query} {rules : List Rule} {context : Context} {kinds : List Kind}
    {targets : List Target} {links : List Link} (hw : query.graph.WellFormed)
    (hfilters : query.clause.filters = []) (hloops : ∀ edge ∈ query.graph.edges, edge.source ≠ edge.target)
    (h : engine.Unhindered) (hregular : engine.Regular)
    (hkinds : List.Forall₂ (fun node kind =>
      engine.cache.kindOf? engine.gateway.store.listings node.kind = some kind) query.graph.nodes kinds)
    (htargets : query.targets context kinds = .ok targets)
    (hlinks : linksOf rules query.graph targets = .ok links) :
    ∃ found seen, execute rules context query.finding engine = (.ok found, seen) := by
  have hstart := traced_of_trace (rfl : trace context ("executing " ++ query.text) engine = (.ok (), _))
  generalize (trace context ("executing " ++ query.text) engine).2 = started at hstart
  rw [← hstart.gateway_eq, ← hstart.cache_eq] at hkinds
  obtain ⟨planned, hplan, hplanned⟩ := exists_plan_eq_ok (Engine.invariant_unhindered.traced hstart h) hkinds htargets
  obtain ⟨told, htold⟩ := exists_forM_trace context targetLine targets planned
  obtain ⟨kinds', hplanned'⟩ := planned_spec hw.bindings_nodup hstart hplan htold
  have htelling := Engine.invariant_unhindered.traced (traced_of_forM_trace htold) hplanned
  obtain ⟨fetched, matching, hfetch⟩ := exists_fetch_eq_ok context htelling (hplanned'.serves hregular)
  obtain ⟨family, hmatched⟩ := exists_matched_eq_ok hw.toClosed hplanned'.nodes_eq hloops hlinks hfetch
  obtain ⟨seen, hfound⟩ := execute_finding hfilters hstart hplan htold hmatched
  exact ⟨_, seen, hfound⟩

end Run

end ClusterQuery
