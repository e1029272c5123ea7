import ClusterQuery.Proofs.Execution.Assigning
import ClusterQuery.Proofs.Execution.Deleting
import ClusterQuery.Proofs.Execution.Instances
import ClusterQuery.Proofs.Store.Identities

/-!
# Queries that keep identities distinct

A query that writes nothing into what tells the objects of one kind apart from those of another
(`Query.KeepsIdentities`) makes and changes documents that belong to the kinds of its nodes
(`Target.belongsTo_newDocument`, `Document.BelongsTo.merge`). So it keeps the identities of a store distinct, however it
ends (`Run.execute_distinct`), and when it is to create an object of an identity that is taken, it ends in the error for
that (`Run.execute_create_taken`).
-/

namespace ClusterQuery

/-- The paths at which every document of a kind has the same: its kind, and no namespace when the kind is one of the
whole cluster. -/
def Kind.fixedPaths (kind : Kind) : List (List String) :=
  if kind.namespaced then kindPaths else ["metadata", "namespace"] :: kindPaths

/-- Nothing is written at, above or below what all documents of a kind share. -/
def Kind.SparedBy (kind : Kind) (written : List (List String × Literal)) : Prop :=
  ∀ entry ∈ written, ∀ path ∈ kind.fixedPaths, ¬Comparable entry.1 path

instance (kind : Kind) (written : List (List String × Literal)) : Decidable (kind.SparedBy written) :=
  inferInstanceAs (Decidable (∀ entry ∈ written, ∀ path ∈ kind.fixedPaths, ¬Comparable entry.1 path))

theorem Kind.kind_mem_fixedPaths {kind : Kind} {path : List String} (h : path ∈ kindPaths) :
    path ∈ kind.fixedPaths := by
  unfold fixedPaths
  split
  · exact h
  · exact List.mem_cons_of_mem _ h

theorem Kind.namespace_mem_fixedPaths {kind : Kind} (h : kind.namespaced = false) :
    ["metadata", "namespace"] ∈ kind.fixedPaths := by
  rw [fixedPaths, h]
  exact List.mem_cons_self

namespace Document.BelongsTo

variable {document other : Document} {kind : Kind}

/-- What has the same where all documents of the kind do belongs to it too. -/
theorem of_at?_eq (h : document.BelongsTo kind) (hsame : ∀ path ∈ kind.fixedPaths, other.at? path = document.at? path) :
    other.BelongsTo kind := by
  refine ⟨?_, ?_, fun hwide => ?_⟩
  · rw [← h.apiVersion_eq, stringAt?, stringAt?, hsame _ (Kind.kind_mem_fixedPaths (by decide))]
  · rw [← h.kind_eq, stringAt?, stringAt?, hsame _ (Kind.kind_mem_fixedPaths (by decide))]
  · rw [← h.namespace_eq hwide, namespace?, namespace?, stringAt?, stringAt?,
      hsame _ (Kind.namespace_mem_fixedPaths hwide)]

/-- A patch that spares what all documents of the kind share leaves a document with the kind. -/
theorem merge (h : document.BelongsTo kind) {assigned : List (List String × Literal)}
    (hspares : kind.SparedBy assigned) : (document.merge (mergedPatch assigned)).BelongsTo kind := by
  refine h.of_at?_eq fun path hpath => at?_merge_of_spares (orderly_mergedPatch assigned) ?_ document
  refine spares_mergedPatch ?_ fun entry hentry => hspares entry hentry path hpath
  rintro rfl
  unfold Kind.fixedPaths at hpath
  split at hpath
  · exact absurd hpath (by decide)
  · exact absurd hpath (by decide)

end Document.BelongsTo

namespace Target

variable {target : Target}

/-- A blank document belongs to the kind of its target. -/
theorem belongsTo_blank : target.blank.BelongsTo target.kind := by
  refine ⟨?_, ?_, fun hwide => ?_⟩
  · rw [Document.stringAt?, blank_at?_apiVersion]
    rfl
  · rw [Document.stringAt?, blank_at?_kind]
    rfl
  · -- without a namespace there are only the name and the labels
    have hnone : target.newMetadata.lookup "namespace" = none := by
      have hplace : target.newNamespace = none := by rw [newNamespace, hwide]; rfl
      rw [newMetadata, hplace]
      refine Keyed.lookup_ofList_of_notMem ?_
      cases target.newLabels.isEmpty <;> simp
    rw [Document.namespace?, Document.stringAt?, blank_at?_metadata, Document.at?_singleton, Document.get?, hnone]
    rfl

/-- A new document belongs to the kind of its target when the fields of the node spare what all documents of the kind
share. -/
theorem belongsTo_newDocument (hspares : target.kind.SparedBy target.node.fields) {document : Document}
    (h : target.newDocument = .ok document) : document.BelongsTo target.kind := by
  obtain ⟨rfl, -⟩ := newDocument_eq h
  refine belongsTo_blank.of_at?_eq fun path hpath => ?_
  exact at?_foldl_assignInto_of_not_comparable (fun entry hentry => hspares entry hentry path hpath) _

/-- The identity under which the document of a target is to be stored, if it can be made and has a name. -/
def newIdentity? (target : Target) : Option Identity :=
  match target.newDocument with
  | .ok described => described.name?.map fun name => target.kind.identityAt target.newNamespace (some name)
  | .error _ => none

theorem newIdentity?_eq_some {identity : Identity} : target.newIdentity? = some identity ↔
    ∃ described name, target.newDocument = .ok described ∧ described.name? = some name ∧
      target.kind.identityAt target.newNamespace name = identity := by
  unfold newIdentity?
  cases target.newDocument with
  | error cause => exact ⟨nofun, fun ⟨_, _, h, _⟩ => nomatch h⟩
  | ok described => simp

/-- A new document of a kind with namespaces is put in one. -/
theorem newNamespace_ne_none (h : target.kind.namespaced = true) : target.newNamespace ≠ none := by
  rw [newNamespace, if_pos h]
  exact Option.some_ne_none _

end Target

/-- What a query writes into the documents of a node. -/
def Query.written (query : Query) (node : Node) : List (List String × Literal) :=
  match query.clause with
  | .create => node.fields
  | _ => query.assigned node.name

/-- The query writes nothing into what all documents of the kind of a node share, as identifiers have the given
meaning. -/
def Query.KeepsIdentities (query : Query) (meaning : String → Option Kind) : Prop :=
  ∀ node ∈ query.graph.nodes, ∀ kind ∈ meaning node.kind, kind.SparedBy (query.written node)

instance (query : Query) (meaning : String → Option Kind) : Decidable (query.KeepsIdentities meaning) :=
  inferInstanceAs (Decidable (∀ node ∈ query.graph.nodes, ∀ kind ∈ meaning node.kind,
    kind.SparedBy (query.written node)))

/-- The catalog is the given one, and the identities of the objects are distinct and fit it. -/
def Engine.Distinct (listings : List Listing) : Engine → Prop :=
  Stores fun held objects => held = listings ∧ Store.DistinctIn listings (objects.map Document.identity)

namespace Run

variable {listings : List Listing}

/-- A call keeps the identities distinct when it does so in the store. -/
theorem preserves_call_distinct {α : Type} {target : Target} {name : CallName} {request : Store → Store.Answer α}
    (hlistings : ∀ store : Store, (request store).2.listings = store.listings)
    (h : ∀ store : Store, store.listings = listings → Store.DistinctIn listings store.identities →
      Store.DistinctIn listings (request store).2.identities) :
    Preserves (Engine.Distinct listings) (call target fun gateway => gateway.guarded name request) := by
  refine preserves_call fun engine hengine => ?_
  refine Gateway.guarded_keeps (M := fun store => store.listings = listings ∧
    Store.DistinctIn listings store.identities) (fun store hstore => ?_) hengine
  exact ⟨(hlistings store).trans hstore.1, h store hstore.1 hstore.2⟩

variable {targets : List Target}

/-- Creating keeps the identities distinct when the fields of the nodes spare what all documents of their kinds
share. -/
theorem preserves_create_distinct (hserved : ∀ target ∈ targets, target.kind.ServedBy listings)
    (hspares : ∀ target ∈ targets, target.kind.SparedBy target.node.fields) (graph : Graph) :
    Preserves (Engine.Distinct listings) (create graph targets) := by
  refine preserves_create (fun bindings target htarget => ?_) graph
  refine (preserves_ofExcept _).bind_of_ok fun engine document middle _ hread => ?_
  have hbelongs := Target.belongsTo_newDocument (hspares target htarget) (ofExcept_eq_ok.1 hread).1
  refine Preserves.bind ?_ fun _ => preserves_pure _
  refine preserves_call_distinct (fun store => (Store.create_snd store _ _ _).1) fun store hlistings hdistinct => ?_
  subst hlistings
  exact Store.distinctIn_create (hserved target htarget) hbelongs Target.newNamespace_ne_none hdistinct

/-- Changing a document keeps the identities distinct when it belongs to the kind of its target with the patch, too. -/
theorem preserves_update_distinct {target : Target} (hserved : target.kind.ServedBy listings)
    {patch document : Document} (hbelongs : (document.merge patch).BelongsTo target.kind) :
    Preserves (Engine.Distinct listings) (update target patch document) := by
  unfold update
  split
  · refine preserves_call_distinct (fun store => (Store.update_snd store _ _ _).1) fun store hlistings hdistinct => ?_
    subst hlistings
    rwa [Target.namespaceOf, Store.update_identities hserved hbelongs]
  · exact preserves_pure _

/-- What is matched over distinct identities belongs to the kinds of the targets. -/
theorem belongsTo_of_matched {rules : List Rule} {context : Context} {graph : Graph} {family : Link.Family}
    {engine matching : Engine} (hserved : ∀ target ∈ targets, target.kind.ServedBy listings)
    (hdistinct : engine.Distinct listings)
    (h : matched rules context graph targets engine = (.ok family, matching)) {pair : Target × List Document}
    (hpair : pair ∈ targets.zip family) {document : Document} (hdocument : document ∈ pair.2) :
    document.BelongsTo pair.1.kind := by
  obtain ⟨hlistings, hidentities⟩ := hdistinct
  have hkind := hserved pair.1 (List.of_mem_zip hpair).1
  obtain ⟨found, hfound, hsame, -⟩ := hkind.resource
  obtain ⟨fetched, ⟨resource, hresource, rfl⟩, hsub⟩ := List.forall₂_zip (matched_fetches h).2 hpair
  obtain ⟨hstored, hpasses⟩ := List.mem_filter.1 (hsub hdocument)
  rw [hlistings, hfound] at hresource
  obtain rfl := Option.some.inj hresource
  have hinstance := (Store.passes_eq_true_iff.1 (Bool.and_eq_true_iff.1 hpasses).1).1
  rw [hsame] at hinstance
  exact Document.belongsTo_of_isInstance hkind hinstance (hidentities.fits _ (List.mem_map_of_mem hstored))

/-- Assigning keeps the identities distinct when the patches spare what all documents of their kinds share. -/
theorem preserves_assign_distinct (hserved : ∀ target ∈ targets, target.kind.ServedBy listings)
    {assignedOf : Target → List (List String × Literal)}
    (hspares : ∀ target ∈ targets, target.kind.SparedBy (assignedOf target)) {assignments : List Property}
    (hpatches : ∀ patches, patchesOf targets assignments = .ok patches →
      patches = targets.map fun target => mergedPatch (assignedOf target))
    (rules : List Rule) (context : Context) (graph : Graph) :
    Preserves (Engine.Distinct listings) (assign rules context graph targets assignments) := by
  refine (preserves_ofExcept _).bind_of_ok fun _ patches _ _ hread => ?_
  obtain rfl := hpatches patches (ofExcept_eq_ok.1 hread).1
  refine (preserves_matched (Engine.asking_stores _) rules context graph targets).bind_of_ok
    fun engine family matching hdistinct hmatched => ?_
  rw [zip_zip_map]
  refine Preserves.bind (sequential_preserves.mapM fun entry hentry => ?_) fun _ => preserves_pure _
  obtain ⟨pair, hpair, rfl⟩ := List.mem_map.1 hentry
  have htarget := (List.of_mem_zip hpair).1
  refine Preserves.bind (sequential_preserves.mapM fun document hdocument => ?_) fun _ => preserves_pure _
  have hbelongs := belongsTo_of_matched hserved hdistinct hmatched hpair hdocument
  exact preserves_update_distinct (hserved pair.1 htarget) (hbelongs.merge (hspares pair.1 htarget))

/-- Removing documents keeps the identities distinct. -/
theorem preserves_remove_distinct (context : Context) (target : Target) (document : Document) :
    Preserves (Engine.Distinct listings) (remove context target document) := by
  unfold remove
  split
  · exact preserves_throw _
  · refine Preserves.bind ?_ fun _ => preserves_trace (Engine.asking_stores _) context _
    exact preserves_call_distinct (fun store => (Store.delete_snd store _ _ _).1) fun store _ hdistinct =>
      hdistinct.sublist (Store.delete_identities store _ _ _)

/-! ## A whole query -/

variable {query : Query} {context : Context}

/-- What the clause of a query does keeps the identities distinct when the query writes nothing into what all documents
of the kinds of its targets share. -/
theorem preserves_act_distinct (hserved : ∀ target ∈ targets, target.kind.ServedBy listings)
    (hspares : ∀ target ∈ targets, target.kind.SparedBy (query.written target.node))
    (hnames : query.graph.bindings.Nodup) (hnodes : targets.map (·.node) = query.graph.nodes) (rules : List Rule)
    (context : Context) : Preserves (Engine.Distinct listings) (act rules context query targets) := by
  unfold act
  unfold Query.written at hspares
  split
  · exact preserves_find (Engine.asking_stores _) rules context _ targets _
  · rename_i hclause
    rw [hclause] at hspares
    exact preserves_create_distinct hserved hspares query.graph
  · rename_i assignments hclause
    rw [hclause] at hspares
    exact preserves_assign_distinct hserved hspares (fun patches => patchesOf_eq_patch hnames hnodes hclause) rules
      context query.graph
  · refine (preserves_matched (Engine.asking_stores _) rules context _ targets).bind fun family => Preserves.bind ?_
      fun _ => preserves_pure _
    exact sequential_preserves.forM fun pair _ => sequential_preserves.forM fun document _ =>
      preserves_remove_distinct context pair.1 document

/-- The targets that are planned for a query that keeps identities are spared. -/
theorem Planned.sparedBy {before told : Engine} {kinds : List Kind}
    (h : Planned context query before told kinds targets)
    (hkeeps : query.KeepsIdentities (before.cache.kindOf? before.gateway.store.listings)) :
    ∀ target ∈ targets, target.kind.SparedBy (query.written target.node) := by
  intro target htarget
  refine hkeeps target.node ?_ target.kind (h.kindOf?_eq htarget)
  rw [← h.nodes_eq]
  exact List.mem_map_of_mem htarget

/-- A query that keeps identities, where identifiers mean kinds of the catalog, keeps those of a store distinct, whether
it succeeds or fails. -/
theorem execute_distinct {rules : List Rule} {before after : Engine} {answer : Except ExecutionError Result}
    (hnames : query.graph.bindings.Nodup)
    (hserved : ∀ identifier, ∀ kind ∈ before.cache.kindOf? before.gateway.store.listings identifier,
      kind.ServedBy before.gateway.store.listings)
    (hkeeps : query.KeepsIdentities (before.cache.kindOf? before.gateway.store.listings))
    (hdistinct : before.Distinct before.gateway.store.listings)
    (h : execute rules context query before = (answer, after)) : after.Distinct before.gateway.store.listings := by
  rcases execute_cases h with hkept | ⟨started, targets, planned, told, acted, done, hstart, hplan, htold, hact, hend⟩
  · exact hkept _ (Engine.asking_stores _) hdistinct
  · obtain ⟨kinds, hplanned⟩ := planned_spec hnames hstart hplan htold
    obtain ⟨calls, hanswered⟩ := hplanned.answered
    have htelling : told.Distinct before.gateway.store.listings := by
      rw [Engine.Distinct, Engine.Stores, hanswered.listings_eq, hanswered.objects_eq]
      exact hdistinct
    have hall : ∀ target ∈ targets, target.kind.ServedBy before.gateway.store.listings := fun target htarget =>
      hserved target.node.kind target.kind (hplanned.kindOf?_eq htarget)
    have hdone := preserves_act_distinct hall (hplanned.sparedBy hkeeps) hnames hplanned.nodes_eq rules context
      told htelling
    rw [hact] at hdone
    exact (Engine.asking_stores _).traced hend hdone

/-! ## Objects that exist -/

/-- Where no call is made to fail, steps that each store the document of a target, which all have names, end in the
error for an object that exists when one of the identities is taken. -/
theorem foldlM_storeNew_taken {engine : Engine} (h : engine.Unhindered)
    (hserved : ∀ target ∈ targets, target.kind.ServedBy engine.gateway.store.listings)
    (hspares : ∀ target ∈ targets, target.kind.SparedBy target.node.fields)
    (hnamed : ∀ target ∈ targets, target.newIdentity? ≠ none)
    (htaken : ∃ target ∈ targets, ∃ identity ∈ engine.gateway.store.identities, target.newIdentity? = some identity)
    (start : Bindings) :
    ∃ binding kind detail after, targets.foldlM storeNew start engine =
      (.error (.store binding kind (.alreadyExists detail)), after) := by
  induction targets generalizing engine start with
  | nil =>
    obtain ⟨target, htarget, -⟩ := htaken
    exact absurd htarget List.not_mem_nil
  | cons target rest ih =>
    obtain ⟨hkind, hserved⟩ := List.forall_mem_cons.1 hserved
    obtain ⟨hspared, hspares⟩ := List.forall_mem_cons.1 hspares
    obtain ⟨hfirst, hnamed⟩ := List.forall_mem_cons.1 hnamed
    obtain ⟨identity, hidentity⟩ := Option.ne_none_iff_exists'.1 hfirst
    obtain ⟨described, name, hdescribed, hname, rfl⟩ := Target.newIdentity?_eq_some.1 hidentity
    have hbelongs := Target.belongsTo_newDocument hspared hdescribed
    obtain ⟨hclash, hfree⟩ := Store.create_of_belongsTo hkind hbelongs Target.newNamespace_ne_none hname
    rw [List.foldlM_cons, bind_apply, storeNew, bind_apply, hdescribed]
    simp only [ofExcept, bind_apply, call, Gateway.create, Gateway.guarded_of_fault_eq_none h.fault_eq]
    by_cases hmem : target.kind.identityAt target.newNamespace name ∈ engine.gateway.store.identities
    · obtain ⟨detail, after, hcreate, -⟩ := hclash hmem
      rw [hcreate]
      exact ⟨target.node.name, target.kind.kind, detail, _, rfl⟩
    · obtain ⟨stored, after, hcreate, hidentities⟩ := hfree hmem
      obtain ⟨hlistings, hfailure⟩ := Store.create_snd engine.gateway.store target.kind.coordinate
        target.newNamespace described
      rw [hcreate] at hlistings hfailure ⊢
      have hlistings : after.listings = engine.gateway.store.listings := hlistings
      -- the one that is taken is another, and still is
      have htaken : ∃ target ∈ rest, ∃ identity ∈ after.identities, target.newIdentity? = some identity := by
        obtain ⟨other, hother, held, hheld, hcreates⟩ := htaken
        rcases List.mem_cons.1 hother with rfl | hother
        · obtain rfl := Option.some.inj (hidentity.symm.trans hcreates)
          exact absurd hheld hmem
        · exact ⟨other, hother, held, hidentities ▸ List.mem_append_left _ hheld, hcreates⟩
      have hnext : Engine.Unhindered { engine with gateway := ⟨after, none⟩ } :=
        ⟨rfl, hfailure.trans h.listFailure_eq⟩
      exact ih hnext (hlistings ▸ hserved) hspares hnamed htaken _

/-- Where no call is made to fail, a query without edges that keeps identities, whose targets can be planned and make
documents with names, ends in the error for an object that exists when it is to store one under an identity that is
taken. -/
theorem execute_create_taken {engine : Engine} (rules : List Rule) {kinds : List Kind}
    (hnames : query.graph.bindings.Nodup) (hclause : query.clause = .create) (hedges : query.graph.edges = [])
    (h : engine.Unhindered)
    (hserved : ∀ identifier, ∀ kind ∈ engine.cache.kindOf? engine.gateway.store.listings identifier,
      kind.ServedBy engine.gateway.store.listings)
    (hkeeps : query.KeepsIdentities (engine.cache.kindOf? engine.gateway.store.listings))
    (hkinds : List.Forall₂ (fun node kind =>
      engine.cache.kindOf? engine.gateway.store.listings node.kind = some kind) query.graph.nodes kinds)
    (htargets : query.targets context kinds = .ok targets)
    (hnamed : ∀ target ∈ targets, target.newIdentity? ≠ none)
    (htaken : ∃ target ∈ targets, ∃ identity ∈ engine.gateway.store.identities, target.newIdentity? = some identity) :
    ∃ binding kind detail after,
      execute rules context query engine = (.error (.store binding kind (.alreadyExists detail)), after) := by
  obtain ⟨started, htrace⟩ : ∃ started, trace context ("executing " ++ query.text) engine = (.ok (), started) :=
    ⟨_, rfl⟩
  have hstart := traced_of_trace htrace
  rw [← hstart.gateway_eq, ← hstart.cache_eq] at hkinds
  obtain ⟨planned, hplan, hplanned⟩ := exists_plan_eq_ok (Engine.invariant_unhindered.traced hstart h) hkinds htargets
  obtain ⟨told, htold⟩ := exists_forM_trace context targetLine targets planned
  obtain ⟨others, hplanned'⟩ := planned_spec hnames hstart hplan htold
  obtain ⟨calls, hanswered⟩ := hplanned'.answered
  have hspares := hplanned'.sparedBy hkeeps
  simp only [Query.written, hclause] at hspares
  have hall : ∀ target ∈ targets, target.kind.ServedBy told.gateway.store.listings := by
    rw [hanswered.listings_eq]
    exact fun target htarget => hserved target.node.kind target.kind (hplanned'.kindOf?_eq htarget)
  rw [← show told.gateway.store.identities = engine.gateway.store.identities from
    congrArg (List.map Document.identity) hanswered.objects_eq] at htaken
  obtain ⟨binding, kind, detail, done, hfails⟩ := foldlM_storeNew_taken
    (Engine.invariant_unhindered.traced (traced_of_forM_trace htold) hplanned) hall hspares hnamed htaken []
  have hact : act rules context query targets told = (.error (.store binding kind (.alreadyExists detail)), done) := by
    simp only [act, hclause, create_eq, if_pos hedges]
    rw [bind_apply, hfails]
  obtain ⟨after, hran, -⟩ := exists_execute_of_act htrace hplan htold hact
  exact ⟨binding, kind, detail, after, hran⟩

end Run

end ClusterQuery
