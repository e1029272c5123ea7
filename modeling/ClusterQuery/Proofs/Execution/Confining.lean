import ClusterQuery.Proofs.Execution.Comparing
import ClusterQuery.Proofs.Execution.Framing
import ClusterQuery.Proofs.Execution.Instances
import ClusterQuery.Proofs.Execution.Placing
import ClusterQuery.Proofs.Store.Scoping

/-!
# Queries confined to a namespace

A query whose nodes name no namespace looks, creates and deletes in the namespace of its context. Every target of a kind
that has namespaces stays in it (`Target.StaysIn`), so what is matched is there (`Run.matched_within`), what is made for
a node is put there whatever its dotted fields say (`Run.Made.within`), and what is removed was there
(`Run.preserves_remove_within`). So all else in the store is as before, however the query ends (`Run.execute_confined`).
-/

namespace ClusterQuery

/-! ## What a new document is an object of -/

/-- The fields of a checked node lie below others. -/
theorem Node.Checked.two_le_length {node : Node} (h : node.Checked) : ∀ entry ∈ node.fields, 2 ≤ entry.1.length := by
  intro entry hentry
  obtain ⟨property, hproperty, hmade⟩ := List.mem_filterMap.1 hentry
  obtain ⟨path, hpath, rfl⟩ := Option.map_eq_some_iff.1 hmade
  obtain ⟨key, hkey, hnames⟩ := Property.ofProperty_eq_field_of_field? hpath
  obtain ⟨hname, hnamespace⟩ := Property.ne_of_ofProperty_eq_field hkey
  -- a key of a field has a dot
  have hdot : '.' ∈ key.toList := by
    unfold SelectorKey.ofProperty at hkey
    split at hkey
    · cases hkey
    · split at hkey
      · cases hkey
      · rename_i hplain
        cases hkey
        exact not_not.1 fun hdot => hplain (Or.inr hdot)
  have hwords := FieldPath.parse_of_isFieldKey (h property hproperty hname hnamespace key hkey)
  rw [FieldPath.names?, hwords] at hnames
  rw [← Option.some.inj ((FieldPath.fieldNames?_map_field _).symm.trans hnames), List.length_map]
  exact Selector.two_le_length_pieces hdot

/-- Values that are set below fields of fields leave in a field the text that was there, or none. -/
theorem stringAt?_foldl_assignInto {assigned : List (List String × Literal)}
    (hdeep : ∀ entry ∈ assigned, 2 ≤ entry.1.length) {document : Document} {key text : String}
    (h : (assigned.foldl assignInto document).stringAt? [key] = some text) :
    document.stringAt? [key] = some text := by
  induction assigned generalizing document with
  | nil => exact h
  | cons entry rest ih =>
    obtain ⟨hfirst, hrest⟩ := List.forall_mem_cons.1 hdeep
    have hstep := ih hrest h
    obtain ⟨path, value⟩ := entry
    match path, hfirst with
    | outer :: inner :: more, _ =>
      rw [assignInto, Document.stringAt?, Document.at?_singleton, Document.get?_merge_nested_cons] at hstep
      split at hstep
      · -- there is an object now
        rw [Document.merge_nested_cons] at hstep
        cases hstep
      · rwa [Document.stringAt?, Document.at?_singleton]

/-- The target is of a kind of the catalog and looks in the given namespace when the kind has namespaces; its node is
checked. -/
structure Target.StaysIn (listings : List Listing) (name : String) (target : Target) : Prop where
  served : target.kind.ServedBy listings
  place : target.kind.namespaced = true → target.search.inNamespace = some name
  checked : target.node.Checked

namespace Run

variable {listings : List Listing} {name : String} {target : Target} {document : Document}

/-- What is made for a target that stays in a namespace is there when the kind of the target has namespaces, and when
the document is an object of a resource that has them. -/
theorem Made.within (h : Made listings target document) (hstays : target.StaysIn listings name) :
    (target.kind.namespaced = true → document.namespace? = some name) ∧ document.Within listings name := by
  obtain ⟨described, hdescribed, hcompletes⟩ := h
  have hplace : target.kind.namespaced = true → document.namespace? = some name := by
    intro hnamespaced
    obtain ⟨resource, hresource, -, hsame⟩ := hstays.served.resource
    refine hcompletes.namespace?_eq hresource (hsame.trans hnamespaced) ?_
    rw [Target.newNamespace, if_pos hnamespaced, hstays.place hnamespaced]
    rfl
  obtain ⟨_, uid, -, hstored⟩ := hcompletes
  have hblank : ∀ key, key ≠ "metadata" → ∀ text, document.stringAt? [key] = some text →
      target.blank.stringAt? [key] = some text := by
    intro key hkey text htext
    rw [Document.stringAt?, (Document.at?_of_withMetadata? hstored).1 key hkey, (Target.newDocument_eq hdescribed).1]
      at htext
    exact stringAt?_foldl_assignInto hstays.checked.two_le_length htext
  refine ⟨hplace, Document.within_of_stringAt? hstays.served (fun text htext => ?_) (fun text htext => ?_) hplace⟩
  · have hversion := hblank "apiVersion" (by decide) text htext
    rw [Document.stringAt?, Target.blank_at?_apiVersion] at hversion
    exact (Option.some.inj hversion).symm
  · have hkind := hblank "kind" (by decide) text htext
    rw [Document.stringAt?, Target.blank_at?_kind] at hkind
    exact (Option.some.inj hkind).symm

/-! ## What is planned and matched -/

section Planned

variable {query : Query} {context : Context} {targets : List Target} {before started planned told : Engine}

variable (hplurals : PluralsDistinct before.gateway.store.listings)
  (hkinds : KindsDistinct before.gateway.store.listings)
  (hreached : before.cache.Reached before.gateway.store.listings) (hname : context.scope? = some name)
  (hnodes : ∀ node ∈ query.graph.nodes, ∀ property ∈ node.properties, property.key ≠ "namespace")

include hplurals hkinds hreached hname hnodes

/-- The targets of a query whose nodes name no namespace stay in that of the context. -/
theorem staysIn_of_plan (h : plan query context before = (.ok targets, planned)) :
    ∀ target ∈ targets, target.StaysIn before.gateway.store.listings name ∧
      before.cache.kindOf? before.gateway.store.listings target.node.kind = some target.kind := by
  obtain ⟨-, kinds, htargets, hmeans⟩ := plan_spec h
  have hplaced := Query.targets_placed htargets
  intro target htarget
  obtain ⟨position, hbound, rfl⟩ := List.getElem_of_mem htarget
  have hsubject : position < (query.graph.nodes.zip kinds).length := hplaced.length_eq ▸ hbound
  have hat := hplaced.at_position position _ _ (List.getElem?_eq_getElem hsubject) (List.getElem?_eq_getElem hbound)
  have hmem := List.getElem_mem hsubject
  rw [← hat.subject_eq] at hmem
  have hkind : before.cache.kindOf? before.gateway.store.listings targets[position].node.kind =
      some targets[position].kind := List.forall₂_zip hmeans hmem
  refine ⟨⟨(hreached.listed hkind).servedBy hplurals hkinds.scopesAgree, fun hnamespaced => ?_,
    Query.checked_of_targets htargets _ htarget⟩, hkind⟩
  -- no node has a namespace of its own
  have hnone : lastNamespace? targets[position].node.properties = none := by
    have hfree := hnodes _ (List.of_mem_zip hmem).1
    rw [lastNamespace?, List.filter_eq_nil_iff.2 fun property hproperty => by simpa using hfree property hproperty]
    rfl
  have hplace := hat.place_eq
  rw [← hat.subject_eq] at hplace
  have hall : targets[position].subject.2.namespaced = true := hnamespaced
  rw [if_pos hall, show lastNamespace? targets[position].subject.1.properties = none from hnone, hname] at hplace
  exact hplace

/-- So do they in a run, where nothing has changed when they have been planned. -/
theorem staysIn_of_run (hstart : before.Traced started) (hplan : plan query context started = (.ok targets, planned))
    (htold : (targets.forM fun target => trace context (targetLine target)) planned = (.ok (), told)) :
    told.gateway.store.objects = before.gateway.store.objects ∧
      told.gateway.store.listings = before.gateway.store.listings ∧ targets.map (·.node) = query.graph.nodes ∧
      ∀ target ∈ targets, target.StaysIn before.gateway.store.listings name ∧
        before.cache.kindOf? before.gateway.store.listings target.node.kind = some target.kind := by
  obtain ⟨hresolving, kinds, htargets, hmeans⟩ := plan_spec hplan
  obtain ⟨calls, hanswered, -⟩ :=
    ((hstart.resolving.trans hresolving).trans (traced_of_forM_trace htold).resolving).answered
  refine ⟨hanswered.objects_eq, hanswered.listings_eq, Query.map_node_targets hmeans.length_eq htargets, ?_⟩
  rw [← hstart.gateway_eq] at hplurals hkinds hreached ⊢
  rw [← hstart.cache_eq] at hreached ⊢
  exact staysIn_of_plan hplurals hkinds hreached hname hnodes hplan

end Planned

/-- What is matched for a target that stays in a namespace is stored, and there when its kind has namespaces. -/
theorem matched_within {rules : List Rule} {context : Context} {graph : Graph} {targets : List Target}
    {family : Link.Family} {engine after : Engine}
    (hstays : ∀ target ∈ targets, target.StaysIn engine.gateway.store.listings name)
    (h : matched rules context graph targets engine = (.ok family, after)) :
    ∀ pair ∈ targets.zip family, ∀ document ∈ pair.2, document ∈ engine.gateway.store.objects ∧
      (pair.1.kind.namespaced = true → document.namespace? = some name) ∧
        document.Within engine.gateway.store.listings name := by
  intro pair hpair document hdocument
  obtain ⟨hserved, hplace, -⟩ := hstays pair.1 (List.of_mem_zip hpair).1
  obtain ⟨fetched, ⟨resource, hresource, rfl⟩, hsub⟩ := List.forall₂_zip (matched_fetches h).2 hpair
  obtain ⟨hstored, hpasses⟩ := List.mem_filter.1 (hsub hdocument)
  obtain ⟨hinstance, hnamespace, -⟩ := Store.passes_eq_true_iff.1 (Bool.and_eq_true_iff.1 hpasses).1
  obtain ⟨found, hfound, hkind, hsame⟩ := hserved.resource
  rw [hfound] at hresource
  cases hresource
  rw [hkind] at hinstance
  have hthere : pair.1.kind.namespaced = true → document.namespace? = some name := fun hnamespaced =>
    hnamespace name (hplace hnamespaced) (hsame.trans hnamespaced)
  exact ⟨hstored, hthere, Document.within_of_isInstance hserved hinstance hthere⟩

end Run

/-! ## What is created and removed -/

/-- A call that fails has not reached the store, or has failed there. -/
theorem Gateway.guarded_eq_error {α : Type} {name : CallName} {call : Store → Store.Answer α} {gateway after : Gateway}
    {cause : StoreError} (h : gateway.guarded name call = (.error cause, after)) :
    after.store = gateway.store ∨ call gateway.store = (.error cause, after.store) := by
  have hreached : ∀ fault : Option Fault, gateway.reach fault call = (.error cause, after) →
      call gateway.store = (.error cause, after.store) := by
    intro fault h
    obtain ⟨hanswer, rfl⟩ := Prod.mk.inj h
    exact Prod.ext hanswer rfl
  unfold guarded at h
  split at h
  · exact Or.inr (hreached none h)
  · split at h
    · split at h
      · cases h
        exact Or.inl rfl
      · exact Or.inr (hreached _ h)
    · exact Or.inr (hreached _ h)

namespace Run

variable {name : String} {target : Target} {engine after : Engine}

/-- Storing the document of a target has failed and left the objects, or has put what is made for the target after
them. -/
theorem storeNew_cases {bindings : Bindings} {answer : Except ExecutionError Bindings}
    (h : storeNew bindings target engine = (answer, after)) :
    after.gateway.store.listings = engine.gateway.store.listings ∧
      ((∃ cause, answer = .error cause) ∧ after.gateway.store.objects = engine.gateway.store.objects ∨
        ∃ next document, answer = .ok next ∧ Made engine.gateway.store.listings target document ∧
          after.gateway.store.objects = engine.gateway.store.objects ++ [document]) := by
  rcases bind_cases h with ⟨cause, hread, rfl⟩ | ⟨described, middle, hread, h⟩
  · obtain ⟨-, rfl⟩ := Prod.mk.inj hread
    exact ⟨rfl, Or.inl ⟨⟨cause, rfl⟩, rfl⟩⟩
  obtain ⟨hdescribed, rfl⟩ := ofExcept_eq_ok.1 hread
  rcases bind_cases h with ⟨cause, hcall, rfl⟩ | ⟨stored, middle, hcall, h⟩
  · unfold call at hcall
    split at hcall
    · cases hcall
    · rename_i source gateway hcreate
      obtain ⟨-, rfl⟩ := Prod.mk.inj hcall
      rcases Gateway.guarded_eq_error hcreate with hsame | hfailed
      · exact ⟨congrArg Store.listings hsame, Or.inl ⟨⟨cause, rfl⟩, congrArg Store.objects hsame⟩⟩
      · obtain ⟨hlistings, hobjects⟩ := Store.create_eq_error hfailed
        exact ⟨hlistings, Or.inl ⟨⟨cause, rfl⟩, hobjects⟩⟩
  · obtain ⟨gateway, hcreate, rfl⟩ := call_eq_ok.1 hcall
    obtain ⟨hcompletes, hlistings, hobjects⟩ := Store.create_eq_ok (Gateway.guarded_eq_ok hcreate)
    cases h
    exact ⟨hlistings, Or.inr ⟨_, stored, rfl, ⟨described, hdescribed, hcompletes⟩, hobjects⟩⟩

/-- Storing the documents of targets, as far as it comes, puts what is made for the first of them after the objects. -/
theorem foldlM_storeNew_made {targets : List Target} {start : Bindings} {answer : Except ExecutionError Bindings}
    (h : targets.foldlM storeNew start engine = (answer, after)) :
    ∃ documents, List.Forall₂ (Made engine.gateway.store.listings) (targets.take documents.length) documents ∧
      after.gateway.store.objects = engine.gateway.store.objects ++ documents := by
  induction targets generalizing engine start with
  | nil =>
    cases h
    exact ⟨[], List.Forall₂.nil, (List.append_nil _).symm⟩
  | cons target rest ih =>
    rw [List.foldlM_cons] at h
    rcases bind_cases h with ⟨cause, hstep, rfl⟩ | ⟨next, middle, hstep, h⟩
    · obtain ⟨-, ⟨-, hobjects⟩ | ⟨_, _, hanswer, -⟩⟩ := storeNew_cases hstep
      · exact ⟨[], List.Forall₂.nil, hobjects.trans (List.append_nil _).symm⟩
      · cases hanswer
    · obtain ⟨hlistings, ⟨⟨_, hanswer⟩, -⟩ | ⟨_, document, -, hmade, hobjects⟩⟩ := storeNew_cases hstep
      · cases hanswer
      · obtain ⟨documents, hall, hlast⟩ := ih h
        refine ⟨document :: documents, .cons hmade (hlistings ▸ hall), ?_⟩
        rw [hlast, hobjects, List.append_assoc]
        rfl

/-- Removing what lies where its target stays takes away nothing that lies outside. -/
theorem preserves_remove_within {listings : List Listing} {objects : List Document} (context : Context)
    (hstays : target.StaysIn listings name) {document : Document}
    (hplace : target.kind.namespaced = true → document.namespace? = some name) :
    Preserves (fun engine => engine.gateway.store.Reduced listings name objects) (remove context target document) := by
  have haddress : target.kind.namespaced = true → target.namespaceOf document = some name := by
    intro hnamespaced
    rw [Target.namespaceOf, if_pos hnamespaced, hplace hnamespaced]
  unfold remove
  split
  · exact preserves_throw _
  · rename_i called _
    refine (preserves_call fun engine hreduced => ?_).bind fun _ engine hreduced => ?_
    · exact Gateway.guarded_keeps (fun store h => h.delete hstays.served haddress called) hreduced
    · have htraced : engine.Traced (trace context ("deleted " ++ target.kind.kind ++ " " ++ called) engine).2 :=
        traced_of_trace rfl
      rw [htraced.gateway_eq]
      exact hreduced

/-! ## The run -/

/-- The documents that a query matches, target by target: what its run has when it has matched the pattern, before it
shows or changes any of them. -/
def HasMatched (rules : List Rule) (context : Context) (query : Query) (before : Engine)
    (pairs : List (Target × List Document)) : Prop :=
  ∃ started targets planned told family matching,
    trace context ("executing " ++ query.text) before = (.ok (), started) ∧
    plan query context started = (.ok targets, planned) ∧
    (targets.forM fun target => trace context (targetLine target)) planned = (.ok (), told) ∧
    matched rules context query.graph targets told = (.ok family, matching) ∧ pairs = targets.zip family

/-- What a query has removed from the objects and added to them for its targets is in a namespace, as far as its kind
has namespaces; only a query that deletes removes, and only one that creates adds. -/
structure Confined (listings : List Listing) (name : String) (query : Query) (targets : List Target)
    (objects others removed added : List Document) : Prop where
  exchanged : Exchanged objects others removed added
  within : ∀ document ∈ removed ++ added, document.Within listings name
  placed : List.Forall₂ (fun target document => target.kind.namespaced = true → document.namespace? = some name)
    (targets.take added.length) added
  removed_eq : query.clause ≠ .delete → removed = []
  added_eq : query.clause ≠ .create → added = []

variable {rules : List Rule} {context : Context} {query : Query} {targets : List Target}

/-- Where nothing changes, all is confined. -/
theorem Confined.refl (listings : List Listing) (name : String) (query : Query) (targets : List Target)
    (objects : List Document) : Confined listings name query targets objects objects [] [] :=
  ⟨Exchanged.refl objects, nofun, .nil, fun _ => rfl, fun _ => rfl⟩

/-- Storing the documents of targets that stay in a namespace, as far as it comes. -/
theorem confined_of_storeNew (hclause : query.clause = .create)
    (hstays : ∀ target ∈ targets, target.StaysIn engine.gateway.store.listings name) {start : Bindings}
    {answer : Except ExecutionError Bindings} (h : targets.foldlM storeNew start engine = (answer, after)) :
    ∃ added, Confined engine.gateway.store.listings name query targets engine.gateway.store.objects
      after.gateway.store.objects [] added := by
  obtain ⟨added, hmade, hobjects⟩ := foldlM_storeNew_made h
  have hall : List.Forall₂ (fun target document =>
      (target.kind.namespaced = true → document.namespace? = some name) ∧
        document.Within engine.gateway.store.listings name) (targets.take added.length) added :=
    List.forall₂_iff_zip.2 ⟨hmade.length_eq, fun {target document} hpair =>
      (List.forall₂_zip hmade hpair).within (hstays target (List.mem_of_mem_take (List.of_mem_zip hpair).1))⟩
  refine ⟨added, hobjects ▸ Exchanged.append _ added, fun document hdocument => ?_, hall.imp fun _ _ h => h.1,
    fun _ => rfl, fun hother => absurd hclause hother⟩
  obtain ⟨target, hpair⟩ := exists_mem_zip hall.flip.length_eq hdocument
  exact (List.forall₂_zip hall.flip hpair).2

/-- Removing what is matched for targets that stay in a namespace, as far as it comes. -/
theorem confined_of_removals (hclause : query.clause = .delete)
    (hstays : ∀ target ∈ targets, target.StaysIn engine.gateway.store.listings name)
    {answer : Except ExecutionError Result}
    (h : delete rules context query.graph targets engine = (answer, after)) :
    ∃ removed, Confined engine.gateway.store.listings name query targets engine.gateway.store.objects
      after.gateway.store.objects removed [] := by
  rcases bind_cases h with ⟨cause, hmatched, rfl⟩ | ⟨family, matching, hmatched, h⟩
  · have hobjects := Engine.objects_eq_of_asking fun _ hasking =>
      preserves_matched hasking rules context query.graph targets engine
    rw [hmatched] at hobjects
    exact ⟨[], hobjects ▸ Confined.refl _ _ _ _ _⟩
  · have hfetched := (matched_fetches hmatched).1
    have hstart : matching.gateway.store.Reduced engine.gateway.store.listings name engine.gateway.store.objects :=
      ⟨hfetched.listings_eq, [], hfetched.objects_eq ▸ Exchanged.refl _, nofun⟩
    have hwithin := matched_within hstays hmatched
    have hremovals : Preserves (fun engine' =>
        engine'.gateway.store.Reduced engine.gateway.store.listings name engine.gateway.store.objects)
        ((targets.zip family).forM fun pair => pair.2.forM (remove context pair.1)) :=
      sequential_preserves.forM fun pair hpair => sequential_preserves.forM fun document hdocument =>
        preserves_remove_within context (hstays pair.1 (List.of_mem_zip hpair).1)
          (hwithin pair hpair document hdocument).2.1
    have hlast : (((targets.zip family).forM fun pair => pair.2.forM (remove context pair.1)) matching).2 =
        after := by
      rcases bind_cases h with ⟨cause, hran, -⟩ | ⟨_, last, hran, h⟩
      · exact congrArg Prod.snd hran
      · cases h
        exact congrArg Prod.snd hran
    obtain ⟨-, removed, hexchanged, hremoved⟩ := hlast ▸ hremovals matching hstart
    exact ⟨removed, hexchanged, by rwa [List.append_nil], .nil, fun hother => absurd hclause hother, fun _ => rfl⟩

/-- What a clause other than an assignment does with targets that stay in a namespace is confined to it, whether it
succeeds or fails. -/
theorem act_confined (hassign : ∀ assignments, query.clause ≠ .assign assignments)
    (hstays : ∀ target ∈ targets, target.StaysIn engine.gateway.store.listings name)
    {answer : Except ExecutionError Result} (h : act rules context query targets engine = (answer, after)) :
    ∃ removed added, Confined engine.gateway.store.listings name query targets engine.gateway.store.objects
      after.gateway.store.objects removed added := by
  unfold act at h
  cases hclause : query.clause with
  | find filters texts =>
    rw [hclause] at h
    dsimp only at h
    have hobjects := Engine.objects_eq_of_asking fun _ hasking =>
      preserves_find hasking rules context query.graph targets texts engine
    rw [h] at hobjects
    exact ⟨[], [], hobjects ▸ Confined.refl _ _ _ _ _⟩
  | create =>
    rw [hclause] at h
    dsimp only at h
    rw [create_eq] at h
    split at h
    · rcases bind_cases h with ⟨cause, hran, rfl⟩ | ⟨bindings, middle, hran, h⟩
      · exact ⟨[], confined_of_storeNew hclause hstays hran⟩
      · cases h
        exact ⟨[], confined_of_storeNew hclause hstays hran⟩
    · cases h
      exact ⟨[], [], Confined.refl _ _ _ _ _⟩
  | assign assignments => exact absurd hclause (hassign assignments)
  | delete =>
    rw [hclause] at h
    obtain ⟨removed, hconfined⟩ := confined_of_removals hclause hstays h
    exact ⟨removed, [], hconfined⟩

/-- A query that succeeds without creating or assigning has matched its pattern; where nothing is projected its result
has the matched documents under their bindings. -/
theorem exists_hasMatched {before : Engine} {result : Result}
    (h : execute rules context query before = (.ok result, after))
    (hclause : query.clause = .delete ∨ ∃ filters, query.clause = .find filters []) :
    ∃ pairs, HasMatched rules context query before pairs ∧ result.bindings = bindingsOf pairs := by
  obtain ⟨_, started, hstart, h⟩ := bind_eq_ok.1 h
  obtain ⟨targets, planned, hplan, h⟩ := bind_eq_ok.1 h
  obtain ⟨_, told, htold, h⟩ := bind_eq_ok.1 h
  obtain ⟨found, done, hact, h⟩ := bind_eq_ok.1 h
  obtain ⟨_, last, -, h⟩ := bind_eq_ok.1 h
  obtain ⟨rfl, -⟩ := pure_eq_ok.1 h
  have hmatched : ∃ family matching, matched rules context query.graph targets told = (.ok family, matching) ∧
      found.bindings = bindingsOf (targets.zip family) := by
    unfold act at hact
    rcases hclause with hclause | ⟨filters, hclause⟩
    · rw [hclause] at hact
      obtain ⟨family, matching, hmatched, hact⟩ := bind_eq_ok.1 hact
      obtain ⟨_, middle, -, hact⟩ := bind_eq_ok.1 hact
      obtain ⟨rfl, -⟩ := pure_eq_ok.1 hact
      exact ⟨family, matching, hmatched, rfl⟩
    · rw [hclause] at hact
      obtain ⟨projections, family, -, hmatched, rfl⟩ := find_eq_ok_iff.1 hact
      exact ⟨family, done, hmatched, by rw [shownOf_nil]⟩
  obtain ⟨family, matching, hmatched, hbindings⟩ := hmatched
  exact ⟨_, ⟨started, targets, planned, told, family, matching, hstart, hplan, htold, hmatched, rfl⟩, hbindings⟩

/-- A query that finds, creates or deletes and none of whose nodes names a namespace, under a context with a namespace,
over a catalog that has each plural name and each kind once under a group and version, and with a cache that comes from
the catalog. However it ends, what it matches, what is gone afterwards and what is new is in the namespace of the
context when it is for a node of a kind that has namespaces, or is an object of a resource that has them; and the
objects outside the namespace are as before, in order. -/
theorem execute_confined {before : Engine} {answer : Except ExecutionError Result}
    (hplurals : PluralsDistinct before.gateway.store.listings) (hkinds : KindsDistinct before.gateway.store.listings)
    (hreached : before.cache.Reached before.gateway.store.listings) (hname : context.inNamespace ≠ "")
    (hassign : ∀ assignments, query.clause ≠ .assign assignments)
    (hnodes : ∀ node ∈ query.graph.nodes, ∀ property ∈ node.properties, property.key ≠ "namespace")
    (h : execute rules context query before = (answer, after)) :
    (∀ pairs, HasMatched rules context query before pairs → ∀ pair ∈ pairs, ∀ document ∈ pair.2,
      document ∈ before.gateway.store.objects ∧
        (pair.1.kind.namespaced = true → document.namespace? = some context.inNamespace) ∧
        document.Within before.gateway.store.listings context.inNamespace) ∧
    (∃ removed added, Exchanged before.gateway.store.objects after.gateway.store.objects removed added ∧
      (∀ document ∈ removed ++ added, document.Within before.gateway.store.listings context.inNamespace) ∧
      List.Forall₂ (fun node document => ∀ kind,
          before.cache.kindOf? before.gateway.store.listings node.kind = some kind → kind.namespaced = true →
          document.namespace? = some context.inNamespace) (query.graph.nodes.take added.length) added ∧
      (query.clause ≠ .delete → removed = []) ∧ (query.clause ≠ .create → added = [])) ∧
    after.gateway.store.objects.filter
        (fun document => ¬document.Within before.gateway.store.listings context.inNamespace) =
      before.gateway.store.objects.filter
        (fun document => ¬document.Within before.gateway.store.listings context.inNamespace) := by
  have hscope : context.scope? = some context.inNamespace := if_neg hname
  refine ⟨?_, (and_iff_left_of_imp ?_).2 ?_⟩
  · rintro _ ⟨started, targets, planned, told, family, matching, hstart, hplan, htold, hmatched, rfl⟩
    obtain ⟨hobjects, hlistings, -, hstays⟩ :=
      staysIn_of_run hplurals hkinds hreached hscope hnodes (traced_of_trace hstart) hplan htold
    have hwithin := matched_within (fun target htarget => hlistings ▸ (hstays target htarget).1) hmatched
    rwa [hlistings, hobjects] at hwithin
  · -- what is outside is neither removed nor added
    rintro ⟨removed, added, hexchanged, hwithin, -⟩
    exact hexchanged.filter_eq fun document hdocument => by simpa using hwithin document hdocument
  rcases execute_cases h with hkeeps | ⟨started, targets, planned, told, acted, done, hstart, hplan, htold, hact, hend⟩
  · have hobjects := Engine.objects_eq_of_asking hkeeps
    exact ⟨[], [], hobjects ▸ Exchanged.refl _, nofun, .nil, fun _ => rfl, fun _ => rfl⟩
  · obtain ⟨hobjects, hlistings, hmap, hstays⟩ :=
      staysIn_of_run hplurals hkinds hreached hscope hnodes hstart hplan htold
    obtain ⟨removed, added, hconfined⟩ :=
      act_confined hassign (fun target htarget => hlistings ▸ (hstays target htarget).1) hact
    rw [hlistings, hobjects, ← hend.gateway_eq] at hconfined
    refine ⟨removed, added, hconfined.exchanged, hconfined.within, ?_, hconfined.removed_eq, hconfined.added_eq⟩
    rw [← hmap, ← List.map_take, List.forall₂_map_left_iff]
    refine List.forall₂_iff_zip.2 ⟨hconfined.placed.length_eq, fun {target document} hpair kind hkind hnamespaced => ?_⟩
    have htarget := (hstays target (List.mem_of_mem_take (List.of_mem_zip hpair).1)).2
    cases htarget.symm.trans hkind
    exact List.forall₂_zip hconfined.placed hpair hnamespaced

/-! ## Samples: pods of one name in two namespaces, and a configuration that is to be in the other one -/

namespace Sample

/-- The removal of all pods. -/
def allPods : Query :=
  ⟨⟨[Node.ofBinding "p" "Pod" []], []⟩, .delete⟩

/-- A new configuration whose fields name a namespace. -/
def placedConfig : Query :=
  ⟨⟨[Node.ofBinding "c" "ConfigMap" [⟨"metadata.namespace", .string "prod"⟩]], []⟩, .create⟩

end Sample

/-- Of two pods of one name the one in the default namespace is matched and removed, and the other one stays; a
configuration is put in the default namespace, whatever its fields say. -/
theorem execute_confined_twoWebs :
    PluralsDistinct standardListings ∧ KindsDistinct standardListings ∧ Cache.empty.Reached standardListings ∧
      (∀ query ∈ [Sample.allPods, Sample.placedConfig], ∀ node ∈ query.graph.nodes, ∀ property ∈ node.properties,
        property.key ≠ "namespace") ∧
      (∃ result after pairs,
        execute Rule.standard ⟨"default", false⟩ Sample.allPods Sample.twoWebs = (.ok result, after) ∧
        HasMatched Rule.standard ⟨"default", false⟩ Sample.allPods Sample.twoWebs pairs ∧
        result.bindings = bindingsOf pairs ∧
        (∀ pair ∈ pairs, ∀ document ∈ pair.2, document.namespace? = some "default") ∧
        after.gateway.store.objects.length = 1 ∧ Sample.webIn "prod" "b" ∈ after.gateway.store.objects) ∧
      ∃ result after,
        execute Rule.standard ⟨"default", false⟩ Sample.placedConfig Sample.twoWebs = (.ok result, after) ∧
        after.gateway.store.objects.map Document.namespace? = [some "default", some "prod", some "default"] := by
  have hfree : ∀ query ∈ [Sample.allPods, Sample.placedConfig], ∀ node ∈ query.graph.nodes,
      ∀ property ∈ node.properties, property.key ≠ "namespace" := by decide
  have hremoved : (execute Rule.standard ⟨"default", false⟩ Sample.allPods Sample.twoWebs).1.toOption.map
      (fun _ => ()) = some () := by decide +kernel
  have hleft : (execute Rule.standard ⟨"default", false⟩ Sample.allPods
      Sample.twoWebs).2.gateway.store.objects.length = 1 := by decide +kernel
  have hcreated : (execute Rule.standard ⟨"default", false⟩ Sample.placedConfig Sample.twoWebs).1.toOption.map
      (fun _ => ()) = some () := by decide +kernel
  have hplaced : (execute Rule.standard ⟨"default", false⟩ Sample.placedConfig
      Sample.twoWebs).2.gateway.store.objects.map Document.namespace? =
        [some "default", some "prod", some "default"] := by decide +kernel
  obtain ⟨result, after, hrun, -⟩ := exists_of_view hremoved
  obtain ⟨made, last, hran, -⟩ := exists_of_view hcreated
  rw [hrun] at hleft
  rw [hran] at hplaced
  obtain ⟨pairs, hpairs, hbindings⟩ := exists_hasMatched hrun (Or.inl rfl)
  obtain ⟨hmatched, -, houtside⟩ := execute_confined pluralsDistinct_standardListings kindsDistinct_standardListings
    Cache.Reached.empty (by decide) (fun assignments hclause => by cases hclause) (hfree _ List.mem_cons_self) hrun
  refine ⟨pluralsDistinct_standardListings, kindsDistinct_standardListings, Cache.Reached.empty, hfree,
    ⟨result, after, pairs, hrun, hpairs, hbindings, fun pair hpair document hdocument => ?_, hleft, ?_⟩,
    made, last, hran, hplaced⟩
  · obtain ⟨hstored, -, hwithin⟩ := hmatched pairs hpairs pair hpair document hdocument
    have hall : ∀ object ∈ Sample.twoWebs.gateway.store.objects, object.Namespaced standardListings := by decide +kernel
    exact hwithin (hall document hstored)
  · have hmem : Sample.webIn "prod" "b" ∈ Sample.twoWebs.gateway.store.objects.filter
        (fun document => ¬document.Within standardListings "default") := by
      refine List.mem_filter.2 ⟨List.mem_cons_of_mem _ (List.mem_singleton_self _), ?_⟩
      decide +kernel
    exact (List.mem_filter.1 (houtside.symm ▸ hmem)).1

end Run

end ClusterQuery
