import ClusterQuery.Proofs.Execution.Outcomes
import ClusterQuery.Proofs.FieldPath.Plain

/-!
# Queries that are refused

A query that is refused has asked the store only (`Run.execute_refused`): what it names is resolved, its conditions are
checked and its patches are made before the first change. Creation makes its documents one by one, between the changes,
but the plan has seen to it that each of them can be made (`Run.exists_newDocument_of_plan`), so that a creation which
has begun can only be stopped by the store.
-/

namespace ClusterQuery

/-- The query is refused with the error: what it names is unknown, or what it asks for makes no sense. A removal may
come to a document without a name when others have been removed. -/
def Query.Refuses (query : Query) : ExecutionError → Prop
  | .resolution _ _ | .selector _ | .fieldPath _ | .noRelationship _ _ | .unknownBinding _ => True
  | .invalidMutation _ => query.clause ≠ .delete
  | .parse _ | .store _ _ _ | .endless => False

/-- From the first gateway to the second the store has only been asked: its objects are the same, all calls since are
discoveries and lists, and a fault that is for neither has let no call through. -/
structure Gateway.OnlyAsked (before after : Gateway) : Prop where
  objects_eq : after.store.objects = before.store.objects
  calls : ∃ calls, after.store.calls = before.store.calls ++ calls ∧
    ∀ call ∈ calls, call.callName = .discover ∨ call.callName = .list
  fault_eq : ∀ fault, before.fault = some fault → .discover ∉ fault.names → .list ∉ fault.names →
    after.fault = some fault

namespace Gateway.OnlyAsked

variable {before after : Gateway}

theorem refl (gateway : Gateway) : gateway.OnlyAsked gateway :=
  ⟨rfl, ⟨[], (List.append_nil _).symm, nofun⟩, fun _ h _ _ => h⟩

/-- One more call that asks is recorded, if it gets through, and changes no object. -/
theorem guarded {α : Type} {name : CallName} {call : Store → Store.Answer α} (hname : name = .discover ∨ name = .list)
    (hcall : ∀ store, ∃ entry : Call, entry.callName = name ∧ (call store).2 = store.record entry)
    (h : before.OnlyAsked after) : before.OnlyAsked (after.guarded name call).2 := by
  obtain ⟨entry, hentry, hrecord⟩ := hcall after.store
  obtain ⟨calls, hcalls, hasks⟩ := h.calls
  -- a call that gets through leaves what is left of the fault
  have hreach : ∀ left : Option Fault,
      (∀ fault, before.fault = some fault → .discover ∉ fault.names → .list ∉ fault.names → left = some fault) →
      before.OnlyAsked (after.reach left call).2 := by
    intro left hleft
    refine ⟨?_, ⟨calls ++ [entry], ?_, ?_⟩, hleft⟩
    · simp only [reach, hrecord, Store.record]
      exact h.objects_eq
    · simp only [reach, hrecord, Store.record, hcalls, List.append_assoc]
    · simpa [or_imp, forall_and, hentry, hname] using hasks
  unfold Gateway.guarded
  split
  · rename_i hnone
    refine hreach none fun fault hbefore hdiscover hlist => ?_
    rw [← hnone]
    exact h.fault_eq fault hbefore hdiscover hlist
  · rename_i present hpresent
    split
    · rename_i hmem
      split
      · exact h
      · refine hreach _ fun fault hbefore hdiscover hlist => ?_
        have hsame := (h.fault_eq fault hbefore hdiscover hlist).symm.trans hpresent
        cases hsame
        rcases hname with rfl | rfl
        · exact absurd hmem hdiscover
        · exact absurd hmem hlist
    · refine hreach _ fun fault hbefore hdiscover hlist => ?_
      rw [← hpresent]
      exact h.fault_eq fault hbefore hdiscover hlist

end Gateway.OnlyAsked

/-- Asking the store only asks it. -/
theorem Engine.asking_onlyAsked (start : Gateway) : Asking fun engine => start.OnlyAsked engine.gateway where
  traced := fun before after h hasked => by rwa [h.gateway_eq]
  resolve := fun engine identifier hasked =>
    resolve_keeps (M := start.OnlyAsked) (fun gateway h => h.guarded (Or.inl rfl) fun store => ⟨_, rfl, rfl⟩)
      identifier hasked
  list := fun engine coordinate search hasked =>
    hasked.guarded (Or.inr rfl) fun store => ⟨_, rfl, Store.list_snd store coordinate search⟩

/-! ## What a plan has checked -/

/-- What holds of every entry from which some step goes on holds of all entries when all steps have gone on. -/
theorem forall_of_foldlM_eq_ok {ε α β : Type} {step : β → α → Except ε β} {P : α → Prop}
    (hstep : ∀ b entry next, step b entry = .ok next → P entry) {entries : List α} {start last : β}
    (h : entries.foldlM step start = .ok last) : ∀ entry ∈ entries, P entry := by
  induction entries generalizing start with
  | nil => exact nofun
  | cons entry rest ih =>
    rw [List.foldlM_cons] at h
    obtain ⟨next, hnext, h⟩ := bind_eq_ok.1 h
    exact List.forall_mem_cons.2 ⟨hstep start entry next hnext, ih h⟩

/-- Steps that go on keep what each of them keeps. -/
theorem foldlM_keeps {ε α β : Type} {step : β → α → Except ε β} {K : β → Prop}
    (hstep : ∀ b entry next, K b → step b entry = .ok next → K next) {entries : List α} {start last : β}
    (hstart : K start) (h : entries.foldlM step start = .ok last) : K last := by
  induction entries generalizing start with
  | nil =>
    cases h
    exact hstart
  | cons entry rest ih =>
    rw [List.foldlM_cons] at h
    obtain ⟨next, hnext, h⟩ := bind_eq_ok.1 h
    exact ih (hstep start entry next hstart hnext) h

/-- The properties that name a field name it by a key that a selector takes. -/
def Node.Checked (node : Node) : Prop :=
  ∀ property ∈ node.properties, property.key ≠ "name" → property.key ≠ "namespace" →
    ∀ key, SelectorKey.ofProperty property.key = .field key → Selector.isFieldKey key.toList = true

/-- A field that a search takes has a key of a field. -/
theorem Search.isFieldKey_of_addProperty {search next : Search} {property : Property}
    (h : search.addProperty property = .ok next) (hname : property.key ≠ "name")
    (hnamespace : property.key ≠ "namespace") {key : String} (hkey : SelectorKey.ofProperty property.key = .field key) :
    Selector.isFieldKey key.toList = true := by
  rw [addProperty, if_neg hname, if_neg hnamespace, hkey, constrain] at h
  obtain ⟨fields, hfields, -⟩ := map_eq_ok.1 h
  unfold Selector.addField at hfields
  split at hfields
  · assumption
  · cases hfields

/-- A node of which a search is made is checked. -/
theorem Node.checked_of_search {node : Node} {kind : Kind} {context : Context} {search : Search}
    (h : Search.ofNode node kind context = .ok search) : node.Checked := by
  obtain ⟨made, hmade, -⟩ := bind_eq_ok.1 h
  exact forall_of_foldlM_eq_ok (fun _ property _ hstep hname hnamespace key hkey =>
    Search.isFieldKey_of_addProperty hstep hname hnamespace hkey) hmade

namespace Target

/-- Filters change no node. -/
theorem map_node_addFilterTo {binding : String} {filter : Filter} {path : FieldPath} {targets next : List Target}
    (h : addFilterTo binding filter path targets = .ok next) : next.map (·.node) = targets.map (·.node) := by
  induction targets generalizing next with
  | nil =>
    cases h
    rfl
  | cons target rest ih =>
    unfold addFilterTo at h
    split at h
    · obtain ⟨changed, hchanged, rfl⟩ := map_eq_ok.1 h
      unfold addFilter at hchanged
      split at hchanged
      · obtain ⟨search, -, rfl⟩ := map_eq_ok.1 hchanged
        rfl
      · cases hchanged
        rfl
    · obtain ⟨others, hothers, rfl⟩ := map_eq_ok.1 h
      rw [List.map_cons, List.map_cons, ih hothers]

theorem map_node_filtered {targets next : List Target} {filter : Filter} (h : filtered targets filter = .ok next) :
    next.map (·.node) = targets.map (·.node) := by
  obtain ⟨path, -, h⟩ := bind_eq_ok.1 h
  split at h
  · cases h
  · split at h
    · cases h
    · split at h
      · cases h
      · exact map_node_addFilterTo (mapError_eq_ok.1 h)

/-- The targets that are made of nodes are for checked nodes. -/
theorem checked_of_ofNodes {context : Context} {nodes : List (Node × Kind)} {targets : List Target}
    (h : ofNodes context nodes = .ok targets) : ∀ target ∈ targets, target.node.Checked := by
  have hall := mapM_eq_ok.1 h
  clear h
  induction hall with
  | nil => exact nofun
  | cons hmade _ ih =>
    refine List.forall_mem_cons.2 ⟨?_, ih⟩
    obtain ⟨search, hsearch, rfl⟩ := map_eq_ok.1 (mapError_eq_ok.1 hmade)
    exact Node.checked_of_search hsearch

end Target

/-- The targets of a query are for checked nodes. -/
theorem Query.checked_of_targets {query : Query} {context : Context} {kinds : List Kind} {targets : List Target}
    (h : query.targets context kinds = .ok targets) : ∀ target ∈ targets, target.node.Checked := by
  obtain ⟨made, hmade, h⟩ := bind_eq_ok.1 h
  have hnodes : targets.map (·.node) = made.map (·.node) :=
    foldlM_keeps (K := fun next => next.map (·.node) = made.map (·.node))
      (fun before filter next hbefore hstep => (Target.map_node_filtered hstep).trans hbefore) rfl h
  intro target htarget
  have hnode : target.node ∈ made.map (·.node) := hnodes ▸ List.mem_map_of_mem htarget
  obtain ⟨other, hother, hsame⟩ := List.mem_map.1 hnode
  rw [← hsame]
  exact Target.checked_of_ofNodes hmade other hother

/-- A list of answers succeeds when each does. -/
theorem exists_filterMapM_eq_ok {ε α β : Type} {f : α → Except ε (Option β)} {entries : List α}
    (h : ∀ entry ∈ entries, ∃ answer, f entry = .ok answer) : ∃ answers, entries.filterMapM f = .ok answers := by
  induction entries with
  | nil => exact ⟨[], rfl⟩
  | cons entry rest ih =>
    obtain ⟨⟨first, hfirst⟩, hrest⟩ := List.forall_mem_cons.1 h
    obtain ⟨others, hothers⟩ := ih hrest
    rw [List.filterMapM_cons, hfirst]
    cases first with
    | none => exact ⟨others, hothers⟩
    | some found => exact ⟨found :: others, by rw [hothers]; rfl⟩

/-- The document of a checked node can be made. -/
theorem Target.exists_newDocument_eq_ok {target : Target} (h : target.node.Checked) :
    ∃ document, target.newDocument = .ok document := by
  have hpatches : ∃ patches, target.newPatches = .ok patches := by
    refine exists_filterMapM_eq_ok fun property hproperty => ?_
    obtain ⟨hmem, hdetail⟩ := List.mem_filter.1 hproperty
    obtain ⟨hname, hnamespace⟩ : property.key ≠ "name" ∧ property.key ≠ "namespace" := by simpa using hdetail
    cases hkey : SelectorKey.ofProperty property.key with
    | label key => exact ⟨none, rfl⟩
    | field key =>
      obtain ⟨path, patch, hpath, hpatch⟩ :=
        FieldPath.exists_nest_eq (h property hmem hname hnamespace key hkey) property.value.toDocument
      refine ⟨some patch, bind_eq_ok.2 ⟨path, mapError_eq_ok.2 hpath, ?_⟩⟩
      simp only [hpatch]
  obtain ⟨patches, hmade⟩ := hpatches
  exact ⟨_, bind_eq_ok.2 ⟨patches, hmade, rfl⟩⟩

namespace Run

variable {α β : Type} {P : ExecutionError → Prop} {engine after : Engine}

/-- The documents of planned targets can be made. -/
theorem exists_newDocument_of_plan {query : Query} {context : Context} {targets : List Target}
    (h : plan query context engine = (.ok targets, after)) :
    ∀ target ∈ targets, ∃ document, target.newDocument = .ok document := by
  obtain ⟨kinds, middle, -, h⟩ := bind_eq_ok.1 h
  intro target htarget
  exact target.exists_newDocument_eq_ok (Query.checked_of_targets (ofExcept_eq_ok.1 h).1 target htarget)

/-! ## Which errors a step can end in -/

/-- Whenever the step fails, its error is such that `P` holds. -/
def FailsBy (P : ExecutionError → Prop) (step : Run α) : Prop :=
  ∀ ⦃engine cause after⦄, step engine = (.error cause, after) → P cause

theorem failsBy_pure (a : α) : FailsBy P (pure a) :=
  fun _ _ _ h => nomatch h

/-- An answer that is no error never fails. -/
theorem failsBy_ofExcept {answer : Except ExecutionError α} {a : α} (h : answer = .ok a) :
    FailsBy P (ofExcept answer) := by
  subst h
  exact fun _ _ _ h => nomatch h

theorem FailsBy.bind {step : Run α} {next : α → Run β} (hstep : FailsBy P step) (hnext : ∀ a, FailsBy P (next a)) :
    FailsBy P (step >>= next) := by
  intro engine cause after h
  rcases bind_cases h with ⟨first, hfirst, hsame⟩ | ⟨a, middle, -, hsecond⟩
  · cases hsame
    exact hstep hfirst
  · exact hnext a hsecond

theorem sequential_failsBy : Sequential fun _ => FailsBy P :=
  ⟨failsBy_pure, FailsBy.bind⟩

/-- A call fails with what the store says. -/
theorem failsBy_call (hstore : ∀ binding kind cause, P (.store binding kind cause)) (target : Target)
    (request : Gateway → Gateway.Answer α) : FailsBy P (call target request) := by
  intro engine cause after h
  unfold call at h
  split at h
  · cases h
  · cases h
    exact hstore _ _ _

theorem failsBy_trace (context : Context) (line : String) : FailsBy P (trace context line) :=
  fun _ _ _ h => nomatch h

/-- The error is one of the store. -/
def OfStore (cause : ExecutionError) : Prop :=
  ∃ binding kind source, cause = .store binding kind source

theorem failsBy_update (target : Target) (patch document : Document) :
    FailsBy OfStore (update target patch document) := by
  unfold update
  split
  · exact failsBy_call (fun binding kind cause => ⟨binding, kind, cause, rfl⟩) _ _
  · exact failsBy_pure _

theorem failsBy_remove (context : Context) (target : Target) (document : Document) :
    FailsBy (fun cause => OfStore cause ∨ ∃ kind, cause = .invalidMutation (.nameless kind))
      (remove context target document) := by
  unfold remove
  split
  · intro engine cause after h
    cases h
    exact Or.inr ⟨_, rfl⟩
  · exact (failsBy_call (fun binding kind source => Or.inl ⟨binding, kind, source, rfl⟩) _ _).bind fun _ =>
      failsBy_trace context _

/-! ## A whole query -/

/-- A query that fails has failed while it was planned, or at what its clause does. -/
theorem execute_eq_error {rules : List Rule} {context : Context} {query : Query} {cause : ExecutionError}
    (h : execute rules context query engine = (.error cause, after)) :
    (∃ started, engine.Traced started ∧ plan query context started = (.error cause, after)) ∨
      ∃ started targets planned told, engine.Traced started ∧ plan query context started = (.ok targets, planned) ∧
        (targets.forM fun target => trace context (targetLine target)) planned = (.ok (), told) ∧
        act rules context query targets told = (.error cause, after) := by
  rcases bind_cases h with ⟨_, hstart, -⟩ | ⟨_, started, hstart, h⟩
  · cases hstart
  rcases bind_cases h with ⟨first, hplan, hsame⟩ | ⟨targets, planned, hplan, h⟩
  · cases hsame
    exact Or.inl ⟨started, traced_of_trace hstart, hplan⟩
  rcases bind_cases h with ⟨_, htold, -⟩ | ⟨_, told, htold, h⟩
  · obtain ⟨_, htold'⟩ := exists_forM_trace context targetLine targets planned
    rw [htold'] at htold
    cases htold
  rcases bind_cases h with ⟨first, hact, hsame⟩ | ⟨result, done, -, h⟩
  · cases hsame
    exact Or.inr ⟨started, targets, planned, told, traced_of_trace hstart, hplan, htold, hact⟩
  rcases bind_cases h with ⟨_, hlast, -⟩ | ⟨_, last, -, h⟩
  · cases hlast
  · cases h

/-- What a clause does fails before the first change, or by what the store says, or because a document to be removed has
no name. -/
theorem act_eq_error {rules : List Rule} {context : Context} {query : Query} {targets : List Target}
    {cause : ExecutionError} (hmade : ∀ target ∈ targets, ∃ document, target.newDocument = .ok document)
    (h : act rules context query targets engine = (.error cause, after)) :
    (∀ K, Engine.Asking K → K engine → K after) ∨ OfStore cause ∨
      query.clause = .delete ∧ ∃ kind, cause = .invalidMutation (.nameless kind) := by
  unfold act at h
  have hmatching : ∀ {family : Except ExecutionError Link.Family} {last : Engine},
      matched rules context query.graph targets engine = (family, last) →
      ∀ K, Engine.Asking K → K engine → K last := by
    intro family last hmatched K hasking hK
    have hkept := preserves_matched hasking rules context query.graph targets engine hK
    rwa [hmatched] at hkept
  cases hclause : query.clause with
  | find filters projections =>
    rw [hclause] at h
    change find rules context query.graph targets projections engine = _ at h
    refine Or.inl fun K hasking hK => ?_
    have hkept := preserves_find hasking rules context query.graph targets projections engine hK
    rwa [h] at hkept
  | create =>
    rw [hclause] at h
    change create query.graph targets engine = _ at h
    rw [create_eq] at h
    split at h
    · refine Or.inr (Or.inl ?_)
      refine FailsBy.bind (sequential_failsBy.foldlM (fun bindings target htarget => ?_) _) (fun _ => failsBy_pure _) h
      obtain ⟨document, hdocument⟩ := hmade target htarget
      refine (failsBy_ofExcept hdocument).bind fun _ => FailsBy.bind ?_ fun _ => failsBy_pure _
      exact failsBy_call (fun binding kind source => ⟨binding, kind, source, rfl⟩) _ _
    · cases h
      exact Or.inl fun _ _ hK => hK
  | assign assignments =>
    rw [hclause] at h
    rcases bind_cases h with ⟨first, hread, -⟩ | ⟨patches, middle, hread, h⟩
    · obtain rfl : engine = after := congrArg Prod.snd hread
      exact Or.inl fun _ _ hK => hK
    obtain ⟨-, rfl⟩ := ofExcept_eq_ok.1 hread
    rcases bind_cases h with ⟨first, hmatched, -⟩ | ⟨family, matching, -, h⟩
    · exact Or.inl (hmatching hmatched)
    · refine Or.inr (Or.inl ?_)
      refine FailsBy.bind (sequential_failsBy.mapM fun entry _ => ?_) (fun _ => failsBy_pure _) h
      exact (sequential_failsBy.mapM fun document _ => failsBy_update _ _ document).bind fun _ => failsBy_pure _
  | delete =>
    rw [hclause] at h
    rcases bind_cases h with ⟨first, hmatched, -⟩ | ⟨family, matching, -, h⟩
    · exact Or.inl (hmatching hmatched)
    · have hremoves : FailsBy (fun cause => OfStore cause ∨ ∃ kind, cause = .invalidMutation (.nameless kind))
          ((targets.zip family).forM fun pair => pair.2.forM (remove context pair.1)) :=
        sequential_failsBy.forM fun pair _ => sequential_failsBy.forM fun document _ =>
          failsBy_remove context pair.1 document
      exact Or.inr ((hremoves.bind (fun _ => failsBy_pure _) h).imp_right fun hnameless => ⟨rfl, hnameless⟩)

/-- A query that fails has asked the store only, or the store has stopped it, or it was removing documents and came to
one without a name. -/
theorem execute_error_cases {rules : List Rule} {context : Context} {query : Query} {cause : ExecutionError}
    (h : execute rules context query engine = (.error cause, after)) :
    engine.gateway.OnlyAsked after.gateway ∨ OfStore cause ∨
      query.clause = .delete ∧ ∃ kind, cause = .invalidMutation (.nameless kind) := by
  have hasking := Engine.asking_onlyAsked engine.gateway
  have hrefl := Gateway.OnlyAsked.refl engine.gateway
  rcases execute_eq_error h with
    ⟨started, hstart, hplan⟩ | ⟨started, targets, planned, told, hstart, hplan, htold, hact⟩
  · have hkept := preserves_plan hasking query context started (hasking.traced hstart hrefl)
    rw [hplan] at hkept
    exact Or.inl hkept
  · have hplanned := preserves_plan hasking query context started (hasking.traced hstart hrefl)
    rw [hplan] at hplanned
    refine (act_eq_error (exists_newDocument_of_plan hplan) hact).imp_left fun hkept => ?_
    exact hkept _ hasking (hasking.traced (traced_of_forM_trace htold) hplanned)

/-- A query that is refused has asked the store only: no object is changed, no change has been called for. The document
of every planned target can be made, so a query that creates and fails has asked the store only or was stopped by
it. -/
theorem execute_refused (rules : List Rule) (context : Context) (query : Query) (before : Engine) :
    (∀ cause after, execute rules context query before = (.error cause, after) → query.Refuses cause →
      before.gateway.OnlyAsked after.gateway) ∧
    (∀ started targets planned, plan query context started = (.ok targets, planned) →
      ∀ target ∈ targets, ∃ document, target.newDocument = .ok document) ∧
    (query.clause = .create → ∀ cause after, execute rules context query before = (.error cause, after) →
      before.gateway.OnlyAsked after.gateway ∨ ∃ binding kind source, cause = .store binding kind source) := by
  refine ⟨fun cause after h hrefuses => ?_, fun started targets planned h => exists_newDocument_of_plan h,
    fun hclause cause after h => ?_⟩
  · rcases execute_error_cases h with hasked | ⟨binding, kind, source, rfl⟩ | ⟨hclause, kind, rfl⟩
    · exact hasked
    · exact hrefuses.elim
    · exact absurd hclause hrefuses
  · rcases execute_error_cases h with hasked | hstore | ⟨hdelete, -⟩
    · exact Or.inl hasked
    · exact Or.inr hstore
    · rw [hclause] at hdelete
      cases hdelete

/-! ## A sample: two configurations to be created -/

/-- The error that an answer is, if it is one. -/
def cause? (answer : Except ExecutionError α) : Option ExecutionError :=
  match answer with
  | .error cause => some cause
  | .ok _ => none

/-- A run of which the error is seen has failed with it. -/
theorem exists_of_cause? {step : Run α} {cause : ExecutionError} (h : cause? (step engine).1 = some cause) :
    ∃ after, step engine = (.error cause, after) := by
  rcases hrun : step engine with ⟨found | a, after⟩
  · rw [hrun] at h
    cases h
    exact ⟨after, rfl⟩
  · rw [hrun] at h
    cases h

namespace Sample

/-- The common resources and no objects. -/
def vacant : Engine :=
  Engine.ofStore (Store.ofObjects standardListings [])

/-- The second configuration has a field without a name. -/
def namelessField : Query :=
  ⟨⟨[Node.ofBinding "a" "ConfigMap" [], Node.ofBinding "b" "ConfigMap" [⟨"data..mode", .integer 1⟩]], []⟩, .create⟩

/-- The second configuration has the name of the first. -/
def sameName : Query :=
  ⟨⟨[Node.ofBinding "a" "ConfigMap" [], Node.ofBinding "b" "ConfigMap" [⟨"name", .string "a"⟩]], []⟩, .create⟩

end Sample

/-- A field without a name is refused before anything is created; a name that is taken is found out after the first
creation, by the store. -/
theorem execute_refused_namelessField :
    (∃ cause after,
      execute Rule.standard ⟨"default", false⟩ Sample.namelessField Sample.vacant = (.error cause, after) ∧
      Sample.namelessField.Refuses cause ∧ Sample.vacant.gateway.OnlyAsked after.gateway) ∧
    (∃ targets planned, plan Sample.sameName ⟨"default", false⟩ Sample.vacant = (.ok targets, planned) ∧
      ∀ target ∈ targets, ∃ document, target.newDocument = .ok document) ∧
    ∃ cause after, execute Rule.standard ⟨"default", false⟩ Sample.sameName Sample.vacant = (.error cause, after) ∧
      after.gateway.store.objects.map Document.name? = [some "a"] ∧
      ∃ binding kind source, cause = .store binding kind source := by
  have hrefused : cause? (execute Rule.standard ⟨"default", false⟩ Sample.namelessField Sample.vacant).1 =
      some (.selector (.invalidFieldPath "data..mode")) := by
    decide +kernel
  have hplanned : (plan Sample.sameName ⟨"default", false⟩ Sample.vacant).1.toOption.map (fun _ => ()) = some () := by
    decide +kernel
  have hstopped : cause? (execute Rule.standard ⟨"default", false⟩ Sample.sameName Sample.vacant).1 =
      some (.store "b" "ConfigMap" (.alreadyExists "configmaps \"a\" already exists")) := by
    decide +kernel
  have hleft : (execute Rule.standard ⟨"default", false⟩ Sample.sameName
      Sample.vacant).2.gateway.store.objects.map Document.name? = [some "a"] := by
    decide +kernel
  obtain ⟨after, hrun⟩ := exists_of_cause? hrefused
  obtain ⟨targets, planned, hplan, -⟩ := exists_of_view hplanned
  obtain ⟨last, hran⟩ := exists_of_cause? hstopped
  rw [hran] at hleft
  obtain ⟨hasked, -, -⟩ := execute_refused Rule.standard ⟨"default", false⟩ Sample.namelessField Sample.vacant
  obtain ⟨-, hmade, hstore⟩ := execute_refused Rule.standard ⟨"default", false⟩ Sample.sameName Sample.vacant
  refine ⟨⟨_, after, hrun, trivial, hasked _ _ hrun trivial⟩, ⟨targets, planned, hplan, hmade _ _ _ hplan⟩,
    _, last, hran, hleft, (hstore rfl _ _ hran).resolve_left fun h => ?_⟩
  -- the first configuration is stored
  have hobjects := h.objects_eq
  rw [hobjects] at hleft
  exact absurd hleft (by decide)

end Run

end ClusterQuery
