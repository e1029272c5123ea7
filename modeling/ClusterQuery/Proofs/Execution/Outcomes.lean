import ClusterQuery.Proofs.Execution.Reading

/-!
# Steps whatever their outcome

What a step of a run keeps, whether it succeeds or fails (`Run.Preserves`): a sequence keeps what its steps keep, and so
does a list of steps. That goes for every predicate that answers have and sequences take over from their steps
(`Run.Sequential`). What asking the store keeps is kept by planning a query and by matching its pattern
(`Run.preserves_plan`, `Run.preserves_matched`), and what every call keeps by the whole query (`Run.preserves_execute`).
A query changes the store by its clause alone (`Run.execute_cases`).
-/

namespace ClusterQuery

namespace Engine

/-- The property is kept by every step that only asks the store. -/
structure Asking (K : Engine → Prop) : Prop where
  traced : ∀ ⦃before after : Engine⦄, before.Traced after → K before → K after
  resolve : ∀ ⦃engine : Engine⦄ (identifier : String), K engine → K (engine.resolve identifier).2
  list : ∀ ⦃engine : Engine⦄ (coordinate : Coordinate) (search : Search), K engine →
    K { engine with gateway := (engine.gateway.list coordinate search).2 }

/-- The property is kept by every step. -/
structure Invariant (K : Engine → Prop) : Prop extends Asking K where
  create : ∀ ⦃engine : Engine⦄ (coordinate : Coordinate) (inNamespace : Option String) (document : Document), K engine →
    K { engine with gateway := (engine.gateway.create coordinate inNamespace document).2 }
  update : ∀ ⦃engine : Engine⦄ (coordinate : Coordinate) (inNamespace : Option String) (document : Document), K engine →
    K { engine with gateway := (engine.gateway.update coordinate inNamespace document).2 }
  delete : ∀ ⦃engine : Engine⦄ (coordinate : Coordinate) (inNamespace : Option String) (name : String), K engine →
    K { engine with gateway := (engine.gateway.delete coordinate inNamespace name).2 }

/-- The property is kept by every call about a coordinate. -/
structure About (K : Engine → Prop) (coordinate : Coordinate) : Prop where
  list : ∀ ⦃engine : Engine⦄ (search : Search), K engine →
    K { engine with gateway := (engine.gateway.list coordinate search).2 }
  create : ∀ ⦃engine : Engine⦄ (inNamespace : Option String) (document : Document), K engine →
    K { engine with gateway := (engine.gateway.create coordinate inNamespace document).2 }
  update : ∀ ⦃engine : Engine⦄ (inNamespace : Option String) (document : Document), K engine →
    K { engine with gateway := (engine.gateway.update coordinate inNamespace document).2 }
  delete : ∀ ⦃engine : Engine⦄ (inNamespace : Option String) (name : String), K engine →
    K { engine with gateway := (engine.gateway.delete coordinate inNamespace name).2 }

/-- What every step keeps is kept by the calls about each coordinate. -/
theorem Invariant.about {K : Engine → Prop} (h : Invariant K) (coordinate : Coordinate) : About K coordinate where
  list := fun _ search hK => h.list coordinate search hK
  create := fun _ inNamespace document hK => h.create coordinate inNamespace document hK
  update := fun _ inNamespace document hK => h.update coordinate inNamespace document hK
  delete := fun _ inNamespace name hK => h.delete coordinate inNamespace name hK

end Engine

namespace Run

variable {α β : Type} {K : Engine → Prop}

/-- A sequence goes on with its second step exactly when its first succeeds. -/
theorem bind_apply (step : Run α) (next : α → Run β) (engine : Engine) :
    (step >>= next) engine = match step engine with
      | (.ok a, middle) => next a middle
      | (.error cause, middle) => (.error cause, middle) := by
  simp only [bind, ExceptT.bind, ExceptT.mk, StateT.bind, ExceptT.bindCont]
  rcases step engine with ⟨_ | a, middle⟩ <;> rfl

/-- A sequence has stopped at its first step, or has gone on with its second. -/
theorem bind_cases {step : Run α} {next : α → Run β} {engine after : Engine} {answer : Except ExecutionError β}
    (h : (step >>= next) engine = (answer, after)) :
    (∃ cause, step engine = (.error cause, after) ∧ answer = .error cause) ∨
      ∃ a middle, step engine = (.ok a, middle) ∧ next a middle = (answer, after) := by
  rw [bind_apply] at h
  rcases hstep : step engine with ⟨cause | a, middle⟩
  · rw [hstep] at h
    cases h
    exact Or.inl ⟨cause, rfl, rfl⟩
  · rw [hstep] at h
    exact Or.inr ⟨a, middle, rfl, h⟩

/-- A predicate on steps that holds of every answer, and of a sequence when it holds of the steps in it. -/
structure Sequential (P : ∀ α : Type, Run α → Prop) : Prop where
  pure : ∀ {α : Type} (a : α), P α (pure a)
  bind : ∀ {α β : Type} {step : Run α} {next : α → Run β}, P α step → (∀ a, P β (next a)) → P β (step >>= next)

namespace Sequential

variable {P : ∀ α : Type, Run α → Prop} {entries : List α}

/-- Such a predicate holds of a list of steps when it holds of each of them. -/
theorem mapM (h : Sequential P) {step : α → Run β} (hsteps : ∀ entry ∈ entries, P β (step entry)) :
    P (List β) (entries.mapM step) := by
  induction entries with
  | nil =>
    rw [List.mapM_nil]
    exact h.pure []
  | cons entry rest ih =>
    rw [List.mapM_cons]
    obtain ⟨hfirst, hrest⟩ := List.forall_mem_cons.1 hsteps
    exact h.bind hfirst fun _ => h.bind (ih hrest) fun _ => h.pure _

theorem forM (h : Sequential P) {step : α → Run Unit} (hsteps : ∀ entry ∈ entries, P Unit (step entry)) :
    P Unit (entries.forM step) := by
  induction entries with
  | nil => exact h.pure ()
  | cons entry rest ih =>
    obtain ⟨hfirst, hrest⟩ := List.forall_mem_cons.1 hsteps
    exact h.bind hfirst fun _ => ih hrest

/-- It holds of steps of which each goes on from the answer so far. -/
theorem foldlM (h : Sequential P) {step : β → α → Run β} (hsteps : ∀ b, ∀ entry ∈ entries, P β (step b entry))
    (start : β) : P β (entries.foldlM step start) := by
  induction entries generalizing start with
  | nil => exact h.pure start
  | cons entry rest ih =>
    rw [List.foldlM_cons]
    exact h.bind (hsteps start entry List.mem_cons_self) fun b =>
      ih (fun other next hnext => hsteps other next (List.mem_cons_of_mem entry hnext)) b

end Sequential

/-- The step keeps a property of the engine, whether it succeeds or fails. -/
def Preserves (K : Engine → Prop) (step : Run α) : Prop :=
  ∀ engine, K engine → K (step engine).2

theorem preserves_pure (a : α) : Preserves K (pure a) :=
  fun _ h => h

theorem preserves_throw (cause : ExecutionError) : Preserves K (throw cause : Run α) :=
  fun _ h => h

theorem preserves_ofExcept (answer : Except ExecutionError α) : Preserves K (ofExcept answer) :=
  fun _ h => h

/-- A sequence of steps keeps what its first step keeps, and its second after each answer that the first can give. -/
theorem Preserves.bind_of_ok {step : Run α} {next : α → Run β} (hstep : Preserves K step)
    (hnext : ∀ ⦃engine a middle⦄, K engine → step engine = (.ok a, middle) → Preserves K (next a)) :
    Preserves K (step >>= next) := by
  intro engine h
  have hmiddle := hstep engine h
  rw [bind_apply]
  rcases hrun : step engine with ⟨cause | a, middle⟩
  · rwa [hrun] at hmiddle
  · rw [hrun] at hmiddle
    exact hnext h hrun middle hmiddle

/-- A sequence of steps keeps what both keep. -/
theorem Preserves.bind {step : Run α} {next : α → Run β} (hstep : Preserves K step)
    (hnext : ∀ a, Preserves K (next a)) : Preserves K (step >>= next) :=
  hstep.bind_of_ok fun _ a _ _ _ => hnext a

theorem sequential_preserves : Sequential fun _ => Preserves K :=
  ⟨preserves_pure, Preserves.bind⟩

/-- A creation keeps what each of its steps keeps. -/
theorem preserves_create {targets : List Target}
    (h : ∀ bindings, ∀ target ∈ targets, Preserves K (storeNew bindings target)) (graph : Graph) :
    Preserves K (create graph targets) := by
  rw [create_eq]
  split
  · exact (sequential_preserves.foldlM h []).bind fun _ => preserves_pure _
  · exact preserves_throw _

/-- A call about a target keeps what the request keeps. -/
theorem preserves_call {target : Target} {request : Gateway → Gateway.Answer α}
    (h : ∀ engine, K engine → K { engine with gateway := (request engine.gateway).2 }) :
    Preserves K (call target request) := by
  intro engine hengine
  have hafter := h engine hengine
  unfold call
  split
  · rename_i answer gateway hcall
    rwa [hcall] at hafter
  · rename_i cause gateway hcall
    rwa [hcall] at hafter

/-- Lines are always traced. -/
theorem exists_forM_trace (context : Context) (line : α → String) (entries : List α) (engine : Engine) :
    ∃ after, (entries.forM fun entry => trace context (line entry)) engine = (.ok (), after) := by
  induction entries generalizing engine with
  | nil => exact ⟨engine, rfl⟩
  | cons entry rest ih =>
    obtain ⟨after, hrest⟩ := ih (trace context (line entry) engine).2
    exact ⟨after, bind_eq_ok.2 ⟨(), _, rfl, hrest⟩⟩

/-! ## Steps that ask the store only -/

section Traced

variable (htraced : ∀ ⦃before after : Engine⦄, before.Traced after → K before → K after)

include htraced

theorem preserves_trace_of_traced (context : Context) (line : String) : Preserves K (trace context line) :=
  fun _ h => htraced (traced_of_trace rfl) h

theorem preserves_keep (context : Context) (target : Target) (answer : Except StoreError (List Document)) :
    Preserves K (keep context target answer) := by
  cases answer with
  | error cause => exact preserves_throw _
  | ok documents => exact (preserves_trace_of_traced htraced context _).bind fun _ => preserves_pure _

end Traced

section Listing

variable {targets : List Target} (htraced : ∀ ⦃before after : Engine⦄, before.Traced after → K before → K after)
  (hlist : ∀ target ∈ targets, ∀ ⦃engine : Engine⦄, K engine →
    K { engine with gateway := (engine.gateway.list target.kind.coordinate target.search).2 })

include hlist

/-- The searches of all targets keep what each of them keeps. -/
theorem searchAll_keeps {engine : Engine} (h : K engine) : K (searchAll targets engine).2 := by
  induction targets generalizing engine with
  | nil => exact h
  | cons target rest ih =>
    obtain ⟨hfirst, hrest⟩ := List.forall_mem_cons.1 hlist
    exact ih hrest (hfirst h)

include htraced

theorem preserves_fetch (context : Context) : Preserves K (fetch context targets) := by
  refine Preserves.bind (fun engine h => searchAll_keeps hlist h) fun answers => ?_
  exact sequential_preserves.mapM fun searched _ => preserves_keep htraced context searched.1 searched.2

/-- Matching a pattern keeps what the searches of its targets keep. -/
theorem preserves_matched_of_list (rules : List Rule) (context : Context) (graph : Graph) :
    Preserves K (matched rules context graph targets) := by
  refine (preserves_ofExcept _).bind fun links => (preserves_fetch htraced hlist context).bind fun fetched => ?_
  split
  · exact preserves_pure _
  · exact preserves_throw _

/-- Finding documents keeps what the searches of the targets keep. -/
theorem preserves_find_of_list (rules : List Rule) (context : Context) (graph : Graph) (texts : List String) :
    Preserves K (find rules context graph targets texts) :=
  (preserves_ofExcept _).bind fun _ =>
    (preserves_matched_of_list htraced hlist rules context graph).bind fun _ => preserves_pure _

end Listing

/-- Planning a query keeps what resolving keeps. -/
theorem preserves_plan_of_resolve
    (hresolve : ∀ ⦃engine : Engine⦄ (identifier : String), K engine → K (engine.resolve identifier).2) (query : Query)
    (context : Context) : Preserves K (plan query context) := by
  refine (sequential_preserves.mapM fun node _ => ?_).bind fun _ => preserves_ofExcept _
  intro engine h
  have hresolved := hresolve node.kind h
  unfold resolveNode
  split
  · rename_i kind after hkind
    rwa [hkind] at hresolved
  · rename_i cause after hcause
    rwa [hcause] at hresolved

section Asking

variable (hasking : Engine.Asking K)

include hasking

theorem preserves_trace (context : Context) (line : String) : Preserves K (trace context line) :=
  preserves_trace_of_traced hasking.traced context line

/-- Planning a query keeps what asking the store keeps. -/
theorem preserves_plan (query : Query) (context : Context) : Preserves K (plan query context) :=
  preserves_plan_of_resolve hasking.resolve query context

/-- Matching a pattern keeps what asking the store keeps. -/
theorem preserves_matched (rules : List Rule) (context : Context) (graph : Graph) (targets : List Target) :
    Preserves K (matched rules context graph targets) :=
  preserves_matched_of_list hasking.traced (fun _ _ _ h => hasking.list _ _ h) rules context graph

/-- Finding documents keeps what asking the store keeps. -/
theorem preserves_find (rules : List Rule) (context : Context) (graph : Graph) (targets : List Target)
    (texts : List String) : Preserves K (find rules context graph targets texts) :=
  preserves_find_of_list hasking.traced (fun _ _ _ h => hasking.list _ _ h) rules context graph texts

end Asking

/-! ## A whole query -/

section About

variable (htraced : ∀ ⦃before after : Engine⦄, before.Traced after → K before → K after)

/-- What the calls about the coordinate of a target keep is kept by an update and by a removal. -/
theorem preserves_update {target : Target} (h : Engine.About K target.kind.coordinate) (patch document : Document) :
    Preserves K (update target patch document) := by
  unfold update
  split
  · exact preserves_call fun engine hengine => h.update _ _ hengine
  · exact preserves_pure _

include htraced

theorem preserves_remove_of_about {target : Target} (h : Engine.About K target.kind.coordinate) (context : Context)
    (document : Document) : Preserves K (remove context target document) := by
  unfold remove
  split
  · exact preserves_throw _
  · exact (preserves_call fun engine hengine => h.delete _ _ hengine).bind fun _ =>
      preserves_trace_of_traced htraced context _

/-- What the calls about the coordinates of its targets keep is kept by what the clause of a query does. -/
theorem preserves_act {targets : List Target} (h : ∀ target ∈ targets, Engine.About K target.kind.coordinate)
    (rules : List Rule) (context : Context) (query : Query) : Preserves K (act rules context query targets) := by
  have hmatched := preserves_matched_of_list htraced
    (fun target htarget _ hK => (h target htarget).list target.search hK) rules context query.graph
  unfold act
  split
  · exact (preserves_ofExcept _).bind fun _ => hmatched.bind fun _ => preserves_pure _
  · refine preserves_create (fun bindings target htarget => ?_) query.graph
    refine (preserves_ofExcept _).bind fun document => Preserves.bind ?_ fun stored => preserves_pure _
    exact preserves_call fun engine hengine => (h target htarget).create _ document hengine
  · refine (preserves_ofExcept _).bind fun patches => hmatched.bind fun family => Preserves.bind ?_ fun updated =>
      preserves_pure _
    refine sequential_preserves.mapM fun entry hentry =>
      Preserves.bind (sequential_preserves.mapM fun document _ => ?_) fun _ => preserves_pure _
    exact preserves_update (h entry.1.1 (List.of_mem_zip (List.of_mem_zip hentry).1).1) entry.2 document
  · refine hmatched.bind fun family => Preserves.bind ?_ fun _ => preserves_pure _
    exact sequential_preserves.forM fun pair hpair => sequential_preserves.forM fun document _ =>
      preserves_remove_of_about htraced (h pair.1 (List.of_mem_zip hpair).1) context document

/-- What resolving keeps, and the calls about the coordinates of the targets that are planned, is kept by a whole query,
whether it succeeds or fails. -/
theorem preserves_execute_of_about {query : Query} {context : Context}
    (hresolve : ∀ ⦃engine : Engine⦄ (identifier : String), K engine → K (engine.resolve identifier).2)
    (habout : ∀ ⦃before targets planned⦄, K before → plan query context before = (.ok targets, planned) →
      ∀ target ∈ targets, Engine.About K target.kind.coordinate) (rules : List Rule) :
    Preserves K (execute rules context query) := by
  refine (preserves_trace_of_traced htraced context _).bind fun _ => ?_
  refine (preserves_plan_of_resolve hresolve query context).bind_of_ok fun before targets planned hbefore hplan => ?_
  refine Preserves.bind (sequential_preserves.forM fun target _ => preserves_trace_of_traced htraced context _)
    fun _ => ?_
  exact (preserves_act htraced (habout hbefore hplan) rules context query).bind fun result =>
    (preserves_trace_of_traced htraced context _).bind fun _ => preserves_pure _

end About

theorem preserves_remove (h : Engine.Invariant K) (context : Context) (target : Target) (document : Document) :
    Preserves K (remove context target document) :=
  preserves_remove_of_about h.traced (h.about _) context document

/-- What every step keeps is kept by a whole query, whether it succeeds or fails. -/
theorem preserves_execute (h : Engine.Invariant K) (rules : List Rule) (context : Context) (query : Query) :
    Preserves K (execute rules context query) :=
  preserves_execute_of_about h.traced h.resolve (fun _ _ _ _ _ target _ => h.about target.kind.coordinate) rules

/-- A query either has stopped before its clause, and has kept all that asking the store keeps, or it has planned its
targets and done with them what its clause says; the rest is tracing. -/
theorem execute_cases {rules : List Rule} {context : Context} {query : Query} {engine after : Engine}
    {answer : Except ExecutionError Result} (h : execute rules context query engine = (answer, after)) :
    (∀ K, Engine.Asking K → K engine → K after) ∨ ∃ started targets planned told acted done,
      engine.Traced started ∧ plan query context started = (.ok targets, planned) ∧
      (targets.forM fun target => trace context (targetLine target)) planned = (.ok (), told) ∧
      act rules context query targets told = (acted, done) ∧ done.Traced after := by
  rcases bind_cases h with ⟨cause, hstart, -⟩ | ⟨_, started, hstart, h⟩
  · cases hstart
  rcases bind_cases h with ⟨cause, hplan, -⟩ | ⟨targets, planned, hplan, h⟩
  · refine Or.inl fun K hasking hK => ?_
    have hplanned := preserves_plan hasking query context started (hasking.traced (traced_of_trace hstart) hK)
    rwa [hplan] at hplanned
  rcases bind_cases h with ⟨cause, htold, -⟩ | ⟨_, told, htold, h⟩
  · obtain ⟨after', htold'⟩ := exists_forM_trace context targetLine targets planned
    rw [htold'] at htold
    cases htold
  refine Or.inr ⟨started, targets, planned, told, ?_⟩
  rcases bind_cases h with ⟨cause, hact, -⟩ | ⟨result, done, hact, h⟩
  · exact ⟨_, after, traced_of_trace hstart, hplan, htold, hact, Engine.Traced.refl after⟩
  rcases bind_cases h with ⟨cause, hlast, -⟩ | ⟨_, last, hlast, h⟩
  · cases hlast
  cases h
  exact ⟨_, done, traced_of_trace hstart, hplan, htold, hact, traced_of_trace hlast⟩

end Run

/-! ## What is kept -/

namespace Gateway

/-- A call keeps behind a gateway what it keeps of the store, whether or not it gets through. -/
theorem guarded_keeps {α : Type} {name : CallName} {call : Store → Store.Answer α} {M : Store → Prop}
    (hcall : ∀ store, M store → M (call store).2) {gateway : Gateway} (h : M gateway.store) :
    M (gateway.guarded name call).2.store := by
  unfold guarded
  split
  · exact hcall _ h
  · split
    · split
      · exact h
      · exact hcall _ h
    · exact hcall _ h

/-- A call brings no fault on the way. -/
theorem guarded_fault {α : Type} {name : CallName} {call : Store → Store.Answer α} {gateway : Gateway}
    (h : gateway.fault = none) : (gateway.guarded name call).2.fault = none := by
  unfold guarded
  rw [h]
  rfl

end Gateway

namespace Store

/-- Listing records the call and nothing else. -/
theorem list_snd (store : Store) (coordinate : Coordinate) (search : Search) : (store.list coordinate search).2 =
    store.record (.list coordinate search.inNamespace search.fields.text search.labels.text) := by
  unfold list
  dsimp only
  split
  · rfl
  · split <;> rfl

/-- The catalog and the failure of lists stay under every change. -/
theorem create_snd (store : Store) (coordinate : Coordinate) (inNamespace : Option String) (document : Document) :
    (store.create coordinate inNamespace document).2.listings = store.listings ∧
      (store.create coordinate inNamespace document).2.listFailure = store.listFailure := by
  unfold create
  dsimp only
  repeat' split
  all_goals exact ⟨rfl, rfl⟩

theorem update_snd (store : Store) (coordinate : Coordinate) (inNamespace : Option String) (document : Document) :
    (store.update coordinate inNamespace document).2.listings = store.listings ∧
      (store.update coordinate inNamespace document).2.listFailure = store.listFailure := by
  unfold update
  dsimp only
  repeat' split
  all_goals exact ⟨rfl, rfl⟩

theorem delete_snd (store : Store) (coordinate : Coordinate) (inNamespace : Option String) (name : String) :
    (store.delete coordinate inNamespace name).2.listings = store.listings ∧
      (store.delete coordinate inNamespace name).2.listFailure = store.listFailure := by
  unfold delete
  dsimp only
  repeat' split
  all_goals exact ⟨rfl, rfl⟩

end Store

namespace Engine

/-- The catalog and the objects of the store are such that `P` holds. -/
def Stores (P : List Listing → List Document → Prop) (engine : Engine) : Prop :=
  P engine.gateway.store.listings engine.gateway.store.objects

/-- No call is made to fail: there is no fault on the way to the store, and the store answers lists. -/
structure Unhindered (engine : Engine) : Prop where
  fault_eq : engine.gateway.fault = none
  listFailure_eq : engine.gateway.store.listFailure = none

/-- The catalog is the given one, and every identifier has the given meaning. -/
structure Means (listings : List Listing) (meaning : String → Option Kind) (engine : Engine) : Prop where
  listings_eq : engine.gateway.store.listings = listings
  kindOf?_eq : ∀ identifier, engine.cache.kindOf? listings identifier = meaning identifier

/-- Resolving an identifier keeps what discovery keeps. -/
theorem resolve_keeps {M : Gateway → Prop} (hdiscover : ∀ gateway, M gateway → M gateway.discover.2) {engine : Engine}
    (identifier : String) (h : M engine.gateway) : M (engine.resolve identifier).2.gateway := by
  have hasked := hdiscover engine.gateway h
  unfold resolve
  split
  · exact h
  · split
    · rename_i cause gateway hcall
      rwa [hcall] at hasked
    · rename_i listings gateway hcall
      rwa [hcall] at hasked

/-- Asking the store keeps what is said of the catalog and the objects. -/
theorem asking_stores (P : List Listing → List Document → Prop) : Asking (Stores P) where
  traced := fun before after h hP => by
    rw [Stores, h.gateway_eq]
    exact hP
  resolve := fun engine identifier hP =>
    resolve_keeps (M := fun gateway => P gateway.store.listings gateway.store.objects)
      (fun gateway h => Gateway.guarded_keeps (M := fun store => P store.listings store.objects) (fun _ h => h) h)
      identifier hP
  list := fun engine coordinate search hP =>
    Gateway.guarded_keeps (M := fun store => P store.listings store.objects) (fun store h => by
      rw [Store.list_snd]
      exact h) hP

/-- What is left of an engine after asking the store has its objects. -/
theorem objects_eq_of_asking {before after : Engine} (h : ∀ K, Asking K → K before → K after) :
    after.gateway.store.objects = before.gateway.store.objects :=
  h _ (asking_stores fun _ objects => objects = before.gateway.store.objects) rfl

/-- Every step leaves the engine unhindered. -/
theorem invariant_unhindered : Invariant Unhindered := by
  have hcall : ∀ {α : Type} {name : CallName} {call : Store → Store.Answer α} {gateway : Gateway},
      (∀ store : Store, (call store).2.listFailure = store.listFailure) →
      gateway.fault = none ∧ gateway.store.listFailure = none →
      (gateway.guarded name call).2.fault = none ∧ (gateway.guarded name call).2.store.listFailure = none := by
    rintro α name call gateway hstore ⟨hfault, hlist⟩
    refine ⟨Gateway.guarded_fault hfault, ?_⟩
    exact Gateway.guarded_keeps (M := fun store => store.listFailure = none)
      (fun store h => (hstore store).trans h) hlist
  have hall : ∀ engine : Engine, engine.Unhindered ↔
      engine.gateway.fault = none ∧ engine.gateway.store.listFailure = none := fun engine =>
    ⟨fun h => ⟨h.fault_eq, h.listFailure_eq⟩, fun h => ⟨h.1, h.2⟩⟩
  refine ⟨⟨fun before after htraced h => ?_, fun engine identifier h => ?_, fun engine coordinate search h => ?_⟩,
    fun engine coordinate inNamespace document h => ?_, fun engine coordinate inNamespace document h => ?_,
    fun engine coordinate inNamespace name h => ?_⟩
  all_goals rw [hall] at h ⊢
  · rwa [htraced.gateway_eq]
  · exact resolve_keeps (M := fun gateway => gateway.fault = none ∧ gateway.store.listFailure = none)
      (fun gateway => hcall fun store => rfl) identifier h
  · exact hcall (fun store => by rw [Store.list_snd]; rfl) h
  · exact hcall (fun store => (Store.create_snd store _ _ _).2) h
  · exact hcall (fun store => (Store.update_snd store _ _ _).2) h
  · exact hcall (fun store => (Store.delete_snd store _ _ _).2) h

/-- Every step leaves the catalog and what identifiers mean. -/
theorem invariant_means (listings : List Listing) (meaning : String → Option Kind) :
    Invariant (Means listings meaning) := by
  have hcall : ∀ {α : Type} {name : CallName} {call : Store → Store.Answer α} {engine : Engine},
      (∀ store : Store, (call store).2.listings = store.listings) → engine.Means listings meaning →
      Means listings meaning { engine with gateway := (engine.gateway.guarded name call).2 } := by
    intro α name call engine hstore h
    refine ⟨?_, h.kindOf?_eq⟩
    exact Gateway.guarded_keeps (M := fun store => store.listings = listings) (fun store h => (hstore store).trans h)
      h.listings_eq
  refine ⟨⟨fun before after htraced h => ?_, fun engine identifier h => ?_, fun engine coordinate search h => ?_⟩,
    fun engine coordinate inNamespace document h => ?_, fun engine coordinate inNamespace document h => ?_,
    fun engine coordinate inNamespace name h => ?_⟩
  · exact ⟨by rw [htraced.gateway_eq]; exact h.listings_eq, by rw [htraced.cache_eq]; exact h.kindOf?_eq⟩
  · have hlistings : (engine.resolve identifier).2.gateway.store.listings = listings := by
      refine resolve_keeps (M := fun gateway => gateway.store.listings = listings) (fun gateway h => ?_) identifier
        h.listings_eq
      exact Gateway.guarded_keeps (M := fun store => store.listings = listings) (fun _ h => h) h
    refine ⟨hlistings, fun other => ?_⟩
    rw [← h.kindOf?_eq other]
    unfold resolve
    split
    · rfl
    · split
      · rfl
      · rename_i found gateway hdiscover
        obtain ⟨rfl, -⟩ := Gateway.discover_eq_ok hdiscover
        rw [h.listings_eq]
        exact Cache.kindOf?_resolveIn engine.cache listings identifier other
  · exact hcall (fun store => by rw [Store.list_snd]; rfl) h
  · exact hcall (fun store => (Store.create_snd store _ _ _).1) h
  · exact hcall (fun store => (Store.update_snd store _ _ _).1) h
  · exact hcall (fun store => (Store.delete_snd store _ _ _).1) h

end Engine

namespace Run

variable {rules : List Rule} {context : Context} {query : Query} {before after : Engine}
  {answer : Except ExecutionError Result}

/-- A query leaves the catalog and what identifiers mean. -/
theorem execute_means (h : execute rules context query before = (answer, after)) :
    after.Means before.gateway.store.listings (before.cache.kindOf? before.gateway.store.listings) := by
  have hall := preserves_execute (Engine.invariant_means before.gateway.store.listings
    (before.cache.kindOf? before.gateway.store.listings)) rules context query before ⟨rfl, fun _ => rfl⟩
  rwa [h] at hall

/-- A query makes no call fail. -/
theorem execute_unhindered (h : execute rules context query before = (answer, after)) (hbefore : before.Unhindered) :
    after.Unhindered := by
  have hall := preserves_execute Engine.invariant_unhindered rules context query before hbefore
  rwa [h] at hall

end Run

end ClusterQuery
