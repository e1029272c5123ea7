import ClusterQuery.Execution.Run
import ClusterQuery.Proofs.Answers

/-!
# Steps that succeed

What has succeeded is taken apart here: a sequence of steps of a run succeeds when each of them does
(`Run.bind_eq_ok`). A creation stores the document of one target after another (`Run.create_eq`). Tracing changes the
log of the engine and nothing else (`Engine.Traced`).
-/

namespace ClusterQuery

/-- The second engine is the first but for its log. -/
structure Engine.Traced (before after : Engine) : Prop where
  gateway_eq : after.gateway = before.gateway
  cache_eq : after.cache = before.cache

theorem Engine.Traced.refl (engine : Engine) : engine.Traced engine :=
  ⟨rfl, rfl⟩

theorem Engine.Traced.trans {first second third : Engine} (h : first.Traced second) (h' : second.Traced third) :
    first.Traced third :=
  ⟨h'.gateway_eq.trans h.gateway_eq, h'.cache_eq.trans h.cache_eq⟩

theorem Engine.Traced.symm {first second : Engine} (h : first.Traced second) : second.Traced first :=
  ⟨h.gateway_eq.symm, h.cache_eq.symm⟩

namespace Run

variable {α β : Type} {engine after : Engine}

/-- A sequence of two steps succeeds when both do, the second on the engine after the first. -/
theorem bind_eq_ok {step : Run α} {next : α → Run β} {b : β} :
    (step >>= next) engine = (.ok b, after) ↔
      ∃ a middle, step engine = (.ok a, middle) ∧ next a middle = (.ok b, after) := by
  have h : (step >>= next) engine =
      match step engine with
      | (.ok a, middle) => next a middle
      | (.error cause, middle) => (.error cause, middle) := by
    simp only [bind, ExceptT.bind, ExceptT.mk, StateT.bind, ExceptT.bindCont]
    rcases step engine with ⟨_ | a, middle⟩ <;> rfl
  rw [h]
  rcases step engine with ⟨cause | a, middle⟩
  · exact ⟨nofun, fun ⟨_, _, h, _⟩ => nomatch h⟩
  · constructor
    · exact fun h => ⟨a, middle, rfl, h⟩
    · rintro ⟨a', middle', heq, hnext⟩
      cases heq
      exact hnext

theorem pure_eq_ok {a b : α} : (pure a : Run α) engine = (.ok b, after) ↔ a = b ∧ engine = after := by
  constructor
  · intro h
    cases h
    exact ⟨rfl, rfl⟩
  · rintro ⟨rfl, rfl⟩
    rfl

/-- A step that gives an answer succeeds when the answer does. -/
theorem ofExcept_eq_ok {answer : Except ExecutionError α} {a : α} :
    ofExcept answer engine = (.ok a, after) ↔ answer = .ok a ∧ engine = after := by
  constructor
  · intro h
    cases h
    exact ⟨rfl, rfl⟩
  · rintro ⟨rfl, rfl⟩
    rfl

/-- A call succeeds when its request does. -/
theorem call_eq_ok {target : Target} {request : Gateway → Gateway.Answer α} {a : α} :
    call target request engine = (.ok a, after) ↔
      ∃ gateway, request engine.gateway = (.ok a, gateway) ∧ after = { engine with gateway := gateway } := by
  unfold call
  split
  · rename_i answer gateway hcall
    rw [hcall]
    constructor
    · intro h
      cases h
      exact ⟨gateway, rfl, rfl⟩
    · rintro ⟨gateway', hsame, rfl⟩
      cases hsame
      rfl
  · rename_i cause gateway hcall
    rw [hcall]
    exact ⟨nofun, fun ⟨_, hsame, _⟩ => nomatch hsame⟩

/-- Stores the document of a target and puts it under its binding. -/
def storeNew (bindings : Bindings) (target : Target) : Run Bindings := do
  let document ← ofExcept target.newDocument
  let stored ← call target fun gateway => gateway.create target.kind.coordinate target.newNamespace document
  return Keyed.insert target.node.name ((bindings.lookup target.node.name).getD [] ++ [stored]) bindings

/-- A creation without edges stores the document of one target after another. -/
theorem create_eq (graph : Graph) (targets : List Target) : create graph targets =
    if graph.edges = [] then (do return ⟨← targets.foldlM storeNew [], graph, 0⟩)
    else throw (.invalidMutation .relationships) := by
  unfold create
  cases graph.edges with
  | nil => rfl
  | cons edge rest => rfl

/-- A run of which a view is seen has succeeded, with an answer of that view. -/
theorem exists_of_view {γ : Type} {step : Run α} {view : α → γ} {seen : γ}
    (h : (step engine).1.toOption.map view = some seen) : ∃ a after, step engine = (.ok a, after) ∧ view a = seen := by
  rcases hrun : step engine with ⟨cause | a, after⟩
  · rw [hrun] at h
    cases h
  · rw [hrun] at h
    exact ⟨a, after, rfl, Option.some.inj h⟩

/-- What one step of a list of steps does to an entry and keeps of the engine, all of them do and keep. -/
theorem mapM_forall₂ {K : Engine → Prop} {R : α → β → Prop} {step : α → Run β}
    (hstep : ∀ entry answer before after, K before → step entry before = (.ok answer, after) →
      R entry answer ∧ K after)
    {entries : List α} {answers : List β} (hkept : K engine)
    (h : entries.mapM step engine = (.ok answers, after)) : List.Forall₂ R entries answers ∧ K after := by
  induction entries generalizing engine answers with
  | nil =>
    rw [List.mapM_nil] at h
    obtain ⟨rfl, rfl⟩ := pure_eq_ok.1 h
    exact ⟨List.Forall₂.nil, hkept⟩
  | cons entry rest ih =>
    rw [List.mapM_cons] at h
    obtain ⟨first, middle, hfirst, h⟩ := bind_eq_ok.1 h
    obtain ⟨others, last, hothers, h⟩ := bind_eq_ok.1 h
    obtain ⟨rfl, rfl⟩ := pure_eq_ok.1 h
    obtain ⟨hr, hmiddle⟩ := hstep _ _ _ _ hkept hfirst
    obtain ⟨hall, hlast⟩ := ih hmiddle hothers
    exact ⟨List.Forall₂.cons hr hall, hlast⟩

/-- What one step for an entry adds to what has been done, a list of steps adds in order. -/
theorem mapM_flatMap {γ : Type} {K : List γ → Engine → Prop} {adds : α → List γ} {step : α → Run β} {entries : List α}
    (hstep : ∀ entry ∈ entries, ∀ done answer before after, K done before →
      step entry before = (.ok answer, after) → K (done ++ adds entry) after)
    {done : List γ} {answers : List β} (hkept : K done engine)
    (h : entries.mapM step engine = (.ok answers, after)) : K (done ++ entries.flatMap adds) after := by
  induction entries generalizing engine answers done with
  | nil =>
    rw [List.mapM_nil] at h
    obtain ⟨-, rfl⟩ := pure_eq_ok.1 h
    rwa [List.flatMap_nil, List.append_nil]
  | cons entry rest ih =>
    rw [List.mapM_cons] at h
    obtain ⟨first, middle, hfirst, h⟩ := bind_eq_ok.1 h
    obtain ⟨others, last, hothers, h⟩ := bind_eq_ok.1 h
    obtain ⟨-, rfl⟩ := pure_eq_ok.1 h
    rw [List.flatMap_cons, ← List.append_assoc]
    refine ih (fun other ho => hstep other (List.mem_cons_of_mem entry ho)) ?_ hothers
    exact hstep entry List.mem_cons_self _ _ _ _ hkept hfirst

/-- The names of targets are the bindings of the graph whose nodes they are for. -/
theorem names_eq {graph : Graph} {targets : List Target} (h : targets.map (·.node) = graph.nodes) :
    targets.map (·.node.name) = graph.bindings := by
  rw [Graph.bindings, ← h, List.map_map]
  rfl

/-- Tracing changes the log only. -/
theorem traced_of_trace {context : Context} {line : String} {answer : Except ExecutionError Unit}
    (h : trace context line engine = (answer, after)) : engine.Traced after := by
  unfold trace at h
  split at h
  · cases h
    exact ⟨rfl, rfl⟩
  · cases h
    exact Engine.Traced.refl engine

/-- Tracing every entry of a list changes the log only. -/
theorem traced_of_forM_trace {context : Context} {line : α → String} {entries : List α}
    (h : (entries.forM fun entry => trace context (line entry)) engine = (.ok (), after)) : engine.Traced after := by
  induction entries generalizing engine with
  | nil =>
    obtain ⟨-, rfl⟩ := pure_eq_ok.1 h
    exact Engine.Traced.refl _
  | cons entry rest ih =>
    obtain ⟨_, middle, hfirst, hrest⟩ := bind_eq_ok.1 h
    exact (traced_of_trace hfirst).trans (ih hrest)

end Run

end ClusterQuery
