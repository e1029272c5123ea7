import ClusterQuery.Proofs.Execution.Respecting

/-!
# The log is not read

What a run plans and what it matches do not depend on what has been logged (`unlogged_plan`, `unlogged_matched`): on
engines that differ in their logs only, the same steps succeed with the same answers and leave engines that differ in
their logs only.
-/

namespace ClusterQuery

/-- Engines that differ in their logs only answer alike. -/
theorem Engine.alike_traced : Alike Traced where
  note := fun _ _ _ h => ⟨h.gateway_eq, h.cache_eq⟩
  resolve := by
    rintro ⟨_, _, log⟩ ⟨gateway, cache, log'⟩ identifier ⟨rfl, rfl⟩
    simp only [resolve]
    cases cache.lookup (Cache.keyOf identifier) with
    | some kind => exact ⟨rfl, rfl, rfl⟩
    | none => rcases gateway.discover with ⟨_ | listings, asked⟩ <;> exact ⟨rfl, rfl, rfl⟩
  list := fun coordinate search first second h =>
    ⟨by rw [h.gateway_eq], by rw [h.gateway_eq], h.cache_eq⟩

namespace Run

variable {α : Type}

/-- The step does not read the log: what it does on one engine it does on every engine that differs in the log only. -/
def Unlogged (step : Run α) : Prop :=
  ∀ ⦃first second after : Engine⦄ ⦃answer : α⦄, first.Traced second → step first = (.ok answer, after) →
    ∃ after', step second = (.ok answer, after') ∧ after.Traced after'

theorem Respects.unlogged {step : Run α} (h : Respects Engine.Traced step) : Unlogged step := by
  intro first second after answer htraced hstep
  obtain ⟨hanswer, hafter⟩ := h htraced
  rw [hstep] at hanswer hafter
  exact ⟨(step second).2, Prod.ext hanswer.symm rfl, hafter⟩

theorem unlogged_forM_trace (context : Context) (line : α → String) (entries : List α) :
    Unlogged (entries.forM fun entry => trace context (line entry)) :=
  (sequential_respects.forM fun entry _ => respects_trace Engine.alike_traced context (line entry)).unlogged

theorem unlogged_plan (query : Query) (context : Context) : Unlogged (plan query context) :=
  (respects_plan Engine.alike_traced query context).unlogged

theorem unlogged_matched (rules : List Rule) (context : Context) (graph : Graph) (targets : List Target) :
    Unlogged (matched rules context graph targets) :=
  (respects_matched Engine.alike_traced rules context graph targets).unlogged

end Run

end ClusterQuery
