import ClusterQuery.Session

/-!
# Runs of sessions

What is asked of a session one after another: query texts, each under a context of its own, and the steps that concern
the cache of kinds.
-/

namespace ClusterQuery.Session

/-- One thing that is asked of a session. -/
inductive Step where
  | resolve (identifier : String)
  | warm
  | clear
  | query (context : Context) (text : String)

/-- The step is a query text. -/
def Step.isQuery : Step → Bool
  | .query _ _ => true
  | _ => false

/-- The answer to a step, if it is a query text, and the session after it. -/
def step (session : Session) : Step → Option (Except ExecutionError Result) × Session
  | .resolve identifier => (none, (session.resolve identifier).2)
  | .warm => (none, session.warm.2)
  | .clear => (none, session.clearCache)
  | .query context text => ({ session with context := context }.process text).map some id

/-- The answers to the query texts among some steps, and the session after them all. -/
def run (session : Session) : List Step → List (Except ExecutionError Result) × Session
  | [] => ([], session)
  | first :: rest => ((session.step first).2.run rest).map ((session.step first).1.toList ++ ·) id

/-- What each of some steps keeps of the engine, a run of them keeps. -/
theorem run_keeps {K : Engine → Prop} {steps : List Step}
    (hstep : ∀ asked ∈ steps, ∀ session : Session, K session.engine → K (session.step asked).2.engine)
    {session : Session} (h : K session.engine) : K (session.run steps).2.engine := by
  induction steps generalizing session with
  | nil => exact h
  | cons asked rest ih =>
    obtain ⟨hfirst, hrest⟩ := List.forall_mem_cons.1 hstep
    exact ih hrest (hfirst session h)

/-- A query text leaves the engine as it is, if it cannot be read, or as running the query does. -/
theorem step_query_engine {K : Engine → Prop} {session : Session} {context : Context} {text : String}
    (h : K session.engine) (hrun : ∀ query, Query.parse text = .ok query →
      K (Run.execute session.rules context query session.engine).2) :
    K (session.step (.query context text)).2.engine := by
  rw [step, process]
  cases hparse : Query.parse text with
  | error cause => exact h
  | ok query => exact hrun query hparse

end ClusterQuery.Session
