import ClusterQuery.Proofs.Execution.Outcomes

/-!
# Runs on related engines

Engines may differ in ways that no answer shows, such as what has been logged. A relation of engines that answer every
request alike and stay related (`Engine.Alike`, `Engine.Congruent`) is respected by whole queries: they answer alike, be
it a result or an error, and leave related engines (`Run.respects_execute`).
-/

namespace ClusterQuery

namespace Engine

/-- The request is answered alike behind related engines, which stay related. -/
def AlikeAt {α : Type} (R : Engine → Engine → Prop) (request : Gateway → Gateway.Answer α) : Prop :=
  ∀ ⦃first second : Engine⦄, R first second → (request first.gateway).1 = (request second.gateway).1 ∧
    R { first with gateway := (request first.gateway).2 } { second with gateway := (request second.gateway).2 }

/-- Related engines answer alike whatever is asked of them, and stay related. -/
structure Alike (R : Engine → Engine → Prop) : Prop where
  note : ∀ ⦃first second : Engine⦄ (line : String), R first second → R (first.note line) (second.note line)
  resolve : ∀ ⦃first second : Engine⦄ (identifier : String), R first second →
    (first.resolve identifier).1 = (second.resolve identifier).1 ∧
      R (first.resolve identifier).2 (second.resolve identifier).2
  list : ∀ (coordinate : Coordinate) (search : Search), AlikeAt R (·.list coordinate search)

/-- Related engines also take every change alike, and stay related. -/
structure Congruent (R : Engine → Engine → Prop) : Prop extends Alike R where
  create : ∀ (coordinate : Coordinate) (inNamespace : Option String) (document : Document),
    AlikeAt R (·.create coordinate inNamespace document)
  update : ∀ (coordinate : Coordinate) (inNamespace : Option String) (document : Document),
    AlikeAt R (·.update coordinate inNamespace document)
  delete : ∀ (coordinate : Coordinate) (inNamespace : Option String) (name : String),
    AlikeAt R (·.delete coordinate inNamespace name)

end Engine

namespace Run

variable {α β : Type} {R : Engine → Engine → Prop}

/-- On related engines the step answers alike, whether it succeeds or fails, and leaves them related. -/
def Respects (R : Engine → Engine → Prop) (step : Run α) : Prop :=
  ∀ ⦃first second : Engine⦄, R first second → (step first).1 = (step second).1 ∧ R (step first).2 (step second).2

theorem respects_pure (a : α) : Respects R (pure a) :=
  fun _ _ h => ⟨rfl, h⟩

theorem respects_throw (cause : ExecutionError) : Respects R (throw cause : Run α) :=
  fun _ _ h => ⟨rfl, h⟩

theorem respects_ofExcept (answer : Except ExecutionError α) : Respects R (ofExcept answer) :=
  fun _ _ h => ⟨rfl, h⟩

/-- A sequence of steps respects what both respect. -/
theorem Respects.bind {step : Run α} {next : α → Run β} (hstep : Respects R step)
    (hnext : ∀ a, Respects R (next a)) : Respects R (step >>= next) := by
  intro first second h
  have hmiddle := hstep h
  rw [bind_apply, bind_apply]
  rcases hfirst : step first with ⟨cause | a, middle⟩
  · rcases hsecond : step second with ⟨cause' | a', middle'⟩
    · rw [hfirst, hsecond] at hmiddle
      obtain ⟨hsame, hrelated⟩ := hmiddle
      cases hsame
      exact ⟨rfl, hrelated⟩
    · rw [hfirst, hsecond] at hmiddle
      exact nomatch hmiddle.1
  · rcases hsecond : step second with ⟨cause' | a', middle'⟩
    · rw [hfirst, hsecond] at hmiddle
      exact nomatch hmiddle.1
    · rw [hfirst, hsecond] at hmiddle
      obtain ⟨hsame, hrelated⟩ := hmiddle
      cases hsame
      exact hnext a hrelated

theorem sequential_respects : Sequential fun _ => Respects R :=
  ⟨respects_pure, Respects.bind⟩

/-- A call about a target respects what its request does. -/
theorem respects_call {request : Gateway → Gateway.Answer α} (h : Engine.AlikeAt R request) (target : Target) :
    Respects R (call target request) := by
  intro first second hrelated
  obtain ⟨hanswer, hafter⟩ := h hrelated
  unfold call
  rcases hfirst : request first.gateway with ⟨cause | a, gateway⟩
  all_goals
    rcases hsecond : request second.gateway with ⟨cause' | a', gateway'⟩
    all_goals
      rw [hfirst, hsecond] at hanswer hafter
      cases hanswer
    exact ⟨rfl, hafter⟩

/-! ## Steps that ask the store only -/

section Asking

variable (halike : Engine.Alike R)

include halike

theorem respects_trace (context : Context) (line : String) : Respects R (trace context line) := by
  intro first second h
  refine ⟨rfl, ?_⟩
  unfold trace
  split
  · exact halike.note line h
  · exact h

theorem respects_resolveNode (node : Node) : Respects R (resolveNode node) := by
  intro first second h
  obtain ⟨hanswer, hafter⟩ := halike.resolve node.kind h
  unfold resolveNode
  rcases hfirst : first.resolve node.kind with ⟨cause | kind, middle⟩
  all_goals
    rcases hsecond : second.resolve node.kind with ⟨cause' | kind', middle'⟩
    all_goals
      rw [hfirst, hsecond] at hanswer hafter
      cases hanswer
    exact ⟨rfl, hafter⟩

/-- Planning a query respects what asking does. -/
theorem respects_plan (query : Query) (context : Context) : Respects R (plan query context) :=
  (sequential_respects.mapM fun node _ => respects_resolveNode halike node).bind fun _ => respects_ofExcept _

theorem respects_keep (context : Context) (target : Target) (answer : Except StoreError (List Document)) :
    Respects R (keep context target answer) := by
  cases answer with
  | error cause => exact respects_throw _
  | ok documents => exact (respects_trace halike context _).bind fun _ => respects_pure _

/-- The searches of all targets are answered alike. -/
theorem searchAll_alike (targets : List Target) {first second : Engine} (h : R first second) :
    (searchAll targets first).1 = (searchAll targets second).1 ∧
      R (searchAll targets first).2 (searchAll targets second).2 := by
  induction targets generalizing first second with
  | nil => exact ⟨rfl, h⟩
  | cons target rest ih =>
    obtain ⟨hanswer, hasked⟩ := halike.list target.kind.coordinate target.search h
    obtain ⟨hanswers, hafter⟩ := ih hasked
    exact ⟨congrArg₂ List.cons hanswer hanswers, hafter⟩

theorem respects_fetch (context : Context) (targets : List Target) : Respects R (fetch context targets) := by
  refine Respects.bind (fun first second h => ?_) fun answers =>
    sequential_respects.mapM fun _ _ => respects_keep halike context _ _
  obtain ⟨hanswers, hafter⟩ := searchAll_alike halike targets h
  exact ⟨congrArg Except.ok hanswers, hafter⟩

/-- Matching a pattern respects what asking does. -/
theorem respects_matched (rules : List Rule) (context : Context) (graph : Graph) (targets : List Target) :
    Respects R (matched rules context graph targets) := by
  refine (respects_ofExcept _).bind fun links => (respects_fetch halike context targets).bind fun fetched => ?_
  split
  · exact respects_pure _
  · exact respects_throw _

end Asking

/-! ## A whole query -/

section Changing

variable (hcongruent : Engine.Congruent R)

include hcongruent

theorem respects_create (graph : Graph) (targets : List Target) : Respects R (create graph targets) := by
  rw [create_eq]
  split
  · refine (sequential_respects.foldlM (fun bindings target _ => ?_) _).bind fun _ => respects_pure _
    refine (respects_ofExcept _).bind fun document => Respects.bind ?_ fun _ => respects_pure _
    exact respects_call (hcongruent.create _ _ document) target
  · exact respects_throw _

theorem respects_update (target : Target) (patch document : Document) : Respects R (update target patch document) := by
  unfold update
  split
  · exact respects_call (hcongruent.update _ _ _) target
  · exact respects_pure _

theorem respects_remove (context : Context) (target : Target) (document : Document) :
    Respects R (remove context target document) := by
  unfold remove
  split
  · exact respects_throw _
  · exact (respects_call (hcongruent.delete _ _ _) target).bind fun _ => respects_trace hcongruent.toAlike context _

/-- What the clause of a query does respects what every call does. -/
theorem respects_act (rules : List Rule) (context : Context) (query : Query) (targets : List Target) :
    Respects R (act rules context query targets) := by
  have hmatched := respects_matched hcongruent.toAlike rules context query.graph targets
  unfold act
  split
  · exact (respects_ofExcept _).bind fun projections => hmatched.bind fun family => respects_pure _
  · exact respects_create hcongruent query.graph targets
  · refine (respects_ofExcept _).bind fun patches => hmatched.bind fun family => Respects.bind ?_ fun _ =>
      respects_pure _
    refine sequential_respects.mapM fun entry _ => Respects.bind ?_ fun _ => respects_pure _
    exact sequential_respects.mapM fun document _ => respects_update hcongruent entry.1.1 entry.2 document
  · refine hmatched.bind fun family => Respects.bind ?_ fun _ => respects_pure _
    exact sequential_respects.forM fun pair _ => sequential_respects.forM fun document _ =>
      respects_remove hcongruent context pair.1 document

/-- Related engines answer a query alike, be it with a result or an error, and it leaves them related. -/
theorem respects_execute (rules : List Rule) (context : Context) (query : Query) :
    Respects R (execute rules context query) := by
  have htrace := respects_trace hcongruent.toAlike context
  refine (htrace _).bind fun _ => (respects_plan hcongruent.toAlike query context).bind fun targets => ?_
  refine (sequential_respects.forM fun target _ => htrace _).bind fun _ => ?_
  exact (respects_act hcongruent rules context query targets).bind fun result =>
    (htrace _).bind fun _ => respects_pure _

end Changing

end Run

end ClusterQuery
