import ClusterQuery.Proofs.Execution.Ending
import ClusterQuery.Proofs.Execution.Refusing
import ClusterQuery.Proofs.Execution.Unlogged

/-!
# Patterns compared

Two patterns over the same nodes are compared by the families in which every document has its partners: when these are
the same, both leave the same of every family (`Link.narrowAll_congr`), and when the one has them only where the other
does, it leaves less (`Link.narrowAll_mono`). What a run finds is compared past its traces (`Run.execute_fst`).
-/

namespace ClusterQuery

namespace Link

variable {links others : List Link}

/-- Without edges from a position to itself, edges that find all partners in the same families narrow alike. -/
theorem narrowAll_congr (hloop : ∀ link ∈ links, link.source ≠ link.target)
    (hloop' : ∀ link ∈ others, link.source ≠ link.target)
    (hsame : ∀ family, ArcConsistent others family ↔ ArcConsistent links family) (family : Family) :
    narrowAll others family = narrowAll links family := by
  obtain ⟨result, hresult⟩ := exists_narrowAll_eq hloop family
  obtain ⟨hcore, hall⟩ := narrowAll_eq_some_iff_core.1 hresult
  have hall' : ArcConsistent others result := (hsame result).2 hall
  rw [hresult, narrowAll_eq_some_iff_core]
  refine ⟨⟨hcore.isCut, hall'.settled, fun other hbelow hsettled => hcore.greatest other hbelow ?_⟩, hall'⟩
  have hother : ArcConsistent others other :=
    hsettled.arcConsistent_iff.2 fun link hl he => absurd he (hloop' link hl)
  exact ((hsame other).1 hother).settled

/-- Of less, edges that ask for more leave less, in the same order. -/
theorem narrowAll_mono (hmore : ∀ family, ArcConsistent others family → ArcConsistent links family)
    {small large kept result : Family} (hless : ∀ position, (listAt small position).Sublist (listAt large position))
    (h : narrowAll links large = some result) (h' : narrowAll others small = some kept) (position : Nat) :
    (listAt kept position).Sublist (listAt result position) := by
  obtain ⟨hcore, -⟩ := narrowAll_eq_some_iff_core.1 h
  obtain ⟨hkept, hall⟩ := narrowAll_eq_some_iff_core.1 h'
  have hsub : ∀ p, (listAt kept p).Sublist (listAt large p) := fun p => (hkept.isCut.listAt_sublist p).trans (hless p)
  have hbelow : Below kept result := hcore.greatest kept (fun p => (hsub p).subset) (hmore kept hall).settled
  exact hcore.isCut.sublist (hsub position) (hbelow position)

end Link

/-- Engines that differ in their logs only also take every change alike. -/
theorem Engine.congruent_traced : Congruent Traced where
  toAlike := alike_traced
  create := fun _ _ _ _ _ h => ⟨by rw [h.gateway_eq], by rw [h.gateway_eq], h.cache_eq⟩
  update := fun _ _ _ _ _ h => ⟨by rw [h.gateway_eq], by rw [h.gateway_eq], h.cache_eq⟩
  delete := fun _ _ _ _ _ h => ⟨by rw [h.gateway_eq], by rw [h.gateway_eq], h.cache_eq⟩

namespace Run

variable {rules : List Rule} {targets : List Target}

/-- A query answers what planning it and doing what its clause says answers; the rest is tracing. -/
theorem execute_fst (rules : List Rule) (context : Context) (query : Query) (engine : Engine) :
    (execute rules context query engine).1 = ((plan query context >>= act rules context query) engine).1 := by
  obtain ⟨started, hstart⟩ : ∃ started, trace context ("executing " ++ query.text) engine = (.ok (), started) :=
    ⟨_, rfl⟩
  obtain ⟨hplan, hplanned⟩ := respects_plan Engine.alike_traced query context (traced_of_trace hstart)
  rw [execute, bind_apply, hstart]
  dsimp only
  rw [bind_apply, bind_apply]
  rcases hfirst : plan query context engine with ⟨cause | targets, planned⟩
  all_goals
    rcases hsecond : plan query context started with ⟨cause' | targets', planned'⟩
    all_goals
      rw [hfirst, hsecond] at hplan hplanned
      cases hplan
  · rfl
  · obtain ⟨told, htold⟩ := exists_forM_trace context targetLine targets planned'
    have hact := respects_act Engine.congruent_traced rules context query targets
      (hplanned.trans (traced_of_forM_trace htold))
    dsimp only
    rw [bind_apply, htold, hact.1]
    dsimp only
    rw [bind_apply]
    rcases act rules context query targets told with ⟨cause | result, done⟩ <;> rfl

/-- A link is among those of a pattern when it is the link of one of its edges. -/
theorem mem_linksOf {graph : Graph} {links : List Link} (h : linksOf rules graph targets = .ok links) {link : Link} :
    link ∈ links ↔ ∃ edge ∈ graph.edges, linkOf? rules targets edge = .ok (some link) := by
  obtain ⟨found, hfound, rfl⟩ := exists_filterMap_of_filterMapM h
  rw [List.mem_filterMap]
  refine exists_congr fun edge => and_congr_right fun hedge => ?_
  rw [hfound edge hedge, Except.ok.injEq]

/-- Matching makes the links, fetches the documents of the targets and narrows them. -/
theorem matched_eq_ok_iff {context : Context} {graph : Graph} {engine after : Engine} {family : Link.Family} :
    matched rules context graph targets engine = (.ok family, after) ↔ ∃ links fetched,
      linksOf rules graph targets = .ok links ∧ fetch context targets engine = (.ok fetched, after) ∧
        Link.narrowAll links fetched = some family := by
  constructor
  · intro h
    obtain ⟨links, start, hread, h⟩ := bind_eq_ok.1 h
    obtain ⟨hlinks, rfl⟩ := ofExcept_eq_ok.1 hread
    obtain ⟨fetched, last, hfetch, h⟩ := bind_eq_ok.1 h
    refine ⟨links, fetched, hlinks, ?_⟩
    cases hkept : Link.narrowAll links fetched with
    | none =>
      rw [hkept] at h
      cases h
    | some kept =>
      rw [hkept] at h
      obtain ⟨rfl, rfl⟩ := pure_eq_ok.1 h
      exact ⟨hfetch, rfl⟩
  · rintro ⟨links, fetched, hlinks, hfetch, hnarrow⟩
    refine bind_eq_ok.2 ⟨links, engine, ofExcept_eq_ok.2 ⟨hlinks, rfl⟩, bind_eq_ok.2 ⟨fetched, after, hfetch, ?_⟩⟩
    rw [hnarrow]
    rfl

/-- What is shown of targets with their documents. -/
def shownOf (texts : List String) (projections : Projections) (pairs : List (Target × List Document)) :
    List (Target × List Document) :=
  pairs.filterMap fun (target, documents) =>
    if texts.isEmpty then some (target, documents)
    else (projections.lookup target.node.name).map fun paths => (target, documents.map (·.project paths))

/-- Without projections all is shown. -/
theorem shownOf_nil (projections : Projections) (pairs : List (Target × List Document)) :
    shownOf [] projections pairs = pairs := by
  simp only [shownOf, List.isEmpty_nil, if_true]
  exact List.filterMap_some

/-- Finding reads the projections, matches the pattern and shows what is matched. -/
theorem find_eq_ok_iff {context : Context} {graph : Graph} {texts : List String} {engine after : Engine}
    {result : Result} :
    find rules context graph targets texts engine = (.ok result, after) ↔
      ∃ projections family, projectionsOf targets texts = .ok projections ∧
        matched rules context graph targets engine = (.ok family, after) ∧
        result =
          ⟨bindingsOf (shownOf texts projections (targets.zip family)), resultGraph graph targets family, 0⟩ := by
  constructor
  · intro h
    obtain ⟨projections, middle, hread, h⟩ := bind_eq_ok.1 h
    obtain ⟨hprojections, rfl⟩ := ofExcept_eq_ok.1 hread
    obtain ⟨family, last, hmatched, h⟩ := bind_eq_ok.1 h
    obtain ⟨rfl, rfl⟩ := pure_eq_ok.1 h
    exact ⟨projections, family, hprojections, hmatched, rfl⟩
  · rintro ⟨projections, family, hprojections, hmatched, rfl⟩
    exact bind_eq_ok.2 ⟨projections, engine, ofExcept_eq_ok.2 ⟨hprojections, rfl⟩, bind_eq_ok.2
      ⟨family, after, hmatched, pure_eq_ok.2 ⟨rfl, rfl⟩⟩⟩

/-- Patterns whose links narrow alike, or cannot be made, find the same documents under all bindings. -/
theorem find_bindings_congr {graph other : Graph}
    (h : (∃ links others, linksOf rules graph targets = .ok links ∧ linksOf rules other targets = .ok others ∧
        ∀ family, Link.narrowAll others family = Link.narrowAll links family) ∨
      ((∃ cause, linksOf rules graph targets = .error cause) ∧ ∃ cause, linksOf rules other targets = .error cause))
    (context : Context) (texts : List String) (engine : Engine) :
    (find rules context other targets texts engine).1.toOption.map Result.bindings =
      (find rules context graph targets texts engine).1.toOption.map Result.bindings := by
  unfold find
  rw [bind_apply, bind_apply]
  rcases projectionsOf targets texts with cause | projections
  · rfl
  show ((matched rules context other targets >>= _) engine).1.toOption.map Result.bindings =
    ((matched rules context graph targets >>= _) engine).1.toOption.map Result.bindings
  rcases h with ⟨links, others, hlinks, hothers, hsame⟩ | ⟨⟨cause, herror⟩, cause', herror'⟩
  · have hmatched : matched rules context other targets = matched rules context graph targets := by
      unfold matched
      rw [hlinks, hothers]
      funext engine
      show (fetch context targets >>= _) engine = (fetch context targets >>= _) engine
      simp only [hsame]
    rw [hmatched, bind_apply, bind_apply]
    rcases matched rules context graph targets engine with ⟨cause | family, after⟩ <;> rfl
  · rw [bind_apply, bind_apply]
    unfold matched
    rw [herror, herror']
    rfl

end Run

end ClusterQuery
