import ClusterQuery.Proofs.Execution.Match
import ClusterQuery.Proofs.Execution.Unlogged

/-!
# Planned, matched and found

What is planned for a query from an engine (`Run.Planned`) and what its pattern then matches (`Run.Planned.matched_eq`).
What a query does to a store is said of the documents that the query finds which only finds its pattern: it succeeds
from the same engine whenever the pattern can be planned and matched (`Run.execute_matching`), and has the matched
documents under their bindings (`Run.finds_iff`), which are the answers to the question of the query
(`Run.finding_answers`).
-/

namespace ClusterQuery

/-- The catalog has every plural name once under a group and version, and every identifier means a kind of it. -/
structure Engine.Regular (engine : Engine) : Prop where
  distinct : PluralsDistinct engine.gateway.store.listings
  listed : ∀ identifier kind, engine.cache.kindOf? engine.gateway.store.listings identifier = some kind →
    kind.Listed engine.gateway.store.listings

/-- The query that only finds what the pattern of a query matches. -/
def Query.finding (query : Query) : Query :=
  { query with clause := .find [] [] }

/-- The query that only finds what the pattern of a query and its filters match. -/
def Query.matching (query : Query) : Query :=
  { query with clause := .find query.clause.filters [] }

/-- The document stands under the binding. -/
def Result.Finds (result : Result) (binding : String) (document : Document) : Prop :=
  ∃ documents, result.binding? binding = some documents ∧ document ∈ documents

namespace Run

variable {engine after : Engine}

/-! ## What is planned and matched -/

/-- A query that succeeds has planned its targets and done with them what its clause says; the rest is tracing. -/
theorem execute_eq_ok {rules : List Rule} {context : Context} {query : Query} {result : Result}
    (h : execute rules context query engine = (.ok result, after)) : ∃ started targets planned told done,
      engine.Traced started ∧ plan query context started = (.ok targets, planned) ∧
      (targets.forM fun target => trace context (targetLine target)) planned = (.ok (), told) ∧
      act rules context query targets told = (.ok result, done) ∧ done.Traced after := by
  obtain ⟨_, started, hstart, h⟩ := bind_eq_ok.1 h
  obtain ⟨targets, planned, hplan, h⟩ := bind_eq_ok.1 h
  obtain ⟨_, told, htold, h⟩ := bind_eq_ok.1 h
  obtain ⟨found, done, hact, h⟩ := bind_eq_ok.1 h
  obtain ⟨_, last, hlast, h⟩ := bind_eq_ok.1 h
  obtain ⟨rfl, rfl⟩ := pure_eq_ok.1 h
  exact ⟨started, targets, planned, told, done, traced_of_trace hstart, hplan, htold, hact, traced_of_trace hlast⟩

/-- Targets have been planned for the nodes of a query, in order: the nodes have the kinds that their identifiers mean
to the first engine, and from it to the second the store has only answered calls. -/
structure Planned (context : Context) (query : Query) (before told : Engine) (kinds : List Kind)
    (targets : List Target) : Prop where
  means : List.Forall₂ (fun node kind =>
    before.cache.kindOf? before.gateway.store.listings node.kind = some kind) query.graph.nodes kinds
  made : query.targets context kinds = .ok targets
  plans : List.Forall₂ (Target.Plans context query.clause.filters) (query.graph.nodes.zip kinds) targets
  nodes_eq : targets.map (·.node) = query.graph.nodes
  answered : ∃ calls, before.Answered told calls

/-- Planning asks the store only, and plans a target for every node. -/
theorem planned_spec {query : Query} {context : Context} {targets : List Target} {started planned told : Engine}
    (hnames : query.graph.bindings.Nodup) (hstart : engine.Traced started)
    (hplan : plan query context started = (.ok targets, planned))
    (htold : (targets.forM fun target => trace context (targetLine target)) planned = (.ok (), told)) :
    ∃ kinds, Planned context query engine told kinds targets := by
  obtain ⟨hresolving, kinds, htargets, hkinds⟩ := plan_spec hplan
  obtain ⟨calls, hanswered, -⟩ :=
    ((hstart.resolving.trans hresolving).trans (traced_of_forM_trace htold).resolving).answered
  rw [hstart.cache_eq, hstart.gateway_eq] at hkinds
  have hlength := hkinds.length_eq
  have hplans := Query.targets_forall₂ hnames hlength.symm htargets
  refine ⟨kinds, hkinds, htargets, hplans, ?_, calls, hanswered⟩
  have hfst := congrArg (List.map Prod.fst) (subjects_eq hplans)
  rwa [List.map_map, List.map_fst_zip (Nat.le_of_eq hlength)] at hfst

section Planned

variable {context : Context} {query : Query} {before told : Engine} {kinds : List Kind} {targets : List Target}

/-- A target has the kind that the identifier of its node means. -/
theorem Planned.kindOf?_eq (h : Planned context query before told kinds targets) {target : Target}
    (htarget : target ∈ targets) :
    before.cache.kindOf? before.gateway.store.listings target.node.kind = some target.kind := by
  have hmem : target.subject ∈ query.graph.nodes.zip kinds := subjects_eq h.plans ▸ List.mem_map_of_mem htarget
  exact List.forall₂_zip h.means hmem

/-- A target plans the search for its node and the filters. -/
theorem Planned.plans_of_mem (h : Planned context query before told kinds targets) {target : Target}
    (htarget : target ∈ targets) : Target.Plans context query.clause.filters target.subject target := by
  have hall := h.plans
  rw [← subjects_eq h.plans, List.forall₂_map_left_iff, List.forall₂_same] at hall
  exact hall target htarget

/-- Targets with their documents are for the nodes of the query. -/
theorem Planned.map_node (h : Planned context query before told kinds targets) {family : Link.Family}
    (hlength : targets.length = family.length) : (targets.zip family).map (·.1.node) = query.graph.nodes := by
  have hfst := List.map_fst_zip (Nat.le_of_eq hlength)
  rw [← h.nodes_eq, ← congrArg (List.map Target.node) hfst, List.map_map]
  rfl

/-- Targets with their documents have distinct bindings. -/
theorem Planned.names_nodup (h : Planned context query before told kinds targets) (hnames : query.graph.bindings.Nodup)
    {family : Link.Family} (hlength : targets.length = family.length) :
    ((targets.zip family).map (·.1.node.name)).Nodup := by
  rw [Graph.bindings, ← h.map_node hlength, List.map_map] at hnames
  exact hnames

/-- What is matched for planned targets are the answers to the question of the query. -/
theorem Planned.matched_eq (h : Planned context query before told kinds targets) (hc : query.graph.Closed)
    (hregular : before.Regular) {rules : List Rule} {family : Link.Family} {matching : Engine}
    (hmatched : matched rules context query.graph targets told = (.ok family, matching)) :
    family = targets.map fun target =>
      (query.question rules context kinds before.gateway.store.objects).answer target.node.id := by
  obtain ⟨calls, hanswered⟩ := h.answered
  let question := query.question rules context kinds before.gateway.store.objects
  have hlisted : ∀ subject ∈ question.subjects, subject.2.Listed told.gateway.store.listings := by
    intro subject hmem
    rw [hanswered.listings_eq]
    exact hregular.listed _ _ (List.forall₂_zip h.means hmem)
  have hobjects : question.objects = told.gateway.store.objects := hanswered.objects_eq.symm
  obtain ⟨-, hfamily⟩ := matched_spec hc h.nodes_eq rfl hobjects (hanswered.listings_eq ▸ hregular.distinct) hlisted
    h.plans hmatched
  rw [hfamily, show question.subjects = targets.map Target.subject from (subjects_eq h.plans).symm, List.map_map]
  rfl

end Planned

/-- What is matched has been fetched: matching asks the store only, and gives each target some of its documents. -/
theorem matched_fetches {rules : List Rule} {context : Context} {graph : Graph} {targets : List Target}
    {family : Link.Family} (h : matched rules context graph targets engine = (.ok family, after)) :
    engine.Answered after (targets.map listCall) ∧ List.Forall₂ (fun target documents =>
      ∃ fetched, Fetches engine.gateway.store target fetched ∧ documents ⊆ fetched) targets family := by
  obtain ⟨links, middle, hread, h⟩ := bind_eq_ok.1 h
  obtain ⟨-, rfl⟩ := ofExcept_eq_ok.1 hread
  obtain ⟨fetched, last, hfetch, h⟩ := bind_eq_ok.1 h
  obtain ⟨hanswered, hfetched⟩ := fetch_spec hfetch
  cases hkept : Link.narrowAll links fetched with
  | none =>
    rw [hkept] at h
    cases h
  | some kept =>
    rw [hkept] at h
    obtain ⟨rfl, rfl⟩ := pure_eq_ok.1 h
    obtain ⟨keep, rfl⟩ := (Link.narrowAll_eq_some_iff_core.1 hkept).1.isCut
    refine ⟨hanswered, List.forall₂_iff_get.2 ⟨by simp [hfetched.length_eq], fun position ht hf => ?_⟩⟩
    refine ⟨_, hfetched.get ht (by simpa using hf), ?_⟩
    simp only [List.get_eq_getElem, List.getElem_mapIdx]
    exact List.filter_sublist.subset

/-! ## What the query finds that only finds -/

/-- When the pattern of a query is planned and matched, the query that only finds what is matched succeeds from the same
engine, with the matched documents under their bindings. -/
theorem execute_matching {rules : List Rule} {context : Context} {query : Query} {targets : List Target}
    {family : Link.Family} {before started planned told matching : Engine} (hstart : before.Traced started)
    (hplan : plan query context started = (.ok targets, planned))
    (htold : (targets.forM fun target => trace context (targetLine target)) planned = (.ok (), told))
    (hmatched : matched rules context query.graph targets told = (.ok family, matching)) :
    ∃ seen, execute rules context query.matching before =
      (.ok ⟨bindingsOf (targets.zip family), resultGraph query.graph targets family, 0⟩, seen) := by
  have hsame : plan query.matching context = plan query context := rfl
  -- the same steps, on engines that differ in their logs only
  have hstart' : before.Traced (trace context ("executing " ++ query.matching.text) before).2 := traced_of_trace rfl
  obtain ⟨planned', hplan', htraced⟩ := unlogged_plan query context (hstart.symm.trans hstart') hplan
  obtain ⟨told', htold', htraced⟩ := unlogged_forM_trace context targetLine targets htraced htold
  obtain ⟨matching', hmatched', -⟩ := unlogged_matched rules context query.graph targets htraced hmatched
  have hfind : act rules context query.matching targets told' =
      (.ok ⟨bindingsOf (targets.zip family), resultGraph query.graph targets family, 0⟩, matching') := by
    refine bind_eq_ok.2 ⟨[], told', rfl, bind_eq_ok.2 ⟨family, matching', hmatched', pure_eq_ok.2 ⟨?_, rfl⟩⟩⟩
    simp only [List.isEmpty_nil, if_true]
    rw [List.filterMap_some]
    rfl
  exact ⟨_, bind_eq_ok.2 ⟨(), _, rfl, bind_eq_ok.2 ⟨targets, planned', hsame ▸ hplan', bind_eq_ok.2
    ⟨(), told', htold', bind_eq_ok.2 ⟨_, matching', hfind, bind_eq_ok.2 ⟨(), _, rfl, rfl⟩⟩⟩⟩⟩⟩

/-- Without filters that is the query that only finds the pattern. -/
theorem execute_finding {rules : List Rule} {context : Context} {query : Query} {targets : List Target}
    {family : Link.Family} {before started planned told matching : Engine} (hfilters : query.clause.filters = [])
    (hstart : before.Traced started) (hplan : plan query context started = (.ok targets, planned))
    (htold : (targets.forM fun target => trace context (targetLine target)) planned = (.ok (), told))
    (hmatched : matched rules context query.graph targets told = (.ok family, matching)) :
    ∃ seen, execute rules context query.finding before =
      (.ok ⟨bindingsOf (targets.zip family), resultGraph query.graph targets family, 0⟩, seen) := by
  have hsame : query.matching = query.finding := by
    unfold Query.matching
    rw [hfilters]
    rfl
  exact hsame ▸ execute_matching hstart hplan htold hmatched

/-- Under the name of a target stand its documents. -/
theorem binding?_of_mem {pairs : List (Target × List Document)} {graph : Graph} {elapsed : Nat}
    (hnames : (pairs.map (·.1.node.name)).Nodup) {pair : Target × List Document} (hpair : pair ∈ pairs) :
    (⟨bindingsOf pairs, graph, elapsed⟩ : Result).binding? pair.1.node.name = some pair.2 := by
  refine Keyed.lookup_ofList_of_mem ?_ (List.mem_map_of_mem hpair)
  rw [List.map_map]
  exact hnames

/-- A target stands beside what is answered for it. -/
theorem mem_zip_map {targets : List Target} {answer : Target → List Document} {target : Target} (h : target ∈ targets) :
    (target, answer target) ∈ targets.zip (targets.map answer) := by
  obtain ⟨position, hbound, rfl⟩ := List.getElem_of_mem h
  exact List.mem_of_getElem (i := position) (h := by simpa using hbound) (by simp)

/-- Under the name of a planned target stands what is answered for it. -/
theorem Planned.binding?_eq {context : Context} {query : Query} {before told : Engine} {kinds : List Kind}
    {targets : List Target} (h : Planned context query before told kinds targets) (hnames : query.graph.bindings.Nodup)
    (answer : Target → List Document) (graph : Graph) (elapsed : Nat) {target : Target} (htarget : target ∈ targets) :
    (⟨bindingsOf (targets.zip (targets.map answer)), graph, elapsed⟩ : Result).binding? target.node.name =
      some (answer target) := by
  exact binding?_of_mem (h.names_nodup hnames (by simp)) (mem_zip_map htarget)

/-- What is found under the name of a target are its documents. -/
theorem finds_iff {pairs : List (Target × List Document)} {graph : Graph} {elapsed : Nat}
    (hnames : (pairs.map (·.1.node.name)).Nodup) {pair : Target × List Document} (hpair : pair ∈ pairs)
    (document : Document) :
    (⟨bindingsOf pairs, graph, elapsed⟩ : Result).Finds pair.1.node.name document ↔ document ∈ pair.2 := by
  simp only [Result.Finds, binding?_of_mem hnames hpair, Option.some.injEq, exists_eq_left']

/-- What stands under some binding are the documents of the targets. -/
theorem exists_finds_iff {pairs : List (Target × List Document)} {graph : Graph} {elapsed : Nat}
    (hnames : (pairs.map (·.1.node.name)).Nodup) (document : Document) :
    (∃ binding, (⟨bindingsOf pairs, graph, elapsed⟩ : Result).Finds binding document) ↔
      ∃ pair ∈ pairs, document ∈ pair.2 := by
  constructor
  · rintro ⟨binding, documents, hbinding, hmem⟩
    by_cases hname : binding ∈ pairs.map (·.1.node.name)
    · obtain ⟨pair, hpair, rfl⟩ := List.mem_map.1 hname
      exact ⟨pair, hpair, (finds_iff hnames hpair document).1 ⟨documents, hbinding, hmem⟩⟩
    · have hnone : (bindingsOf pairs).lookup binding = none := by
        refine Keyed.lookup_ofList_of_notMem ?_
        rw [List.map_map]
        exact hname
      cases hnone.symm.trans hbinding
  · rintro ⟨pair, hpair, hmem⟩
    exact ⟨pair.1.node.name, (finds_iff hnames hpair document).2 hmem⟩

/-- The query that only finds a pattern, when it succeeds, has under every binding the answer to the question of the
query. -/
theorem finding_answers {query : Query} {rules : List Rule} {context : Context} {before seen : Engine} {found : Result}
    (hw : query.graph.WellFormed) (hfilters : query.clause.filters = []) (hregular : before.Regular)
    (h : execute rules context query.finding before = (.ok found, seen)) :
    ∃ kinds, List.Forall₂ (fun node kind =>
        before.cache.kindOf? before.gateway.store.listings node.kind = some kind) query.graph.nodes kinds ∧
      ∀ node ∈ query.graph.nodes, found.binding? node.name =
        some ((query.question rules context kinds before.gateway.store.objects).answer node.id) := by
  obtain ⟨started, targets, planned, told, done, hstart, hplan, htold, hact, -⟩ := execute_eq_ok h
  have hall : ∃ kinds, Planned context query.finding before told kinds targets :=
    planned_spec hw.bindings_nodup hstart hplan htold
  obtain ⟨kinds, hplanned⟩ := hall
  refine ⟨kinds, hplanned.means, fun node hnode => ?_⟩
  obtain ⟨projections, middle, hread, hact⟩ := bind_eq_ok.1 hact
  obtain ⟨-, rfl⟩ := ofExcept_eq_ok.1 hread
  obtain ⟨family, last, hmatched, hact⟩ := bind_eq_ok.1 hact
  obtain ⟨hshown, rfl⟩ := pure_eq_ok.1 hact
  simp only [List.isEmpty_nil, if_true] at hshown
  obtain rfl := hplanned.matched_eq hw.toClosed hregular hmatched
  rw [List.filterMap_some] at hshown
  obtain ⟨target, htarget, rfl⟩ := List.mem_map.1 (hplanned.nodes_eq ▸ hnode : node ∈ targets.map (·.node))
  rw [← hshown, hplanned.binding?_eq hw.bindings_nodup _ _ _ htarget]
  unfold Query.question
  rw [hfilters]
  rfl

end Run

end ClusterQuery
