import ClusterQuery.Proofs.Execution.Planning
import ClusterQuery.Proofs.Execution.Refusing

/-!
# Where filters go

A filter goes to the first target of its binding, also where several nodes have one name. So the targets of any query
are known by their positions (`Query.targets_placed`). Whether a filter has a place depends on the names of the targets
only, so all filters have one, or not, in every order (`Target.exists_foldlM_filtered_iff`).
-/

namespace ClusterQuery

/-- The document meets the filter, if the filter is on the binding that stands at the position first. -/
def Filter.MetAt (names : List String) (position : Nat) (filter : Filter) (document : Document) : Prop :=
  ∀ binding path, boundPath? filter.path = some (binding, path) → names.findIdx? (· == binding) = some position →
    filter.accepts path document = true

/-- The filter has a binding and a path below it, and a search takes its condition if it belongs to one. -/
def Filter.HasPlace (names : List String) (filter : Filter) : Prop :=
  ∃ path binding, FieldPath.parse filter.path = .ok path ∧ path.head? = some binding ∧ binding ∈ names ∧
    path.tail.isEmpty = false ∧ ∀ key, SelectorKey.ofFilter? path.tail = some key →
      ∃ search, Search.everything.constrain key filter.comparison filter.value.selectorText = .ok search

/-- At a position a target plans the search for what a node of a kind and the filters that go there ask for. -/
structure Target.PlacedAt (context : Context) (names : List String) (filters : List Filter) (position : Nat)
    (subject : Node × Kind) (target : Target) : Prop where
  subject_eq : target.subject = subject
  place_eq : target.search.inNamespace =
    if subject.2.namespaced then lastNamespace? subject.1.properties <|> context.scope? else none
  accepts_iff : ∀ document, (target.search.accepts document && target.accepts document) = true ↔
    (∀ property ∈ subject.1.properties, property.accepts document = true) ∧
      ∀ filter ∈ filters, filter.MetAt names position document

namespace Target

/-- Targets plan what nodes of kinds and filters ask for, position by position. -/
structure Placed (context : Context) (filters : List Filter) (subjects : List (Node × Kind)) (targets : List Target) :
    Prop where
  length_eq : targets.length = subjects.length
  at_position : ∀ (position : Nat) (subject : Node × Kind) (target : Target), subjects[position]? = some subject →
    targets[position]? = some target → target.PlacedAt context (subjects.map (·.1.name)) filters position subject

variable {context : Context} {filters : List Filter} {subjects : List (Node × Kind)} {targets next : List Target}

theorem Placed.subjects_eq (h : Placed context filters subjects targets) : targets.map Target.subject = subjects := by
  refine List.ext_getElem (by simp [h.length_eq]) fun position htargets hsubjects => ?_
  rw [List.getElem_map]
  exact (h.at_position position _ _ (List.getElem?_eq_getElem hsubjects)
    (List.getElem?_eq_getElem (by simpa using htargets))).subject_eq

theorem Placed.names_eq (h : Placed context filters subjects targets) :
    targets.map (·.node.name) = subjects.map (·.1.name) := by
  rw [← h.subjects_eq, List.map_map]
  rfl

/-! ## One filter -/

/-- A filter on a binding goes to the first target of that name. -/
theorem addFilterTo_eq {binding : String} (filter : Filter) (path : FieldPath) (h : binds targets binding = true) :
    ∃ position target, (targets.map (·.node.name)).findIdx? (· == binding) = some position ∧
      targets[position]? = some target ∧
      addFilterTo binding filter path targets = (target.addFilter filter path).map (targets.set position ·) := by
  induction targets with
  | nil => cases h
  | cons first rest ih =>
    rw [addFilterTo, List.map_cons, List.findIdx?_cons]
    by_cases hname : first.node.name = binding
    · refine ⟨0, first, by simp [hname], rfl, ?_⟩
      rw [if_pos hname]
      rfl
    · have hrest : binds rest binding = true := by
        simpa [binds, hname] using h
      obtain ⟨position, target, hposition, htarget, heq⟩ := ih hrest
      refine ⟨position + 1, target, by simp [hname, hposition], htarget, ?_⟩
      rw [if_neg hname, heq]
      cases target.addFilter filter path <;> rfl

/-- A filter is added when it can be read, is on a binding of the targets and on something below it, and the first
target of the binding takes it. -/
theorem filtered_eq_ok_iff {filter : Filter} : filtered targets filter = .ok next ↔
    ∃ path binding, FieldPath.parse filter.path = .ok path ∧ path.head? = some binding ∧
      binds targets binding = true ∧ path.tail.isEmpty = false ∧
      addFilterTo binding filter path.tail targets = .ok next := by
  unfold filtered
  rw [bind_eq_ok]
  refine ⟨fun ⟨path, hpath, h⟩ => ?_, fun ⟨path, binding, hpath, hhead, hbinds, htail, hadd⟩ => ?_⟩
  · split at h
    · cases h
    · rename_i binding hhead
      split at h
      · cases h
      · rename_i hbinds
        split at h
        · cases h
        · rename_i htail
          exact ⟨path, binding, mapError_eq_ok.1 hpath, hhead, by simpa using hbinds, by simpa using htail,
            mapError_eq_ok.1 h⟩
  · refine ⟨path, mapError_eq_ok.2 hpath, ?_⟩
    simp only [hhead, hbinds, htail, Bool.not_true, Bool.false_eq_true, if_false]
    exact mapError_eq_ok.2 hadd

/-- One more filter goes to its place and leaves the other targets as they are. -/
theorem Placed.filtered {filter : Filter} (h : Placed context filters subjects targets)
    (hfiltered : filtered targets filter = .ok next) : Placed context (filters ++ [filter]) subjects next := by
  obtain ⟨path, binding, hpath, hhead, hbinds, -, hadd⟩ := filtered_eq_ok_iff.1 hfiltered
  have hbound : boundPath? filter.path = some (binding, path.tail) := by rw [boundPath?_eq hpath, hhead]; rfl
  obtain ⟨place, target, hplace, htarget, heq⟩ := addFilterTo_eq filter path.tail hbinds
  rw [h.names_eq] at hplace
  rw [heq] at hadd
  obtain ⟨changed, hchanged, rfl⟩ := map_eq_ok.1 hadd
  refine ⟨by rw [List.length_set, h.length_eq], fun position subject other hsubject hother => ?_⟩
  rw [List.getElem?_set] at hother
  by_cases hsame : place = position
  · subst hsame
    have hlt : place < targets.length := (List.getElem?_eq_some_iff.1 htarget).1
    rw [if_pos rfl, if_pos hlt] at hother
    cases hother
    have hbefore := h.at_position place subject target hsubject htarget
    obtain ⟨hkept, hwhere, haccepts⟩ := addFilter_accepts hchanged
    refine ⟨hkept.trans hbefore.subject_eq, hwhere.trans hbefore.place_eq, fun document => ?_⟩
    rw [haccepts, Bool.and_eq_true, hbefore.accepts_iff, List.forall_mem_append, List.forall_mem_singleton, and_assoc]
    refine and_congr_right fun _ => and_congr_right fun _ => ⟨fun hf binding' path' hbound' _ => ?_, fun hf => ?_⟩
    · rw [hbound] at hbound'
      cases hbound'
      exact hf
    · exact hf binding path.tail hbound hplace
  · rw [if_neg hsame] at hother
    have hbefore := h.at_position position subject other hsubject hother
    refine ⟨hbefore.subject_eq, hbefore.place_eq, fun document => ?_⟩
    rw [hbefore.accepts_iff, List.forall_mem_append, List.forall_mem_singleton]
    refine and_congr_right fun _ => ⟨fun hall => ⟨hall, fun binding' path' hbound' hposition => ?_⟩, fun hall => hall.1⟩
    -- the filter is on another position
    rw [hbound] at hbound'
    cases hbound'
    exact absurd (Option.some.inj (hplace.symm.trans hposition)) hsame

/-- The targets of nodes plan what the nodes ask for. -/
theorem placed_ofNodes (h : ofNodes context subjects = .ok targets) : Placed context [] subjects targets := by
  have hall := ofNodes_forall₂ h
  refine ⟨hall.length_eq.symm, fun position subject target hsubject htarget => ?_⟩
  obtain ⟨hsubjects, rfl⟩ := List.getElem?_eq_some_iff.1 hsubject
  obtain ⟨htargets, rfl⟩ := List.getElem?_eq_some_iff.1 htarget
  have hplans := (List.forall₂_iff_get.1 hall).2 position hsubjects htargets
  refine ⟨hplans.subject_eq, hplans.place_eq, fun document => ?_⟩
  have hdocument := hplans.accepts_iff document
  simp only [MeetsConditions, List.not_mem_nil, false_implies, implies_true, and_true] at hdocument ⊢
  exact hdocument

/-- More filters go to their places one after another. -/
theorem Placed.foldlM_filtered {more : List Filter} (h : Placed context filters subjects targets)
    (hfiltered : more.foldlM Target.filtered targets = .ok next) :
    Placed context (filters ++ more) subjects next := by
  induction more generalizing filters targets with
  | nil =>
    cases hfiltered
    rwa [List.append_nil]
  | cons filter rest ih =>
    rw [List.foldlM_cons] at hfiltered
    obtain ⟨middle, hfirst, hrest⟩ := bind_eq_ok.1 hfiltered
    have hall := ih (h.filtered hfirst) hrest
    rwa [List.append_assoc, List.singleton_append] at hall

/-! ## Filters that have a place -/

/-- A condition is taken by every search or by none. -/
theorem exists_constrain_iff (search other : Search) (key : SelectorKey) (comparison : Comparison) (value : String) :
    (∃ found, search.constrain key comparison value = .ok found) ↔
      ∃ found, other.constrain key comparison value = .ok found := by
  cases key with
  | label key =>
    simp only [Search.constrain, Selector.addLabel]
    split
    · simp [Except.map]
    · split <;> simp [Except.map]
  | field key =>
    simp only [Search.constrain, Selector.addField]
    split <;> simp [Except.map]

/-- A target takes a filter when its condition belongs to no search or can be taken by one. -/
theorem exists_addFilter_iff (target : Target) (filter : Filter) (path : FieldPath) :
    (∃ changed, target.addFilter filter path = .ok changed) ↔ ∀ key, SelectorKey.ofFilter? path = some key →
      ∃ search, Search.everything.constrain key filter.comparison filter.value.selectorText = .ok search := by
  unfold addFilter
  cases SelectorKey.ofFilter? path with
  | none => exact ⟨fun _ => nofun, fun _ => ⟨_, rfl⟩⟩
  | some key =>
    simp only [map_eq_ok, Option.some.injEq, forall_eq']
    rw [← exists_constrain_iff target.search]
    exact ⟨fun ⟨_, search, hsearch, _⟩ => ⟨search, hsearch⟩, fun ⟨search, hsearch⟩ => ⟨_, search, hsearch, rfl⟩⟩

/-- Whether a filter is added depends on the names of the targets only. -/
theorem exists_filtered_iff {filter : Filter} :
    (∃ next, filtered targets filter = .ok next) ↔ filter.HasPlace (targets.map (·.node.name)) := by
  have hadds : ∀ {path : FieldPath} {binding : String}, binds targets binding = true →
      ((∃ next, addFilterTo binding filter path targets = .ok next) ↔ ∀ key, SelectorKey.ofFilter? path = some key →
        ∃ search, Search.everything.constrain key filter.comparison filter.value.selectorText = .ok search) := by
    intro path binding hbinds
    obtain ⟨place, target, -, -, heq⟩ := addFilterTo_eq filter path hbinds
    rw [heq, ← exists_addFilter_iff target]
    simp only [map_eq_ok]
    exact ⟨fun ⟨_, changed, hchanged, _⟩ => ⟨changed, hchanged⟩, fun ⟨changed, hchanged⟩ => ⟨_, changed, hchanged, rfl⟩⟩
  have hnames : ∀ binding, binds targets binding = true ↔ binding ∈ targets.map (·.node.name) := by
    intro binding
    simp only [binds, List.any_eq_true, beq_iff_eq, List.mem_map]
  simp only [filtered_eq_ok_iff, Filter.HasPlace]
  constructor
  · rintro ⟨next, path, binding, hpath, hhead, hbinds, htail, hadd⟩
    exact ⟨path, binding, hpath, hhead, (hnames binding).1 hbinds, htail, (hadds hbinds).1 ⟨next, hadd⟩⟩
  · rintro ⟨path, binding, hpath, hhead, hmem, htail, hkey⟩
    obtain ⟨next, hadd⟩ := (hadds ((hnames binding).2 hmem)).2 hkey
    exact ⟨next, path, binding, hpath, hhead, (hnames binding).2 hmem, htail, hadd⟩

/-- Filters are added one after another when each has a place. -/
theorem exists_foldlM_filtered_iff :
    (∃ next, filters.foldlM Target.filtered targets = .ok next) ↔
      ∀ filter ∈ filters, filter.HasPlace (targets.map (·.node.name)) := by
  induction filters generalizing targets with
  | nil => exact ⟨fun _ => nofun, fun _ => ⟨targets, rfl⟩⟩
  | cons filter rest ih =>
    rw [List.forall_mem_cons, ← exists_filtered_iff]
    have hsame : ∀ {middle : List Target}, Target.filtered targets filter = .ok middle →
        middle.map (·.node.name) = targets.map (·.node.name) := by
      intro middle hmiddle
      have hnodes := congrArg (List.map Node.name) (map_node_filtered hmiddle)
      rwa [List.map_map, List.map_map] at hnodes
    simp only [List.foldlM_cons, bind_eq_ok]
    constructor
    · rintro ⟨next, middle, hmiddle, hrest⟩
      exact ⟨⟨middle, hmiddle⟩, hsame hmiddle ▸ ih.1 ⟨next, hrest⟩⟩
    · rintro ⟨⟨middle, hmiddle⟩, hrest⟩
      obtain ⟨next, hnext⟩ := ih.2 ((hsame hmiddle).symm ▸ hrest)
      exact ⟨next, middle, hmiddle, hnext⟩

end Target

/-- The targets of a query plan what its nodes and its filters ask for, position by position. -/
theorem Query.targets_placed {query : Query} {context : Context} {kinds : List Kind} {targets : List Target}
    (h : query.targets context kinds = .ok targets) :
    Target.Placed context query.clause.filters (query.graph.nodes.zip kinds) targets := by
  obtain ⟨plain, hplain, h⟩ := bind_eq_ok.1 h
  exact (Target.placed_ofNodes hplain).foldlM_filtered h

/-- The targets of a query are for its nodes, in order. -/
theorem Query.map_node_targets {query : Query} {context : Context} {kinds : List Kind} {targets : List Target}
    (hlength : query.graph.nodes.length = kinds.length) (h : query.targets context kinds = .ok targets) :
    targets.map (·.node) = query.graph.nodes := by
  have hfst := congrArg (List.map Prod.fst) (targets_placed h).subjects_eq
  rwa [List.map_map, List.map_fst_zip (Nat.le_of_eq hlength)] at hfst

/-- A planned target has the kind that the identifier of its node means. -/
theorem Run.kindOf?_of_plan {query : Query} {context : Context} {targets : List Target} {before planned : Engine}
    (h : plan query context before = (.ok targets, planned)) : ∀ target ∈ targets,
      before.cache.kindOf? before.gateway.store.listings target.node.kind = some target.kind := by
  obtain ⟨-, kinds, htargets, hmeans⟩ := plan_spec h
  intro target htarget
  have hmem : target.subject ∈ query.graph.nodes.zip kinds :=
    (Query.targets_placed htargets).subjects_eq ▸ List.mem_map_of_mem htarget
  exact List.forall₂_zip hmeans hmem

end ClusterQuery
