import ClusterQuery.Proofs.Execution.Conditions

/-!
# Plans that succeed

When the targets of a query can be planned there is one for every node, with the node's kind, and what passes its
search and its predicates is what the node and the filters ask for (`Query.targets_forall₂`). A filter is added to the
one target whose binding it is on, and to the others it says nothing (`Target.Plans.addFilter`,
`Target.Plans.append_of_ne`).
-/

namespace ClusterQuery

/-- A target plans the search for what a node of a kind and filters ask for. -/
structure Target.Plans (context : Context) (filters : List Filter) (subject : Node × Kind) (target : Target) :
    Prop where
  subject_eq : target.subject = subject
  place_eq : target.search.inNamespace =
    if subject.2.namespaced then lastNamespace? subject.1.properties <|> context.scope? else none
  accepts_iff : ∀ document, (target.search.accepts document && target.accepts document) = true ↔
    MeetsConditions filters subject.1 document

/-- One more filter asks for more only where it is on the binding of the node. -/
theorem meetsConditions_append {filters : List Filter} {filter : Filter} {node : Node} {document : Document} :
    MeetsConditions (filters ++ [filter]) node document ↔
      MeetsConditions filters node document ∧
        ∀ path, boundPath? filter.path = some (node.name, path) → filter.accepts path document = true := by
  simp only [MeetsConditions, List.forall_mem_append, List.forall_mem_singleton, and_assoc]

namespace Target

variable {context : Context}

/-- The target of a node plans the search for what the node asks for. -/
theorem plans_of_ofNode {node : Node} {kind : Kind} {search : Search}
    (h : Search.ofNode node kind context = .ok search) : Plans context [] (node, kind) ⟨node, kind, search, []⟩ := by
  obtain ⟨found, hfound, h⟩ := bind_eq_ok.1 h
  cases h
  obtain ⟨hplace, haccepts⟩ := Search.foldlM_addProperty hfound
  refine ⟨rfl, ?_, fun document => ?_⟩
  · rw [hplace]
    cases lastNamespace? node.properties <;> rfl
  · have hdocument := haccepts document
    simp only [Search.accepts_everything, Bool.true_and] at hdocument
    change (found.accepts document && true) = true ↔ _
    rw [Bool.and_true, hdocument]
    simp [MeetsConditions]

/-- The targets of nodes, one for each and in order. -/
theorem ofNodes_forall₂ {nodes : List (Node × Kind)} {targets : List Target}
    (h : ofNodes context nodes = .ok targets) : List.Forall₂ (Plans context []) nodes targets := by
  refine (mapM_eq_ok.1 h).imp fun ⟨node, kind⟩ target ht => ?_
  obtain ⟨search, hsearch, rfl⟩ := map_eq_ok.1 (mapError_eq_ok.1 ht)
  exact plans_of_ofNode hsearch

/-- A target with one more filter is for the same node, looks in the same namespace, and accepts what meets the filter
too. -/
theorem addFilter_accepts {target next : Target} {filter : Filter} {path : FieldPath}
    (h : target.addFilter filter path = .ok next) :
    next.subject = target.subject ∧ next.search.inNamespace = target.search.inNamespace ∧
      ∀ document, (next.search.accepts document && next.accepts document) =
        (target.search.accepts document && target.accepts document && filter.accepts path document) := by
  unfold addFilter at h
  unfold Filter.accepts
  cases hkey : SelectorKey.ofFilter? path with
  | some key =>
    rw [hkey] at h
    obtain ⟨search, hsearch, rfl⟩ := map_eq_ok.1 h
    obtain ⟨hplace, haccepts⟩ := Search.constrain_accepts hsearch
    refine ⟨rfl, hplace, fun document => ?_⟩
    show (search.accepts document && target.accepts document) = _
    rw [haccepts, Bool.and_right_comm]
  | none =>
    rw [hkey] at h
    cases h
    refine ⟨rfl, rfl, fun document => ?_⟩
    simp only [Target.accepts, List.all_append, List.all_cons, List.all_nil, Bool.and_true, Bool.and_assoc]

/-- A filter on the binding of the node becomes part of its plan. -/
theorem Plans.addFilter {filters : List Filter} {subject : Node × Kind} {target next : Target} {filter : Filter}
    {path : FieldPath} (h : Plans context filters subject target)
    (hplace : boundPath? filter.path = some (subject.1.name, path))
    (hadd : target.addFilter filter path = .ok next) : Plans context (filters ++ [filter]) subject next := by
  obtain ⟨hsubject, hwhere, haccepts⟩ := addFilter_accepts hadd
  refine ⟨hsubject.trans h.subject_eq, hwhere.trans h.place_eq, fun document => ?_⟩
  rw [haccepts, Bool.and_eq_true, h.accepts_iff, meetsConditions_append, hplace]
  refine and_congr_right fun _ => ⟨fun hf path' heq => ?_, fun hf => hf path rfl⟩
  cases heq
  exact hf

/-- A filter on another binding changes nothing in a plan. -/
theorem Plans.append_of_ne {filters : List Filter} {subject : Node × Kind} {target : Target} {filter : Filter}
    {binding : String} {path : FieldPath} (h : Plans context filters subject target)
    (hplace : boundPath? filter.path = some (binding, path)) (hne : subject.1.name ≠ binding) :
    Plans context (filters ++ [filter]) subject target := by
  refine ⟨h.subject_eq, h.place_eq, fun document => ?_⟩
  rw [h.accepts_iff, meetsConditions_append, hplace]
  refine ⟨fun hmeets => ⟨hmeets, fun path' heq => ?_⟩, fun hmeets => hmeets.1⟩
  cases heq
  exact absurd rfl hne

/-- One more filter on a binding, added to the targets of nodes with distinct names. -/
theorem addFilterTo_forall₂ {filters : List Filter} {nodes : List (Node × Kind)} {targets next : List Target}
    {filter : Filter} {binding : String} {path : FieldPath} (h : List.Forall₂ (Plans context filters) nodes targets)
    (hnames : (nodes.map (·.1.name)).Nodup) (hplace : boundPath? filter.path = some (binding, path))
    (hadd : addFilterTo binding filter path targets = .ok next) :
    List.Forall₂ (Plans context (filters ++ [filter])) nodes next := by
  induction h generalizing next with
  | nil =>
    cases hadd
    exact List.Forall₂.nil
  | @cons subject target others rest hplans hrest ih =>
    obtain ⟨hfirst, hnames⟩ := List.nodup_cons.1 hnames
    have hname : target.node.name = subject.1.name := by rw [← hplans.subject_eq]; rfl
    unfold addFilterTo at hadd
    split at hadd
    · rename_i heq
      obtain ⟨first, hadded, rfl⟩ := map_eq_ok.1 hadd
      have hbinding : subject.1.name = binding := hname.symm.trans heq
      refine List.Forall₂.cons (hplans.addFilter (hbinding ▸ hplace) hadded) ?_
      -- no other node has the name that the filter is on
      rw [List.forall₂_iff_zip] at hrest ⊢
      refine ⟨hrest.1, fun {other target} hmem => (hrest.2 hmem).append_of_ne hplace fun he => hfirst ?_⟩
      exact List.mem_map.2 ⟨other, (List.of_mem_zip hmem).1, he.trans hbinding.symm⟩
    · rename_i hne
      obtain ⟨tail, hadded, rfl⟩ := map_eq_ok.1 hadd
      exact List.Forall₂.cons (hplans.append_of_ne hplace fun he => hne (hname.trans he)) (ih hnames hadded)

/-- One more filter, added to the targets of nodes with distinct names. -/
theorem filtered_forall₂ {filters : List Filter} {nodes : List (Node × Kind)} {targets next : List Target}
    {filter : Filter} (h : List.Forall₂ (Plans context filters) nodes targets) (hnames : (nodes.map (·.1.name)).Nodup)
    (hfiltered : filtered targets filter = .ok next) :
    List.Forall₂ (Plans context (filters ++ [filter])) nodes next := by
  obtain ⟨path, hpath, hfiltered⟩ := bind_eq_ok.1 hfiltered
  have hplace := boundPath?_eq (mapError_eq_ok.1 hpath)
  split at hfiltered
  · cases hfiltered
  · rename_i binding hhead
    rw [hhead] at hplace
    split at hfiltered
    · cases hfiltered
    · split at hfiltered
      · cases hfiltered
      · exact addFilterTo_forall₂ h hnames hplace (mapError_eq_ok.1 hfiltered)

/-- More filters, added one after another. -/
theorem foldlM_filtered_forall₂ {filters more : List Filter} {nodes : List (Node × Kind)} {targets next : List Target}
    (h : List.Forall₂ (Plans context filters) nodes targets) (hnames : (nodes.map (·.1.name)).Nodup)
    (hfiltered : more.foldlM filtered targets = .ok next) :
    List.Forall₂ (Plans context (filters ++ more)) nodes next := by
  induction more generalizing filters targets with
  | nil =>
    cases hfiltered
    rwa [List.append_nil]
  | cons filter rest ih =>
    rw [List.foldlM_cons] at hfiltered
    obtain ⟨middle, hfirst, hrest⟩ := bind_eq_ok.1 hfiltered
    have hall := ih (filtered_forall₂ h hnames hfirst) hrest
    rwa [List.append_assoc, List.singleton_append] at hall

end Target

/-- The targets of a query plan the search for what its nodes and its filters ask for, one for every node and in
order. -/
theorem Query.targets_forall₂ {query : Query} {context : Context} {kinds : List Kind} {targets : List Target}
    (hnames : query.graph.bindings.Nodup) (hlength : kinds.length = query.graph.nodes.length)
    (h : query.targets context kinds = .ok targets) :
    List.Forall₂ (Target.Plans context query.clause.filters) (query.graph.nodes.zip kinds) targets := by
  obtain ⟨plain, hplain, h⟩ := bind_eq_ok.1 h
  have hmap : (query.graph.nodes.zip kinds).map (·.1.name) = query.graph.bindings := by
    change (query.graph.nodes.zip kinds).map (Node.name ∘ Prod.fst) = _
    rw [← List.map_map, List.map_fst_zip (by omega), Graph.bindings]
  exact Target.foldlM_filtered_forall₂ (Target.ofNodes_forall₂ hplain) (hmap ▸ hnames) h

end ClusterQuery
