import ClusterQuery.Proofs.Execution.Question
import ClusterQuery.Proofs.Query.Pattern

/-!
# What a query finds

A query that finds documents and succeeds has found the answers to its question (`execute_find`): it has changed no
object, asked for one list for every node, and under every binding it shows the objects that take part there, in store
order, cut down to the projections of the binding. The catalog must have every plural name once under a group and
version, and the cache must come from the catalog; otherwise a list may be of another kind than the one resolved.
-/

namespace ClusterQuery

/-- The question of a query over a store's objects, once its nodes have kinds. -/
def Query.question (query : Query) (rules : List Rule) (context : Context) (kinds : List Kind)
    (objects : List Document) : Question :=
  ⟨rules, context, query.graph.nodes.zip kinds, query.graph.edges, query.clause.filters, objects⟩

/-- The call lists objects of a kind. -/
def Call.Lists (kind : Kind) (call : Call) : Prop :=
  ∃ inNamespace fields labels, call = .list kind.coordinate inNamespace fields labels

/-- The paths of the projections on a binding, in order. -/
def projectedPaths (texts : List String) (binding : String) : List FieldPath :=
  texts.filterMap fun text => (boundPath? text).bind fun place => if place.1 = binding then some place.2 else none

/-- The documents of a binding as they are shown: whole when nothing is projected, else cut down to the projections of
the binding, if it has some. -/
def shown? (texts : List String) (binding : String) (documents : List Document) : Option (List Document) :=
  if texts.isEmpty then some documents
  else if (projectedPaths texts binding).isEmpty then none
  else some (documents.map (·.project (projectedPaths texts binding)))

/-! ## Projections -/

/-- Steps that each add the path of a text to its binding leave every binding with its paths in order, after those
that it had. -/
theorem lookup_of_foldlM_add {step : Projections → String → Except ExecutionError Projections}
    (hstep : ∀ start text next, step start text = .ok next →
      ∃ place, boundPath? text = some place ∧ next = start.add place.1 place.2)
    {texts : List String} {binding : String} {start projections : Projections} (paths : List FieldPath)
    (hstart : start.lookup binding = if paths.isEmpty then none else some paths)
    (h : texts.foldlM step start = .ok projections) :
    projections.lookup binding = if (paths ++ projectedPaths texts binding).isEmpty then none
      else some (paths ++ projectedPaths texts binding) := by
  induction texts generalizing start paths with
  | nil =>
    cases h
    simpa [projectedPaths] using hstart
  | cons text rest ih =>
    rw [List.foldlM_cons] at h
    obtain ⟨next, hnext, h⟩ := bind_eq_ok.1 h
    obtain ⟨⟨name, path⟩, hplace, rfl⟩ := hstep _ _ _ hnext
    by_cases heq : binding = name
    · have hpaths : projectedPaths (text :: rest) binding = path :: projectedPaths rest binding := by
        simp [projectedPaths, hplace, heq]
      rw [hpaths, ← List.singleton_append, ← List.append_assoc]
      refine ih (paths ++ [path]) ?_ h
      rw [Projections.add, Keyed.lookup_insert, if_pos heq, ← heq, hstart]
      cases paths <;> simp
    · have hpaths : projectedPaths (text :: rest) binding = projectedPaths rest binding := by
        simp [projectedPaths, hplace, Ne.symm heq]
      rw [hpaths]
      refine ih paths ?_ h
      rw [Projections.add, Keyed.lookup_insert, if_neg heq, hstart]

/-- The projections of a query have the paths of each binding that is projected. -/
theorem lookup_projectionsOf {targets : List Target} {texts : List String} {projections : Projections}
    (h : projectionsOf targets texts = .ok projections) (binding : String) :
    projections.lookup binding =
      if (projectedPaths texts binding).isEmpty then none else some (projectedPaths texts binding) := by
  refine lookup_of_foldlM_add (fun start text next hnext => ?_) [] rfl h
  obtain ⟨path, hpath, hnext⟩ := bind_eq_ok.1 hnext
  split at hnext
  · rename_i name hname
    split at hnext
    · cases hnext
      exact ⟨(name, path.tail), by rw [boundPath?_eq (mapError_eq_ok.1 hpath), hname]; rfl, rfl⟩
    · cases hnext
  · cases hnext

/-! ## From the store to the answers -/

/-- An object passes a search when it is of the kind of the resource, in the namespace of the search unless the
resource is of the whole cluster, and the selectors accept it. -/
theorem Store.passes_eq_true_iff {coordinate : Coordinate} {resource : Resource} {search : Search} {object : Document} :
    passes coordinate resource search object = true ↔
      object.isInstance coordinate.apiVersion resource.kind = true ∧
        (∀ name, search.inNamespace = some name → resource.namespaced = true → object.namespace? = some name) ∧
        search.accepts object = true := by
  rw [passes, Search.accepts, Bool.and_assoc, Bool.and_eq_true, Bool.and_eq_true, and_assoc]
  cases search.inNamespace with
  | none => simp
  | some name =>
    cases resource.namespaced with
    | false => simp
    | true => simp

namespace Run

/-- An object passes the search and the predicates of a planned target when it is asked for. -/
theorem passes_iff {context : Context} {filters : List Filter} {subject : Node × Kind} {target : Target}
    {resource : Resource} (hplans : target.Plans context filters subject) (hkind : resource.kind = subject.2.kind)
    (hnamespaced : resource.namespaced = subject.2.namespaced) (object : Document) :
    (Store.passes target.kind.coordinate resource target.search object && target.accepts object) = true ↔
      Asked context filters subject object := by
  have hsubject : target.kind = subject.2 := congrArg Prod.snd hplans.subject_eq
  have hplace : (∀ name, target.search.inNamespace = some name → resource.namespaced = true →
      object.namespace? = some name) ↔ (subject.2.namespaced = true → ∀ name,
        (lastNamespace? subject.1.properties <|> context.scope?) = some name → object.namespace? = some name) := by
    rw [hplans.place_eq, hnamespaced]
    cases subject.2.namespaced <;> simp
  have hconditions := hplans.accepts_iff object
  simp only [Search.accepts, Bool.and_eq_true] at hconditions
  rw [Bool.and_eq_true, Store.passes_eq_true_iff, Search.accepts, Bool.and_eq_true, Document.isInstance,
    Bool.and_eq_true, beq_iff_eq, beq_iff_eq, hsubject, hkind]
  constructor
  · rintro ⟨⟨⟨hversion, hkind⟩, hnamespace, haccepted⟩, hpredicates⟩
    exact ⟨hversion, hkind, hplace.1 hnamespace, hconditions.1 ⟨haccepted, hpredicates⟩⟩
  · intro h
    obtain ⟨haccepted, hpredicates⟩ := hconditions.2 h.conditions
    exact ⟨⟨⟨h.apiVersion_eq, h.kind_eq⟩, hplace.2 h.namespace_eq, haccepted⟩, hpredicates⟩

/-- The documents that planned targets fetch are the family that the question asks for. -/
theorem fetched_eq_askedFamily {store : Store} {question : Question} (hobjects : question.objects = store.objects)
    (hdistinct : PluralsDistinct store.listings) {targets : List Target} {family : Link.Family}
    (hlisted : ∀ subject ∈ question.subjects, subject.2.Listed store.listings)
    (hplans : List.Forall₂ (Target.Plans question.context question.filters) question.subjects targets)
    (hfetched : List.Forall₂ (Fetches store) targets family) : family = askedFamily question := by
  classical
  have general : ∀ {subjects : List (Node × Kind)} {targets : List Target} {family : Link.Family},
      (∀ subject ∈ subjects, subject.2.Listed store.listings) →
      List.Forall₂ (Target.Plans question.context question.filters) subjects targets →
      List.Forall₂ (Fetches store) targets family → family = subjects.map fun subject =>
        question.objects.filter fun object => Asked question.context question.filters subject object := by
    intro subjects targets family hlisted hplans hfetched
    induction hplans generalizing family with
    | nil =>
      cases hfetched
      rfl
    | @cons subject target others rest hplan _ ih =>
      obtain ⟨documents, tail, ⟨resource, hresource, rfl⟩, htail, rfl⟩ := List.forall₂_cons_left_iff.1 hfetched
      obtain ⟨hfirst, hlisted⟩ := List.forall_mem_cons.1 hlisted
      obtain ⟨found, hfound, hkind, hnamespaced⟩ := hfirst.resourceAt?_eq hdistinct
      rw [show target.kind = subject.2 from congrArg Prod.snd hplan.subject_eq, hfound] at hresource
      cases hresource
      rw [List.map_cons, ih hlisted htail, hobjects]
      congr 1
      refine List.filter_congr fun object _ => ?_
      rw [Bool.eq_iff_iff, passes_iff hplan hkind hnamespaced, decide_eq_true_eq]
  exact general hlisted hplans hfetched

/-- Planned targets are for the nodes that they are planned for. -/
theorem subjects_eq {context : Context} {filters : List Filter} {subjects : List (Node × Kind)} {targets : List Target}
    (h : List.Forall₂ (Target.Plans context filters) subjects targets) : targets.map Target.subject = subjects := by
  induction h with
  | nil => rfl
  | cons hplan _ ih => rw [List.map_cons, hplan.subject_eq, ih]

/-- The documents that are shown, by binding. -/
theorem bindingsOf_shown {targets : List Target} {texts : List String} {projections : Projections}
    (h : projectionsOf targets texts = .ok projections) (answer : Target → List Document) :
    bindingsOf ((targets.map fun target => (target, answer target)).filterMap fun (target, documents) =>
        if texts.isEmpty then some (target, documents)
        else (projections.lookup target.node.name).map fun paths => (target, documents.map (·.project paths))) =
      Keyed.ofList (targets.filterMap fun target =>
        (shown? texts target.node.name (answer target)).map (target.node.name, ·)) := by
  rw [bindingsOf, List.filterMap_map, List.map_filterMap]
  congr 1
  refine List.filterMap_congr fun target _ => ?_
  simp only [Function.comp_apply, lookup_projectionsOf h, shown?]
  split
  · rfl
  · split <;> rfl

section Finding

variable {graph : Graph} {question : Question} {targets : List Target} {engine after : Engine}

variable (hc : graph.Closed) (hnodes : targets.map (·.node) = graph.nodes) (hedges : graph.edges = question.edges)
  (hobjects : question.objects = engine.gateway.store.objects)
  (hdistinct : PluralsDistinct engine.gateway.store.listings)
  (hlisted : ∀ subject ∈ question.subjects, subject.2.Listed engine.gateway.store.listings)
  (hplans : List.Forall₂ (Target.Plans question.context question.filters) question.subjects targets)

include hc hnodes hedges hobjects hdistinct hlisted hplans

/-- The documents that a run matches are the answers at every node, for one list call each. -/
theorem matched_spec {context : Context} {family : Link.Family}
    (h : matched question.rules context graph targets engine = (.ok family, after)) :
    engine.Answered after (targets.map listCall) ∧
      family = question.subjects.map fun subject => question.answer subject.1.id := by
  obtain ⟨links, middle, hread, h⟩ := bind_eq_ok.1 h
  obtain ⟨hlinks, rfl⟩ := ofExcept_eq_ok.1 hread
  obtain ⟨fetched, last, hfetch, h⟩ := bind_eq_ok.1 h
  obtain ⟨hanswered, hfetched⟩ := fetch_spec hfetch
  obtain rfl := fetched_eq_askedFamily hobjects hdistinct hlisted hplans hfetched
  cases hkept : Link.narrowAll links (askedFamily question) with
  | none =>
    rw [hkept] at h
    cases h
  | some kept =>
    rw [hkept] at h
    obtain ⟨rfl, rfl⟩ := pure_eq_ok.1 h
    exact ⟨hanswered, narrowAll_eq_answers hc hnodes (subjects_eq hplans) hedges hlinks hkept⟩

/-- What a run finds under the binding of a node is the answer there, as the projections show it. -/
theorem find_spec (hnames : graph.bindings.Nodup) {context : Context} {texts : List String} {result : Result}
    (h : find question.rules context graph targets texts engine = (.ok result, after)) :
    engine.Answered after (targets.map listCall) ∧
      ∀ node ∈ graph.nodes, result.binding? node.name = shown? texts node.name (question.answer node.id) := by
  obtain ⟨projections, middle, hread, h⟩ := bind_eq_ok.1 h
  obtain ⟨hprojections, rfl⟩ := ofExcept_eq_ok.1 hread
  obtain ⟨family, last, hmatched, h⟩ := bind_eq_ok.1 h
  obtain ⟨rfl, rfl⟩ := pure_eq_ok.1 h
  obtain ⟨hanswered, rfl⟩ := matched_spec hc hnodes hedges hobjects hdistinct hlisted hplans hmatched
  refine ⟨hanswered, fun node hnode => ?_⟩
  rw [← hnodes] at hnode
  obtain ⟨target, htarget, rfl⟩ := List.mem_map.1 hnode
  have hzip : targets.zip (question.subjects.map fun subject => question.answer subject.1.id) =
      targets.map fun target => (target, question.answer target.node.id) := by
    rw [← subjects_eq hplans, List.map_map]
    have hall := List.zip_map' (f := id) (g := fun target : Target => question.answer target.node.id) (l := targets)
    rwa [List.map_id] at hall
  have hbindings : (targets.map (·.node.name)).Nodup := names_eq hnodes ▸ hnames
  rw [Result.binding?]
  dsimp only
  rw [hzip, bindingsOf_shown hprojections, Keyed.lookup_ofList_filterMap hbindings htarget]

end Finding

/-- Whenever a query that finds documents succeeds, over a catalog that has each plural name once under a group and
version and with a cache that comes from the catalog: the objects are as before, the store has answered discovery and
then one list call for every node, in order and of the kind that its identifier means, and under the binding of every
node stand the stored objects that take part there, in store order, as the projections show them. -/
theorem execute_find {text : String} {query : Query} {filters : List Filter} {projections : List String}
    {rules : List Rule} {context : Context} {before after : Engine} {result : Result}
    (hparse : Query.parse text = .ok query) (hclause : query.clause = .find filters projections)
    (hdistinct : PluralsDistinct before.gateway.store.listings)
    (hreached : before.cache.Reached before.gateway.store.listings)
    (h : execute rules context query before = (.ok result, after)) :
    after.gateway.store.objects = before.gateway.store.objects ∧
      ∃ kinds discoveries lists,
        List.Forall₂ (fun node kind =>
          before.cache.kindOf? before.gateway.store.listings node.kind = some kind) query.graph.nodes kinds ∧
        after.gateway.store.calls = before.gateway.store.calls ++ discoveries ++ lists ∧
        (∀ call ∈ discoveries, call = .discover) ∧ List.Forall₂ Call.Lists kinds lists ∧
        ∀ node ∈ query.graph.nodes, result.binding? node.name =
          shown? projections node.name
            ((query.question rules context kinds before.gateway.store.objects).answer node.id) := by
  have hw := Query.parse_wellFormed hparse
  -- the run, step by step: trace, plan, trace, find, trace
  obtain ⟨_, started, hstart, h⟩ := bind_eq_ok.1 h
  obtain ⟨targets, planned, hplan, h⟩ := bind_eq_ok.1 h
  obtain ⟨_, told, htold, h⟩ := bind_eq_ok.1 h
  obtain ⟨found, done, hact, h⟩ := bind_eq_ok.1 h
  obtain ⟨_, last, hlast, h⟩ := bind_eq_ok.1 h
  obtain ⟨rfl, rfl⟩ := pure_eq_ok.1 h
  have htraced := traced_of_trace hstart
  obtain ⟨hresolving, kinds, htargets, hkinds⟩ := plan_spec hplan
  obtain ⟨discoveries, hdiscovered, hdiscoveries⟩ :=
    ((htraced.resolving.trans hresolving).trans (traced_of_forM_trace htold).resolving).answered
  rw [htraced.cache_eq, htraced.gateway_eq] at hkinds
  -- what the plan and the catalog say
  have hlength := hkinds.length_eq
  have hplans := Query.targets_forall₂ hw.bindings_nodup hlength.symm htargets
  have hnodes : targets.map (·.node) = query.graph.nodes := by
    have hfst := congrArg (List.map Prod.fst) (subjects_eq hplans)
    rwa [List.map_map, List.map_fst_zip (Nat.le_of_eq hlength)] at hfst
  have hkindsOf : targets.map (·.kind) = kinds := by
    have hsnd := congrArg (List.map Prod.snd) (subjects_eq hplans)
    rwa [List.map_map, List.map_snd_zip (Nat.le_of_eq hlength.symm)] at hsnd
  have hlisted : ∀ subject ∈ query.graph.nodes.zip kinds, subject.2.Listed told.gateway.store.listings := by
    intro subject hmem
    rw [hdiscovered.listings_eq]
    exact hreached.listed (List.forall₂_zip hkinds hmem)
  -- what is found
  unfold act at hact
  rw [hclause] at hact
  let question := query.question rules context kinds before.gateway.store.objects
  have hobjects : question.objects = told.gateway.store.objects := hdiscovered.objects_eq.symm
  obtain ⟨hlisting, hshown⟩ := find_spec hw.toClosed hnodes rfl hobjects (hdiscovered.listings_eq ▸ hdistinct) hlisted
    hplans hw.bindings_nodup hact
  have hall := (hdiscovered.trans hlisting).traced (traced_of_trace hlast)
  refine ⟨hall.objects_eq, kinds, discoveries, targets.map listCall, hkinds, ?_, hdiscoveries, ?_, hshown⟩
  · rw [hall.calls_eq, List.append_assoc]
  · rw [← hkindsOf, List.forall₂_map_left_iff, List.forall₂_map_right_iff, List.forall₂_same]
    exact fun target _ => ⟨_, _, _, rfl⟩

/-! ## A sample: the pods of a replica set -/

namespace Sample

/-- Two replica sets with a pod each. -/
def cluster : Engine :=
  Engine.ofStore (Store.ofObjects standardListings
    [Link.Sample.strayedSet, Link.Sample.ownedSet, Link.Sample.ownedPod, Link.Sample.strayedPod])

def podsOfSetText : String :=
  "MATCH (r:ReplicaSet)-[:OWNS]->(p:Pod) WHERE r.metadata.name = \"web-1\" RETURN p.metadata.name"

/-- The names of the pods of one replica set. -/
def podsOfSet : Query :=
  ⟨⟨[Node.ofBinding "r" "ReplicaSet" [], Node.ofBinding "p" "Pod" []], [⟨"ReplicaSet/r", "Pod/p", "OWNS"⟩]⟩,
    .find [⟨"r.metadata.name", .equal, .string "web-1"⟩] ["p.metadata.name"]⟩

end Sample

/-- Of the two pods the one of the replica set asked for is found, and shown by its name. -/
theorem execute_find_podsOfSet :
    Query.parse Sample.podsOfSetText = .ok Sample.podsOfSet ∧ PluralsDistinct standardListings ∧
      Cache.empty.Reached standardListings ∧
      ∃ result after kinds,
        execute Rule.standard ⟨"default", false⟩ Sample.podsOfSet Sample.cluster = (.ok result, after) ∧
        result.binding? "p" = shown? ["p.metadata.name"] "p"
          ((Sample.podsOfSet.question Rule.standard ⟨"default", false⟩ kinds
            Sample.cluster.gateway.store.objects).answer "Pod/p") ∧
        (result.binding? "p").map (·.map Document.name?) = some [some "web-1-a"] := by
  have hparse : Query.parse Sample.podsOfSetText = .ok Sample.podsOfSet := by decide +kernel
  have hnames : (execute Rule.standard ⟨"default", false⟩ Sample.podsOfSet Sample.cluster).1.toOption.map
      (fun result => (result.binding? "p").map (·.map Document.name?)) = some (some [some "web-1-a"]) := by
    decide +kernel
  cases hrun : execute Rule.standard ⟨"default", false⟩ Sample.podsOfSet Sample.cluster with
  | mk answer after =>
    rw [hrun] at hnames
    cases answer with
    | error cause => cases hnames
    | ok result =>
      obtain ⟨-, kinds, -, -, -, -, -, -, hshown⟩ := execute_find hparse rfl pluralsDistinct_standardListings
        Cache.Reached.empty hrun
      refine ⟨hparse, pluralsDistinct_standardListings, Cache.Reached.empty, result, after, kinds, rfl, ?_,
        Option.some.inj hnames⟩
      exact hshown (Node.ofBinding "p" "Pod" []) (by decide)

end Run

end ClusterQuery
