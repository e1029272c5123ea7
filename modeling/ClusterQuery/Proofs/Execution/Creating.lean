import ClusterQuery.Proofs.Execution.Answering
import ClusterQuery.Proofs.Execution.Describing
import ClusterQuery.Proofs.Store.Inserting

/-!
# What a query creates is found

A query that creates stores one document for each node of its pattern, after the objects that were there
(`Run.create_spec`). Where the places that the properties of each node speak of are apart, such a document is one that
the node asks for (`Run.Made.asked`), so the query that only finds the pattern then has it under the same binding
(`Run.execute_create_found`).
-/

namespace ClusterQuery

/-- Without edges, the stored objects that a node asks for are its answer. -/
theorem Question.mem_answer_of_edges_eq_nil {question : Question} (h : question.edges = []) {id : String}
    {object : Document} : object ∈ question.answer id ↔ object ∈ question.objects ∧
      ∃ subject ∈ question.subjects, subject.1.id = id ∧ Asked question.context question.filters subject object := by
  classical
  rw [answer, List.mem_filter, decide_eq_true_eq]
  refine and_congr_right fun hobject => ?_
  constructor
  · rintro ⟨sets, hsets, hmem⟩
    exact hsets.asked id object hmem
  · intro hasked
    -- all that is stored and asked for sustains itself, as there is no edge
    let sets : String → Document → Prop := fun id object => object ∈ question.objects ∧
      ∃ subject ∈ question.subjects, subject.1.id = id ∧ Asked question.context question.filters subject object
    refine ⟨sets, ⟨fun _ _ h => h.1, fun _ _ h => h.2, fun edge hedge => ?_⟩, hobject, hasked⟩
    rw [h] at hedge
    exact absurd hedge List.not_mem_nil

/-- The place that a property speaks of is apart from the namespace. -/
theorem Node.Apart.not_comparable_namespace {node : Node} (h : node.Apart) {property : Property}
    (hproperty : property ∈ node.properties) {place : List String} (hplace : property.place? = some place) :
    ¬Comparable place ["metadata", "namespace"] := by
  unfold Property.place? at hplace
  split at hplace
  · cases hplace
    decide
  · split at hplace
    · cases hplace
    · split at hplace
      · cases hplace
        simp [Comparable]
      · rename_i key hkey
        have hfield : property.field? = some place := by rw [Property.field?, hkey]; exact hplace
        exact h.fields property hproperty place hfield _ (by decide)

/-- What a store makes of a document that describes a target describes the target. -/
theorem Target.Describes.completed {target : Target} {listings : List Listing} {coordinate : Coordinate}
    {inNamespace : Option String} {document stored : Document} (h : target.Describes document)
    (hapart : target.node.Apart) (hstored : Store.Completes listings coordinate inNamespace document stored) :
    target.Describes stored := by
  refine ⟨?_, ?_, fun property hproperty hnamespace => ?_⟩
  · exact hstored.at?_eq_some h.apiVersion_eq (by decide)
  · exact hstored.at?_eq_some h.kind_eq (by decide)
  · obtain ⟨place, hplace, hwritten⟩ := h.written property hproperty hnamespace
    exact ⟨place, hplace, hstored.at?_eq_some hwritten (hapart.not_comparable_namespace hproperty hplace)⟩

namespace Run

variable {engine after : Engine}

/-- The document is what a store of the catalog makes of the new document of a target. -/
def Made (listings : List Listing) (target : Target) (document : Document) : Prop :=
  ∃ described, target.newDocument = .ok described ∧
    Store.Completes listings target.kind.coordinate target.newNamespace described document

/-- What is made for a target of a kind with namespaces is in the last namespace of the node, or else that of the
context, or else the default one. -/
theorem Made.namespace?_eq {listings : List Listing} {target : Target} {document : Document}
    (h : Made listings target document) {context : Context} {filters : List Filter} {subject : Node × Kind}
    (hplans : Target.Plans context filters subject target) (hdistinct : PluralsDistinct listings)
    (hlisted : target.kind.Listed listings) (hnamespaced : target.kind.namespaced = true) :
    document.namespace? =
      some ((lastNamespace? target.node.properties <|> context.scope?).getD Target.defaultNamespace) := by
  obtain ⟨described, -, hcompletes⟩ := h
  obtain ⟨resource, hresource, -, hsame⟩ := hlisted.resourceAt?_eq hdistinct
  refine hcompletes.namespace?_eq hresource (hsame.trans hnamespaced) ?_
  have hplace := hplans.place_eq
  obtain rfl := hplans.subject_eq
  have hkind : target.subject.2.namespaced = true := hnamespaced
  rw [if_pos hkind] at hplace
  rw [Target.newNamespace, if_pos hnamespaced, hplace]
  rfl

/-- What is made for a target whose places are apart is what its node asks for. -/
theorem Made.asked {listings : List Listing} {context : Context} {subject : Node × Kind} {target : Target}
    {document : Document} (h : Made listings target document) (hapart : target.node.Apart)
    (hplans : Target.Plans context [] subject target) (hdistinct : PluralsDistinct listings)
    (hlisted : target.kind.Listed listings) : Asked context [] subject document := by
  have ⟨described, hdescribed, hcompletes⟩ := h
  have hdescribes := (Target.describes_newDocument hapart hdescribed).completed hapart hcompletes
  obtain rfl := hplans.subject_eq
  refine ⟨?_, ?_, fun hnamespaced name hname => ?_, hdescribes.accepts⟩
  · rw [Document.stringAt?, hdescribes.apiVersion_eq]
    rfl
  · rw [Document.stringAt?, hdescribes.kind_eq]
    rfl
  · have hplace := h.namespace?_eq hplans hdistinct hlisted hnamespaced
    rwa [show (lastNamespace? target.node.properties <|> context.scope?) = some name from hname] at hplace

/-! ## The run -/

/-- Steps that each store the document of a target put the documents after the objects that were there, and under the
bindings of the targets where these are distinct and new. -/
theorem foldlM_storeNew {targets : List Target} {bindings start : Bindings}
    (hnames : (targets.map (·.node.name)).Nodup)
    (hnew : ∀ target ∈ targets, start.lookup target.node.name = none)
    (h : targets.foldlM storeNew start engine = (.ok bindings, after)) :
    ∃ documents, List.Forall₂ (Made engine.gateway.store.listings) targets documents ∧
      bindings = ((targets.zip documents).map fun entry => (entry.1.node.name, [entry.2])).foldl
        (fun sorted pair => Keyed.insert pair.1 pair.2 sorted) start ∧
      after.gateway.store.listings = engine.gateway.store.listings ∧
      after.gateway.store.objects = engine.gateway.store.objects ++ documents := by
  induction targets generalizing engine start with
  | nil =>
    obtain ⟨rfl, rfl⟩ := pure_eq_ok.1 h
    exact ⟨[], List.Forall₂.nil, rfl, rfl, (List.append_nil _).symm⟩
  | cons target rest ih =>
    obtain ⟨hfirst, hrest⟩ := List.nodup_cons.1 hnames
    obtain ⟨hfree, hnew⟩ := List.forall_mem_cons.1 hnew
    rw [List.foldlM_cons] at h
    obtain ⟨next, middle, hstep, h⟩ := bind_eq_ok.1 h
    obtain ⟨described, told, hread, hstep⟩ := bind_eq_ok.1 hstep
    obtain ⟨hdescribed, rfl⟩ := ofExcept_eq_ok.1 hread
    obtain ⟨stored, last, hcall, hstep⟩ := bind_eq_ok.1 hstep
    obtain ⟨rfl, rfl⟩ := pure_eq_ok.1 hstep
    obtain ⟨gateway, hcreate, rfl⟩ := call_eq_ok.1 hcall
    obtain ⟨hcompletes, hlistings, hobjects⟩ := Store.create_eq_ok (Gateway.guarded_eq_ok hcreate)
    rw [hfree, Option.getD_none, List.nil_append] at h
    have hstill : ∀ other ∈ rest,
        (Keyed.insert target.node.name [stored] start).lookup other.node.name = none := by
      intro other hother
      rw [Keyed.lookup_insert, if_neg, hnew other hother]
      exact fun hsame => hfirst (List.mem_map.2 ⟨other, hother, hsame⟩)
    obtain ⟨documents, hmade, rfl, hlistings', hobjects'⟩ := ih hrest hstill h
    refine ⟨stored :: documents, List.Forall₂.cons ⟨described, hdescribed, hcompletes⟩ ?_, rfl,
      hlistings'.trans hlistings, ?_⟩
    · exact hlistings ▸ hmade
    · rw [hobjects', hobjects, List.append_assoc]
      rfl

/-- A creation that succeeds has no edges and has stored a document for every target, and its result has it under the
binding of the target. -/
theorem create_spec {graph : Graph} {targets : List Target} {result : Result}
    (hnames : (targets.map (·.node.name)).Nodup) (h : create graph targets engine = (.ok result, after)) :
    graph.edges = [] ∧ ∃ documents, List.Forall₂ (Made engine.gateway.store.listings) targets documents ∧
      result = ⟨bindingsOf (targets.zip (documents.map ([·]))), graph, 0⟩ ∧
      after.gateway.store.listings = engine.gateway.store.listings ∧
      after.gateway.store.objects = engine.gateway.store.objects ++ documents := by
  rw [create_eq] at h
  split at h
  · rename_i hedges
    obtain ⟨bindings, last, hran, h⟩ := bind_eq_ok.1 h
    obtain ⟨rfl, rfl⟩ := pure_eq_ok.1 h
    obtain ⟨documents, hmade, rfl, hlistings, hobjects⟩ := foldlM_storeNew hnames (fun _ _ => rfl) hran
    refine ⟨hedges, documents, hmade, ?_, hlistings, hobjects⟩
    rw [bindingsOf, List.zip_map_right, List.map_map]
    rfl
  · cases h

/-- A query that creates and succeeds has planned targets for nodes without edges and made a document for each, which
its result has under the binding, and the objects after are those before with the documents. -/
theorem execute_create_made {query : Query} {rules : List Rule} {context : Context} {before after : Engine}
    {result : Result} (hnames : query.graph.bindings.Nodup) (hclause : query.clause = .create)
    (h : execute rules context query before = (.ok result, after)) :
    ∃ kinds targets told documents graph, Planned context query before told kinds targets ∧ query.graph.edges = [] ∧
      List.Forall₂ (Made before.gateway.store.listings) targets documents ∧
      result = ⟨bindingsOf (targets.zip (documents.map ([·]))), graph, 0⟩ ∧
      after.gateway.store.objects = before.gateway.store.objects ++ documents := by
  obtain ⟨started, targets, planned, told, done, hstart, hplan, htold, hact, hend⟩ := execute_eq_ok h
  obtain ⟨kinds, hplanned⟩ := planned_spec hnames hstart hplan htold
  unfold act at hact
  rw [hclause] at hact
  have htargets : (targets.map (·.node.name)).Nodup := names_eq hplanned.nodes_eq ▸ hnames
  obtain ⟨hedges, documents, hmade, rfl, -, hobjects⟩ := create_spec htargets hact
  obtain ⟨calls, hanswered⟩ := hplanned.answered
  refine ⟨kinds, targets, told, documents, _, hplanned, hedges, hanswered.listings_eq ▸ hmade, rfl, ?_⟩
  rw [hend.gateway_eq, hobjects, hanswered.objects_eq]

/-- A query that creates and succeeds, over a catalog that has each plural name once under a group and version, with a
cache that comes from the catalog, and whose nodes have properties that speak of places apart: the query that only finds
its pattern has under every binding the one document that is created for it, and succeeds when no call is made to
fail. -/
theorem execute_create_found {text : String} {query : Query} {rules : List Rule} {context : Context}
    {before after : Engine} {result : Result} (hparse : Query.parse text = .ok query)
    (hclause : query.clause = .create) (hplurals : PluralsDistinct before.gateway.store.listings)
    (hreached : before.cache.Reached before.gateway.store.listings)
    (hapart : ∀ node ∈ query.graph.nodes, node.Apart)
    (h : execute rules context query before = (.ok result, after)) :
    (∀ found seen, execute rules context query.finding after = (.ok found, seen) →
      ∀ node ∈ query.graph.nodes, ∃ document,
        result.binding? node.name = some [document] ∧ found.Finds node.name document) ∧
    (before.Unhindered → ∃ found seen, execute rules context query.finding after = (.ok found, seen)) := by
  have hw := Query.parse_wellFormed hparse
  have hfilters : query.clause.filters = [] := by
    rw [hclause]
    rfl
  have hregular : before.Regular := ⟨hplurals, fun _ _ => hreached.listed⟩
  have hmeans := execute_means h
  obtain ⟨kinds, targets, told, documents, graph, hplanned, hedges, hmade, rfl, hobjects⟩ :=
    execute_create_made hw.bindings_nodup hclause h
  refine ⟨fun found seen hfound node hnode => ?_, fun hunhindered => ?_⟩
  · obtain ⟨others, hothers, hanswers⟩ := finding_answers hw hfilters (hmeans.regular hregular) hfound
    obtain rfl := kinds_unique hplanned.means (hmeans.kinds_iff.1 hothers)
    obtain ⟨target, htarget, rfl⟩ := List.mem_map.1 (hplanned.nodes_eq ▸ hnode : node ∈ targets.map (·.node))
    obtain ⟨document, hpair⟩ := exists_mem_zip hmade.length_eq htarget
    have hlisted := hregular.listed _ _ (hplanned.kindOf?_eq htarget)
    have hplans := hplanned.plans_of_mem htarget
    rw [hfilters] at hplans
    have hasked := (List.forall₂_zip hmade hpair).asked (hapart target.node hnode) hplans hplurals hlisted
    refine ⟨document, ?_, _, hanswers target.node hnode, ?_⟩
    · -- the bindings are distinct, so the document is the only one under its own
      have hsingle : (target, [document]) ∈ targets.zip (documents.map ([·])) := by
        rw [List.zip_map_right]
        exact List.mem_map_of_mem hpair
      have hlength : targets.length = (documents.map ([·])).length := by rw [List.length_map, hmade.length_eq]
      exact binding?_of_mem (hplanned.names_nodup hw.bindings_nodup hlength) hsingle
    · -- without edges it is enough that the document is stored and asked for
      refine (Question.mem_answer_of_edges_eq_nil hedges).2 ⟨?_, target.subject, ?_, rfl, ?_⟩
      · rw [Query.question, hobjects]
        exact List.mem_append_right _ (List.of_mem_zip hpair).2
      · rw [Query.question, ← subjects_eq hplanned.plans]
        exact List.mem_map_of_mem htarget
      · rw [Query.question, hfilters]
        exact hasked
  · have hnone : linksOf rules query.graph targets = .ok [] := by
      rw [linksOf, hedges]
      rfl
    have hloops : ∀ edge ∈ query.graph.edges, edge.source ≠ edge.target := by
      rw [hedges]
      nofun
    exact exists_execute_finding hw hfilters hloops (execute_unhindered h hunhindered) (hmeans.regular hregular)
      (hmeans.kinds_iff.2 hplanned.means) hplanned.made hnone

/-! ## A sample: a node of the cluster and a configuration -/

namespace Sample

def newNodeText : String :=
  "CREATE (n:Node \x7bready: true\x7d), (c:ConfigMap \x7bname: \"settings\", tier: \"front\", data.size: 3\x7d)"

def findNodeText : String :=
  "MATCH (n:Node \x7bready: true\x7d), (c:ConfigMap \x7bname: \"settings\", tier: \"front\", data.size: 3\x7d)"

/-- A node of the cluster with a label, and a configuration with a name, a label and a field. -/
def newNode : Query :=
  ⟨⟨[Node.ofBinding "n" "Node" [⟨"ready", .boolean true⟩],
      Node.ofBinding "c" "ConfigMap"
        [⟨"name", .string "settings"⟩, ⟨"tier", .string "front"⟩, ⟨"data.size", .integer 3⟩]],
    []⟩, .create⟩

end Sample

/-- Both are found over all namespaces once they are created there. -/
theorem execute_create_found_newNode :
    Query.parse Sample.newNodeText = .ok Sample.newNode ∧
      Query.parse Sample.findNodeText = .ok Sample.newNode.finding ∧ PluralsDistinct standardListings ∧
      Cache.empty.Reached standardListings ∧ (∀ node ∈ Sample.newNode.graph.nodes, node.Apart) ∧
      ∃ result after found seen,
        execute Rule.standard ⟨"", false⟩ Sample.newNode Sample.cluster = (.ok result, after) ∧
        execute Rule.standard ⟨"", false⟩ Sample.newNode.finding after = (.ok found, seen) ∧
        ∀ node ∈ Sample.newNode.graph.nodes, ∃ document,
          result.binding? node.name = some [document] ∧ found.Finds node.name document := by
  have hparse : Query.parse Sample.newNodeText = .ok Sample.newNode := by decide +kernel
  have hfind : Query.parse Sample.findNodeText = .ok Sample.newNode.finding := by decide +kernel
  have hapart : ∀ node ∈ Sample.newNode.graph.nodes, node.Apart := by decide +kernel
  have hok : (execute Rule.standard ⟨"", false⟩ Sample.newNode Sample.cluster).1.toOption.map (fun _ => ()) =
      some () := by
    decide +kernel
  obtain ⟨result, after, hrun, -⟩ := exists_of_view hok
  obtain ⟨hcreated, hfinding⟩ := execute_create_found hparse rfl pluralsDistinct_standardListings Cache.Reached.empty
    hapart hrun
  obtain ⟨found, seen, hfound⟩ := hfinding ⟨rfl, rfl⟩
  exact ⟨hparse, hfind, pluralsDistinct_standardListings, Cache.Reached.empty, hapart, result, after, found, seen, hrun,
    hfound, hcreated found seen hfound⟩

end Run

end ClusterQuery
