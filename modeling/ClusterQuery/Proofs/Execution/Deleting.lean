import ClusterQuery.Proofs.Execution.Addressing
import ClusterQuery.Proofs.Execution.Answering

/-!
# What a query removes

A query that deletes removes what it has matched, target by target, each document by its identity (`Run.Lost`). When it
succeeds exactly the documents under its bindings are gone and nothing matches its pattern any more
(`Run.execute_delete_removes`): what still took part would have taken part before, and so have been removed.
-/

namespace ClusterQuery

/-- No object of a resource of the whole cluster carries a namespace. -/
def Store.Scoped (store : Store) : Prop :=
  ∀ listing ∈ store.listings, ∀ resource ∈ listing.resources, resource.namespaced = false →
    ∀ object ∈ store.objects, object.isInstance listing.groupVersion resource.kind = true → object.namespace? = none

/-- What takes part among fewer objects takes part among more. -/
theorem Question.TakesPart.mono {question : Question} {more : List Document} (hsub : question.objects ⊆ more)
    {id : String} {object : Document} (h : question.TakesPart id object) :
    Question.TakesPart { question with objects := more } id object := by
  obtain ⟨sets, hsets, hobject⟩ := h
  exact ⟨sets, ⟨fun id object hmem => hsub (hsets.stored id object hmem), hsets.asked, hsets.partnered⟩, hobject⟩

/-- When no object that is left was an answer at a node, none of them is. -/
theorem Question.answer_eq_nil {question : Question} {left : List Document} (hsub : left ⊆ question.objects)
    {id : String} (h : ∀ object ∈ left, object ∉ question.answer id) :
    Question.answer { question with objects := left } id = [] := by
  classical
  rw [answer, List.filter_eq_nil_iff]
  intro object hobject htakes
  refine h object hobject (List.mem_filter.2 ⟨hsub hobject, ?_⟩)
  rw [decide_eq_true_eq] at htakes ⊢
  exact htakes.mono hsub

/-- The document stands under some binding. -/
def Result.Shows (result : Result) (document : Document) : Prop :=
  ∃ binding, result.Finds binding document

namespace Run

variable {store : Store} {engine after : Engine} {gone : List Identity}

/-- The engine has the catalog of a store, and its objects without those of the identities. -/
structure Lost (store : Store) (gone : List Identity) (engine : Engine) : Prop where
  listings_eq : engine.gateway.store.listings = store.listings
  objects_eq : engine.gateway.store.objects = Store.without store.objects gone

/-- Tracing loses nothing. -/
theorem Lost.traced (h : Lost store gone engine) (htraced : engine.Traced after) : Lost store gone after :=
  ⟨htraced.gateway_eq ▸ h.listings_eq, htraced.gateway_eq ▸ h.objects_eq⟩

/-! ## One document -/

section Addressed

variable {target : Target} {document : Document} {name : String}

variable (hlost : Lost store gone engine) (haddresses : Addresses store target document)
  (hname : document.name? = some name)

include hlost haddresses hname

/-- A document that is gone cannot be removed. -/
theorem Lost.delete_of_mem (h : document.identity ∈ gone) :
    engine.gateway.store.delete target.kind.coordinate (target.namespaceOf document) name =
      (.error (Store.unknownObject target.kind.coordinate name),
        engine.gateway.store.record (.delete target.kind.coordinate (target.namespaceOf document) name)) := by
  obtain ⟨resource, hresource⟩ := haddresses.served
  have hidentity := haddresses.addressed_eq hresource hname
  rw [← hlost.listings_eq] at hresource
  refine Store.delete_of_notMem hresource ?_
  rw [hidentity, hlost.objects_eq, Store.mem_map_without]
  exact fun hkept => hkept.2 h

/-- A document that is not gone can be removed, and then is gone too. -/
theorem Lost.delete_of_notMem (hdistinct : (store.objects.map Document.identity).Nodup)
    (h : document.identity ∉ gone) : ∃ next,
      engine.gateway.store.delete target.kind.coordinate (target.namespaceOf document) name = (.ok (), next) ∧
        next.listings = store.listings ∧ next.objects = Store.without store.objects (gone ++ [document.identity]) := by
  obtain ⟨resource, hresource⟩ := haddresses.served
  have hidentity := haddresses.addressed_eq hresource hname
  rw [← hlost.listings_eq] at hresource
  have hnodup : (engine.gateway.store.objects.map Document.identity).Nodup := by
    rw [hlost.objects_eq]
    exact Store.nodup_without hdistinct gone
  have hmem : document.identity ∈ engine.gateway.store.objects.map Document.identity := by
    rw [hlost.objects_eq, Store.mem_map_without]
    exact ⟨List.mem_map_of_mem haddresses.stored, h⟩
  rw [← hidentity] at hmem
  refine ⟨_, Store.delete_of_mem hresource hnodup hmem, hlost.listings_eq, ?_⟩
  rw [hidentity, hlost.objects_eq, Store.without_without]

end Addressed

/-- A removal that succeeds has removed the document of the identity, and no other. -/
theorem remove_lost {context : Context} {target : Target} {document : Document}
    (hdistinct : (store.objects.map Document.identity).Nodup) (haddresses : Addresses store target document)
    (hlost : Lost store gone engine) (h : remove context target document engine = (.ok (), after)) :
    Lost store (gone ++ [document.identity]) after := by
  unfold remove at h
  cases hname : document.name? with
  | none =>
    rw [hname] at h
    cases h
  | some name =>
    rw [hname] at h
    obtain ⟨_, middle, hcall, htrace⟩ := bind_eq_ok.1 h
    obtain ⟨gateway, hdelete, rfl⟩ := call_eq_ok.1 hcall
    have hstore := Gateway.guarded_eq_ok hdelete
    refine Lost.traced ?_ (traced_of_trace htrace)
    by_cases hgone : document.identity ∈ gone
    · rw [hlost.delete_of_mem haddresses hname hgone] at hstore
      cases (Prod.mk.inj hstore).1
    · obtain ⟨next, hnext, hlistings, hobjects⟩ := hlost.delete_of_notMem haddresses hname hdistinct hgone
      rw [hnext] at hstore
      obtain rfl := (Prod.mk.inj hstore).2
      exact ⟨hlistings, hobjects⟩

/-! ## All documents -/

/-- What is to be removed: the documents of every target, in order. -/
def removals (pairs : List (Target × List Document)) : List (Target × Document) :=
  pairs.flatMap fun pair => pair.2.map fun document => (pair.1, document)

/-- The identities of what is to be removed. -/
def removedIdentities (entries : List (Target × Document)) : List Identity :=
  entries.map (·.2.identity)

/-- Removing the documents of every target is removing them one after another. -/
theorem forM_removals (context : Context) (pairs : List (Target × List Document)) :
    (pairs.forM fun (target, documents) => documents.forM (remove context target)) =
      (removals pairs).forM fun entry => remove context entry.1 entry.2 := by
  unfold removals
  induction pairs with
  | nil => rfl
  | cons pair rest ih =>
    simp only [List.flatMap_cons, List.forM_eq_forM, List.forM_cons, List.forM_append, List.forM_map] at ih ⊢
    rw [ih]

/-- Removals that all succeed have removed the documents of their identities, and no others. -/
theorem forM_remove_lost {context : Context} {entries : List (Target × Document)}
    (hdistinct : (store.objects.map Document.identity).Nodup)
    (haddresses : ∀ entry ∈ entries, Addresses store entry.1 entry.2) (hlost : Lost store gone engine)
    (h : (entries.forM fun entry => remove context entry.1 entry.2) engine = (.ok (), after)) :
    Lost store (gone ++ removedIdentities entries) after := by
  induction entries generalizing engine gone with
  | nil =>
    obtain ⟨-, rfl⟩ := pure_eq_ok.1 h
    rwa [removedIdentities, List.map_nil, List.append_nil]
  | cons entry rest ih =>
    obtain ⟨hfirst, hrest⟩ := List.forall_mem_cons.1 haddresses
    obtain ⟨_, middle, hremove, h⟩ := bind_eq_ok.1 h
    have hall := ih hrest (remove_lost hdistinct hfirst hlost hremove) h
    rwa [List.append_assoc] at hall

/-- Entries of what is to be removed. -/
theorem mem_removals {pairs : List (Target × List Document)} {target : Target} {document : Document} :
    (target, document) ∈ removals pairs ↔ ∃ pair ∈ pairs, pair.1 = target ∧ document ∈ pair.2 := by
  simp only [removals, List.mem_flatMap, List.mem_map, Prod.mk.injEq]
  constructor
  · rintro ⟨pair, hpair, held, hheld, rfl, rfl⟩
    exact ⟨pair, hpair, rfl, hheld⟩
  · rintro ⟨pair, hpair, rfl, hdocument⟩
    exact ⟨pair, hpair, document, hdocument, rfl, rfl⟩

/-- Among stored documents of distinct identities, an object has the identity of one that is to be removed when it is
one. -/
theorem identity_mem_removals {pairs : List (Target × List Document)}
    (hdistinct : (store.objects.map Document.identity).Nodup)
    (hstored : ∀ pair ∈ pairs, ∀ document ∈ pair.2, document ∈ store.objects) {object : Document}
    (hobject : object ∈ store.objects) :
    object.identity ∈ removedIdentities (removals pairs) ↔ ∃ pair ∈ pairs, object ∈ pair.2 := by
  rw [removedIdentities, List.mem_map]
  constructor
  · rintro ⟨⟨target, document⟩, hentry, hidentity⟩
    obtain ⟨pair, hpair, -, hdocument⟩ := mem_removals.1 hentry
    have hsame := List.inj_on_of_nodup_map hdistinct (hstored pair hpair document hdocument) hobject hidentity
    exact ⟨pair, hpair, hsame ▸ hdocument⟩
  · rintro ⟨pair, hpair, hmem⟩
    exact ⟨(pair.1, object), mem_removals.2 ⟨pair, hpair, rfl, hmem⟩, rfl⟩

/-! ## From a query to the store -/

section Planned

variable {context : Context} {query : Query} {before told matching : Engine} {kinds : List Kind} {targets : List Target}
  {rules : List Rule} {family : Link.Family}

variable (h : Planned context query before told kinds targets)
  (hmatched : matched rules context query.graph targets told = (.ok family, matching))

include h hmatched

/-- When the pattern has been matched nothing is gone. -/
theorem Planned.lost_nil : Lost before.gateway.store [] matching := by
  obtain ⟨calls, hanswered⟩ := h.answered
  have hmatching := (matched_fetches hmatched).1
  refine ⟨hmatching.listings_eq.trans hanswered.listings_eq, ?_⟩
  rw [hmatching.objects_eq, hanswered.objects_eq, Store.without_nil]

/-- What is matched for a target are stored objects, in store order. -/
theorem Planned.sublist_objects (hc : query.graph.Closed) (hregular : before.Regular) :
    ∀ pair ∈ targets.zip family, pair.2.Sublist before.gateway.store.objects := by
  intro pair hpair
  have hmem := (List.of_mem_zip hpair).2
  rw [h.matched_eq hc hregular hmatched] at hmem
  obtain ⟨target, -, hanswer⟩ := List.mem_map.1 hmem
  rw [← hanswer]
  exact List.filter_sublist

/-- What is matched for a target of a planned query is the answer at its node. -/
theorem Planned.mem_answer (hc : query.graph.Closed) (hregular : before.Regular) {node : Node}
    (hnode : node ∈ query.graph.nodes) {object : Document}
    (hobject : object ∈ (query.question rules context kinds before.gateway.store.objects).answer node.id) :
    ∃ pair ∈ targets.zip family, object ∈ pair.2 := by
  rw [← h.nodes_eq] at hnode
  obtain ⟨target, htarget, rfl⟩ := List.mem_map.1 hnode
  rw [h.matched_eq hc hregular hmatched]
  exact ⟨_, mem_zip_map htarget, hobject⟩

end Planned

/-- A query that deletes and succeeds has planned and matched its pattern and shows what is matched, and the objects
that are gone are those. -/
theorem execute_delete_lost {query : Query} {rules : List Rule} {context : Context} {before after : Engine}
    {result : Result} (hnames : query.graph.bindings.Nodup) (hclause : query.clause = .delete)
    (hdistinct : (before.gateway.store.objects.map Document.identity).Nodup) (hhomed : before.Homed)
    (h : execute rules context query before = (.ok result, after)) :
    ∃ kinds targets told family matching graph, Planned context query before told kinds targets ∧
      matched rules context query.graph targets told = (.ok family, matching) ∧
      result = ⟨bindingsOf (targets.zip family), graph, 0⟩ ∧
      (∀ pair ∈ targets.zip family, ∀ document ∈ pair.2, Addresses before.gateway.store pair.1 document) ∧
      Lost before.gateway.store (removedIdentities (removals (targets.zip family))) after := by
  obtain ⟨started, targets, planned, told, done, hstart, hplan, htold, hact, hend⟩ := execute_eq_ok h
  obtain ⟨kinds, hplanned⟩ := planned_spec hnames hstart hplan htold
  unfold act at hact
  rw [hclause] at hact
  obtain ⟨family, matching, hmatched, hact⟩ := bind_eq_ok.1 hact
  obtain ⟨_, last, hremoved, hact⟩ := bind_eq_ok.1 hact
  obtain ⟨rfl, rfl⟩ := pure_eq_ok.1 hact
  have haddresses := hplanned.addresses hhomed hmatched
  refine ⟨kinds, targets, told, family, matching, _, hplanned, hmatched, rfl, haddresses, ?_⟩
  have hnone := hplanned.lost_nil hmatched
  rw [forM_removals] at hremoved
  refine Lost.traced ?_ hend
  refine forM_remove_lost hdistinct (fun entry hentry => ?_) hnone hremoved
  obtain ⟨pair, hpair, hsame, hdocument⟩ := mem_removals.1 hentry
  exact hsame ▸ haddresses pair hpair entry.2 hdocument

open Classical in
/-- A query that deletes and succeeds, over a catalog that has each plural name once under a group and version, with a
cache that comes from the catalog, and over objects of distinct identities of which none of a resource of the whole
cluster carries a namespace: the objects that are left are those that its result does not show, in order. The query that
only finds its pattern has nothing under any binding afterwards, and succeeds when no call is made to fail and no edge
joins a node to itself. -/
theorem execute_delete_removes {text : String} {query : Query} {rules : List Rule} {context : Context}
    {before after : Engine} {result : Result} (hparse : Query.parse text = .ok query)
    (hclause : query.clause = .delete) (hplurals : PluralsDistinct before.gateway.store.listings)
    (hreached : before.cache.Reached before.gateway.store.listings)
    (hdistinct : (before.gateway.store.objects.map Document.identity).Nodup) (hscoped : before.gateway.store.Scoped)
    (h : execute rules context query before = (.ok result, after)) :
    after.gateway.store.objects = before.gateway.store.objects.filter (fun object => ¬result.Shows object) ∧
    (∀ found seen, execute rules context query.finding after = (.ok found, seen) →
      ∀ node ∈ query.graph.nodes, found.binding? node.name = some []) ∧
    (before.Unhindered → (∀ edge ∈ query.graph.edges, edge.source ≠ edge.target) →
      ∃ found seen, execute rules context query.finding after = (.ok found, seen)) := by
  have hw := Query.parse_wellFormed hparse
  have hfilters : query.clause.filters = [] := by
    rw [hclause]
    rfl
  have hregular : before.Regular := ⟨hplurals, fun _ _ => hreached.listed⟩
  have hmeans := execute_means h
  obtain ⟨kinds, targets, told, family, matching, graph, hplanned, hmatched, hresult, haddresses, hlost⟩ :=
    execute_delete_lost hw.bindings_nodup hclause hdistinct (Engine.homed_of_listed hplurals hreached hscoped) h
  have hgone : ∀ object ∈ before.gateway.store.objects,
      (object.identity ∈ removedIdentities (removals (targets.zip family)) ↔
        ∃ pair ∈ targets.zip family, object ∈ pair.2) := fun object =>
    identity_mem_removals hdistinct fun pair hpair document hmem => (haddresses pair hpair document hmem).stored
  refine ⟨?_, fun found seen hfound node hnode => ?_, fun hunhindered hloops => ?_⟩
  · -- what the result shows is what is gone
    rw [hlost.objects_eq, Store.without]
    refine List.filter_congr fun object hobject => ?_
    have hnames := hplanned.names_nodup hw.bindings_nodup (matched_fetches hmatched).2.length_eq
    rw [decide_eq_decide, hresult, Result.Shows, exists_finds_iff hnames, ← hgone object hobject]
  · -- what took part is gone, and nothing new takes part
    obtain ⟨others, hothers, hanswers⟩ := finding_answers hw hfilters (hmeans.regular hregular) hfound
    obtain rfl := kinds_unique hplanned.means (hmeans.kinds_iff.1 hothers)
    rw [hanswers node hnode, Option.some.injEq]
    have hleft : ∀ object ∈ after.gateway.store.objects, object ∈ before.gateway.store.objects ∧
        ¬∃ pair ∈ targets.zip family, object ∈ pair.2 := by
      intro object hobject
      rw [hlost.objects_eq, Store.mem_without] at hobject
      exact ⟨hobject.1, mt (hgone object hobject.1).2 hobject.2⟩
    have hnone : ∀ object ∈ after.gateway.store.objects,
        object ∉ (query.question rules context kinds before.gateway.store.objects).answer node.id := by
      intro object hobject hanswer
      exact (hleft object hobject).2 (hplanned.mem_answer hmatched hw.toClosed hregular hnode hanswer)
    exact Question.answer_eq_nil (fun object hobject => (hleft object hobject).1) hnone
  · -- the same targets can be planned and searched for
    obtain ⟨links, hlinks⟩ := exists_linksOf_of_matched hmatched
    exact exists_execute_finding hw hfilters hloops (execute_unhindered h hunhindered) (hmeans.regular hregular)
      (hmeans.kinds_iff.2 hplanned.means) hplanned.made hlinks

/-! ## A sample: a replica set and its pods -/

namespace Sample

def setWithPodsText : String :=
  "DELETE (r:ReplicaSet \x7bname: \"web-1\"\x7d)-[:OWNS]->(p:Pod)"

/-- A replica set of a name and its pods. -/
def setWithPods : Query :=
  ⟨⟨[Node.ofBinding "r" "ReplicaSet" [⟨"name", .string "web-1"⟩], Node.ofBinding "p" "Pod" []],
    [⟨"ReplicaSet/r", "Pod/p", "OWNS"⟩]⟩, .delete⟩

end Sample

/-- The replica set and its pod are removed, the others stay, and nothing is found afterwards. -/
theorem execute_delete_removes_setWithPods :
    Query.parse Sample.setWithPodsText = .ok Sample.setWithPods ∧ PluralsDistinct standardListings ∧
      Cache.empty.Reached standardListings ∧
      (Sample.cluster.gateway.store.objects.map Document.identity).Nodup ∧ Sample.cluster.gateway.store.Scoped ∧
      ∃ result after found seen,
        execute Rule.standard ⟨"default", false⟩ Sample.setWithPods Sample.cluster = (.ok result, after) ∧
        after.gateway.store.objects.map Document.name? = [some "old-1", some "old-1-a"] ∧
        (∀ object ∈ after.gateway.store.objects, ¬result.Shows object) ∧
        execute Rule.standard ⟨"default", false⟩ Sample.setWithPods.finding after = (.ok found, seen) ∧
        found.binding? "r" = some [] ∧ found.binding? "p" = some [] := by
  have hparse : Query.parse Sample.setWithPodsText = .ok Sample.setWithPods := by decide +kernel
  have hdistinct : (Sample.cluster.gateway.store.objects.map Document.identity).Nodup := by decide
  have hscoped : Sample.cluster.gateway.store.Scoped := by
    unfold Store.Scoped
    decide +kernel
  have hok : (execute Rule.standard ⟨"default", false⟩ Sample.setWithPods Sample.cluster).1.toOption.map (fun _ => ()) =
      some () := by
    decide +kernel
  have hleft : (execute Rule.standard ⟨"default", false⟩ Sample.setWithPods
      Sample.cluster).2.gateway.store.objects.map Document.name? = [some "old-1", some "old-1-a"] := by
    decide +kernel
  obtain ⟨result, after, hrun, -⟩ := exists_of_view hok
  obtain ⟨hobjects, hnone, hfinding⟩ := execute_delete_removes hparse rfl pluralsDistinct_standardListings
    Cache.Reached.empty hdistinct hscoped hrun
  obtain ⟨found, seen, hfound⟩ := hfinding ⟨rfl, rfl⟩ (by decide)
  rw [hrun] at hleft
  refine ⟨hparse, pluralsDistinct_standardListings, Cache.Reached.empty, hdistinct, hscoped, result, after, found, seen,
    hrun, hleft, fun object hobject => ?_, hfound, ?_, ?_⟩
  · rw [hobjects] at hobject
    simpa using (List.mem_filter.1 hobject).2
  · exact hnone found seen hfound (Node.ofBinding "r" "ReplicaSet" [⟨"name", .string "web-1"⟩]) List.mem_cons_self
  · exact hnone found seen hfound (Node.ofBinding "p" "Pod" []) (List.mem_cons_of_mem _ List.mem_cons_self)

end Run

end ClusterQuery
