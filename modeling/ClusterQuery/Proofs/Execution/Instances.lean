import ClusterQuery.Proofs.Execution.Creating
import ClusterQuery.Proofs.Execution.Refusing

/-!
# Created documents are instances of their kind

A document that is created for a node has the version and the kind of the node's resolved kind unless a property of the
node sets a field there (`Run.Made.isInstance`), and the namespace of the node, or else of the context
(`Run.Made.namespace?_eq`). So a query for all documents of the kind finds it, as far as it looks into that namespace
(`Run.execute_create_instances`).
-/

namespace ClusterQuery

/-- The query for all documents of a kind. -/
def Query.ofKind (binding identifier : String) : Query :=
  ⟨⟨[Node.ofBinding binding identifier []], []⟩, .find [] []⟩

theorem Query.wellFormed_ofKind (binding identifier : String) : (ofKind binding identifier).graph.WellFormed where
  ids_nodup := List.nodup_singleton _
  ends_mem := nofun
  bindings_nodup := List.nodup_singleton _
  id_eq := fun node hnode => by
    rw [List.mem_singleton.1 hnode]
    rfl
  edges_nodup := List.nodup_nil

/-- The paths of the kind of a document. -/
def kindPaths : List (List String) :=
  [["apiVersion"], ["kind"]]

/-- No property of the node sets a field at, above or below the kind of its document. -/
def Node.SparesKind (node : Node) : Prop :=
  ∀ entry ∈ node.fields, ∀ path ∈ kindPaths, ¬Comparable entry.1 path

instance : DecidablePred Node.SparesKind := fun node =>
  inferInstanceAs (Decidable (∀ entry ∈ node.fields, ∀ path ∈ kindPaths, ¬Comparable entry.1 path))

namespace Run

variable {listings : List Listing} {target : Target} {document : Document}

/-- What is made for a target keeps what the blank document has, but at, above or below the namespace and the fields of
the node. -/
theorem Made.at?_eq_some (h : Made listings target document) {path : List String} {value : Document}
    (hblank : target.blank.at? path = some value) (hfields : ∀ entry ∈ target.node.fields, ¬Comparable entry.1 path)
    (hnamespace : ¬Comparable path ["metadata", "namespace"]) : document.at? path = some value := by
  obtain ⟨described, hdescribed, hcompletes⟩ := h
  refine hcompletes.at?_eq_some ?_ hnamespace
  rw [(Target.newDocument_eq hdescribed).1, at?_foldl_assignInto_of_not_comparable hfields, hblank]

/-- What is made for a target whose node spares the kind is an instance of the kind. -/
theorem Made.isInstance (h : Made listings target document) (hspares : target.node.SparesKind) :
    document.at? ["apiVersion"] = some (.string target.kind.coordinate.apiVersion) ∧
      document.at? ["kind"] = some (.string target.kind.kind) :=
  ⟨h.at?_eq_some Target.blank_at?_apiVersion (fun entry hentry => hspares entry hentry _ (by decide)) (by decide),
    h.at?_eq_some Target.blank_at?_kind (fun entry hentry => hspares entry hentry _ (by decide)) (by decide)⟩

/-- A document is found among all documents of a kind when it is stored and asked for. -/
theorem ofKind_finds_iff {engine seen : Engine} {rules : List Rule} {context : Context} {binding identifier : String}
    {kind : Kind} {found : Result} (hregular : engine.Regular)
    (hkind : engine.cache.kindOf? engine.gateway.store.listings identifier = some kind)
    (h : execute rules context (Query.ofKind binding identifier) engine = (.ok found, seen)) (document : Document) :
    found.Finds binding document ↔ document ∈ engine.gateway.store.objects ∧
      Asked context [] (Node.ofBinding binding identifier [], kind) document := by
  obtain ⟨kinds, hkinds, hanswers⟩ := finding_answers (Query.wellFormed_ofKind binding identifier) rfl hregular h
  obtain ⟨other, rest, hother, hrest, rfl⟩ := List.forall₂_cons_left_iff.1 hkinds
  obtain rfl := List.forall₂_nil_left_iff.1 hrest
  obtain rfl := Option.some.inj (hother.symm.trans hkind)
  have hanswer := hanswers (Node.ofBinding binding identifier []) List.mem_cons_self
  have hfinds : found.Finds binding document ↔ document ∈ ((Query.ofKind binding identifier).question rules context
      [other] engine.gateway.store.objects).answer (Node.ofBinding binding identifier []).id := by
    unfold Result.Finds
    rw [show found.binding? binding = _ from hanswer]
    simp only [Option.some.injEq, exists_eq_left']
  rw [hfinds, Question.mem_answer_of_edges_eq_nil rfl]
  refine and_congr_right fun _ => ⟨?_, fun hasked => ⟨_, List.mem_cons_self, rfl, hasked⟩⟩
  rintro ⟨subject, hsubject, -, hasked⟩
  obtain rfl := List.mem_singleton.1 hsubject
  exact hasked

/-- All documents of a kind are found when no call is made to fail. -/
theorem exists_execute_ofKind {engine : Engine} (rules : List Rule) (context : Context) (binding : String)
    {identifier : String} {kind : Kind} (h : engine.Unhindered) (hregular : engine.Regular)
    (hkind : engine.cache.kindOf? engine.gateway.store.listings identifier = some kind) :
    ∃ found seen, execute rules context (Query.ofKind binding identifier) engine = (.ok found, seen) := by
  obtain ⟨targets, htargets⟩ : ∃ targets, (Query.ofKind binding identifier).targets context [kind] = .ok targets :=
    ⟨_, rfl⟩
  have hlinks : linksOf rules (Query.ofKind binding identifier).graph targets = .ok [] := rfl
  have hfound : ∃ found seen,
      execute rules context (Query.ofKind binding identifier).finding engine = (.ok found, seen) :=
    exists_execute_finding (Query.wellFormed_ofKind binding identifier) rfl nofun h hregular
      (List.Forall₂.cons hkind List.Forall₂.nil) htargets hlinks
  exact hfound

/-- A query that creates and succeeds, over a catalog that has each plural name once under a group and version, with a
cache that comes from the catalog: it has stored a document for every node, after the objects that were there. Unless a
property of the node sets a field there, the document has the version and the kind of the node's resolved kind; and the
query for all documents of the kind then has it under the same context exactly when, for a kind with namespaces and a
context with one, the node has no namespace of its own or this one. That query succeeds when no call is made to fail. -/
theorem execute_create_instances {text : String} {query : Query} {rules : List Rule} {context : Context}
    {before after : Engine} {result : Result} (hparse : Query.parse text = .ok query)
    (hclause : query.clause = .create) (hplurals : PluralsDistinct before.gateway.store.listings)
    (hreached : before.cache.Reached before.gateway.store.listings)
    (h : execute rules context query before = (.ok result, after)) :
    ∃ documents, after.gateway.store.objects = before.gateway.store.objects ++ documents ∧
      List.Forall₂ (fun node document => node.SparesKind → ∃ kind : Kind,
        before.cache.kindOf? before.gateway.store.listings node.kind = some kind ∧
        document.at? ["apiVersion"] = some (.string kind.coordinate.apiVersion) ∧
        document.at? ["kind"] = some (.string kind.kind) ∧
        ∀ binding : String,
          (∀ found seen, execute rules context (Query.ofKind binding node.kind) after = (.ok found, seen) →
            (found.Finds binding document ↔ (kind.namespaced = true → ∀ name, context.scope? = some name →
              ∀ own, lastNamespace? node.properties = some own → own = name))) ∧
          (before.Unhindered →
            ∃ found seen, execute rules context (Query.ofKind binding node.kind) after = (.ok found, seen)))
        query.graph.nodes documents := by
  have hw := Query.parse_wellFormed hparse
  have hregular : before.Regular := ⟨hplurals, fun _ _ => hreached.listed⟩
  have hmeans := execute_means h
  obtain ⟨kinds, targets, told, documents, graph, hplanned, hedges, hmade, rfl, hobjects⟩ :=
    execute_create_made hw.bindings_nodup hclause h
  refine ⟨documents, hobjects, ?_⟩
  rw [← hplanned.nodes_eq, List.forall₂_map_left_iff]
  refine List.forall₂_iff_zip.2 ⟨hmade.length_eq, fun {target document} hpair hspares => ?_⟩
  have htarget := (List.of_mem_zip hpair).1
  have hkind := hplanned.kindOf?_eq htarget
  have hlisted := hregular.listed _ _ hkind
  have hplans := hplanned.plans_of_mem htarget
  have hdocument := List.forall₂_zip hmade hpair
  obtain ⟨hversion, hnamed⟩ := hdocument.isInstance hspares
  have hafter : after.cache.kindOf? after.gateway.store.listings target.node.kind = some target.kind := by
    rw [hmeans.listings_eq, hmeans.kindOf?_eq, hkind]
  refine ⟨target.kind, hkind, hversion, hnamed, fun binding => ⟨fun found seen hfound => ?_, fun hunhindered => ?_⟩⟩
  · rw [ofKind_finds_iff (hmeans.regular hregular) hafter hfound]
    have hstored : document ∈ after.gateway.store.objects := by
      rw [hobjects]
      exact List.mem_append_right _ (List.of_mem_zip hpair).2
    constructor
    · rintro ⟨-, hasked⟩ hnamespaced name hname own hown
      have hplace := hdocument.namespace?_eq hplans hplurals hlisted hnamespaced
      rw [hasked.namespace_eq hnamespaced name hname, hown] at hplace
      exact (Option.some.inj hplace).symm
    · intro hplace
      refine ⟨hstored, ⟨?_, ?_, fun hnamespaced name hname => ?_, nofun, nofun⟩⟩
      · rw [Document.stringAt?, hversion]
        rfl
      · rw [Document.stringAt?, hnamed]
        rfl
      · have hname : context.scope? = some name := hname
        rw [hdocument.namespace?_eq hplans hplurals hlisted hnamespaced, hname]
        cases hown : lastNamespace? target.node.properties with
        | none => rfl
        | some own => rw [hplace hnamespaced name hname own hown]; rfl
  · have hlast := execute_unhindered h hunhindered
    exact exists_execute_ofKind rules context binding hlast (hmeans.regular hregular) hafter

/-! ## Samples: a pod in another namespace, and one that is given another kind -/

namespace Sample

def podsApartText : String :=
  "CREATE (a:Pod), (b:Pod \x7bnamespace: \"prod\"\x7d)"

/-- A pod in the namespace of the context and one in a namespace of its own. -/
def podsApart : Query :=
  ⟨⟨[Node.ofBinding "a" "Pod" [], Node.ofBinding "b" "Pod" [⟨"namespace", .string "prod"⟩]], []⟩, .create⟩

def elsewhereText : String :=
  "CREATE (p:Pod \x7bnamespace: \"prod\"\x7d)"

def elsewhere : Query :=
  ⟨⟨[Node.ofBinding "p" "Pod" [⟨"namespace", .string "prod"⟩]], []⟩, .create⟩

def otherKindText : String :=
  "CREATE (p:Pod \x7bkind.x: 1\x7d)"

/-- A pod with a field below its kind. -/
def otherKind : Query :=
  ⟨⟨[Node.ofBinding "p" "Pod" [⟨"kind.x", .integer 1⟩]], []⟩, .create⟩

end Sample

/-- Of the two pods the one in the namespace of the context is found there. -/
theorem execute_create_instances_podsApart :
    Query.parse Sample.podsApartText = .ok Sample.podsApart ∧ PluralsDistinct standardListings ∧
      Cache.empty.Reached standardListings ∧ (∀ node ∈ Sample.podsApart.graph.nodes, node.SparesKind) ∧
      ∃ result after found seen first second,
        execute Rule.standard ⟨"default", false⟩ Sample.podsApart Sample.vacant = (.ok result, after) ∧
        after.gateway.store.objects = [first, second] ∧
        execute Rule.standard ⟨"default", false⟩ (Query.ofKind "p" "Pod") after = (.ok found, seen) ∧
        found.Finds "p" first ∧ ¬found.Finds "p" second := by
  have hparse : Query.parse Sample.podsApartText = .ok Sample.podsApart := by decide +kernel
  have hspares : ∀ node ∈ Sample.podsApart.graph.nodes, node.SparesKind := by decide +kernel
  have hok : (execute Rule.standard ⟨"default", false⟩ Sample.podsApart Sample.vacant).1.toOption.map (fun _ => ()) =
      some () := by
    decide +kernel
  obtain ⟨result, after, hrun, -⟩ := exists_of_view hok
  obtain ⟨documents, hobjects, hall⟩ :=
    execute_create_instances hparse rfl pluralsDistinct_standardListings Cache.Reached.empty hrun
  obtain ⟨first, others, hfirst, hothers, rfl⟩ := List.forall₂_cons_left_iff.1 hall
  obtain ⟨second, rest, hsecond, hrest, rfl⟩ := List.forall₂_cons_left_iff.1 hothers
  obtain rfl := List.forall₂_nil_left_iff.1 hrest
  obtain ⟨kind, hkind, -, -, hfinding⟩ := hfirst (hspares _ (by decide))
  obtain ⟨other, hother, -, -, hlooking⟩ := hsecond (hspares _ (by decide))
  obtain ⟨found, seen, hfound⟩ := (hfinding "p").2 ⟨rfl, rfl⟩
  refine ⟨hparse, pluralsDistinct_standardListings, Cache.Reached.empty, hspares, result, after, found, seen, first,
    second, hrun, hobjects, hfound, ((hfinding "p").1 found seen hfound).2 ?_, fun hfinds => ?_⟩
  · exact fun _ _ _ _ hown => nomatch hown
  · have hnamespaced : other.namespaced = true := by
      obtain rfl := Option.some.inj (hother.symm.trans rfl)
      rfl
    exact absurd (((hlooking "p").1 found seen hfound).1 hfinds hnamespaced "default" rfl "prod" rfl) (by decide)

namespace Sample

/-- Run over no objects in the default namespace, the query stores documents of the given kinds and namespaces, and the
query for all pods then finds none. -/
def Overlooked (query : Query) (stored : List (Option String × Option String)) : Prop :=
  ∃ result after found seen, execute Rule.standard ⟨"default", false⟩ query vacant = (.ok result, after) ∧
    after.gateway.store.objects.map (fun document => (document.stringAt? ["kind"], document.namespace?)) = stored ∧
    execute Rule.standard ⟨"default", false⟩ (Query.ofKind "p" "Pod") after = (.ok found, seen) ∧
    (found.binding? "p").map List.length = some 0

theorem overlooked_of_view {query : Query} {stored : List (Option String × Option String)} {after : Engine}
    (hafter : (execute Rule.standard ⟨"default", false⟩ query vacant).2 = after)
    (hok : (execute Rule.standard ⟨"default", false⟩ query vacant).1.toOption.map (fun _ => ()) = some ())
    (hstored :
      after.gateway.store.objects.map (fun document => (document.stringAt? ["kind"], document.namespace?)) = stored)
    (hfound : (execute Rule.standard ⟨"default", false⟩ (Query.ofKind "p" "Pod") after).1.toOption.map
      (fun found => (found.binding? "p").map List.length) = some (some 0)) : Overlooked query stored := by
  obtain ⟨result, last, hrun, -⟩ := exists_of_view hok
  rw [hrun] at hafter
  subst hafter
  obtain ⟨found, seen, hran, hnone⟩ := exists_of_view hfound
  exact ⟨result, last, found, seen, hrun, hstored, hran, hnone⟩

end Sample

/-- A pod that is created in a namespace of its own is stored and not found among the pods of the context's namespace,
and a pod with a field below its kind is stored with no kind and not found among the pods. -/
theorem exists_created_not_found :
    Query.parse Sample.elsewhereText = .ok Sample.elsewhere ∧ Query.parse Sample.otherKindText = .ok Sample.otherKind ∧
      Query.parse "MATCH (p:Pod)" = .ok (Query.ofKind "p" "Pod") ∧ PluralsDistinct standardListings ∧
      Sample.Overlooked Sample.elsewhere [(some "Pod", some "prod")] ∧
      Sample.Overlooked Sample.otherKind [(none, some "default")] := by
  refine ⟨by decide +kernel, by decide +kernel, by decide +kernel, pluralsDistinct_standardListings, ?_, ?_⟩
  · exact Sample.overlooked_of_view rfl (by decide +kernel) (by decide +kernel) (by decide +kernel)
  · exact Sample.overlooked_of_view rfl (by decide +kernel) (by decide +kernel) (by decide +kernel)

end Run

end ClusterQuery
