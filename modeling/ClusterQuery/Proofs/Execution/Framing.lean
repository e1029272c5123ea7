import ClusterQuery.Proofs.Execution.Assigning
import ClusterQuery.Proofs.Execution.Outcomes

/-!
# What assignments leave alone

A document that is changed is written back where its name and namespace say after the change, which need not be where
it was read (`Kind.addressOf?`). So assigning, whether it succeeds or fails, leaves every object at its place but those
at the addresses of changed documents (`Run.execute_assign_frame`); these are the matched objects themselves when
nothing is assigned to names and namespaces.
-/

namespace ClusterQuery

/-! ## Objects that are kept -/

/-- Place by place, each of the first objects is kept unless it may be touched. -/
def Framed (touched : Document → Prop) (before after : List Document) : Prop :=
  List.Forall₂ (fun old new => new = old ∨ touched old) before after

namespace Framed

variable {touched : Document → Prop} {before after : List Document}

theorem refl (touched : Document → Prop) (objects : List Document) : Framed touched objects objects :=
  List.forall₂_same.2 fun _ _ => Or.inl rfl

/-- What may be touched may be replaced. -/
theorem set (h : Framed touched before after) (position : Nat) (document : Document)
    (htouched : ∀ old, before[position]? = some old → touched old) :
    Framed touched before (after.set position document) := by
  refine List.forall₂_iff_get.2 ⟨by simp [h.length_eq], fun other hbefore hafter => ?_⟩
  simp only [List.get_eq_getElem, List.getElem_set]
  split
  · rename_i heq
    subst heq
    exact Or.inr (htouched _ (List.getElem?_eq_getElem hbefore))
  · exact h.get hbefore (by simpa using hafter)

/-- Where more may be touched, less need be kept. -/
theorem mono {other : Document → Prop} (h : Framed touched before after)
    (himp : ∀ old ∈ before, touched old → other old) : Framed other before after := by
  refine List.forall₂_iff_get.2 ⟨h.length_eq, fun position hbefore hafter => ?_⟩
  exact (h.get hbefore hafter).imp_right (himp _ (List.getElem_mem hbefore))

end Framed

/-! ## Where a document is written -/

/-- What is written to a store replaces at most the object at the address of the document. -/
theorem Store.update_framed {touched : Document → Prop} {objects : List Document} {target : Target}
    {document : Document} {store : Store}
    (htouched : ∀ old ∈ objects, target.kind.addressOf? store.listings document = some old.identity → touched old)
    (h : Framed touched objects store.objects) :
    (store.update target.kind.coordinate (target.namespaceOf document) document).2.listings = store.listings ∧
      Framed touched objects
        (store.update target.kind.coordinate (target.namespaceOf document) document).2.objects := by
  rcases hrun : store.update target.kind.coordinate (target.namespaceOf document) document with ⟨cause | stored, after⟩
  · -- a write that fails leaves the objects as they are
    unfold update at hrun
    split at hrun
    · cases hrun
      exact ⟨rfl, h⟩
    · dsimp only at hrun
      split at hrun
      · cases hrun
        exact ⟨rfl, h⟩
      · split at hrun
        · cases hrun
          exact ⟨rfl, h⟩
        · split at hrun
          · cases hrun
            exact ⟨rfl, h⟩
          · cases hrun
  · obtain ⟨name, resource, position, hname, hresource, hposition, -, hlistings, hobjects⟩ := update_eq_ok hrun
    refine ⟨hlistings, ?_⟩
    rw [show after.objects = _ from hobjects]
    refine h.set position stored fun old hold => ?_
    obtain ⟨hbound, hobject, -⟩ := List.findIdx?_eq_some_iff_getElem.1 hposition
    obtain ⟨hbound', rfl⟩ := List.getElem?_eq_some_iff.1 hold
    rcases h.get hbound' hbound with hkept | hdone
    · -- the object found at the address is still the one that was there
      simp only [List.get_eq_getElem] at hkept
      refine htouched _ (List.getElem_mem hbound') ?_
      rw [← hkept, isObject_iff.1 hobject, Kind.addressOf?, hresource, hname]
      rfl
    · exact hdone

/-- The paths that say where a document is written. -/
def addressPaths : List (List String) :=
  [["metadata", "name"], ["metadata", "namespace"]]

/-- Nothing is assigned at, above or below the name and the namespace. -/
def KeepsAddress (assigned : List (List String × Literal)) : Prop :=
  ∀ entry ∈ assigned, ∀ path ∈ addressPaths, ¬Comparable entry.1 path

instance (assigned : List (List String × Literal)) : Decidable (KeepsAddress assigned) :=
  inferInstanceAs (Decidable (∀ entry ∈ assigned, ∀ path ∈ addressPaths, ¬Comparable entry.1 path))

/-- The pattern of a query, run on the engine, matches the document under the binding. -/
def Query.Matches (query : Query) (rules : List Rule) (context : Context) (engine : Engine) (binding : String)
    (document : Document) : Prop :=
  ∃ found seen, Run.execute rules context query.finding engine = (.ok found, seen) ∧ found.Finds binding document

namespace Run

variable {engine after : Engine}

/-- The patch has a field. -/
def HasField (patch : Document) : Prop :=
  ∃ first rest, patch = .object (first :: rest)

/-- An update touches at most the object at the address of the changed document. -/
theorem update_keeps_framed {touched : Document → Prop} {store : Store} {target : Target} {patch document : Document}
    (htouched : HasField patch → ∀ old ∈ store.objects,
      target.kind.addressOf? store.listings (document.merge patch) = some old.identity → touched old) :
    Preserves (Engine.Stores fun listings objects => listings = store.listings ∧ Framed touched store.objects objects)
      (update target patch document) := by
  unfold update
  split
  · rename_i first rest
    refine preserves_call fun engine hengine => ?_
    refine Gateway.guarded_keeps (M := fun held =>
      held.listings = store.listings ∧ Framed touched store.objects held.objects) (fun held hheld => ?_) hengine
    obtain ⟨hlistings, hframed⟩ := Store.update_framed (hheld.1 ▸ htouched ⟨first, rest, rfl⟩) hheld.2
    exact ⟨hlistings.trans hheld.1, hframed⟩
  · exact preserves_pure document

/-- Assigning, whether it succeeds or fails, has matched nothing and left all objects, or it touches at most the objects
at the addresses of the matched documents with their patches. -/
theorem assign_framed {rules : List Rule} {context : Context} {graph : Graph} {targets : List Target}
    {assignments : List Property} {answer : Except ExecutionError Result} {patchOf : Target → Document}
    (hpatches : ∀ patches, patchesOf targets assignments = .ok patches → patches = targets.map patchOf)
    (h : assign rules context graph targets assignments engine = (answer, after)) :
    after.gateway.store.objects = engine.gateway.store.objects ∨
      ∃ family matching, matched rules context graph targets engine = (.ok family, matching) ∧
        Framed (fun old => ∃ pair ∈ targets.zip family, HasField (patchOf pair.1) ∧ ∃ document ∈ pair.2,
            pair.1.kind.addressOf? engine.gateway.store.listings (document.merge (patchOf pair.1)) = some old.identity)
          engine.gateway.store.objects after.gateway.store.objects := by
  rcases bind_cases h with ⟨cause, hread, -⟩ | ⟨patches, middle, hread, h⟩
  · exact Or.inl (congrArg (·.2.gateway.store.objects) hread).symm
  obtain ⟨hassigned, rfl⟩ := ofExcept_eq_ok.1 hread
  obtain rfl := hpatches patches hassigned
  rcases bind_cases h with ⟨cause, hmatched, -⟩ | ⟨family, matching, hmatched, h⟩
  · have hkept := preserves_matched (Engine.asking_stores fun _ objects => objects = engine.gateway.store.objects) rules
      context graph targets engine rfl
    rw [hmatched] at hkept
    exact Or.inl hkept
  refine Or.inr ⟨family, matching, hmatched, ?_⟩
  have hanswered := (matched_fetches hmatched).1
  rw [zip_zip_map] at h
  generalize htouched : (fun old : Document => ∃ pair ∈ targets.zip family, HasField (patchOf pair.1) ∧
    ∃ document ∈ pair.2, pair.1.kind.addressOf? engine.gateway.store.listings (document.merge (patchOf pair.1)) =
      some old.identity) = touched
  -- before the first write the objects are as they were read
  have hstart : matching.Stores fun listings objects => listings = engine.gateway.store.listings ∧
      Framed touched engine.gateway.store.objects objects := by
    refine ⟨hanswered.listings_eq, ?_⟩
    rw [hanswered.objects_eq]
    exact Framed.refl touched _
  have hall : after.Stores fun listings objects => listings = engine.gateway.store.listings ∧
      Framed touched engine.gateway.store.objects objects := by
    rw [show after = _ from (congrArg Prod.snd h).symm]
    refine Preserves.bind (sequential_preserves.mapM fun entry hentry => ?_) (fun _ => preserves_pure _) matching
      hstart
    obtain ⟨pair, hpair, rfl⟩ := List.mem_map.1 hentry
    refine Preserves.bind (sequential_preserves.mapM fun document hdocument => ?_) fun _ => preserves_pure _
    refine update_keeps_framed fun hfield old hold haddress => ?_
    rw [← htouched]
    exact ⟨pair, hpair, hfield, document, hdocument, haddress⟩
  exact hall.2

/-! ## From a query to the store -/

/-- A patch with a field has something assigned. -/
theorem assigned_ne_nil {query : Query} {binding : String} (h : HasField (query.patch binding)) :
    query.assigned binding ≠ [] := by
  intro hnone
  obtain ⟨first, rest, hpatch⟩ := h
  rw [Query.patch, hnone] at hpatch
  cases hpatch

/-- A query that assigns leaves every object that is not at the address of a document that it matches and changes. -/
theorem execute_assign_framed {text : String} {query : Query} {assignments : List Property} {rules : List Rule}
    {context : Context} {before after : Engine} {answer : Except ExecutionError Result}
    (hparse : Query.parse text = .ok query) (hclause : query.clause = .assign assignments)
    (h : execute rules context query before = (answer, after)) :
    Framed (fun old => ∃ node ∈ query.graph.nodes, query.assigned node.name ≠ [] ∧ ∃ kind document,
        before.cache.kindOf? before.gateway.store.listings node.kind = some kind ∧
        query.Matches rules context before node.name document ∧
        (∃ resource, resourceAt? before.gateway.store.listings kind.coordinate = some resource ∧
          document ∈ before.gateway.store.objects ∧
          document.isInstance kind.coordinate.apiVersion resource.kind = true) ∧
        kind.addressOf? before.gateway.store.listings (document.merge (query.patch node.name)) = some old.identity)
      before.gateway.store.objects after.gateway.store.objects := by
  have hnames := (Query.parse_wellFormed hparse).bindings_nodup
  rcases execute_cases h with hkept | ⟨started, targets, planned, told, acted, done, hstart, hplan, htold, hact, hend⟩
  · have hsame : after.gateway.store.objects = before.gateway.store.objects :=
      hkept _ (Engine.asking_stores fun _ objects => objects = before.gateway.store.objects) rfl
    rw [hsame]
    exact Framed.refl _ _
  obtain ⟨kinds, hplanned⟩ := planned_spec hnames hstart hplan htold
  obtain ⟨calls, hanswered⟩ := hplanned.answered
  unfold act at hact
  rw [hclause] at hact
  rw [hend.gateway_eq]
  rcases assign_framed (fun _ => patchesOf_eq_patch hnames hplanned.nodes_eq hclause) hact with
    hkept | ⟨family, matching, hmatched, hframed⟩
  · rw [hkept, hanswered.objects_eq]
    exact Framed.refl _ _
  rw [hanswered.objects_eq, hanswered.listings_eq] at hframed
  refine hframed.mono fun old _ htouched => ?_
  obtain ⟨pair, hpair, hfield, document, hdocument, haddress⟩ := htouched
  have htarget := (List.of_mem_zip hpair).1
  -- the query that only finds finds the document, and it was fetched for the kind of its target
  obtain ⟨seen, hfound⟩ := execute_finding (by rw [hclause]; rfl) hstart hplan htold hmatched
  have hbindings := hplanned.names_nodup hnames (matched_fetches hmatched).2.length_eq
  obtain ⟨fetched, ⟨resource, hresource, rfl⟩, hsub⟩ := List.forall₂_zip (matched_fetches hmatched).2 hpair
  obtain ⟨hstored, hpasses⟩ := List.mem_filter.1 (hsub hdocument)
  have hinstance := (Store.passes_eq_true_iff.1 (Bool.and_eq_true_iff.1 hpasses).1).1
  rw [hanswered.objects_eq] at hstored
  rw [hanswered.listings_eq] at hresource
  exact ⟨pair.1.node, hplanned.nodes_eq ▸ List.mem_map_of_mem htarget, assigned_ne_nil hfield, pair.1.kind, document,
    hplanned.kindOf?_eq htarget, ⟨_, seen, hfound, (finds_iff hbindings hpair document).2 hdocument⟩,
    ⟨resource, hresource, hstored, hinstance⟩, haddress⟩

/-- Where nothing is assigned to names and namespaces, a document keeps its address. -/
theorem addressOf?_merge_patch {query : Query} {binding : String} (h : KeepsAddress (query.assigned binding))
    (kind : Kind) (listings : List Listing) (document : Document) :
    kind.addressOf? listings (document.merge (query.patch binding)) = kind.addressOf? listings document := by
  have horderly : (query.patch binding).Orderly := orderly_mergedPatch _
  have hspares : ∀ path ∈ addressPaths, (query.patch binding).Spares path := by
    intro path hpath
    refine spares_mergedPatch ?_ fun entry hentry => h entry hentry path hpath
    rintro rfl
    exact absurd hpath (by decide)
  have hname := Document.at?_merge_of_spares horderly (hspares ["metadata", "name"] (by decide)) document
  have hnamespace := Document.at?_merge_of_spares horderly (hspares ["metadata", "namespace"] (by decide)) document
  simp only [Kind.addressOf?, Document.name?, Document.namespace?, Document.stringAt?, hname, hnamespace]

/-- However a query that assigns ends, every object is as it was, at its place, unless its identity is the address of a
document that is found under a binding to which something is assigned, as that changes the document. When nothing is
assigned at, above or below the name and the namespace, over objects with distinct identities that are looked for where
they are, the objects at these addresses are themselves found under such a binding. -/
theorem execute_assign_frame {text : String} {query : Query} {assignments : List Property} {rules : List Rule}
    {context : Context} {before after : Engine} {answer : Except ExecutionError Result}
    (hparse : Query.parse text = .ok query) (hclause : query.clause = .assign assignments)
    (h : execute rules context query before = (answer, after)) :
    Framed (fun old => ∃ node ∈ query.graph.nodes, query.assigned node.name ≠ [] ∧ ∃ kind document,
        before.cache.kindOf? before.gateway.store.listings node.kind = some kind ∧
        query.Matches rules context before node.name document ∧
        kind.addressOf? before.gateway.store.listings (document.merge (query.patch node.name)) = some old.identity)
      before.gateway.store.objects after.gateway.store.objects ∧
    ((before.gateway.store.objects.map Document.identity).Nodup → before.Homed →
      (∀ node ∈ query.graph.nodes, KeepsAddress (query.assigned node.name)) →
      Framed (fun old => ∃ node ∈ query.graph.nodes, query.assigned node.name ≠ [] ∧
          query.Matches rules context before node.name old)
        before.gateway.store.objects after.gateway.store.objects) := by
  have hframed := execute_assign_framed hparse hclause h
  constructor
  · refine hframed.mono fun old _ htouched => ?_
    obtain ⟨node, hnode, hassigned, kind, document, hkind, hmatches, -, haddress⟩ := htouched
    exact ⟨node, hnode, hassigned, kind, document, hkind, hmatches, haddress⟩
  · intro hdistinct hhomed hkeeps
    refine hframed.mono fun old hold htouched => ?_
    obtain ⟨node, hnode, hassigned, kind, document, hkind, hmatches, ⟨resource, hresource, hstored, hinstance⟩,
      haddress⟩ := htouched
    rw [addressOf?_merge_patch (hkeeps node hnode)] at haddress
    have hsame := Kind.addressOf?_eq_identity (hhomed node.kind kind hkind) hresource hstored hinstance haddress
    obtain rfl := List.inj_on_of_nodup_map hdistinct hold hstored hsame
    exact ⟨node, hnode, hassigned, hmatches⟩

/-! ## A sample: pods of one name in two namespaces -/

namespace Sample

/-- A pod of the name in a namespace, with an image. -/
def webIn (inNamespace image : String) : Document :=
  .object [("apiVersion", .string "v1"), ("kind", .string "Pod"),
    ("metadata", .object [("name", .string "web"), ("namespace", .string inNamespace)]),
    ("spec", .object [("image", .string image)])]

def twoWebs : Engine :=
  Engine.ofStore (Store.ofObjects standardListings [webIn "default" "a", webIn "prod" "b"])

/-- The assignments for the pod of the name. -/
def onWeb (assignments : List Property) : Query :=
  ⟨⟨[Node.ofBinding "p" "Pod" [⟨"name", .string "web"⟩]], []⟩, .assign assignments⟩

def newImageText : String :=
  "SET (p:Pod \x7bname: \"web\"\x7d) \x7bspec.image: \"c\"\x7d"

def newImage : Query :=
  onWeb [⟨"spec.image", .string "c"⟩]

def moveText : String :=
  "SET (p:Pod \x7bname: \"web\"\x7d) \x7bmetadata.namespace: \"prod\"\x7d"

def move : Query :=
  onWeb [⟨"metadata.namespace", .string "prod"⟩]

theorem homed_twoWebs : twoWebs.Homed := by
  refine Engine.homed_of_listed pluralsDistinct_standardListings Cache.Reached.empty ?_
  decide +kernel

/-- In the default namespace the pod there is found, and not the other one. -/
theorem not_matches_onWeb (assignments : List Property) : ∀ node ∈ (onWeb assignments).graph.nodes,
    ¬(onWeb assignments).Matches Rule.standard ⟨"default", false⟩ twoWebs node.name (webIn "prod" "b") := by
  have hview : (execute Rule.standard ⟨"default", false⟩ (onWeb []).finding twoWebs).1.toOption.map
      (fun found => (found.binding? "p").map (·.map Document.identity)) =
      some (some [(webIn "default" "a").identity]) := by
    decide +kernel
  obtain ⟨found, seen, hfound, hidentities⟩ := exists_of_view hview
  rintro node hnode ⟨found', seen', hfound', documents, hbinding, hmem⟩
  rw [show node = Node.ofBinding "p" "Pod" [⟨"name", .string "web"⟩] from List.mem_singleton.1 hnode] at hbinding
  cases hfound.symm.trans hfound'
  rw [show found.binding? "p" = some documents from hbinding, Option.map_some, Option.some.injEq] at hidentities
  have hidentity := List.mem_map_of_mem (f := Document.identity) hmem
  rw [hidentities, List.mem_singleton] at hidentity
  exact absurd hidentity (by decide)

end Sample

/-- A new image for the pod of the default namespace leaves the pod of the other one as it is. -/
theorem execute_assign_frame_newImage :
    Query.parse Sample.newImageText = .ok Sample.newImage ∧
      (Sample.twoWebs.gateway.store.objects.map Document.identity).Nodup ∧ Sample.twoWebs.Homed ∧
      (∀ node ∈ Sample.newImage.graph.nodes, KeepsAddress (Sample.newImage.assigned node.name)) ∧
      ∃ answer after, execute Rule.standard ⟨"default", false⟩ Sample.newImage Sample.twoWebs = (answer, after) ∧
        after.gateway.store.objects[1]? = some (Sample.webIn "prod" "b") := by
  have hparse : Query.parse Sample.newImageText = .ok Sample.newImage := by decide +kernel
  have hdistinct : (Sample.twoWebs.gateway.store.objects.map Document.identity).Nodup := by decide
  have hkeeps : ∀ node ∈ Sample.newImage.graph.nodes, KeepsAddress (Sample.newImage.assigned node.name) := by
    decide +kernel
  obtain ⟨answer, after, hrun⟩ : ∃ answer after,
      execute Rule.standard ⟨"default", false⟩ Sample.newImage Sample.twoWebs = (answer, after) := ⟨_, _, rfl⟩
  refine ⟨hparse, hdistinct, Sample.homed_twoWebs, hkeeps, answer, after, hrun, ?_⟩
  obtain ⟨-, hframed⟩ := execute_assign_frame hparse rfl hrun
  have hall := hframed hdistinct Sample.homed_twoWebs hkeeps
  have hbound : 1 < after.gateway.store.objects.length := hall.length_eq ▸ (by decide : 1 < 2)
  rw [List.getElem?_eq_getElem hbound, Option.some.injEq]
  refine (hall.get (i := 1) (by decide) hbound).resolve_right ?_
  rintro ⟨node, hnode, -, hmatches⟩
  exact Sample.not_matches_onWeb _ node hnode hmatches

/-- A new namespace for the pod of the default one overwrites the pod that is there already, which no binding
matches. -/
theorem execute_assign_overwrites_unmatched :
    Query.parse Sample.moveText = .ok Sample.move ∧
      (Sample.twoWebs.gateway.store.objects.map Document.identity).Nodup ∧
      Sample.webIn "prod" "b" ∈ Sample.twoWebs.gateway.store.objects ∧
      (∀ node ∈ Sample.move.graph.nodes,
        ¬Sample.move.Matches Rule.standard ⟨"default", false⟩ Sample.twoWebs node.name (Sample.webIn "prod" "b")) ∧
      ∃ result after, execute Rule.standard ⟨"default", false⟩ Sample.move Sample.twoWebs = (.ok result, after) ∧
        Sample.webIn "prod" "b" ∉ after.gateway.store.objects := by
  refine ⟨by decide +kernel, by decide, ?_, Sample.not_matches_onWeb _, ?_⟩
  · exact List.mem_cons_of_mem _ (List.mem_singleton_self _)
  · have hok : (execute Rule.standard ⟨"default", false⟩ Sample.move Sample.twoWebs).1.toOption.map (fun _ => ()) =
        some () := by
      decide +kernel
    have himages : (execute Rule.standard ⟨"default", false⟩ Sample.move
        Sample.twoWebs).2.gateway.store.objects.map (·.stringAt? ["spec", "image"]) = [some "a", some "a"] := by
      decide +kernel
    obtain ⟨result, after, hrun, -⟩ := exists_of_view hok
    refine ⟨result, after, hrun, fun hmem => ?_⟩
    rw [hrun] at himages
    have himage := List.mem_map_of_mem (f := (·.stringAt? ["spec", "image"])) hmem
    rw [himages] at himage
    exact absurd himage (by decide)

end Run

end ClusterQuery
