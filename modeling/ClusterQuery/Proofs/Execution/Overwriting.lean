import ClusterQuery.Proofs.Execution.Assigning

/-!
# What assignments leave in the store

An object that several bindings match is written for each of them, and has the patch of the last and no other
(`lastPatch?_allWrites`). So what a binding assigns is there afterwards exactly when no later one wrote to the object or
the object had the value before (`execute_assign_holds_iff`).
-/

namespace ClusterQuery

/-- Nothing is assigned at, above or below a reserved path. -/
def KeepsReserved (assigned : List (List String × Literal)) : Prop :=
  ∀ entry ∈ assigned, ∀ reserved ∈ Document.reservedPaths, ¬Comparable entry.1 reserved

instance (assigned : List (List String × Literal)) : Decidable (KeepsReserved assigned) :=
  inferInstanceAs (Decidable (∀ entry ∈ assigned, ∀ reserved ∈ Document.reservedPaths, ¬Comparable entry.1 reserved))

namespace Run

/-! ## Which write is the last -/

/-- What is written to a document is the patch. -/
theorem eq_of_mem_writesOf {patch document : Document} {write : Identity × Document}
    (h : write ∈ writesOf patch document) :
    write = (document.identity, patch) ∧ writesOf patch document = [(document.identity, patch)] := by
  unfold writesOf at h
  split at h
  · exact ⟨List.mem_singleton.1 h, rfl⟩
  · cases h

section Last

variable {patchOf : Target → Document} {pairs : List (Target × List Document)}

/-- The last patch that targets write is that of a target, written to a document of it. -/
theorem exists_of_lastPatch?_eq_some {identity : Identity} {patch : Document}
    (h : lastPatch? (allWrites patchOf pairs) identity = some patch) :
    ∃ pair ∈ pairs, ∃ held ∈ pair.2, held.identity = identity ∧ patchOf pair.1 = patch ∧
      writesOf (patchOf pair.1) held = [(held.identity, patchOf pair.1)] := by
  obtain ⟨pair, hpair, hwrite⟩ := List.mem_flatMap.1 (mem_of_lastPatch?_eq_some h)
  obtain ⟨held, hheld, hwrite⟩ := List.mem_flatMap.1 hwrite
  obtain ⟨heq, hwrites⟩ := eq_of_mem_writesOf hwrite
  obtain ⟨hidentity, hpatch⟩ := Prod.mk.inj heq
  exact ⟨pair, hpair, held, hheld, hidentity.symm, hpatch.symm, hwrites⟩

/-- When targets write no patch to a document, each that has the document sets nothing. -/
theorem writesOf_eq_nil_of_lastPatch? {document : Document}
    (h : lastPatch? (allWrites patchOf pairs) document.identity = none) :
    ∀ pair ∈ pairs, document ∈ pair.2 → writesOf (patchOf pair.1) document = [] := by
  intro pair hpair hmem
  refine List.eq_nil_iff_forall_not_mem.2 fun write hwrite => ?_
  refine lastPatch?_eq_none_iff.1 h write ?_ (congrArg Prod.fst (eq_of_mem_writesOf hwrite).1)
  exact List.mem_flatMap.2 ⟨pair, hpair, List.mem_flatMap.2 ⟨document, hmem, hwrite⟩⟩

/-- The last write to a document of a target that sets something is that of the target, when no later one writes to the
document, or else that of a later one. -/
theorem lastPatch?_allWrites (earlier later : List (Target × List Document)) {pair : Target × List Document}
    {document : Document} (hmem : document ∈ pair.2)
    (hwrites : writesOf (patchOf pair.1) document = [(document.identity, patchOf pair.1)]) :
    (lastPatch? (allWrites patchOf (earlier ++ pair :: later)) document.identity = some (patchOf pair.1) ∧
      ∀ other ∈ later, document ∈ other.2 → writesOf (patchOf other.1) document = []) ∨
    ∃ other ∈ later, ∃ held ∈ other.2, held.identity = document.identity ∧
      writesOf (patchOf other.1) held = [(held.identity, patchOf other.1)] ∧
      lastPatch? (allWrites patchOf (earlier ++ pair :: later)) document.identity = some (patchOf other.1) := by
  have hsplit : allWrites patchOf (earlier ++ pair :: later) = allWrites patchOf earlier ++
      (allWrites patchOf [pair] ++ allWrites patchOf later) := by
    simp [allWrites]
  rw [hsplit, lastPatch?_append, lastPatch?_append]
  cases hlater : lastPatch? (allWrites patchOf later) document.identity with
  | none =>
    refine Or.inl ⟨?_, writesOf_eq_nil_of_lastPatch? hlater⟩
    cases hown : lastPatch? (allWrites patchOf [pair]) document.identity with
    | none =>
      rw [writesOf_eq_nil_of_lastPatch? hown pair (List.mem_singleton_self _) hmem] at hwrites
      cases hwrites
    | some patch =>
      obtain ⟨same, hsame, -, -, -, rfl, -⟩ := exists_of_lastPatch?_eq_some hown
      rw [List.mem_singleton.1 hsame]
      rfl
  | some patch =>
    obtain ⟨other, hother, held, hheld, hidentity, rfl, hwritten⟩ := exists_of_lastPatch?_eq_some hlater
    exact Or.inr ⟨other, hother, held, hheld, hidentity, hwritten, rfl⟩

end Last

/-- A tame patch that has a scalar is written. -/
theorem writesOf_of_scalar {patch value : Document} {path : List String} (htame : patch.Tame)
    (h : patch.at? path = some value) (hvalue : value.isScalar = true) (document : Document) :
    writesOf patch document = [(document.identity, patch)] := by
  have hspares := htame.spares ["kind"] (by decide)
  cases patch with
  | object fields =>
    cases fields with
    | nil =>
      cases path with
      | nil =>
        cases h
        cases hvalue
      | cons key rest => cases h
    | cons first rest => rfl
  | _ => exact absurd hspares (by simp [Document.Spares])

/-- What one of several targets sets in a document is there after all writes exactly when no later target writes to the
document or it was there before; the other targets must spare its path. -/
theorem Changed.holds_iff {store : Store} {engine : Engine} {patchOf : Target → Document}
    {earlier later : List (Target × List Document)} {pair : Target × List Document} {document value : Document}
    {path : List String} (hnodup : (store.objects.map Document.identity).Nodup)
    (h : Changed store (allWrites patchOf (earlier ++ pair :: later)) engine)
    (hstored : ∀ other ∈ pair :: later, ∀ document ∈ other.2, document ∈ store.objects)
    (htame : ∀ other ∈ pair :: later, (patchOf other.1).Tame) (hmem : document ∈ pair.2)
    (hpath : (patchOf pair.1).at? path = some value) (hvalue : value.isScalar = true)
    (hspares : ∀ other ∈ later, document ∈ other.2 → (patchOf other.1).Spares path) :
    ∃ stored ∈ engine.gateway.store.objects, stored.identity = document.identity ∧
      (stored.at? path = some value ↔ document.at? path = some value ∨
        ∀ other ∈ later, document ∈ other.2 → writesOf (patchOf other.1) document = []) := by
  have hpair := htame pair List.mem_cons_self
  obtain ⟨position, hbound, hread⟩ := List.getElem_of_mem (hstored pair List.mem_cons_self document hmem)
  have hbound' : position < engine.gateway.store.objects.length := h.rewritten.length_eq ▸ hbound
  have hidentity := (h.rewritten.identity_eq h.tame).get hbound hbound'
  have halike := h.rewritten.get hbound hbound'
  simp only [List.get_eq_getElem, hread] at hidentity halike
  refine ⟨_, List.getElem_mem hbound', hidentity, ?_⟩
  obtain ⟨hne, hne'⟩ := hpair.path_ne hpath hvalue
  rw [halike path hne hne', afterWrites]
  have hwrites := writesOf_of_scalar hpair hpath hvalue document
  rcases lastPatch?_allWrites earlier later hmem hwrites with
    ⟨hlast, hquiet⟩ | ⟨other, hother, held, hheld, hsame, hwritten, hlast⟩
  · rw [hlast]
    exact iff_of_true (Document.at?_merge_of_scalar hpair.orderly hpath hvalue document) (Or.inr hquiet)
  · -- a later target has written what it read, and its patch spares the path
    have hlater := List.mem_cons_of_mem pair hother
    obtain rfl := List.inj_on_of_nodup_map hnodup (hstored other hlater held hheld)
      (hstored pair List.mem_cons_self document hmem) hsame
    rw [hlast, Document.at?_merge_of_spares (htame other hlater).orderly (hspares other hother hheld)]
    refine ⟨Or.inl, fun hcases => hcases.resolve_right fun hquiet => ?_⟩
    rw [hquiet other hother hheld] at hwritten
    cases hwritten

/-! ## From a query to the store -/

/-- The patch of a binding is tame when nothing is assigned at, above or below the reserved paths. -/
theorem tame_patch {query : Query} {binding : String} (h : KeepsReserved (query.assigned binding)) :
    (query.patch binding).Tame := by
  refine ⟨orderly_mergedPatch _, fun reserved hreserved => spares_mergedPatch ?_ fun entry hentry => ?_⟩
  · rintro rfl
    exact absurd hreserved (by decide)
  · exact h entry hentry reserved hreserved

/-- A binding writes nothing when nothing is assigned below it. -/
theorem writesOf_patch_eq_nil_iff {query : Query} {binding : String} (h : KeepsReserved (query.assigned binding))
    (document : Document) : writesOf (query.patch binding) document = [] ↔ query.assigned binding = [] := by
  constructor
  · intro hnone
    by_contra hne
    obtain ⟨first, rest, hpatch⟩ := mergedPatch_of_ne_nil hne fun entry hentry hnil =>
      h entry hentry ["kind"] (by decide) (Or.inl (hnil ▸ List.nil_prefix))
    rw [Query.patch, hpatch] at hnone
    cases hnone
  · intro hnone
    rw [Query.patch, hnone]
    rfl

/-- A query that assigns and succeeds has found, node by node, the stored objects that the query finds that only finds
its pattern, and has written the patch of each binding to what is found under it. -/
theorem execute_assign_changed {text : String} {query : Query} {assignments : List Property} {rules : List Rule}
    {context : Context} {before after : Engine} {result : Result} (hparse : Query.parse text = .ok query)
    (hclause : query.clause = .assign assignments)
    (hdistinct : (before.gateway.store.objects.map Document.identity).Nodup) (hhomed : before.Homed)
    (hkeeps : ∀ node ∈ query.graph.nodes, KeepsReserved (query.assigned node.name))
    (h : execute rules context query before = (.ok result, after)) :
    ∃ pairs graph seen,
      execute rules context query.finding before = (.ok ⟨bindingsOf pairs, graph, 0⟩, seen) ∧
      pairs.map (·.1.node) = query.graph.nodes ∧
      (∀ pair ∈ pairs, ∀ document ∈ pair.2, document ∈ before.gateway.store.objects) ∧
      Changed before.gateway.store (allWrites (fun target => query.patch target.node.name) pairs) after := by
  have hnames := (Query.parse_wellFormed hparse).bindings_nodup
  obtain ⟨started, targets, planned, told, done, hstart, hplan, htold, hact, hend⟩ := execute_eq_ok h
  obtain ⟨kinds, hplanned⟩ := planned_spec hnames hstart hplan htold
  obtain ⟨calls, hanswered⟩ := hplanned.answered
  unfold act at hact
  rw [hclause] at hact
  have htame : ∀ target ∈ targets, (query.patch target.node.name).Tame := fun target htarget =>
    tame_patch (hkeeps target.node (hplanned.nodes_eq ▸ List.mem_map_of_mem htarget))
  have hhomes : ∀ target ∈ targets, target.kind.Homes told.gateway.store := by
    intro target htarget
    rw [Kind.Homes, hanswered.listings_eq, hanswered.objects_eq]
    exact hhomed target.node.kind target.kind (hplanned.kindOf?_eq htarget)
  obtain ⟨family, matching, hmatched, hchanged⟩ := assign_changed (hanswered.objects_eq ▸ hdistinct) hhomes
    (fun _ => patchesOf_eq_patch hnames hplanned.nodes_eq hclause) htame hact
  obtain ⟨seen, hfound⟩ := execute_finding (by rw [hclause]; rfl) hstart hplan htold hmatched
  refine ⟨_, _, seen, hfound, ?_, fun pair hpair document hmem => ?_, ?_⟩
  · exact hplanned.map_node (matched_fetches hmatched).2.length_eq
  · rw [← hanswered.objects_eq]
    exact (addresses_of_matched hmatched hhomes hpair hmem).stored
  · refine ⟨?_, hchanged.tame, ?_⟩
    · rw [hend.gateway_eq, hchanged.listings_eq, hanswered.listings_eq]
    · rw [hend.gateway_eq, ← hanswered.objects_eq]
      exact hchanged.rewritten

/-- Whenever a query that assigns succeeds, over objects with distinct identities that are looked for where they are,
and assigns nothing at, above or below the reserved paths: every object keeps its identity, and the query that only
finds the pattern succeeds from the same engine. Take a document found under a binding and a path at which the patch of
the binding has a scalar, where no later binding that the document is found under assigns at, above or below the path.
Then the stored object of the document has the scalar at the path exactly when the document had it before or nothing is
assigned to any later binding that it is found under. -/
theorem execute_assign_holds_iff {text : String} {query : Query} {assignments : List Property} {rules : List Rule}
    {context : Context} {before after : Engine} {result : Result} (hparse : Query.parse text = .ok query)
    (hclause : query.clause = .assign assignments)
    (hdistinct : (before.gateway.store.objects.map Document.identity).Nodup) (hhomed : before.Homed)
    (hkeeps : ∀ node ∈ query.graph.nodes, KeepsReserved (query.assigned node.name))
    (h : execute rules context query before = (.ok result, after)) :
    after.gateway.store.objects.map Document.identity = before.gateway.store.objects.map Document.identity ∧
      ∃ found seen, execute rules context query.finding before = (.ok found, seen) ∧
        ∀ earlier node later, query.graph.nodes = earlier ++ node :: later →
          ∀ document path value, found.Finds node.name document →
            (query.patch node.name).at? path = some value → value.isScalar = true →
            (∀ other ∈ later, found.Finds other.name document →
              ∀ entry ∈ query.assigned other.name, ¬Comparable entry.1 path) →
            ∃ stored ∈ after.gateway.store.objects, stored.identity = document.identity ∧
              (stored.at? path = some value ↔ document.at? path = some value ∨
                ∀ other ∈ later, found.Finds other.name document → query.assigned other.name = []) := by
  obtain ⟨pairs, graph, seen, hfound, hnodes, hstored, hchanged⟩ :=
    execute_assign_changed hparse hclause hdistinct hhomed hkeeps h
  have hnames : (pairs.map (·.1.node.name)).Nodup := by
    have hbindings := (Query.parse_wellFormed hparse).bindings_nodup
    rw [Graph.bindings, ← hnodes, List.map_map] at hbindings
    exact hbindings
  refine ⟨hchanged.rewritten.identities_eq hchanged.tame, _, seen, hfound, ?_⟩
  intro earlier node later hsplit document path value hfinds hpath hvalue hothers
  obtain ⟨front, rest, rfl, -, hrest⟩ := List.map_eq_append_iff.1 (hnodes.trans hsplit)
  obtain ⟨pair, others, rfl, rfl, rfl⟩ := List.map_eq_cons_iff.1 hrest
  have hmem : ∀ other ∈ pair :: others, other ∈ front ++ pair :: others := fun other hother =>
    List.mem_append_right front hother
  have htame : ∀ other ∈ pair :: others, (query.patch other.1.node.name).Tame := fun other hother =>
    tame_patch (hkeeps _ (hnodes ▸ List.mem_map_of_mem (hmem other hother)))
  have hheld : ∀ other ∈ pair :: others,
      (⟨bindingsOf (front ++ pair :: others), graph, 0⟩ : Result).Finds other.1.node.name document ↔
        document ∈ other.2 := fun other hother => finds_iff hnames (hmem other hother) document
  have hspares : ∀ other ∈ others, document ∈ other.2 → (query.patch other.1.node.name).Spares path :=
    fun other hother hdocument => spares_mergedPatch ((htame pair List.mem_cons_self).path_ne hpath hvalue).1 <|
      hothers _ (List.mem_map_of_mem hother) ((hheld other (List.mem_cons_of_mem pair hother)).2 hdocument)
  obtain ⟨stored, hstored, hidentity, hiff⟩ := hchanged.holds_iff hdistinct
    (fun other hother => hstored other (hmem other hother)) htame ((hheld pair List.mem_cons_self).1 hfinds) hpath
    hvalue hspares
  refine ⟨stored, hstored, hidentity, hiff.trans (or_congr_right ?_)⟩
  rw [List.forall_mem_map]
  refine forall₂_congr fun other hother => ?_
  have hlater := List.mem_cons_of_mem pair hother
  rw [hheld other hlater, writesOf_patch_eq_nil_iff (hkeeps _ (hnodes ▸ List.mem_map_of_mem (hmem other hlater)))]

/-! ## A sample: a pod under two bindings -/

namespace Sample

/-- A pod without a specification. -/
def webPod : Document :=
  .object [("apiVersion", .string "v1"), ("kind", .string "Pod"),
    ("metadata", .object [("name", .string "web"), ("namespace", .string "default")])]

/-- The pod alone. -/
def webCluster : Engine :=
  Engine.ofStore (Store.ofObjects standardListings [webPod])

def overlapText : String :=
  "SET (a:Pod \x7bname: \"web\"\x7d), (b:Pod) \x7ba.spec.x: 1, b.spec.y: 2\x7d"

/-- One field for the pod of a name, and another for every pod. -/
def overlap : Query :=
  ⟨⟨[Node.ofBinding "a" "Pod" [⟨"name", .string "web"⟩], Node.ofBinding "b" "Pod" []], []⟩,
    .assign [⟨"a.spec.x", .integer 1⟩, ⟨"b.spec.y", .integer 2⟩]⟩

theorem parse_overlapText : Query.parse overlapText = .ok overlap := by
  decide +kernel

theorem homed_webCluster : webCluster.Homed := by
  refine Engine.homed_of_listed pluralsDistinct_standardListings Cache.Reached.empty ?_
  decide +kernel

theorem assigned_overlap : overlap.assigned "a" = [(["spec", "x"], .integer 1)] ∧
    overlap.assigned "b" = [(["spec", "y"], .integer 2)] := by
  decide +kernel

/-- Neither field is at a reserved path. -/
theorem keepsReserved_overlap : ∀ node ∈ overlap.graph.nodes, KeepsReserved (overlap.assigned node.name) := by
  decide +kernel

/-- The pod is found under both bindings. -/
theorem found_overlap : ∃ found seen,
    execute Rule.standard ⟨"default", false⟩ overlap.finding webCluster = (.ok found, seen) ∧
      (found.binding? "a").map (·.map Document.identity) = some [webPod.identity] ∧
      (found.binding? "b").map (·.map Document.identity) = some [webPod.identity] := by
  have hnames : (execute Rule.standard ⟨"default", false⟩ overlap.finding webCluster).1.toOption.map (fun found =>
      ((found.binding? "a").map (·.map Document.identity), (found.binding? "b").map (·.map Document.identity))) =
      some (some [webPod.identity], some [webPod.identity]) := by
    decide +kernel
  cases hrun : execute Rule.standard ⟨"default", false⟩ overlap.finding webCluster with
  | mk answer seen =>
    rw [hrun] at hnames
    cases answer with
    | error cause => cases hnames
    | ok found =>
      obtain ⟨ha, hb⟩ := Prod.mk.inj (Option.some.inj hnames)
      exact ⟨found, seen, rfl, ha, hb⟩

/-- The pod is stored afterwards with the field of the second binding, and without that of the first. -/
theorem stored_overlap : ∃ result after,
    execute Rule.standard ⟨"default", false⟩ overlap webCluster = (.ok result, after) ∧
      after.gateway.store.objects.map (fun stored => (stored.identity, (stored.at? ["spec", "x"]).isSome)) =
        [(webPod.identity, false)] := by
  have hobjects : (execute Rule.standard ⟨"default", false⟩ overlap webCluster).2.gateway.store.objects.map
      (fun stored => (stored.identity, (stored.at? ["spec", "x"]).isSome)) = [(webPod.identity, false)] := by
    decide +kernel
  have hok : (execute Rule.standard ⟨"default", false⟩ overlap webCluster).1.toOption.isSome = true := by
    decide +kernel
  cases hrun : execute Rule.standard ⟨"default", false⟩ overlap webCluster with
  | mk answer after =>
    rw [hrun] at hobjects hok
    cases answer with
    | error cause => cases hok
    | ok result => exact ⟨result, after, rfl, hobjects⟩

end Sample

/-- What the last of the bindings assigns to the pod is there. -/
theorem execute_assign_holds_iff_overlap :
    Query.parse Sample.overlapText = .ok Sample.overlap ∧
      (Sample.webCluster.gateway.store.objects.map Document.identity).Nodup ∧ Sample.webCluster.Homed ∧
      (∀ node ∈ Sample.overlap.graph.nodes, KeepsReserved (Sample.overlap.assigned node.name)) ∧
      ∃ result after found seen document,
        execute Rule.standard ⟨"default", false⟩ Sample.overlap Sample.webCluster = (.ok result, after) ∧
        execute Rule.standard ⟨"default", false⟩ Sample.overlap.finding Sample.webCluster = (.ok found, seen) ∧
        found.Finds "b" document ∧ document.identity = Sample.webPod.identity ∧
        ∃ stored ∈ after.gateway.store.objects, stored.identity = document.identity ∧
          stored.at? ["spec", "y"] = some (.int 2) := by
  have hdistinct : (Sample.webCluster.gateway.store.objects.map Document.identity).Nodup := by decide
  refine ⟨Sample.parse_overlapText, hdistinct, Sample.homed_webCluster, Sample.keepsReserved_overlap, ?_⟩
  obtain ⟨result, after, hrun, -⟩ := Sample.stored_overlap
  obtain ⟨found, seen, hfound, -, hb⟩ := Sample.found_overlap
  obtain ⟨-, found', seen', hfound', hholds⟩ := execute_assign_holds_iff Sample.parse_overlapText rfl hdistinct
    Sample.homed_webCluster Sample.keepsReserved_overlap hrun
  cases hfound.symm.trans hfound'
  obtain ⟨documents, hdocuments, hidentities⟩ := Option.map_eq_some_iff.1 hb
  obtain ⟨document, rfl, hidentity⟩ := List.map_eq_singleton_iff.1 hidentities
  have hfinds : found.Finds "b" document := ⟨_, hdocuments, List.mem_singleton_self _⟩
  have hpatch : (Sample.overlap.patch "b").at? ["spec", "y"] = some (.int 2) := by
    rw [Query.patch, Sample.assigned_overlap.2]
    rfl
  obtain ⟨stored, hmem, hsame, hiff⟩ := hholds [Node.ofBinding "a" "Pod" [⟨"name", .string "web"⟩]]
    (Node.ofBinding "b" "Pod" []) [] rfl document ["spec", "y"] (.int 2) hfinds hpatch rfl
    (List.forall_mem_nil _)
  exact ⟨result, after, found, seen, document, hrun, hfound, hfinds, hidentity, stored, hmem, hsame,
    hiff.2 (Or.inr (List.forall_mem_nil _))⟩

/-- What the first of the bindings assigns to the pod is lost: the second writes the pod as it was read, with its own
field only. -/
theorem execute_assign_overwrites :
    Query.parse Sample.overlapText = .ok Sample.overlap ∧
      (Sample.webCluster.gateway.store.objects.map Document.identity).Nodup ∧
      (∀ node ∈ Sample.overlap.graph.nodes, KeepsReserved (Sample.overlap.assigned node.name)) ∧
      (Sample.overlap.patch "a").at? ["spec", "x"] = some (.int 1) ∧
      (∀ entry ∈ Sample.overlap.assigned "b", ¬Comparable entry.1 ["spec", "x"]) ∧
      ∃ result after found seen,
        execute Rule.standard ⟨"default", false⟩ Sample.overlap Sample.webCluster = (.ok result, after) ∧
        execute Rule.standard ⟨"default", false⟩ Sample.overlap.finding Sample.webCluster = (.ok found, seen) ∧
        (found.binding? "a").map (·.map Document.identity) = some [Sample.webPod.identity] ∧
        (found.binding? "b").map (·.map Document.identity) = some [Sample.webPod.identity] ∧
        after.gateway.store.objects.map Document.identity = [Sample.webPod.identity] ∧
        ∀ stored ∈ after.gateway.store.objects, stored.at? ["spec", "x"] = none := by
  refine ⟨Sample.parse_overlapText, by decide, Sample.keepsReserved_overlap, ?_, ?_, ?_⟩
  · rw [Query.patch, Sample.assigned_overlap.1]
    rfl
  · rw [Sample.assigned_overlap.2]
    decide
  · obtain ⟨result, after, hrun, hobjects⟩ := Sample.stored_overlap
    obtain ⟨found, seen, hfound, ha, hb⟩ := Sample.found_overlap
    obtain ⟨stored, hstored, hpair⟩ := List.map_eq_singleton_iff.1 hobjects
    obtain ⟨hidentity, hnone⟩ := Prod.mk.inj hpair
    refine ⟨result, after, found, seen, hrun, hfound, ha, hb, by rw [hstored]; exact congrArg ([·]) hidentity, ?_⟩
    rw [hstored, List.forall_mem_singleton]
    exact Option.isNone_iff_eq_none.1 (Option.isSome_eq_false_iff.1 hnone)

end Run

end ClusterQuery
