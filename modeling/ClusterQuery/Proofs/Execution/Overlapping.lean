import ClusterQuery.Proofs.Execution.Deleting

/-!
# When a removal stops half way

All that a query deletes is matched before the first document is removed, so a document under two bindings is asked to
be removed twice. Where nothing else fails, a query that deletes succeeds exactly when no document is under two bindings
(`Run.execute_delete_ok_iff`); else it stops at the first that an earlier binding had removed, and what came before it
is gone.
-/

namespace ClusterQuery

/-- Lists of which no two share an element, or the first list that shares one with an earlier one, taken apart at the
first shared element. -/
theorem pairwise_disjoint_or_overlap {α β : Type} (f : α → List β) (entries : List α) :
    (entries.Pairwise fun entry other => (f entry).Disjoint (f other)) ∨
      ∃ earlier entry later front x back, entries = earlier ++ entry :: later ∧
        (earlier.Pairwise fun entry other => (f entry).Disjoint (f other)) ∧ f entry = front ++ x :: back ∧
        (∀ y ∈ front, ∀ other ∈ earlier, y ∉ f other) ∧ ∃ other ∈ earlier, x ∈ f other := by
  classical
  induction entries using List.reverseRecOn with
  | nil => exact Or.inl List.Pairwise.nil
  | append_singleton entries last ih =>
    rcases ih with hapart | ⟨earlier, entry, later, front, x, back, rfl, hapart, hentry, hfront, hx⟩
    · cases hfind : (f last).find? fun x => ∃ other ∈ entries, x ∈ f other with
      | none =>
        left
        rw [List.pairwise_append]
        refine ⟨hapart, List.pairwise_singleton _ _, ?_⟩
        intro other hother same hsame x hx hx'
        rw [List.mem_singleton.1 hsame] at hx'
        have hnone := List.find?_eq_none.1 hfind x hx'
        exact hnone (decide_eq_true ⟨other, hother, hx⟩)
      | some x =>
        right
        obtain ⟨hshared, front, back, hlast, hfront⟩ := List.find?_eq_some_iff_append.1 hfind
        refine ⟨entries, last, [], front, x, back, rfl, hapart, hlast, fun y hy other hother hmem => ?_,
          of_decide_eq_true hshared⟩
        have hnot := hfront y hy
        rw [decide_eq_true (⟨other, hother, hmem⟩ : ∃ other ∈ entries, y ∈ f other)] at hnot
        cases hnot
    · right
      exact ⟨earlier, entry, later ++ [last], front, x, back, by simp, hapart, hentry, hfront, hx⟩

/-- No document stands under the bindings of two of the nodes. -/
def Result.Apart (result : Result) (nodes : List Node) : Prop :=
  nodes.Pairwise fun node other => ∀ document, result.Finds node.name document → ¬result.Finds other.name document

/-- The document is the first, by nodes and then by documents, that is under the binding of an earlier node too; before
it at its node come the given documents. -/
structure Result.FirstOverlap (result : Result) (nodes earlier : List Node) (node : Node) (front : List Document)
    (document : Document) : Prop where
  split : ∃ later, nodes = earlier ++ node :: later
  apart : result.Apart earlier
  binding : ∃ back, result.binding? node.name = some (front ++ document :: back)
  fresh : ∀ removed ∈ front, ∀ other ∈ earlier, ¬result.Finds other.name removed
  shared : ∃ other ∈ earlier, result.Finds other.name document

namespace Run

variable {store : Store} {engine after : Engine} {gone : List Identity} {context : Context}

/-! ## One removal after another -/

section Removing

variable {target : Target} {document : Document}

variable (hlost : Lost store gone engine) (haddresses : Addresses store target document)
  (hunhindered : engine.Unhindered)

include hlost haddresses hunhindered

/-- A document that is not gone is removed. -/
theorem exists_remove_eq_ok (hdistinct : (store.objects.map Document.identity).Nodup) (hnamed : document.name? ≠ none)
    (h : document.identity ∉ gone) : ∃ after, remove context target document engine = (.ok (), after) := by
  obtain ⟨name, hname⟩ := Option.ne_none_iff_exists'.1 hnamed
  obtain ⟨next, hnext, -⟩ := hlost.delete_of_notMem haddresses hname hdistinct h
  have hdelete : engine.gateway.delete target.kind.coordinate (target.namespaceOf document) name =
      (.ok (), ⟨next, none⟩) := by
    rw [Gateway.delete, Gateway.guarded_of_fault_eq_none hunhindered.fault_eq, hnext]
  unfold remove
  rw [hname]
  exact ⟨_, bind_eq_ok.2 ⟨(), _, call_eq_ok.2 ⟨_, hdelete, rfl⟩, rfl⟩⟩

/-- A document that is gone is not found, and no other is removed. -/
theorem remove_of_gone {name : String} (hname : document.name? = some name) (h : document.identity ∈ gone) :
    ∃ after, remove context target document engine = (.error (.store target.node.name target.kind.kind
      (Store.unknownObject target.kind.coordinate name)), after) ∧ Lost store gone after := by
  obtain ⟨gateway, hdelete, hlistings, hobjects⟩ : ∃ gateway,
      engine.gateway.delete target.kind.coordinate (target.namespaceOf document) name =
        (.error (Store.unknownObject target.kind.coordinate name), gateway) ∧
      gateway.store.listings = engine.gateway.store.listings ∧
      gateway.store.objects = engine.gateway.store.objects := by
    rw [Gateway.delete, Gateway.guarded_of_fault_eq_none hunhindered.fault_eq,
      hlost.delete_of_mem haddresses hname h]
    exact ⟨_, rfl, rfl, rfl⟩
  refine ⟨{ engine with gateway := gateway }, ?_, hlistings.trans hlost.listings_eq, hobjects.trans hlost.objects_eq⟩
  unfold remove
  rw [hname]
  show ((call target fun gateway =>
    gateway.delete target.kind.coordinate (target.namespaceOf document) name) >>= fun _ => trace context _) engine = _
  rw [bind_apply]
  simp only [call, hdelete]

end Removing

/-- Documents of distinct identities, of which none is gone, are all removed. -/
theorem exists_forM_remove_eq_ok {entries : List (Target × Document)}
    (hdistinct : (store.objects.map Document.identity).Nodup)
    (haddresses : ∀ entry ∈ entries, Addresses store entry.1 entry.2)
    (hnamed : ∀ object ∈ store.objects, object.name? ≠ none) (hlost : Lost store gone engine)
    (hunhindered : engine.Unhindered) (hfresh : (gone ++ removedIdentities entries).Nodup) :
    ∃ after, (entries.forM fun entry => remove context entry.1 entry.2) engine = (.ok (), after) := by
  induction entries generalizing engine gone with
  | nil => exact ⟨engine, rfl⟩
  | cons entry rest ih =>
    obtain ⟨hfirst, hrest⟩ := List.forall_mem_cons.1 haddresses
    have hsplit : gone ++ removedIdentities (entry :: rest) =
        (gone ++ [entry.2.identity]) ++ removedIdentities rest := by
      simp [removedIdentities]
    rw [hsplit] at hfresh
    have hnew : entry.2.identity ∉ gone := by
      intro hmem
      exact (List.nodup_append.1 (List.nodup_append.1 hfresh).1).2.2 _ hmem _ (List.mem_singleton_self _) rfl
    obtain ⟨middle, hremove⟩ : ∃ middle, remove context entry.1 entry.2 engine = (.ok (), middle) :=
      exists_remove_eq_ok hlost hfirst hunhindered hdistinct (hnamed _ hfirst.stored) hnew
    have hmiddle := preserves_remove Engine.invariant_unhindered context entry.1 entry.2 engine hunhindered
    rw [hremove] at hmiddle
    obtain ⟨after, hall⟩ := ih hrest (remove_lost hdistinct hfirst hlost hremove) hmiddle hfresh
    exact ⟨after, bind_eq_ok.2 ⟨(), middle, hremove, hall⟩⟩

/-- After documents of distinct identities, of which none is gone, a document that is gone stops the removals. -/
theorem forM_remove_of_gone {front back : List (Target × Document)} {target : Target} {document : Document}
    {name : String} (hdistinct : (store.objects.map Document.identity).Nodup)
    (haddresses : ∀ entry ∈ front ++ (target, document) :: back, Addresses store entry.1 entry.2)
    (hnamed : ∀ object ∈ store.objects, object.name? ≠ none) (hlost : Lost store gone engine)
    (hunhindered : engine.Unhindered) (hfresh : (gone ++ removedIdentities front).Nodup)
    (hname : document.name? = some name) (hgone : document.identity ∈ gone ++ removedIdentities front) :
    ∃ after, ((front ++ (target, document) :: back).forM fun entry => remove context entry.1 entry.2) engine =
        (.error (.store target.node.name target.kind.kind (Store.unknownObject target.kind.coordinate name)), after) ∧
      Lost store (gone ++ removedIdentities front) after := by
  obtain ⟨hfront, hrest⟩ := List.forall_mem_append.1 haddresses
  obtain ⟨middle, hremoved⟩ : ∃ middle,
      (front.forM fun entry => remove context entry.1 entry.2) engine = (.ok (), middle) :=
    exists_forM_remove_eq_ok hdistinct hfront hnamed hlost hunhindered hfresh
  have hkept : Preserves Engine.Unhindered (front.forM fun entry => remove context entry.1 entry.2) :=
    sequential_preserves.forM fun entry _ => preserves_remove Engine.invariant_unhindered context entry.1 entry.2
  have hmiddle := hkept engine hunhindered
  rw [hremoved] at hmiddle
  obtain ⟨after, hstopped, hafter⟩ : ∃ after, remove context target document middle = (.error (.store target.node.name
      target.kind.kind (Store.unknownObject target.kind.coordinate name)), after) ∧
        Lost store (gone ++ removedIdentities front) after :=
    remove_of_gone (forM_remove_lost hdistinct hfront hlost hremoved) (List.forall_mem_cons.1 hrest).1 hmiddle hname
      hgone
  refine ⟨after, ?_, hafter⟩
  rw [List.forM_eq_forM] at hremoved ⊢
  rw [List.forM_append, bind_apply, hremoved]
  show (forM ((target, document) :: back) fun entry => remove context entry.1 entry.2) middle = _
  rw [List.forM_cons, bind_apply, hstopped]

/-! ## All bindings -/

section Bindings

variable {pairs : List (Target × List Document)}

/-- Documents of lists that share none have distinct identities. -/
theorem nodup_removals (hdistinct : (store.objects.map Document.identity).Nodup)
    (hsub : ∀ pair ∈ pairs, pair.2.Sublist store.objects)
    (hapart : pairs.Pairwise fun pair other => pair.2.Disjoint other.2) :
    (removedIdentities (removals pairs)).Nodup := by
  have hflat : removedIdentities (removals pairs) = pairs.flatMap fun pair => pair.2.map Document.identity := by
    simp only [removedIdentities, removals, List.map_flatMap, List.map_map]
    rfl
  rw [hflat, List.nodup_flatMap]
  refine ⟨fun pair hpair => hdistinct.sublist ((hsub pair hpair).map _), ?_⟩
  refine hapart.imp_of_mem fun {pair other} hpair hother hdisjoint identity hmem hmem' => ?_
  obtain ⟨document, hdocument, rfl⟩ := List.mem_map.1 hmem
  obtain ⟨held, hheld, hsame⟩ := List.mem_map.1 hmem'
  obtain rfl := List.inj_on_of_nodup_map hdistinct ((hsub other hother).subset hheld)
    ((hsub pair hpair).subset hdocument) hsame
  exact hdisjoint hdocument hheld

/-- Among the nodes of some targets no document is under two bindings when their lists share none. -/
theorem apart_iff {graph : Graph} {elapsed : Nat} {part : List (Target × List Document)}
    (hnames : (pairs.map (·.1.node.name)).Nodup) (hpart : part ⊆ pairs) :
    (⟨bindingsOf pairs, graph, elapsed⟩ : Result).Apart (part.map (·.1.node)) ↔
      part.Pairwise fun pair other => pair.2.Disjoint other.2 := by
  rw [Result.Apart, List.pairwise_map]
  refine List.Pairwise.iff_of_mem fun {pair other} hpair hother => forall_congr' fun document => ?_
  rw [finds_iff hnames (hpart hpair), finds_iff hnames (hpart hother)]

/-- The first overlap of the lists of targets is the first of the documents that stand under their bindings. -/
theorem firstOverlap_of_split {graph : Graph} {elapsed : Nat} {earlier later : List (Target × List Document)}
    {pair : Target × List Document} {front back : List Document} {document : Document}
    (hnames : (pairs.map (·.1.node.name)).Nodup) (hsplit : pairs = earlier ++ pair :: later)
    (hapart : earlier.Pairwise fun pair other => pair.2.Disjoint other.2) (hpair : pair.2 = front ++ document :: back)
    (hfresh : ∀ removed ∈ front, ∀ other ∈ earlier, removed ∉ other.2)
    (hshared : ∃ other ∈ earlier, document ∈ other.2) :
    (⟨bindingsOf pairs, graph, elapsed⟩ : Result).FirstOverlap (pairs.map (·.1.node)) (earlier.map (·.1.node))
      pair.1.node front document := by
  have hmem : pair ∈ pairs := by simp [hsplit]
  have hearlier : earlier ⊆ pairs := fun other hother => by simp [hsplit, hother]
  refine ⟨⟨later.map (·.1.node), by simp [hsplit]⟩, (apart_iff hnames hearlier).2 hapart,
    ⟨back, hpair ▸ binding?_of_mem hnames hmem⟩, fun removed hremoved => ?_, ?_⟩
  · rw [List.forall_mem_map]
    intro other hother hfinds
    exact hfresh removed hremoved other hother ((finds_iff hnames (hearlier hother) removed).1 hfinds)
  · obtain ⟨other, hother, hdocument⟩ := hshared
    exact ⟨other.1.node, List.mem_map_of_mem hother, (finds_iff hnames (hearlier hother) document).2 hdocument⟩

/-- The objects of a store without the documents of some targets and the first ones of the next. -/
theorem without_removals {graph : Graph} {elapsed : Nat} {earlier later : List (Target × List Document)}
    {pair : Target × List Document} {front back : List Document}
    (hdistinct : (store.objects.map Document.identity).Nodup)
    (hstored : ∀ pair ∈ pairs, ∀ document ∈ pair.2, document ∈ store.objects)
    (hnames : (pairs.map (·.1.node.name)).Nodup) (hsplit : pairs = earlier ++ pair :: later)
    (hpair : pair.2 = front ++ back) {object : Document} (hobject : object ∈ store.objects) :
    object.identity ∈ removedIdentities (removals (earlier ++ [(pair.1, front)])) ↔
      (∃ other ∈ earlier.map (·.1.node), (⟨bindingsOf pairs, graph, elapsed⟩ : Result).Finds other.name object) ∨
        object ∈ front := by
  have hmem : pair ∈ pairs := by simp [hsplit]
  have hearlier : earlier ⊆ pairs := fun other hother => by simp [hsplit, hother]
  rw [identity_mem_removals hdistinct ?_ hobject]
  · simp only [List.mem_append, List.mem_singleton, or_and_right, exists_or, exists_eq_left]
    refine or_congr_left ?_
    constructor
    · rintro ⟨other, hother, hheld⟩
      exact ⟨other.1.node, List.mem_map_of_mem hother, (finds_iff hnames (hearlier hother) object).2 hheld⟩
    · rintro ⟨node, hnode, hfinds⟩
      obtain ⟨other, hother, rfl⟩ := List.mem_map.1 hnode
      exact ⟨other, hother, (finds_iff hnames (hearlier hother) object).1 hfinds⟩
  · intro other hother document hdocument
    rcases List.mem_append.1 hother with hother | hother
    · exact hstored other (hearlier hother) document hdocument
    · rw [List.mem_singleton.1 hother] at hdocument
      refine hstored pair hmem document ?_
      rw [hpair]
      exact List.mem_append_left back hdocument

variable {rules : List Rule} {graph : Graph} {targets : List Target} {family : Link.Family} {matching : Engine}

/-- Where nothing else fails, removing what is matched succeeds when no document is matched for two targets, and else
stops at the first that was matched for an earlier target; then what came before it is gone. -/
theorem delete_cases (hmatched : matched rules context graph targets engine = (.ok family, matching))
    (hdistinct : (store.objects.map Document.identity).Nodup)
    (hsub : ∀ pair ∈ targets.zip family, pair.2.Sublist store.objects)
    (haddresses : ∀ pair ∈ targets.zip family, ∀ document ∈ pair.2, Addresses store pair.1 document)
    (hnamed : ∀ object ∈ store.objects, object.name? ≠ none) (hlost : Lost store [] matching)
    (hunhindered : matching.Unhindered) :
    ((targets.zip family).Pairwise (fun pair other => pair.2.Disjoint other.2) ∧
      ∃ result after, delete rules context graph targets engine = (.ok result, after)) ∨
    ∃ earlier pair later front document back name after, targets.zip family = earlier ++ pair :: later ∧
      (earlier.Pairwise fun pair other => pair.2.Disjoint other.2) ∧ pair.2 = front ++ document :: back ∧
      (∀ removed ∈ front, ∀ other ∈ earlier, removed ∉ other.2) ∧ (∃ other ∈ earlier, document ∈ other.2) ∧
      document.name? = some name ∧
      delete rules context graph targets engine =
        (.error (.store pair.1.node.name pair.1.kind.kind (Store.unknownObject pair.1.kind.coordinate name)), after) ∧
      Lost store (removedIdentities (removals (earlier ++ [(pair.1, front)]))) after := by
  have hall : ∀ entry ∈ removals (targets.zip family), Addresses store entry.1 entry.2 := by
    rintro ⟨target, document⟩ hentry
    obtain ⟨pair, hpair, rfl, hdocument⟩ := mem_removals.1 hentry
    exact haddresses pair hpair document hdocument
  rcases pairwise_disjoint_or_overlap (·.2) (targets.zip family) with
    hapart | ⟨earlier, pair, later, front, document, back, hsplit, hapart, hpair, hfront, hshared⟩
  · left
    obtain ⟨after, hremoved⟩ : ∃ after, ((removals (targets.zip family)).forM fun entry =>
        remove context entry.1 entry.2) matching = (.ok (), after) :=
      exists_forM_remove_eq_ok hdistinct hall hnamed hlost hunhindered (nodup_removals hdistinct hsub hapart)
    rw [← forM_removals] at hremoved
    exact ⟨hapart, _, after, bind_eq_ok.2 ⟨family, matching, hmatched, bind_eq_ok.2 ⟨(), after, hremoved, rfl⟩⟩⟩
  · right
    have hmem : pair ∈ targets.zip family := by simp [hsplit]
    have hdocument : document ∈ pair.2 := by simp [hpair]
    have hstored := (haddresses pair hmem document hdocument).stored
    obtain ⟨name, hname⟩ := Option.ne_none_iff_exists'.1 (hnamed document hstored)
    have hentries : removals (targets.zip family) = removals (earlier ++ [(pair.1, front)]) ++
        (pair.1, document) :: (back.map (fun held => (pair.1, held)) ++ removals later) := by
      simp [removals, hsplit, hpair]
    -- up to the document all is removed once
    have hearlier : ∀ other ∈ earlier, other ∈ targets.zip family := fun other hother => by simp [hsplit, hother]
    have hfresh : (removedIdentities (removals (earlier ++ [(pair.1, front)]))).Nodup := by
      refine nodup_removals hdistinct (fun other hother => ?_) ?_
      · rcases List.mem_append.1 hother with hother | hother
        · exact hsub other (hearlier other hother)
        · rw [List.mem_singleton.1 hother]
          refine List.Sublist.trans ?_ (hsub pair hmem)
          rw [hpair]
          exact List.sublist_append_left front _
      · rw [List.pairwise_append]
        refine ⟨hapart, List.pairwise_singleton _ _, fun other hother same hsame removed hheld hremoved => ?_⟩
        rw [List.mem_singleton.1 hsame] at hremoved
        exact hfront removed hremoved other hother hheld
    -- the document is removed already
    have hgone : document.identity ∈ removedIdentities (removals (earlier ++ [(pair.1, front)])) := by
      obtain ⟨other, hother, hheld⟩ := hshared
      refine List.mem_map.2 ⟨(other.1, document), mem_removals.2 ⟨other, ?_, rfl, hheld⟩, rfl⟩
      exact List.mem_append_left _ hother
    rw [hentries] at hall
    rw [← List.nil_append (removedIdentities _)] at hfresh hgone
    obtain ⟨after, hstopped, hafter⟩ : ∃ after, ((removals (earlier ++ [(pair.1, front)]) ++ (pair.1, document) ::
        (back.map (fun held => (pair.1, held)) ++ removals later)).forM fun entry =>
          remove context entry.1 entry.2) matching = (.error (.store pair.1.node.name pair.1.kind.kind
            (Store.unknownObject pair.1.kind.coordinate name)), after) ∧
        Lost store ([] ++ removedIdentities (removals (earlier ++ [(pair.1, front)]))) after :=
      forM_remove_of_gone hdistinct hall hnamed hlost hunhindered hfresh hname hgone
    refine ⟨earlier, pair, later, front, document, back, name, after, hsplit, hapart, hpair, hfront, hshared, hname, ?_,
      hafter⟩
    unfold delete
    rw [bind_apply, hmatched]
    dsimp only
    rw [forM_removals, hentries, bind_apply, hstopped]

end Bindings

/-! ## From a query to the store -/

/-- Where no call is made to fail, a query that deletes matches its pattern when its targets can be planned, its edges
have rules and none joins a node to itself; then it ends as the removals end. -/
theorem exists_deleting {text : String} {query : Query} {rules : List Rule} {context : Context} {targets : List Target}
    {links : List Link} {before planned : Engine} (hparse : Query.parse text = .ok query)
    (hclause : query.clause = .delete) (hregular : before.Regular) (hunhindered : before.Unhindered)
    (hplan : plan query context before = (.ok targets, planned))
    (hlinks : linksOf rules query.graph targets = .ok links)
    (hloops : ∀ edge ∈ query.graph.edges, edge.source ≠ edge.target) :
    ∃ kinds told family matching seen, Planned context query before told kinds targets ∧
      matched rules context query.graph targets told = (.ok family, matching) ∧ matching.Unhindered ∧
      execute rules context query.finding before =
        (.ok ⟨bindingsOf (targets.zip family), resultGraph query.graph targets family, 0⟩, seen) ∧
      ∀ acted done, delete rules context query.graph targets told = (acted, done) →
        ∃ after, execute rules context query before = (acted, after) ∧ done.Traced after := by
  have hw := Query.parse_wellFormed hparse
  have hasking := Engine.invariant_unhindered.toAsking
  obtain ⟨started, hstart⟩ : ∃ started, trace context ("executing " ++ query.text) before = (.ok (), started) :=
    ⟨_, rfl⟩
  have htraced := traced_of_trace hstart
  obtain ⟨planned', hplan', -⟩ := unlogged_plan query context htraced hplan
  obtain ⟨told, htold⟩ := exists_forM_trace context targetLine targets planned'
  obtain ⟨kinds, hplanned⟩ := planned_spec hw.bindings_nodup htraced hplan' htold
  have htelling : told.Unhindered := by
    have hplanning := preserves_plan hasking query context started (hasking.traced htraced hunhindered)
    rw [hplan'] at hplanning
    exact hasking.traced (traced_of_forM_trace htold) hplanning
  obtain ⟨fetched, matching, hfetch⟩ := exists_fetch_eq_ok context htelling (hplanned.serves hregular)
  obtain ⟨family, hmatched⟩ := exists_matched_eq_ok hw.toClosed hplanned.nodes_eq hloops hlinks hfetch
  have hmatching := preserves_matched hasking rules context query.graph targets told htelling
  rw [hmatched] at hmatching
  have hfilters : query.clause.filters = [] := by
    rw [hclause]
    rfl
  obtain ⟨seen, hfound⟩ := execute_finding hfilters htraced hplan' htold hmatched
  refine ⟨kinds, told, family, matching, seen, hplanned, hmatched, hmatching, hfound, fun acted done hdelete => ?_⟩
  refine exists_execute_of_act hstart hplan' htold ?_
  unfold act
  rw [hclause]
  exact hdelete

open Classical in
/-- Take a query that deletes, over a catalog that has each plural name once under a group and version, with a cache
that comes from the catalog, and over objects of distinct identities that all have names and of which none of a resource
of the whole cluster carries a namespace. No call is made to fail, the targets of the query can be planned, its edges
have rules, and none joins a node to itself. Then the query that only finds its pattern succeeds, and the query itself
exactly when no document is found under two bindings. Else it stops at the first document that an earlier binding has
too, with the error that there is no such object, and all documents before it are gone. -/
theorem execute_delete_ok_iff {text : String} {query : Query} {rules : List Rule} {context : Context}
    {targets : List Target} {links : List Link} {before planned : Engine} (hparse : Query.parse text = .ok query)
    (hclause : query.clause = .delete) (hplurals : PluralsDistinct before.gateway.store.listings)
    (hreached : before.cache.Reached before.gateway.store.listings)
    (hdistinct : (before.gateway.store.objects.map Document.identity).Nodup)
    (hnamed : ∀ object ∈ before.gateway.store.objects, object.name? ≠ none) (hscoped : before.gateway.store.Scoped)
    (hunhindered : before.Unhindered) (hplan : plan query context before = (.ok targets, planned))
    (hlinks : linksOf rules query.graph targets = .ok links)
    (hloops : ∀ edge ∈ query.graph.edges, edge.source ≠ edge.target) :
    ∃ found seen, execute rules context query.finding before = (.ok found, seen) ∧
      ((∃ result after, execute rules context query before = (.ok result, after)) ↔ found.Apart query.graph.nodes) ∧
      (¬found.Apart query.graph.nodes → ∃ earlier node front document kind name after,
        found.FirstOverlap query.graph.nodes earlier node front document ∧
        before.cache.kindOf? before.gateway.store.listings node.kind = some kind ∧ document.name? = some name ∧
        execute rules context query before =
          (.error (.store node.name kind.kind (Store.unknownObject kind.coordinate name)), after) ∧
        after.gateway.store.objects = before.gateway.store.objects.filter fun object =>
          ¬((∃ other ∈ earlier, found.Finds other.name object) ∨ object ∈ front)) := by
  have hw := Query.parse_wellFormed hparse
  have hregular : before.Regular := ⟨hplurals, fun _ _ => hreached.listed⟩
  have hhomed := Engine.homed_of_listed hplurals hreached hscoped
  obtain ⟨kinds, told, family, matching, seen, hplanned, hmatched, hmatching, hfound, hends⟩ :=
    exists_deleting hparse hclause hregular hunhindered hplan hlinks hloops
  refine ⟨_, seen, hfound, ?_⟩
  have hlength := (matched_fetches hmatched).2.length_eq
  have hnames := hplanned.names_nodup hw.bindings_nodup hlength
  have haddresses := hplanned.addresses hhomed hmatched
  rw [← hplanned.map_node hlength, apart_iff hnames (List.Subset.refl _)]
  rcases delete_cases hmatched hdistinct (hplanned.sublist_objects hmatched hw.toClosed hregular) haddresses hnamed
      (hplanned.lost_nil hmatched) hmatching with
    ⟨hapart, result, done, hdelete⟩ |
    ⟨earlier, pair, later, front, document, back, name, done, hsplit, hapart, hpair, hfresh, hshared, hname, hdelete,
      hlost⟩
  · -- no document is under two bindings
    obtain ⟨after, hrun, -⟩ := hends _ _ hdelete
    exact ⟨⟨fun _ => hapart, fun _ => ⟨result, after, hrun⟩⟩, fun hnot => absurd hapart hnot⟩
  · obtain ⟨after, hrun, hend⟩ := hends _ _ hdelete
    have hmem : pair ∈ targets.zip family := by simp [hsplit]
    refine ⟨⟨?_, ?_⟩, fun _ => ?_⟩
    · rintro ⟨result, other, hok⟩
      cases hrun.symm.trans hok
    · intro hdisjoint
      obtain ⟨other, hother, hheld⟩ := hshared
      rw [hsplit, List.pairwise_append] at hdisjoint
      have hdocument : document ∈ pair.2 := by simp [hpair]
      exact (hdisjoint.2.2 other hother pair List.mem_cons_self hheld hdocument).elim
    · refine ⟨_, _, front, document, pair.1.kind, name, after,
        firstOverlap_of_split hnames hsplit hapart hpair hfresh hshared,
        hplanned.kindOf?_eq (List.of_mem_zip hmem).1, hname, hrun, ?_⟩
      rw [hend.gateway_eq, hlost.objects_eq, Store.without]
      refine List.filter_congr fun object hobject => ?_
      rw [decide_eq_decide]
      refine not_congr (without_removals hdistinct (fun other hother held hheld => ?_) hnames hsplit hpair hobject)
      exact (haddresses other hother held hheld).stored

/-! ## A sample: two pods -/

namespace Sample

/-- A pod of a name. -/
def podNamed (name : String) : Document :=
  .object [("apiVersion", .string "v1"), ("kind", .string "Pod"),
    ("metadata", .object [("name", .string name), ("namespace", .string "default")])]

def twoPods : Engine :=
  Engine.ofStore (Store.ofObjects standardListings [podNamed "one", podNamed "two"])

def eachPodText : String :=
  "DELETE (a:Pod \x7bname: \"one\"\x7d), (b:Pod \x7bname: \"two\"\x7d)"

/-- Each pod under a binding of its own. -/
def eachPod : Query :=
  ⟨⟨[Node.ofBinding "a" "Pod" [⟨"name", .string "one"⟩], Node.ofBinding "b" "Pod" [⟨"name", .string "two"⟩]], []⟩,
    .delete⟩

def onePodTwiceText : String :=
  "DELETE (a:Pod \x7bname: \"one\"\x7d), (b:Pod)"

/-- One pod under two bindings. -/
def onePodTwice : Query :=
  ⟨⟨[Node.ofBinding "a" "Pod" [⟨"name", .string "one"⟩], Node.ofBinding "b" "Pod" []], []⟩, .delete⟩

theorem scoped_twoPods : twoPods.gateway.store.Scoped := by
  unfold Store.Scoped
  decide +kernel

/-- The names of what is found under both bindings. -/
def foundNames (query : Query) : Option (Option (List (Option String)) × Option (List (Option String))) :=
  (execute Rule.standard ⟨"default", false⟩ query.finding twoPods).1.toOption.map fun found =>
    ((found.binding? "a").map (·.map Document.name?), (found.binding? "b").map (·.map Document.name?))

end Sample

/-- Two pods under a binding each are removed. -/
theorem execute_delete_ok_iff_eachPod :
    Query.parse Sample.eachPodText = .ok Sample.eachPod ∧ PluralsDistinct standardListings ∧
      Cache.empty.Reached standardListings ∧
      (Sample.twoPods.gateway.store.objects.map Document.identity).Nodup ∧
      (∀ object ∈ Sample.twoPods.gateway.store.objects, object.name? ≠ none) ∧
      Sample.twoPods.gateway.store.Scoped ∧ Sample.twoPods.Unhindered ∧
      (∃ targets planned, plan Sample.eachPod ⟨"default", false⟩ Sample.twoPods = (.ok targets, planned) ∧
        linksOf Rule.standard Sample.eachPod.graph targets = .ok []) ∧
      ∃ result after, execute Rule.standard ⟨"default", false⟩ Sample.eachPod Sample.twoPods = (.ok result, after) := by
  have hparse : Query.parse Sample.eachPodText = .ok Sample.eachPod := by decide +kernel
  have hdistinct : (Sample.twoPods.gateway.store.objects.map Document.identity).Nodup := by decide
  have hnamed : ∀ object ∈ Sample.twoPods.gateway.store.objects, object.name? ≠ none := by decide
  have hplanned : (plan Sample.eachPod ⟨"default", false⟩ Sample.twoPods).1.toOption.map (fun _ => ()) = some () := by
    decide +kernel
  have hnames : Sample.foundNames Sample.eachPod = some (some [some "one"], some [some "two"]) := by
    decide +kernel
  obtain ⟨targets, planned, hplan, -⟩ := exists_of_view hplanned
  have hlinks : linksOf Rule.standard Sample.eachPod.graph targets = .ok [] := rfl
  refine ⟨hparse, pluralsDistinct_standardListings, Cache.Reached.empty, hdistinct, hnamed, Sample.scoped_twoPods,
    ⟨rfl, rfl⟩, ⟨targets, planned, hplan, hlinks⟩, ?_⟩
  obtain ⟨found, seen, hfound, hiff, -⟩ := execute_delete_ok_iff hparse rfl pluralsDistinct_standardListings
    Cache.Reached.empty hdistinct hnamed Sample.scoped_twoPods ⟨rfl, rfl⟩ hplan hlinks nofun
  refine hiff.2 ?_
  rw [Sample.foundNames, hfound] at hnames
  obtain ⟨ha, hb⟩ := Prod.mk.inj (Option.some.inj hnames)
  obtain ⟨firsts, hfirsts, hone⟩ := Option.map_eq_some_iff.1 ha
  obtain ⟨seconds, hseconds, htwo⟩ := Option.map_eq_some_iff.1 hb
  refine List.pairwise_pair.2 ?_
  rintro document ⟨documents, hdocuments, hmem⟩ ⟨others, hothers, hmem'⟩
  cases hdocuments.symm.trans hfirsts
  cases hothers.symm.trans hseconds
  have hname := List.mem_map_of_mem (f := Document.name?) hmem
  have hname' := List.mem_map_of_mem (f := Document.name?) hmem'
  rw [hone, List.mem_singleton] at hname
  rw [htwo, List.mem_singleton, hname] at hname'
  exact absurd hname' (by decide)

/-- A pod under two bindings is removed for the first and not found for the second; the other pod stays. -/
theorem execute_delete_stops_half_way :
    Query.parse Sample.onePodTwiceText = .ok Sample.onePodTwice ∧ PluralsDistinct standardListings ∧
      Cache.empty.Reached standardListings ∧
      (Sample.twoPods.gateway.store.objects.map Document.identity).Nodup ∧
      (∀ object ∈ Sample.twoPods.gateway.store.objects, object.name? ≠ none) ∧
      Sample.twoPods.gateway.store.Scoped ∧ Sample.twoPods.Unhindered ∧
      Sample.foundNames Sample.onePodTwice = some (some [some "one"], some [some "one", some "two"]) ∧
      ∃ after, execute Rule.standard ⟨"default", false⟩ Sample.onePodTwice Sample.twoPods =
          (.error (.store "b" "Pod" (Store.unknownObject ⟨"", "v1", "pods"⟩ "one")), after) ∧
        after.gateway.store.objects.map Document.name? = [some "two"] := by
  refine ⟨by decide +kernel, pluralsDistinct_standardListings, Cache.Reached.empty, by decide, by decide,
    Sample.scoped_twoPods, ⟨rfl, rfl⟩, by decide +kernel, ?_⟩
  have hcause : (match (execute Rule.standard ⟨"default", false⟩ Sample.onePodTwice Sample.twoPods).1 with
      | .error cause => some cause
      | .ok _ => none) = some (.store "b" "Pod" (Store.unknownObject ⟨"", "v1", "pods"⟩ "one")) := by
    decide +kernel
  have hleft : (execute Rule.standard ⟨"default", false⟩ Sample.onePodTwice
      Sample.twoPods).2.gateway.store.objects.map Document.name? = [some "two"] := by
    decide +kernel
  rcases hrun : execute Rule.standard ⟨"default", false⟩ Sample.onePodTwice Sample.twoPods with ⟨cause | result, after⟩
  · rw [hrun] at hcause hleft
    cases hcause
    exact ⟨after, rfl, hleft⟩
  · rw [hrun] at hcause
    cases hcause

end Run

end ClusterQuery
