import ClusterQuery.Proofs.Execution.Answering
import ClusterQuery.Proofs.Execution.Comparing
import ClusterQuery.Proofs.Execution.Match
import ClusterQuery.Proofs.Execution.Placing

/-!
# Constraints only remove documents

A target that asks for more fetches less (`Run.sublist_of_fetches`), and more edges leave less of it
(`Link.narrowAll_mono`); so a query with further filters and edges finds, under every binding, some of the documents, in
their order. The order and the repetition of filters show in nothing that is found.
-/

namespace ClusterQuery

namespace Link

/-- The list at a position that a family has. -/
theorem listAt_eq_getElem {family : Family} {position : Nat} (h : position < family.length) :
    listAt family position = family[position] := by
  rw [listAt, List.getD_eq_getElem?_getD, List.getElem?_eq_getElem h, Option.getD_some]

/-- The lists of one family are sublists of those of another when they are at every position. -/
theorem forall₂_sublist_iff {large small : Family} :
    List.Forall₂ (fun documents kept => kept.Sublist documents) large small ↔
      large.length = small.length ∧ ∀ position, (listAt small position).Sublist (listAt large position) := by
  constructor
  · intro h
    refine ⟨h.length_eq, fun position => ?_⟩
    by_cases hlt : position < large.length
    · have hpair := (List.forall₂_iff_get.1 h).2 position hlt (h.length_eq ▸ hlt)
      rwa [listAt_eq_getElem hlt, listAt_eq_getElem (h.length_eq ▸ hlt)]
    · rw [listAt_eq_nil (h.length_eq ▸ Nat.le_of_not_lt hlt)]
      exact List.nil_sublist _
  · rintro ⟨hlength, hall⟩
    refine List.forall₂_iff_get.2 ⟨hlength, fun position hlarge hsmall => ?_⟩
    have hpair := hall position
    rwa [listAt_eq_getElem hlarge, listAt_eq_getElem hsmall] at hpair

end Link

/-- The second target is for the node of the first, with its kind, looks where that looks, and accepts no more. -/
structure Target.AsksMore (target other : Target) : Prop where
  subject_eq : other.subject = target.subject
  place_eq : other.search.inNamespace = target.search.inNamespace
  accepts : ∀ document, (other.search.accepts document && other.accepts document) = true →
    (target.search.accepts document && target.accepts document) = true

/-- Targets of the same nodes ask for more when there are more filters. -/
theorem Target.Placed.asksMore {context : Context} {filters more : List Filter} {subjects : List (Node × Kind)}
    {targets others : List Target} (h : Placed context filters subjects targets)
    (h' : Placed context more subjects others) (hmore : filters ⊆ more) : List.Forall₂ AsksMore targets others := by
  refine List.forall₂_iff_get.2 ⟨h.length_eq.trans h'.length_eq.symm, fun position htarget hother => ?_⟩
  have hsubject : position < subjects.length := h.length_eq ▸ htarget
  have hfirst := h.at_position position _ _ (List.getElem?_eq_getElem hsubject) (List.getElem?_eq_getElem htarget)
  have hsecond := h'.at_position position _ _ (List.getElem?_eq_getElem hsubject) (List.getElem?_eq_getElem hother)
  refine ⟨hsecond.subject_eq.trans hfirst.subject_eq.symm, hsecond.place_eq.trans hfirst.place_eq.symm,
    fun document haccepts => ?_⟩
  obtain ⟨hproperties, hfilters⟩ := (hsecond.accepts_iff document).1 haccepts
  exact (hfirst.accepts_iff document).2 ⟨hproperties, fun filter hfilter => hfilters filter (hmore hfilter)⟩

namespace Run

variable {rules : List Rule} {context : Context} {graph : Graph} {targets others : List Target} {engine after : Engine}

/-! ## What is fetched -/

/-- From the same objects a target that asks for more fetches some of the documents, in order. -/
theorem sublist_of_fetches {store second : Store} (hobjects : second.objects = store.objects)
    (hlistings : second.listings = store.listings) {target other : Target} (h : target.AsksMore other)
    {documents kept : List Document} (hfetched : Fetches store target documents) (hkept : Fetches second other kept) :
    kept.Sublist documents := by
  obtain ⟨resource, hresource, rfl⟩ := hfetched
  obtain ⟨resource', hresource', rfl⟩ := hkept
  have hkind : other.kind = target.kind := congrArg Prod.snd h.subject_eq
  rw [hkind, hlistings, hresource] at hresource'
  cases hresource'
  rw [hobjects]
  refine List.monotone_filter_right store.objects fun object hobject => ?_
  rw [hkind] at hobject
  rw [Bool.and_eq_true, Store.passes_eq_true_iff] at hobject ⊢
  obtain ⟨⟨hinstance, hplace, haccepted⟩, hpredicates⟩ := hobject
  rw [h.place_eq] at hplace
  obtain ⟨haccepted', hpredicates'⟩ := Bool.and_eq_true_iff.1 (h.accepts object (by rw [haccepted, hpredicates]; rfl))
  exact ⟨⟨hinstance, hplace, haccepted'⟩, hpredicates'⟩

theorem sublists_of_fetches {store second : Store} (hobjects : second.objects = store.objects)
    (hlistings : second.listings = store.listings) (h : List.Forall₂ Target.AsksMore targets others)
    {family kept : Link.Family} (hfetched : List.Forall₂ (Fetches store) targets family)
    (hkept : List.Forall₂ (Fetches second) others kept) :
    List.Forall₂ (fun documents kept => kept.Sublist documents) family kept := by
  induction h generalizing family kept with
  | nil =>
    cases hfetched
    cases hkept
    exact .nil
  | cons hmore _ ih =>
    obtain ⟨documents, family, hfirst, hrest, rfl⟩ := List.forall₂_cons_left_iff.1 hfetched
    obtain ⟨documents', kept, hfirst', hrest', rfl⟩ := List.forall₂_cons_left_iff.1 hkept
    exact .cons (sublist_of_fetches hobjects hlistings hmore hfirst hfirst') (ih hrest hrest')

/-- The links of a pattern depend on the nodes of the targets and their kinds. -/
theorem linksOf_congr (h : others.map Target.subject = targets.map Target.subject) (graph : Graph) :
    linksOf rules graph others = linksOf rules graph targets := by
  have hposition : ∀ id, targetPosition? others id = targetPosition? targets id := by
    intro id
    have hall := congrArg (List.findIdx? fun subject : Node × Kind => subject.1.id == id) h
    rw [List.findIdx?_map, List.findIdx?_map] at hall
    exact hall
  have hkind : ∀ position, kindAt others position = kindAt targets position := by
    intro position
    have hall := congrArg (fun subjects => (subjects[position]?).map fun subject : Node × Kind => subject.2.kind) h
    simp only [List.getElem?_map, Option.map_map] at hall
    exact congrArg (Option.getD · "") hall
  unfold linksOf linkOf?
  simp only [hposition, hkind]

end Run

/-! ## Which lists fail -/

/-- Calls fail behind the second gateway as they do behind the first. -/
structure Gateway.FailsAlike (first second : Gateway) : Prop where
  fault_eq : second.fault = first.fault
  listings_eq : second.store.listings = first.store.listings
  listFailure_eq : second.store.listFailure = first.store.listFailure

/-- Whether a resource is listed does not depend on the search. -/
theorem Gateway.FailsAlike.list {first second : Gateway} (h : first.FailsAlike second) (coordinate : Coordinate)
    (search other : Search) :
    (second.list coordinate other).1.isOk = (first.list coordinate search).1.isOk ∧
      (first.list coordinate search).2.FailsAlike (second.list coordinate other).2 := by
  have hstore : (second.store.list coordinate other).1.isOk = (first.store.list coordinate search).1.isOk := by
    unfold Store.list
    rw [h.listFailure_eq, h.listings_eq]
    cases first.store.listFailure with
    | some cause => rfl
    | none => cases resourceAt? first.store.listings coordinate <;> rfl
  have hreached : ∀ fault : Option Fault,
      (second.reach fault (·.list coordinate other)).1.isOk = (first.reach fault (·.list coordinate search)).1.isOk ∧
        (first.reach fault (·.list coordinate search)).2.FailsAlike
          (second.reach fault (·.list coordinate other)).2 := by
    intro fault
    refine ⟨hstore, rfl, ?_, ?_⟩
    · simp only [reach, Store.list_snd, Store.record]
      exact h.listings_eq
    · simp only [reach, Store.list_snd, Store.record]
      exact h.listFailure_eq
  unfold Gateway.list guarded
  rw [h.fault_eq]
  split
  · exact hreached none
  · split
    · split
      · exact ⟨rfl, h⟩
      · exact hreached _
    · exact hreached _

namespace Run

variable {rules : List Rule} {context : Context} {graph : Graph} {targets others : List Target} {engine after : Engine}

/-- The searches of targets for the same kinds are answered, or fail, alike. -/
theorem searchAll_isOk (hkinds : others.map (·.kind) = targets.map (·.kind)) {first second : Engine}
    (h : first.gateway.FailsAlike second.gateway) :
    (searchAll others second).1.map Except.isOk = (searchAll targets first).1.map Except.isOk := by
  induction targets generalizing others first second with
  | nil =>
    rw [List.map_nil, List.map_eq_nil_iff] at hkinds
    rw [hkinds]
    rfl
  | cons target rest ih =>
    obtain ⟨other, rest', rfl, hkind, hrest⟩ := List.map_eq_cons_iff.1 hkinds
    obtain ⟨hsame, hafter⟩ := h.list target.kind.coordinate target.search other.search
    have hkind : other.kind = target.kind := hkind
    simp only [searchAll, List.map_cons, hkind]
    refine congrArg₂ List.cons hsame (ih hrest ?_)
    exact hafter

/-- The searches of all targets have one answer each. -/
theorem length_searchAll (targets : List Target) (engine : Engine) :
    (searchAll targets engine).1.length = targets.length := by
  induction targets generalizing engine with
  | nil => rfl
  | cons target rest ih => rw [searchAll, List.length_cons, List.length_cons, ih]

/-- Answers of which none is an error. -/
theorem exists_map_ok {ε α : Type} {answers : List (Except ε α)}
    (h : ∀ answered ∈ answers.map Except.isOk, answered = true) : ∃ found : List α, answers = found.map .ok := by
  induction answers with
  | nil => exact ⟨[], rfl⟩
  | cons answer rest ih =>
    obtain ⟨hfirst, hrest⟩ := List.forall_mem_cons.1 h
    obtain ⟨found, rfl⟩ := ih hrest
    cases answer with
    | error cause => cases hfirst
    | ok a => exact ⟨a :: found, rfl⟩

/-- The documents of targets are fetched when all searches are answered. -/
theorem exists_fetch_iff : (∃ family after, fetch context targets engine = (.ok family, after)) ↔
    ∀ answered ∈ (searchAll targets engine).1.map Except.isOk, answered = true := by
  constructor
  · rintro ⟨family, after, h⟩ answered hanswered
    obtain ⟨answer, hanswer, rfl⟩ := List.mem_map.1 hanswered
    obtain ⟨answers, middle, hsearch, h⟩ := bind_eq_ok.1 h
    cases hsearch
    obtain ⟨hkept, -⟩ := mapM_forall₂ keep_step (Engine.Traced.refl _) h
    obtain ⟨position, hposition, rfl⟩ := List.getElem_of_mem hanswer
    have hzip : position < (targets.zip (searchAll targets engine).1).length := by
      rw [List.length_zip, length_searchAll] at *
      omega
    obtain ⟨found, hfound, -⟩ := (List.forall₂_iff_get.1 hkept).2 position hzip (hkept.length_eq ▸ hzip)
    rw [List.get_eq_getElem, List.getElem_zip] at hfound
    exact congrArg Except.isOk hfound
  · intro h
    obtain ⟨found, hfound⟩ := exists_map_ok h
    exact exists_fetch_of_searchAll context (Prod.ext hfound rfl)

/-! ## What is found -/

/-- Targets that ask for more are for the same nodes with the same kinds. -/
theorem subjects_of_asksMore (h : List.Forall₂ Target.AsksMore targets others) :
    others.map Target.subject = targets.map Target.subject := by
  induction h with
  | nil => rfl
  | cons hmore _ ih => rw [List.map_cons, List.map_cons, hmore.subject_eq, ih]

theorem names_of_asksMore (h : List.Forall₂ Target.AsksMore targets others) :
    others.map (·.node.name) = targets.map (·.node.name) := by
  have hall := congrArg (List.map fun subject : Node × Kind => subject.1.name) (subjects_of_asksMore h)
  rwa [List.map_map, List.map_map] at hall

/-- Targets that ask for as much match the same documents. -/
theorem exists_matched_of_asksMore (h : List.Forall₂ Target.AsksMore targets others)
    (h' : List.Forall₂ Target.AsksMore others targets) {family : Link.Family}
    (hmatched : matched rules context graph targets engine = (.ok family, after)) :
    ∃ last, matched rules context graph others engine = (.ok family, last) := by
  obtain ⟨links, fetched, hlinks, hfetch, hnarrow⟩ := matched_eq_ok_iff.1 hmatched
  have hsubjects := subjects_of_asksMore h
  have hkinds : others.map (·.kind) = targets.map (·.kind) := by
    have hall := congrArg (List.map Prod.snd) hsubjects
    rwa [List.map_map, List.map_map] at hall
  have hanswered := exists_fetch_iff.1 ⟨fetched, after, hfetch⟩
  rw [← searchAll_isOk hkinds ⟨rfl, rfl, rfl⟩] at hanswered
  obtain ⟨fetched', last, hfetch'⟩ := exists_fetch_iff.2 hanswered
  have hsame : fetched' = fetched := by
    have hspec := (fetch_spec hfetch).2
    have hspec' := (fetch_spec hfetch').2
    obtain ⟨hlength, hless⟩ := Link.forall₂_sublist_iff.1 (sublists_of_fetches rfl rfl h hspec hspec')
    obtain ⟨-, hmore⟩ := Link.forall₂_sublist_iff.1 (sublists_of_fetches rfl rfl h' hspec' hspec)
    exact Link.ext_listAt hlength.symm fun position => (hless position).antisymm (hmore position)
  subst hsame
  exact ⟨last, matched_eq_ok_iff.2 ⟨links, fetched', linksOf_congr hsubjects graph ▸ hlinks, hfetch', hnarrow⟩⟩

/-- The projections of a query depend on the names of its targets. -/
theorem projectionsOf_congr (h : others.map (·.node.name) = targets.map (·.node.name)) (texts : List String) :
    projectionsOf others texts = projectionsOf targets texts := by
  have hbinds : Target.binds others = Target.binds targets := by
    funext name
    have hall := congrArg (List.any · (· == name)) h
    rw [List.any_map, List.any_map] at hall
    exact hall
  unfold projectionsOf
  rw [hbinds]

/-- What is shown depends on the names of the targets. -/
theorem bindingsOf_shownOf_congr (h : others.map (·.node.name) = targets.map (·.node.name)) (texts : List String)
    (projections : Projections) (family : Link.Family) :
    bindingsOf (shownOf texts projections (others.zip family)) =
      bindingsOf (shownOf texts projections (targets.zip family)) := by
  have hnames : ∀ targets : List Target, bindingsOf (shownOf texts projections (targets.zip family)) =
      Keyed.ofList (((targets.map (·.node.name)).zip family).filterMap fun entry =>
        if texts.isEmpty then some entry
        else (projections.lookup entry.1).map fun paths => (entry.1, entry.2.map (·.project paths))) := by
    intro targets
    rw [bindingsOf, shownOf, List.map_filterMap, List.zip_map_left, List.filterMap_map]
    refine congrArg Keyed.ofList (List.filterMap_congr fun pair _ => ?_)
    simp only [Function.comp_apply, Prod.map_fst, Prod.map_snd]
    split
    · rfl
    · rw [Option.map_map]
      rfl
  rw [hnames, hnames, h]

/-- Targets that ask for as much find the same documents under all bindings. -/
theorem find_bindings_of_asksMore (h : List.Forall₂ Target.AsksMore targets others)
    (h' : List.Forall₂ Target.AsksMore others targets) (texts : List String) {found : Result}
    (hfind : find rules context graph targets texts engine = (.ok found, after)) :
    ∃ result last, find rules context graph others texts engine = (.ok result, last) ∧
      result.bindings = found.bindings := by
  obtain ⟨projections, family, hprojections, hmatched, rfl⟩ := find_eq_ok_iff.1 hfind
  obtain ⟨last, hmatched'⟩ := exists_matched_of_asksMore h h' hmatched
  have hnames := names_of_asksMore h
  have hprojections' := (projectionsOf_congr hnames texts).trans hprojections
  exact ⟨_, last, find_eq_ok_iff.2 ⟨projections, family, hprojections', hmatched', rfl⟩,
    bindingsOf_shownOf_congr hnames texts projections family⟩

/-- Where a query has been planned, the query with the same filters in any order and number is planned alike. -/
theorem exists_plan_of_filters {filters more : List Filter} {texts : List String}
    (hsame : ∀ filter, filter ∈ more ↔ filter ∈ filters)
    (hplan : plan ⟨graph, .find filters texts⟩ context engine = (.ok targets, after)) :
    ∃ others, plan ⟨graph, .find more texts⟩ context engine = (.ok others, after) ∧
      List.Forall₂ Target.AsksMore targets others ∧ List.Forall₂ Target.AsksMore others targets := by
  obtain ⟨kinds, middle, hkinds, hplan⟩ := bind_eq_ok.1 hplan
  obtain ⟨htargets, rfl⟩ := ofExcept_eq_ok.1 hplan
  have hplaced := Query.targets_placed htargets
  obtain ⟨plain, hplain, hfiltered⟩ := ClusterQuery.bind_eq_ok.1 htargets
  have hall := Target.exists_foldlM_filtered_iff.1 ⟨targets, hfiltered⟩
  obtain ⟨others, hothers⟩ := Target.exists_foldlM_filtered_iff.2 fun filter hmem => hall filter ((hsame filter).1 hmem)
  have hmade : Query.targets ⟨graph, .find more texts⟩ context kinds = .ok others :=
    ClusterQuery.bind_eq_ok.2 ⟨plain, hplain, hothers⟩
  have hplaced' := Query.targets_placed hmade
  exact ⟨others, bind_eq_ok.2 ⟨kinds, middle, hkinds, ofExcept_eq_ok.2 ⟨hmade, rfl⟩⟩,
    hplaced.asksMore hplaced' fun filter hmem => (hsame filter).2 hmem,
    hplaced'.asksMore hplaced fun filter hmem => (hsame filter).1 hmem⟩

/-- A query that finds documents answers what finding them for its planned targets answers. -/
theorem execute_find_eq_ok_iff {filters : List Filter} {texts : List String} {result : Result} :
    (execute rules context ⟨graph, .find filters texts⟩ engine).1 = .ok result ↔ ∃ targets planned last,
      plan ⟨graph, .find filters texts⟩ context engine = (.ok targets, planned) ∧
        find rules context graph targets texts planned = (.ok result, last) := by
  rw [execute_fst]
  constructor
  · intro h
    obtain ⟨targets, planned, hplan, hact⟩ := bind_eq_ok.1 (Prod.ext h rfl)
    exact ⟨targets, planned, _, hplan, hact⟩
  · rintro ⟨targets, planned, last, hplan, hfind⟩
    exact congrArg Prod.fst (bind_eq_ok.2 ⟨targets, planned, hplan, hfind⟩)

/-- The order and the repetition of filters show in nothing that is found. -/
theorem execute_find_of_filters {filters more : List Filter} {texts : List String}
    (hsame : ∀ filter, filter ∈ more ↔ filter ∈ filters) {found : Result}
    (h : (execute rules context ⟨graph, .find filters texts⟩ engine).1 = .ok found) :
    ∃ result, (execute rules context ⟨graph, .find more texts⟩ engine).1 = .ok result ∧
      result.bindings = found.bindings := by
  obtain ⟨targets, planned, last, hplan, hfind⟩ := execute_find_eq_ok_iff.1 h
  obtain ⟨others, hplan', hmore, hless⟩ := exists_plan_of_filters hsame hplan
  obtain ⟨result, last', hfind', hbindings⟩ := find_bindings_of_asksMore hmore hless texts hfind
  exact ⟨result, execute_find_eq_ok_iff.2 ⟨others, planned, last', hplan', hfind'⟩, hbindings⟩

/-- What is found without projections stands under the names of the targets. -/
theorem find_all_eq_ok {result : Result} (h : find rules context graph targets [] engine = (.ok result, after)) :
    ∃ links fetched family, linksOf rules graph targets = .ok links ∧
      fetch context targets engine = (.ok fetched, after) ∧ Link.narrowAll links fetched = some family ∧
      result.bindings = bindingsOf (targets.zip family) := by
  obtain ⟨projections, family, -, hmatched, rfl⟩ := find_eq_ok_iff.1 h
  obtain ⟨links, fetched, hlinks, hfetch, hnarrow⟩ := matched_eq_ok_iff.1 hmatched
  exact ⟨links, fetched, family, hlinks, hfetch, hnarrow, by rw [shownOf_nil]⟩

/-- Targets that ask for more, joined by more edges, find some of the documents under every binding. -/
theorem find_sublists {narrower : Graph} {second last : Engine} {found kept : Result}
    (hobjects : second.gateway.store.objects = engine.gateway.store.objects)
    (hlistings : second.gateway.store.listings = engine.gateway.store.listings)
    (h : List.Forall₂ Target.AsksMore targets others) (hedges : graph.edges ⊆ narrower.edges)
    (hfind : find rules context graph targets [] engine = (.ok found, after))
    (hfind' : find rules context narrower others [] second = (.ok kept, last)) :
    List.Forall₂ (fun found kept => kept.1 = found.1 ∧ kept.2.Sublist found.2) found.bindings kept.bindings := by
  obtain ⟨links, fetched, family, hlinks, hfetch, hnarrow, hbindings⟩ := find_all_eq_ok hfind
  obtain ⟨links', fetched', family', hlinks', hfetch', hnarrow', hbindings'⟩ := find_all_eq_ok hfind'
  have hspec := (fetch_spec hfetch).2
  have hspec' := (fetch_spec hfetch').2
  have hless := (Link.forall₂_sublist_iff.1 (sublists_of_fetches hobjects hlistings h hspec hspec')).2
  rw [linksOf_congr (subjects_of_asksMore h)] at hlinks'
  have hmore : ∀ family, Link.ArcConsistent links' family → Link.ArcConsistent links family := by
    intro family hall link hlink
    obtain ⟨edge, hedge, hmake⟩ := (mem_linksOf hlinks).1 hlink
    exact hall link ((mem_linksOf hlinks').2 ⟨edge, hedges hedge, hmake⟩)
  have hlength : family.length = targets.length :=
    (Link.narrowAll_eq_some_iff_core.1 hnarrow).1.isCut.length_eq.trans hspec.length_eq.symm
  have hlength' : family'.length = others.length :=
    (Link.narrowAll_eq_some_iff_core.1 hnarrow').1.isCut.length_eq.trans hspec'.length_eq.symm
  have hfamily : List.Forall₂ (fun documents kept => kept.Sublist documents) family family' :=
    Link.forall₂_sublist_iff.2
      ⟨by rw [hlength, hlength', h.length_eq], Link.narrowAll_mono hmore hless hnarrow hnarrow'⟩
  have hnames := names_of_asksMore h
  rw [hbindings, hbindings', bindingsOf, bindingsOf]
  refine Keyed.forall₂_ofList (R := fun documents kept => List.Sublist kept documents)
    (List.forall₂_map_left_iff.2 (List.forall₂_map_right_iff.2 ?_))
  refine List.forall₂_iff_get.2 ⟨?_, fun position hfirst hsecond => ?_⟩
  · rw [List.length_zip, List.length_zip, hlength, hlength', h.length_eq]
  · obtain ⟨htarget, hdocuments⟩ := Nat.lt_min.1 (List.length_zip ▸ hfirst)
    obtain ⟨hother, hkept⟩ := Nat.lt_min.1 (List.length_zip ▸ hsecond)
    have hname := congrArg (·[position]?) hnames
    simp only [List.getElem?_map, List.getElem?_eq_getElem htarget, List.getElem?_eq_getElem hother, Option.map_some,
      Option.some.injEq] at hname
    simp only [List.get_eq_getElem, List.getElem_zip]
    exact ⟨hname, (List.forall₂_iff_get.1 hfamily).2 position hdocuments hkept⟩

/-- With the same nodes, further filters and further edges, from the same objects with the same meanings, every binding
has some of the documents. -/
theorem execute_find_sublists {narrower : Graph} {filters more : List Filter} {before other : Engine}
    (hnodes : narrower.nodes = graph.nodes) (hedges : graph.edges ⊆ narrower.edges) (hfilters : filters ⊆ more)
    (hobjects : other.gateway.store.objects = before.gateway.store.objects)
    (hmeans : other.Means before.gateway.store.listings (before.cache.kindOf? before.gateway.store.listings))
    {found kept : Result} (h : (execute rules context ⟨graph, .find filters []⟩ before).1 = .ok found)
    (h' : (execute rules context ⟨narrower, .find more []⟩ other).1 = .ok kept) :
    List.Forall₂ (fun found kept => kept.1 = found.1 ∧ kept.2.Sublist found.2) found.bindings kept.bindings := by
  obtain ⟨targets, planned, last, hplan, hfind⟩ := execute_find_eq_ok_iff.1 h
  obtain ⟨others, planned', last', hplan', hfind'⟩ := execute_find_eq_ok_iff.1 h'
  obtain ⟨hresolving, kinds, htargets, hkinds⟩ := plan_spec hplan
  obtain ⟨hresolving', kinds', htargets', hkinds'⟩ := plan_spec hplan'
  obtain ⟨_, hanswered, -⟩ := hresolving.answered
  obtain ⟨_, hanswered', -⟩ := hresolving'.answered
  -- both plan for the same kinds
  have hnodes' : (⟨narrower, .find more []⟩ : Query).graph.nodes = graph.nodes := hnodes
  rw [hnodes'] at hkinds'
  obtain rfl := kinds_unique hkinds (hmeans.kinds_iff.1 hkinds')
  have hplaced := Query.targets_placed htargets
  have hplaced' := Query.targets_placed htargets'
  rw [hnodes'] at hplaced'
  refine find_sublists ?_ ?_ (hplaced.asksMore hplaced' hfilters) hedges hfind hfind'
  · rw [hanswered'.objects_eq, hobjects, hanswered.objects_eq]
  · rw [hanswered'.listings_eq, hmeans.listings_eq, hanswered.listings_eq]

/-- Two queries that find documents, both successful and without projections, on stores with the same objects and
catalog: where the second has the nodes of the first and all its filters and edges, in any order and with any others,
under every binding its documents are some of those of the first, in their order. And a query with the same filters, in
any order and number, succeeds where the first does and finds the same. -/
theorem execute_find_constrained (rules : List Rule) (context : Context) (before : Engine) (graph : Graph)
    (filters : List Filter) :
    (∀ (narrower : Graph) (more : List Filter) (other : Engine) (found kept : Result),
        narrower.nodes = graph.nodes → graph.edges ⊆ narrower.edges → filters ⊆ more →
        other.gateway.store.objects = before.gateway.store.objects →
        other.Means before.gateway.store.listings (before.cache.kindOf? before.gateway.store.listings) →
        (execute rules context ⟨graph, .find filters []⟩ before).1 = .ok found →
        (execute rules context ⟨narrower, .find more []⟩ other).1 = .ok kept →
        List.Forall₂ (fun found kept => kept.1 = found.1 ∧ kept.2.Sublist found.2) found.bindings kept.bindings) ∧
      ∀ (same : List Filter) (texts : List String), (∀ filter, filter ∈ same ↔ filter ∈ filters) →
        (execute rules context ⟨graph, .find same texts⟩ before).1.toOption.map Result.bindings =
          (execute rules context ⟨graph, .find filters texts⟩ before).1.toOption.map Result.bindings := by
  refine ⟨fun narrower more other found kept hnodes hedges hfilters hobjects hmeans h h' =>
    execute_find_sublists hnodes hedges hfilters hobjects hmeans h h', fun same texts hsame => ?_⟩
  have hforth : ∀ {first second : List Filter}, (∀ filter, filter ∈ second ↔ filter ∈ first) →
      ∀ bindings, (execute rules context ⟨graph, .find first texts⟩ before).1.toOption.map Result.bindings =
        some bindings →
      (execute rules context ⟨graph, .find second texts⟩ before).1.toOption.map Result.bindings = some bindings := by
    intro first second hsame bindings hfirst
    obtain ⟨found, after, hrun, rfl⟩ := exists_of_view hfirst
    obtain ⟨result, hresult, hbindings⟩ := execute_find_of_filters hsame (congrArg Prod.fst hrun)
    rw [hresult, ← hbindings]
    rfl
  exact Option.ext fun bindings => ⟨hforth (fun filter => (hsame filter).symm) bindings, hforth hsame bindings⟩

/-! ## A sample: replica sets and pods, and then only those of one set -/

namespace Sample

/-- Replica sets and pods, with nothing between them. -/
def setsAndPods : Graph :=
  ⟨[Node.ofBinding "r" "ReplicaSet" [], Node.ofBinding "p" "Pod" []], []⟩

/-- The same nodes, joined. -/
def podsWithSet : Graph :=
  { setsAndPods with edges := [⟨"ReplicaSet/r", "Pod/p", "OWNS"⟩] }

/-- On one of the replica sets. -/
def onOneSet : Filter :=
  ⟨"r.metadata.name", .equal, .string "web-1"⟩

end Sample

/-- Of two pods, an edge and a filter, also when it is repeated, leave one. -/
theorem execute_find_constrained_podsWithSet :
    Sample.podsWithSet.nodes = Sample.setsAndPods.nodes ∧ Sample.setsAndPods.edges ⊆ Sample.podsWithSet.edges ∧
      [Sample.onOneSet] ⊆ [Sample.onOneSet, Sample.onOneSet] ∧
      (∀ filter, filter ∈ [Sample.onOneSet, Sample.onOneSet] ↔ filter ∈ [Sample.onOneSet]) ∧
      ∃ found kept,
        (execute Rule.standard ⟨"default", false⟩ ⟨Sample.setsAndPods, .find [] []⟩ Sample.cluster).1 = .ok found ∧
        (execute Rule.standard ⟨"default", false⟩ ⟨Sample.podsWithSet, .find [Sample.onOneSet] []⟩
          Sample.cluster).1 = .ok kept ∧
        (execute Rule.standard ⟨"default", false⟩ ⟨Sample.podsWithSet, .find [Sample.onOneSet, Sample.onOneSet] []⟩
          Sample.cluster).1.toOption.map Result.bindings = some kept.bindings ∧
        List.Forall₂ (fun found kept => kept.1 = found.1 ∧ kept.2.Sublist found.2) found.bindings kept.bindings ∧
        (found.binding? "p").map (·.map Document.name?) = some [some "web-1-a", some "old-1-a"] ∧
        (kept.binding? "p").map (·.map Document.name?) = some [some "web-1-a"] := by
  have hsame : ∀ filter, filter ∈ [Sample.onOneSet, Sample.onOneSet] ↔ filter ∈ [Sample.onOneSet] := by simp
  have hfound : (execute Rule.standard ⟨"default", false⟩ ⟨Sample.setsAndPods, .find [] []⟩
      Sample.cluster).1.toOption.map (fun result => (result.binding? "p").map (·.map Document.name?)) =
        some (some [some "web-1-a", some "old-1-a"]) := by decide +kernel
  have hkept : (execute Rule.standard ⟨"default", false⟩ ⟨Sample.podsWithSet, .find [Sample.onOneSet] []⟩
      Sample.cluster).1.toOption.map (fun result => (result.binding? "p").map (·.map Document.name?)) =
        some (some [some "web-1-a"]) := by decide +kernel
  obtain ⟨found, after, hrun, hpods⟩ := exists_of_view hfound
  obtain ⟨kept, last, hrun', hpod⟩ := exists_of_view hkept
  have hmeans : ∀ engine : Engine, engine.Means engine.gateway.store.listings
      (engine.cache.kindOf? engine.gateway.store.listings) := fun engine => ⟨rfl, fun _ => rfl⟩
  have hsublists := (execute_find_constrained Rule.standard ⟨"default", false⟩ Sample.cluster Sample.setsAndPods []).1
    Sample.podsWithSet [Sample.onOneSet] Sample.cluster found kept rfl (List.nil_subset _) (List.nil_subset _) rfl
    (hmeans Sample.cluster) (by rw [hrun]) (by rw [hrun'])
  refine ⟨rfl, List.nil_subset _, fun filter hfilter => (hsame filter).2 hfilter, hsame, found, kept, by rw [hrun],
    by rw [hrun'], ?_, hsublists, hpods, hpod⟩
  rw [(execute_find_constrained _ _ _ _ _).2 _ _ hsame, hrun']
  rfl

end Run

end ClusterQuery
