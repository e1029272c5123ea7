import ClusterQuery.Proofs.Catalog.Transparency
import ClusterQuery.Proofs.Execution.Respecting
import ClusterQuery.Proofs.Session.Running

/-!
# The cache shows in no answer

Over a catalog whose names are in ASCII characters and that can always be discovered, whatever was resolved, warmed or
cleared before shows in no answer to an identifier and in no answer to a query (`Session.run_conceals_cache`).
-/

namespace ClusterQuery

/-! ## Stores that differ in their records -/

namespace Store

/-- The call is answered alike by stores that differ in their records of calls only, and leaves them so; it leaves the
catalog. -/
def Recording {α : Type} (call : Store → Store.Answer α) : Prop :=
  ∀ (store : Store) (calls : List Call), (call store).2.listings = store.listings ∧
    ∃ calls', call { store with calls := calls } = ((call store).1, { (call store).2 with calls := calls' })

theorem recording_list (coordinate : Coordinate) (search : Search) : Recording (·.list coordinate search) := by
  intro store calls
  refine ⟨by rw [list_snd]; rfl, ?_⟩
  unfold list record
  dsimp only
  repeat' split
  all_goals exact ⟨_, rfl⟩

theorem recording_create (coordinate : Coordinate) (inNamespace : Option String) (document : Document) :
    Recording (·.create coordinate inNamespace document) := by
  intro store calls
  refine ⟨(create_snd store coordinate inNamespace document).1, ?_⟩
  unfold create insert record
  dsimp only
  repeat' split
  all_goals exact ⟨_, rfl⟩

theorem recording_update (coordinate : Coordinate) (inNamespace : Option String) (document : Document) :
    Recording (·.update coordinate inNamespace document) := by
  intro store calls
  refine ⟨(update_snd store coordinate inNamespace document).1, ?_⟩
  unfold update record
  dsimp only
  repeat' split
  all_goals exact ⟨_, rfl⟩

theorem recording_delete (coordinate : Coordinate) (inNamespace : Option String) (name : String) :
    Recording (·.delete coordinate inNamespace name) := by
  intro store calls
  refine ⟨(delete_snd store coordinate inNamespace name).1, ?_⟩
  unfold delete record
  dsimp only
  repeat' split
  all_goals exact ⟨_, rfl⟩

end Store

namespace Gateway

variable {α : Type} {call : Store → Store.Answer α}

/-- A call gives the gateway no other fault than the one it has, with as many calls let through or one less. -/
theorem guarded_names {gateway : Gateway} {name : CallName} {fault : Fault}
    (h : (gateway.guarded name call).2.fault = some fault) :
    ∃ before, gateway.fault = some before ∧ fault.names = before.names := by
  unfold guarded at h
  split at h
  · cases h
  · rename_i before hbefore
    split at h
    · split at h
      · exact ⟨fault, h, rfl⟩
      · cases h
        exact ⟨before, hbefore, rfl⟩
    · cases h
      exact ⟨_, hbefore, rfl⟩

/-- A call is answered alike by gateways to stores that differ in their records only, and leaves them so. -/
theorem guarded_recording (hcall : Store.Recording call) (name : CallName) (gateway : Gateway) (calls : List Call) :
    ∃ calls', guarded ⟨{ gateway.store with calls := calls }, gateway.fault⟩ name call =
      ((gateway.guarded name call).1,
        ⟨{ (gateway.guarded name call).2.store with calls := calls' }, (gateway.guarded name call).2.fault⟩) := by
  obtain ⟨calls', hsame⟩ := (hcall gateway.store calls).2
  unfold guarded reach
  dsimp only
  split
  · exact ⟨calls', by rw [hsame]⟩
  · split
    · split
      · exact ⟨calls, rfl⟩
      · exact ⟨calls', by rw [hsame]⟩
    · exact ⟨calls', by rw [hsame]⟩

/-- Discovery that no fault is on answers the catalog and records the call. -/
theorem discover_eq {gateway : Gateway} (h : ∀ fault, gateway.fault = some fault → .discover ∉ fault.names) :
    gateway.discover = (.ok gateway.store.listings, ⟨gateway.store.record .discover, gateway.fault⟩) := by
  unfold discover guarded reach
  split
  · rename_i hnone
    rw [hnone]
    rfl
  · rename_i fault hfault
    rw [if_neg (h fault hfault), hfault]
    rfl

end Gateway

namespace Engine

/-! ## Engines that differ in what is cached -/

/-- The second engine is the first but for its cache, its log and its record of calls. -/
structure SameStored (first second : Engine) : Prop where
  fault_eq : second.gateway.fault = first.gateway.fault
  store_eq : ∃ calls, second.gateway.store = { first.gateway.store with calls := calls }

theorem SameStored.refl (engine : Engine) : engine.SameStored engine :=
  ⟨rfl, _, rfl⟩

theorem SameStored.symm {first second : Engine} (h : first.SameStored second) : second.SameStored first := by
  obtain ⟨hfault, calls, hstore⟩ := h
  exact ⟨hfault.symm, first.gateway.store.calls, by rw [hstore]⟩

theorem SameStored.trans {first second third : Engine} (h : first.SameStored second) (h' : second.SameStored third) :
    first.SameStored third := by
  obtain ⟨hfault, calls, hstore⟩ := h
  obtain ⟨hfault', calls', hstore'⟩ := h'
  exact ⟨hfault'.trans hfault, calls', by rw [hstore', hstore]⟩

/-- The catalog can always be discovered, and the cache is transparent to it. -/
structure Knows (listings : List Listing) (engine : Engine) : Prop where
  listings_eq : engine.gateway.store.listings = listings
  discovers : ∀ fault, engine.gateway.fault = some fault → .discover ∉ fault.names
  transparent : engine.cache.Transparent listings

variable {listings : List Listing} {engine : Engine}

/-- Resolving an identifier answers what a scan does. -/
theorem Knows.resolve_fst (h : engine.Knows listings) (identifier : String) :
    (engine.resolve identifier).1 = Cache.scan identifier listings := by
  unfold resolve
  split
  · rename_i kind hkind
    exact (h.transparent.scan_eq hkind).symm
  · rw [Gateway.discover_eq h.discovers, h.listings_eq]
    exact Cache.resolveIn_fst engine.cache identifier listings

/-- Resolving an identifier changes the cache, to one that is transparent, and the record of calls only. -/
theorem Knows.resolve_snd (h : engine.Knows listings) (identifier : String) :
    engine.SameStored (engine.resolve identifier).2 ∧ (engine.resolve identifier).2.Knows listings := by
  unfold resolve
  split
  · exact ⟨SameStored.refl engine, h⟩
  · rw [Gateway.discover_eq h.discovers, h.listings_eq]
    exact ⟨⟨rfl, _, rfl⟩, h.listings_eq, h.discovers, h.transparent.resolveIn identifier⟩

/-- Warming changes the cache, to one that is transparent, the log and the record of calls only. -/
theorem Knows.warm_snd (h : engine.Knows listings) (hnames : AsciiNames listings) :
    engine.SameStored engine.warm.2 ∧ engine.warm.2.Knows listings := by
  have hwarm := h.transparent.warmFrom hnames
  unfold warm
  rw [Gateway.discover_eq h.discovers, h.listings_eq]
  dsimp only
  split
  · rename_i cause cache hcache
    rw [hcache] at hwarm
    exact ⟨⟨rfl, _, rfl⟩, h.listings_eq, h.discovers, hwarm⟩
  · rename_i cache hcache
    rw [hcache] at hwarm
    exact ⟨⟨rfl, _, rfl⟩, h.listings_eq, h.discovers, hwarm⟩

/-- The number that warming answers is the growth of the cache: one entry for every key of the catalog that was not
there. -/
theorem Knows.warm_count (h : engine.Knows listings) {count : Nat} (hcount : engine.warm.1 = .ok count) :
    engine.warm.2.cache.size = engine.cache.size + count ∧
      count = (engine.cache.missing (Cache.keysOf listings)).toFinset.card := by
  unfold warm at hcount ⊢
  rw [Gateway.discover_eq h.discovers, h.listings_eq] at hcount ⊢
  dsimp only at hcount ⊢
  rcases hwarm : engine.cache.warmFrom listings with ⟨cause | added, cache⟩
  · rw [hwarm] at hcount
    cases hcount
  · have hsize := Cache.size_warmFrom (congrArg Prod.fst hwarm)
    rw [hwarm] at hcount hsize
    cases hcount
    exact hsize

theorem Knows.clearCache (h : engine.Knows listings) :
    engine.SameStored engine.clearCache ∧ engine.clearCache.Knows listings :=
  ⟨⟨rfl, _, rfl⟩, h.listings_eq, h.discovers, Cache.transparent_empty listings⟩

/-- Engines with the same stored objects, both of which know the catalog. -/
structure Concealing (listings : List Listing) (first second : Engine) : Prop where
  same : first.SameStored second
  first_knows : first.Knows listings
  second_knows : second.Knows listings

/-- A call that records itself is answered alike behind such engines. -/
theorem alikeAt_guarded {α : Type} {call : Store → Store.Answer α} (hcall : Store.Recording call) (name : CallName) :
    AlikeAt (Concealing listings) (·.guarded name call) := by
  have hknows : ∀ {engine : Engine}, engine.Knows listings →
      Knows listings { engine with gateway := (engine.gateway.guarded name call).2 } := by
    intro engine h
    refine ⟨?_, fun fault hfault => ?_, h.transparent⟩
    · exact Gateway.guarded_keeps (M := fun store => store.listings = listings)
        (fun store hstore => ((hcall store []).1).trans hstore) h.listings_eq
    · obtain ⟨before, hbefore, hsame⟩ := Gateway.guarded_names hfault
      rw [hsame]
      exact h.discovers before hbefore
  intro first second h
  obtain ⟨hfault, calls, hstore⟩ := h.same
  have hsecond : second.gateway = ⟨{ first.gateway.store with calls := calls }, first.gateway.fault⟩ := by
    rw [← hstore, ← hfault]
  obtain ⟨calls', hsame⟩ := Gateway.guarded_recording hcall name first.gateway calls
  rw [← hsecond] at hsame
  exact ⟨(congrArg Prod.fst hsame).symm, ⟨congrArg (·.2.fault) hsame, calls', congrArg (·.2.store) hsame⟩,
    hknows h.first_knows, hknows h.second_knows⟩

/-- Engines that differ in what is cached answer alike and take every change alike. -/
theorem congruent_concealing (listings : List Listing) : Congruent (Concealing listings) where
  note := fun first second line h =>
    ⟨⟨h.same.fault_eq, h.same.store_eq⟩,
      ⟨h.first_knows.listings_eq, h.first_knows.discovers, h.first_knows.transparent⟩,
      ⟨h.second_knows.listings_eq, h.second_knows.discovers, h.second_knows.transparent⟩⟩
  resolve := fun first second identifier h => by
    obtain ⟨hfirst, hfirst'⟩ := h.first_knows.resolve_snd identifier
    obtain ⟨hsecond, hsecond'⟩ := h.second_knows.resolve_snd identifier
    refine ⟨?_, hfirst.symm.trans (h.same.trans hsecond), hfirst', hsecond'⟩
    rw [h.first_knows.resolve_fst, h.second_knows.resolve_fst]
  list := fun coordinate search => alikeAt_guarded (Store.recording_list coordinate search) .list
  create := fun coordinate inNamespace document =>
    alikeAt_guarded (Store.recording_create coordinate inNamespace document) .create
  update := fun coordinate inNamespace document =>
    alikeAt_guarded (Store.recording_update coordinate inNamespace document) .update
  delete := fun coordinate inNamespace name =>
    alikeAt_guarded (Store.recording_delete coordinate inNamespace name) .delete

end Engine

namespace Session

variable {listings : List Listing}

/-- A query text is answered alike by sessions with the same rules that differ in what is cached. -/
theorem step_query_alike {first second : Session} (h : first.engine.Concealing listings second.engine)
    (hrules : first.rules = second.rules) (context : Context) (text : String) :
    (first.step (.query context text)).1 = (second.step (.query context text)).1 ∧
      (first.step (.query context text)).2.engine.Concealing listings (second.step (.query context text)).2.engine := by
  rw [step, step, process, process]
  cases Query.parse text with
  | error cause => exact ⟨rfl, h⟩
  | ok query =>
    obtain ⟨hanswer, hafter⟩ :=
      Run.respects_execute (Engine.congruent_concealing listings) first.rules context query h
    dsimp only [execute]
    rw [← hrules]
    exact ⟨congrArg some hanswer, hafter⟩

/-- No step changes the rules. -/
theorem step_rules (session : Session) (asked : Step) : (session.step asked).2.rules = session.rules := by
  cases asked with
  | query context text =>
    change (process _ text).2.rules = session.rules
    unfold process
    split <;> rfl
  | _ => rfl

/-- The cache is left out of sight: a step that is no query text changes it, the log and the record of calls only. -/
theorem step_concealing {session : Session} (h : session.engine.Knows listings) (hnames : AsciiNames listings)
    (asked : Step) (hasked : asked.isQuery = false) :
    (session.step asked).1 = none ∧ session.engine.Concealing listings (session.step asked).2.engine := by
  cases asked with
  | resolve identifier =>
    obtain ⟨hsame, hafter⟩ := h.resolve_snd identifier
    exact ⟨rfl, hsame, h, hafter⟩
  | warm =>
    obtain ⟨hsame, hafter⟩ := h.warm_snd hnames
    exact ⟨rfl, hsame, h, hafter⟩
  | clear =>
    obtain ⟨hsame, hafter⟩ := h.clearCache
    exact ⟨rfl, hsame, h, hafter⟩
  | query context text => cases hasked

/-- Without the steps that are no query texts, the others are answered alike and leave the same objects. -/
theorem run_filter_isQuery (hnames : AsciiNames listings) (steps : List Step) {first second : Session}
    (h : first.engine.Concealing listings second.engine) (hrules : first.rules = second.rules) :
    (first.run steps).1 = (second.run (steps.filter Step.isQuery)).1 ∧
      (first.run steps).2.engine.Concealing listings (second.run (steps.filter Step.isQuery)).2.engine := by
  induction steps generalizing first second with
  | nil => exact ⟨rfl, h⟩
  | cons asked rest ih =>
    cases hasked : asked.isQuery with
    | false =>
      obtain ⟨hnone, hafter⟩ := step_concealing h.first_knows hnames asked hasked
      have hstep : (first.step asked).2.engine.Concealing listings second.engine :=
        ⟨hafter.same.symm.trans h.same, hafter.second_knows, h.second_knows⟩
      obtain ⟨hanswers, hlast⟩ := ih hstep ((step_rules first asked).trans hrules)
      rw [List.filter_cons, hasked]
      refine ⟨?_, hlast⟩
      change (first.step asked).1.toList ++ _ = _
      rw [hnone]
      exact hanswers
    | true =>
      rw [List.filter_cons, hasked]
      cases asked with
      | query context text =>
        obtain ⟨hanswer, hafter⟩ := step_query_alike h hrules context text
        obtain ⟨hanswers, hlast⟩ :=
          ih hafter ((step_rules first _).trans (hrules.trans (step_rules second _).symm))
        exact ⟨congrArg₂ (fun answer answers => answer.toList ++ answers) hanswer hanswers, hlast⟩
      | _ => cases hasked

/-- Over a catalog whose names are in ASCII characters and that can always be discovered, after any steps that began
with an empty cache: an identifier is answered by what a scan of the catalog finds, every entry of the cache is what a
scan finds for its key, the number that warming answers is the growth of the cache, and the query texts have been
answered as they are without any other step between them, and have left the same objects. -/
theorem run_conceals_cache {session : Session} (hnames : AsciiNames session.engine.gateway.store.listings)
    (hdiscovers : ∀ fault, session.engine.gateway.fault = some fault → .discover ∉ fault.names)
    (hempty : session.engine.cache = Cache.empty) (steps : List Step) :
    let listings := session.engine.gateway.store.listings
    let after := (session.run steps).2
    (∀ identifier, (after.resolve identifier).1 = Cache.scan identifier listings) ∧
      (∀ entry ∈ after.engine.cache.entries, findKind? entry.1 listings = .ok (some entry.2)) ∧
      (∀ count, after.warm.1 = .ok count →
        after.warm.2.engine.cache.size = after.engine.cache.size + count ∧
          count = (after.engine.cache.missing (Cache.keysOf listings)).toFinset.card) ∧
      (session.run steps).1 = (session.run (steps.filter Step.isQuery)).1 ∧
      after.engine.gateway.store.objects =
        (session.run (steps.filter Step.isQuery)).2.engine.gateway.store.objects := by
  intro listings after
  have hstart : session.engine.Knows listings := ⟨rfl, hdiscovers, hempty ▸ Cache.transparent_empty listings⟩
  obtain ⟨hanswers, hsame⟩ :=
    run_filter_isQuery hnames steps ⟨Engine.SameStored.refl session.engine, hstart, hstart⟩ rfl
  obtain ⟨calls, hstore⟩ := hsame.same.store_eq
  refine ⟨hsame.first_knows.resolve_fst, hsame.first_knows.transparent, fun count => hsame.first_knows.warm_count,
    hanswers, ?_⟩
  rw [hstore]

/-! ## A sample: warming that stops half way -/

namespace Sample

/-- Two resources with one short name, the later one behind a malformed group and version. -/
def malformed : List Listing :=
  [⟨"v1", [.inNamespaces "pods" "Pod" ["po"]]⟩, ⟨"a/b/c", [.inNamespaces "postings" "Posting" ["po"]]⟩]

/-- A session over these resources and one pod. -/
def session : Session :=
  ⟨Engine.ofStore (Store.ofObjects malformed
      [.object [("apiVersion", .string "v1"), ("kind", .string "Pod"),
        ("metadata", .object [("name", .string "web"), ("namespace", .string "default")])]]),
    ⟨"default", false⟩, 1, Rule.standard⟩

/-- Warming, a query, clearing, the same query by the short name. -/
def steps : List Step :=
  [.warm, .query ⟨"default", false⟩ "MATCH (p:Pod)", .clear, .resolve "PODS", .query ⟨"default", true⟩ "MATCH (p:po)"]

end Sample

/-- The short name means the pods before and after warming has stopped at the malformed group and version, and the
resource behind it is answered with that. -/
theorem run_conceals_cache_malformed :
    AsciiNames Sample.malformed ∧ (Sample.session.step .warm).2.engine.cache.size = 3 ∧
      ((Sample.session.run Sample.steps).2.resolve "Po").1 = .ok ⟨⟨"", "v1", "pods"⟩, "Pod", true⟩ ∧
      ((Sample.session.run Sample.steps).2.resolve "posting").1 = .error (.invalidGroupVersion "a/b/c") ∧
      (Sample.session.run Sample.steps).1 = (Sample.session.run
        [.query ⟨"default", false⟩ "MATCH (p:Pod)", .query ⟨"default", true⟩ "MATCH (p:po)"]).1 := by
  have hnames : AsciiNames Sample.malformed := by decide
  have hdiscovers : ∀ fault, Sample.session.engine.gateway.fault = some fault → .discover ∉ fault.names := nofun
  have hempty : Sample.session.engine.cache = Cache.empty := rfl
  obtain ⟨hresolve, -, -, hanswers, -⟩ := run_conceals_cache hnames hdiscovers hempty Sample.steps
  refine ⟨hnames, by decide +kernel, (hresolve "Po").trans ?_, (hresolve "posting").trans ?_, hanswers⟩
  · decide +kernel
  · decide +kernel

end Session

end ClusterQuery
