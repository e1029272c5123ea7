import ClusterQuery.Proofs.Execution.Identifying
import ClusterQuery.Proofs.Session.Running

/-!
# Objects of a session stay distinct

Queries that keep identities leave the objects of a session with distinct identities, one query after another and
however each of them ends; an object that exists cannot be created then (`Session.run_keeps_identities`). Creations and
updates look for the identity that they are called with, which another one may be written into the document they store:
so two objects come to share an identity where a query writes a namespace for a kind of the whole cluster
(`Session.run_repeats_identity`).
-/

namespace ClusterQuery

/-- In a store where no object of a resource of the whole cluster carries a namespace, all identities fit the
catalog. -/
theorem Store.Scoped.fits {store : Store} (h : store.Scoped) :
    ∀ identity ∈ store.identities, identity.Fits store.listings := by
  intro identity hidentity listing hlisting resource hresource hwide hversion hkind
  obtain ⟨object, hobject, rfl⟩ := List.mem_map.1 hidentity
  exact h listing hlisting resource hresource hwide object hobject
    (Bool.and_eq_true_iff.2 ⟨beq_iff_eq.2 hversion, beq_iff_eq.2 hkind⟩)

namespace Session

variable {session : Session} {steps : List Step}

/-- Queries that keep identities leave them distinct, and what identifiers mean as it is. -/
theorem run_distinct
    (hserved : ∀ identifier, ∀ kind ∈ session.engine.cache.kindOf? session.engine.gateway.store.listings identifier,
      kind.ServedBy session.engine.gateway.store.listings)
    (hdistinct : session.engine.Distinct session.engine.gateway.store.listings)
    (hqueries : ∀ asked ∈ steps, asked.isQuery = true)
    (hkeeps : ∀ context text query, .query context text ∈ steps → Query.parse text = .ok query →
      query.KeepsIdentities (session.engine.cache.kindOf? session.engine.gateway.store.listings)) :
    (session.run steps).2.engine.Means session.engine.gateway.store.listings
        (session.engine.cache.kindOf? session.engine.gateway.store.listings) ∧
      (session.run steps).2.engine.Distinct session.engine.gateway.store.listings := by
  generalize hmeaning : session.engine.cache.kindOf? session.engine.gateway.store.listings = meaning at *
  generalize hlistings : session.engine.gateway.store.listings = listings at *
  refine run_keeps (K := fun engine => engine.Means listings meaning ∧ engine.Distinct listings)
    (fun asked hasked before hbefore => ?_) ⟨⟨hlistings, congrFun hmeaning⟩, hdistinct⟩
  cases asked with
  | query context text =>
    refine step_query_engine (K := fun engine => engine.Means listings meaning ∧ engine.Distinct listings) hbefore
      fun query hparse => ⟨?_, ?_⟩
    · exact Run.preserves_execute (Engine.invariant_means listings meaning) before.rules context query _ hbefore.1
    · obtain ⟨⟨rfl, hmeans⟩, hbefore⟩ := hbefore
      obtain rfl : before.engine.cache.kindOf? before.engine.gateway.store.listings = meaning := funext hmeans
      exact Run.execute_distinct (Query.parse_wellFormed hparse).bindings_nodup hserved
        (hkeeps context text query hasked hparse) hbefore rfl
  | _ => cases hqueries _ hasked

/-- Queries make no call fail. -/
theorem run_unhindered (hqueries : ∀ asked ∈ steps, asked.isQuery = true) (h : session.engine.Unhindered) :
    (session.run steps).2.engine.Unhindered := by
  refine run_keeps (fun asked hasked before hbefore => ?_) h
  cases asked with
  | query context text =>
    exact step_query_engine hbefore fun query _ =>
      Run.preserves_execute Engine.invariant_unhindered before.rules context query _ hbefore
  | _ => cases hqueries _ hasked

/-- Query texts that are run one after another under any contexts, over a catalog that has each plural name once under a
group and version and whose resources of one kind agree on having namespaces, with a cache that comes from it, and over
objects of distinct identities of which none of a resource of the whole cluster carries a namespace. When no creation
and no assignment among them is at, above or below the version, the kind, or the namespace of a kind of the whole
cluster, the identities are distinct after every one of them, whether it succeeds or fails. Where no call is made to
fail, such a creation without edges then ends in the error for an object that exists whenever one of the objects that
it is to store has an identity of the store. -/
theorem run_keeps_identities (hplurals : PluralsDistinct session.engine.gateway.store.listings)
    (hscopes : ScopesAgree session.engine.gateway.store.listings)
    (hreached : session.engine.cache.Reached session.engine.gateway.store.listings)
    (hscoped : session.engine.gateway.store.Scoped) (hdistinct : session.engine.gateway.store.identities.Nodup)
    (hqueries : ∀ asked ∈ steps, asked.isQuery = true)
    (hkeeps : ∀ context text query, .query context text ∈ steps → Query.parse text = .ok query →
      query.KeepsIdentities (session.engine.cache.kindOf? session.engine.gateway.store.listings)) :
    (∀ first, first <+: steps → (session.run first).2.engine.gateway.store.identities.Nodup) ∧
    (session.engine.Unhindered → ∀ context text query kinds targets, Query.parse text = .ok query →
      query.clause = .create → query.graph.edges = [] →
      query.KeepsIdentities (session.engine.cache.kindOf? session.engine.gateway.store.listings) →
      List.Forall₂ (fun node kind =>
        session.engine.cache.kindOf? session.engine.gateway.store.listings node.kind = some kind)
        query.graph.nodes kinds →
      query.targets context kinds = .ok targets → (∀ target ∈ targets, target.newIdentity? ≠ none) →
      (∃ target ∈ targets, ∃ identity ∈ (session.run steps).2.engine.gateway.store.identities,
        target.newIdentity? = some identity) →
      ∃ binding kind detail, ((session.run steps).2.step (.query context text)).1 =
        some (.error (.store binding kind (.alreadyExists detail)))) := by
  have hserved : ∀ identifier,
      ∀ kind ∈ session.engine.cache.kindOf? session.engine.gateway.store.listings identifier,
        kind.ServedBy session.engine.gateway.store.listings := fun identifier kind hkind =>
    (hreached.listed hkind).servedBy hplurals hscopes
  have hstart : session.engine.Distinct session.engine.gateway.store.listings := ⟨rfl, hdistinct, hscoped.fits⟩
  constructor
  · intro first hfirst
    have hsub := hfirst.subset
    exact (run_distinct hserved hstart (fun asked hasked => hqueries asked (hsub hasked))
      fun context text query hasked => hkeeps context text query (hsub hasked)).2.2.nodup
  · intro hunhindered context text query kinds targets hparse hclause hedges hkept hkinds htargets hnamed htaken
    obtain ⟨hmeans, -⟩ := run_distinct hserved hstart hqueries hkeeps
    have hlast := run_unhindered hqueries hunhindered
    generalize (session.run steps).2 = last at *
    -- the catalog and the meanings are those of the start
    have hmeaning : last.engine.cache.kindOf? last.engine.gateway.store.listings =
        session.engine.cache.kindOf? session.engine.gateway.store.listings := by
      rw [hmeans.listings_eq]
      exact funext hmeans.kindOf?_eq
    rw [← hmeaning] at hserved hkept
    obtain ⟨binding, kind, detail, after, hran⟩ :=
      Run.execute_create_taken last.rules (Query.parse_wellFormed hparse).bindings_nodup hclause hedges hlast
        (hmeans.listings_eq ▸ hserved) hkept (hmeans.kinds_iff.2 hkinds) htargets hnamed htaken
    refine ⟨binding, kind, detail, ?_⟩
    rw [step, process, hparse]
    dsimp only [execute]
    rw [hran]
    rfl

/-! ## Samples: a pod that is created again, and a node of the cluster that is given a namespace -/

namespace Sample

/-- A session over the common resources and one pod. -/
def onePod : Session :=
  ⟨Engine.ofStore (Store.ofObjects standardListings
      [.object [("apiVersion", .string "v1"), ("kind", .string "Pod"),
        ("metadata", .object [("name", .string "web"), ("namespace", .string "default")])]]),
    ⟨"default", false⟩, 1, Rule.standard⟩

def newPodText : String :=
  "CREATE (p:Pod \x7bname: \"web\"\x7d)"

def newPod : Query :=
  ⟨⟨[Node.ofBinding "p" "Pod" [⟨"name", .string "web"⟩]], []⟩, .create⟩

def moveText : String :=
  "SET (p:Pod) \x7bmetadata.namespace: \"test\"\x7d"

def move : Query :=
  ⟨⟨[Node.ofBinding "p" "Pod" []], []⟩, .assign [⟨"metadata.namespace", .string "test"⟩]⟩

/-- The pod is created in another namespace, an assignment would move one and finds none there, and a text is no
query. -/
def pods : List Step :=
  [.query ⟨"prod", false⟩ newPodText, .query ⟨"default", false⟩ moveText, .query ⟨"default", false⟩ "CREATE (p:Pod"]

/-- The pods of the name in two namespaces. -/
def podIn (inNamespace : String) : Identity :=
  ⟨some "v1", some "Pod", some inNamespace, some "web"⟩

/-- A session over the common resources and no objects. -/
def vacant : Session :=
  ⟨Engine.ofStore (Store.ofObjects standardListings []), ⟨"default", false⟩, 1, Rule.standard⟩

def placedText : String :=
  "CREATE (n:Node \x7bname: \"x\", metadata.namespace: \"a\"\x7d)"

/-- A node of the cluster with a namespace. -/
def placed : Query :=
  ⟨⟨[Node.ofBinding "n" "Node" [⟨"name", .string "x"⟩, ⟨"metadata.namespace", .string "a"⟩]], []⟩, .create⟩

/-- The node is created twice. -/
def placedTwice : List Step :=
  [.query ⟨"default", false⟩ placedText, .query ⟨"default", false⟩ placedText]

/-- The identity of the node. -/
def placedNode : Identity :=
  ⟨some "v1", some "Node", some "a", some "x"⟩

/-- A session over two resources of one group and version, the first in namespaces, and no objects. -/
def overPair (first second : String × String) : Session :=
  ⟨Engine.ofStore (Store.ofObjects
      [⟨"v1", [.inNamespaces first.1 first.2 [], .clusterWide second.1 second.2 []]⟩] []),
    ⟨"default", false⟩, 1, Rule.standard⟩

/-- The objects of a session after queries in the default namespace. -/
def identitiesAfter (session : Session) (texts : List String) : List Identity :=
  (session.run (texts.map (.query ⟨"default", false⟩))).2.engine.gateway.store.identities

end Sample

theorem scopesAgree_standardListings : ScopesAgree standardListings := by
  decide +kernel

/-- The pods stay apart, and the one in the default namespace cannot be created there again. -/
theorem run_keeps_identities_newPod :
    Query.parse Sample.newPodText = .ok Sample.newPod ∧ Query.parse Sample.moveText = .ok Sample.move ∧
      (Sample.onePod.run Sample.pods).2.engine.gateway.store.identities =
        [Sample.podIn "default", Sample.podIn "prod"] ∧
      (Sample.onePod.run Sample.pods).2.engine.gateway.store.identities.Nodup ∧
      ∃ binding kind detail, ((Sample.onePod.run Sample.pods).2.step
        (.query ⟨"default", false⟩ Sample.newPodText)).1 =
          some (.error (.store binding kind (.alreadyExists detail))) := by
  have hnew : Query.parse Sample.newPodText = .ok Sample.newPod := by decide +kernel
  have hmove : Query.parse Sample.moveText = .ok Sample.move := by decide +kernel
  have hbroken : (Query.parse "CREATE (p:Pod").toOption = none := by decide +kernel
  have hscoped : Sample.onePod.engine.gateway.store.Scoped := by
    unfold Store.Scoped
    decide +kernel
  have hcreates : Sample.newPod.KeepsIdentities (Cache.empty.kindOf? standardListings) := by decide +kernel
  have hmoves : Sample.move.KeepsIdentities (Cache.empty.kindOf? standardListings) := by decide +kernel
  have hkeeps : ∀ context text query, .query context text ∈ Sample.pods → Query.parse text = .ok query →
      query.KeepsIdentities (Cache.empty.kindOf? standardListings) := by
    intro context text query hmem hparse
    rcases List.mem_cons.1 hmem with h | hmem
    · cases h
      exact Except.ok.inj (hnew.symm.trans hparse) ▸ hcreates
    rcases List.mem_cons.1 hmem with h | hmem
    · cases h
      exact Except.ok.inj (hmove.symm.trans hparse) ▸ hmoves
    · cases List.mem_singleton.1 hmem
      rw [hparse] at hbroken
      cases hbroken
  have hidentities : (Sample.onePod.run Sample.pods).2.engine.gateway.store.identities =
      [Sample.podIn "default", Sample.podIn "prod"] := by
    decide +kernel
  obtain ⟨targets, htargets, hmade⟩ : ∃ targets, Sample.newPod.targets ⟨"default", false⟩
      [⟨⟨"", "v1", "pods"⟩, "Pod", true⟩] = .ok targets ∧
      targets.map Target.newIdentity? = [some (Sample.podIn "default")] :=
    ⟨_, rfl, by decide +kernel⟩
  obtain ⟨hnodup, hends⟩ := run_keeps_identities pluralsDistinct_standardListings scopesAgree_standardListings
    Cache.Reached.empty hscoped (by decide +kernel) (by decide) hkeeps
  obtain ⟨target, rfl⟩ := List.length_eq_one_iff.1 (show targets.length = 1 by simpa using congrArg List.length hmade)
  have hmade : target.newIdentity? = some (Sample.podIn "default") := (List.cons.inj hmade).1
  refine ⟨hnew, hmove, hidentities, hnodup _ (List.prefix_refl _), ?_⟩
  refine hends ⟨rfl, rfl⟩ ⟨"default", false⟩ _ _ _ _ hnew rfl rfl hcreates (List.Forall₂.cons rfl .nil) htargets ?_ ?_
  · exact List.forall_mem_singleton.2 (by rw [hmade]; exact Option.some_ne_none _)
  · refine ⟨target, List.mem_singleton_self _, Sample.podIn "default", ?_, hmade⟩
    rw [hidentities]
    exact List.mem_cons_self

/-- The catalog must have each plural name once and agree on namespaces: two resources of one plural name, or of one kind
of which one only has namespaces, let two objects have one identity. -/
example :
    ¬(Sample.identitiesAfter (Sample.overPair ("things", "A") ("things", "B"))
        ["CREATE (b:B \x7bname: \"x\"\x7d)", "CREATE (b:B \x7bname: \"x\"\x7d)"]).Nodup ∧
      ¬(Sample.identitiesAfter (Sample.overPair ("ones", "K") ("others", "K"))
        ["CREATE (a:ones \x7bname: \"x\"\x7d)", "CREATE (b:others \x7bname: \"x\"\x7d)",
          "SET (b:others) \x7bspec.y: 1\x7d"]).Nodup := by
  decide +kernel

/-- A node of the cluster is created with a namespace that is given by its path, and can be created once more: no object
of that identity is found without the namespace. -/
theorem run_repeats_identity :
    Query.parse Sample.placedText = .ok Sample.placed ∧ Sample.vacant.engine.gateway.store.identities.Nodup ∧
      PluralsDistinct standardListings ∧ ScopesAgree standardListings ∧ Sample.vacant.engine.gateway.store.Scoped ∧
      Sample.vacant.engine.Unhindered ∧
      (Sample.vacant.run (Sample.placedTwice.take 1)).2.engine.gateway.store.identities = [Sample.placedNode] ∧
      ¬(Sample.vacant.run Sample.placedTwice).2.engine.gateway.store.identities.Nodup ∧
      ∀ answer ∈ (Sample.vacant.run Sample.placedTwice).1, ∃ result, answer = .ok result := by
  have hscoped : Sample.vacant.engine.gateway.store.Scoped := by
    unfold Store.Scoped
    decide +kernel
  have hanswers : (Sample.vacant.run Sample.placedTwice).1.all (fun answer => answer.toOption.isSome) = true := by
    decide +kernel
  refine ⟨by decide +kernel, by decide, pluralsDistinct_standardListings, scopesAgree_standardListings, hscoped,
    ⟨rfl, rfl⟩, by decide +kernel, by decide +kernel, fun answer hanswer => ?_⟩
  have hsome := List.all_eq_true.1 hanswers answer hanswer
  cases answer with
  | error cause => cases hsome
  | ok result => exact ⟨result, rfl⟩

end Session

end ClusterQuery
