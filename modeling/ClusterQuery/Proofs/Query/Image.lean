import ClusterQuery.Proofs.Query.Pattern
import ClusterQuery.Proofs.Query.RoundTrip

/-!
# What is read can be written

A query that was read has a well-formed graph, words for names and path characters in its keys and paths, so it is
legible (`parse_legible`); and no key of it is wrapped in quotes, because those around a key have been taken off.
-/

namespace ClusterQuery.Query

open Phrase

/-- The characters of a key without the quotes around it are characters of the key. -/
theorem isPathText_unquoteKey {key : String} (h : IsPathText key) : IsPathText (Reading.unquoteKey key) := by
  rcases unquoteKey_cases key with he | ⟨name, hkey, -, he⟩
  · rwa [he]
  · intro c hc
    refine h c ?_
    rw [he, String.toList_ofList] at hc
    rw [hkey]
    exact List.mem_append_left _ (List.mem_cons_of_mem _ hc)

/-- Quotes are taken off a key once. -/
theorem unquoteKey_unquoteKey (key : String) :
    Reading.unquoteKey (Reading.unquoteKey key) = Reading.unquoteKey key := by
  rcases unquoteKey_cases key with he | ⟨name, -, hname, he⟩
  · rw [he, he]
  · rw [he]
    refine unquoteKey_of_not_wrapped ?_
    rintro ⟨inner, hinner, -⟩
    rw [String.toList_ofList] at hinner
    exact hname (hinner ▸ List.mem_cons_self)

/-- What a phrase with these tokens may be made of: tokens spelled as their forms want, and numbers that fit. -/
structure Sound (tokens : List Token) : Prop where
  spelled : ∀ token ∈ tokens, token.Spelled
  fits : NumbersFit tokens

theorem Sound.of_subset {tokens part : List Token} (h : Sound tokens) (hpart : part ⊆ tokens) : Sound part :=
  ⟨fun token htoken => h.spelled token (hpart htoken), fun digits hdigits => h.fits digits (hpart hdigits)⟩

theorem printable_literal {value : Value} (h : NumbersFit [value.token]) : value.literal.Printable := by
  cases value with
  | integer digits =>
    have hfits := h digits List.mem_cons_self
    refine ⟨Int.natCast_nonneg _, ?_⟩
    have hpow : Nat.pow 2 63 = 2 ^ 63 := rfl
    simp only [Literal.inRange, Bool.and_eq_true, decide_eq_true_eq]
    omega
  | _ => trivial

theorem legible_property {pair : Pair} (h : Sound pair.tokens) : LegibleProperty pair.property where
  key := isPathText_unquoteKey (h.spelled (.path pair.key) (by simp [Pair.tokens]))
  value := by
    have hsub : [pair.value.token] ⊆ pair.tokens := by simp [Pair.tokens]
    exact printable_literal (h.of_subset hsub).fits

theorem legible_filter {condition : Condition} (h : Sound condition.tokens) : LegibleFilter condition.filter where
  path := ⟨condition.path.2, h.spelled (.path condition.path) (by simp [Condition.tokens])⟩
  value := by
    have hsub : [condition.value.token] ⊆ condition.tokens := by simp [Condition.tokens]
    exact printable_literal (h.of_subset hsub).fits

theorem pair_tokens_subset {pairs : List Pair} {pair : Pair} (h : pair ∈ pairs) : pair.tokens ⊆ blockTokens pairs := by
  cases pairs with
  | nil => exact absurd h List.not_mem_nil
  | cons first more =>
    intro token htoken
    rw [blockTokens, blockRest]
    rcases List.mem_cons.1 h with rfl | hmore
    · simp [htoken]
    · have hseparated : token ∈ morePairs more := List.mem_flatMap.2 ⟨pair, hmore, List.mem_cons_of_mem _ htoken⟩
      simp [hseparated]

/-- A property of a block is that of a pair that can be written. -/
theorem legible_block {pairs : List Pair} (h : Sound (blockTokens pairs)) {property : Property}
    (hproperty : property ∈ pairs.map Pair.property) :
    LegibleProperty property ∧ Reading.unquoteKey property.key = property.key := by
  obtain ⟨pair, hpair, rfl⟩ := List.mem_map.1 hproperty
  exact ⟨legible_property (h.of_subset (pair_tokens_subset hpair)), unquoteKey_unquoteKey _⟩

/-- A property that a mention shows can be written. -/
theorem legible_mention {mention : Mention} (h : Sound mention.tokens) {property : Property}
    (hproperty : property ∈ mention.properties) :
    LegibleProperty property ∧ Reading.unquoteKey property.key = property.key := by
  obtain ⟨head, block⟩ := mention
  cases block with
  | none => exact absurd hproperty List.not_mem_nil
  | some pairs =>
    have hsubset : blockTokens pairs ⊆ (⟨head, some pairs⟩ : Mention).tokens := fun token htoken => by
      simp [Mention.tokens, htoken]
    exact legible_block (h.of_subset hsubset) hproperty

theorem mem_of_mem_newProperties {known : List String} {properties : List Property} {property : Property}
    (h : property ∈ newProperties known properties) : property ∈ properties := by
  induction properties generalizing known with
  | nil => exact h
  | cons first rest ih =>
    rw [newProperties] at h
    split at h
    · exact List.mem_cons_of_mem _ (ih h)
    · rcases List.mem_cons.1 h with rfl | hrest
      · exact List.mem_cons_self
      · exact List.mem_cons_of_mem _ (ih hrest)

theorem mem_of_mem_mergedProperties {blocks : List (List Property)} {property : Property}
    (h : property ∈ mergedProperties blocks) : ∃ block ∈ blocks, property ∈ block := by
  cases blocks with
  | nil => exact absurd h List.not_mem_nil
  | cons first later =>
    rcases List.mem_append.1 h with hfirst | hlater
    · exact ⟨first, List.mem_cons_self, hfirst⟩
    · obtain ⟨block, hblock, hmem⟩ := List.mem_flatten.1 (mem_of_mem_newProperties hlater)
      exact ⟨block, List.mem_cons_of_mem _ hblock, hmem⟩

/-- A node of mentions comes from them, its properties too. -/
theorem mention_of_node {mentions : List Mention} {node : Node} (h : node ∈ nodesOf mentions) :
    (∃ mention ∈ mentions, node.name = mention.head.name ∧ node.kind = mention.head.kind) ∧
      ∀ property ∈ node.properties, ∃ mention ∈ mentions, property ∈ mention.properties := by
  obtain ⟨head, hhead, rfl⟩ := List.mem_map.1 h
  obtain ⟨mention, hmention, rfl⟩ := List.mem_map.1 (List.mem_eraseDups.1 hhead)
  refine ⟨⟨mention, hmention, rfl, rfl⟩, fun property hproperty => ?_⟩
  obtain ⟨block, hblock, hmem⟩ := mem_of_mem_mergedProperties hproperty
  obtain ⟨other, hother, rfl⟩ := List.mem_map.1 hblock
  exact ⟨other, (List.mem_filter.1 hother).1, hmem⟩

/-- The label of an edge stands in the pattern. -/
theorem label_mem_tokens {pattern : Pattern} {edge : Edge} (h : edge ∈ pattern.edges) :
    .identifier edge.label ∈ pattern.tokens := by
  have hhops (source : String) (hops : List Hop) (hedge : edge ∈ edgesFrom source hops) :
      ∃ hop ∈ hops, hop.label = edge.label := by
    induction hops generalizing source with
    | nil => exact absurd hedge List.not_mem_nil
    | cons hop rest ih =>
      rcases List.mem_cons.1 hedge with rfl | hrest
      · exact ⟨hop, List.mem_cons_self, rfl⟩
      · obtain ⟨other, hother, hl⟩ := ih _ hrest
        exact ⟨other, List.mem_cons_of_mem _ hother, hl⟩
  obtain ⟨chain, hchain, hedge⟩ := List.mem_flatMap.1 h
  obtain ⟨hop, hhop, hl⟩ := hhops _ _ hedge
  refine Pattern.chain_tokens_subset hchain (List.mem_append_right _ (List.mem_flatMap.2 ⟨hop, hhop, ?_⟩))
  simp [Hop.tokens, hl]

theorem mem_conditions_tokens {conditions : Conditions} {filter : Filter} (h : filter ∈ conditions.filters) :
    ∃ condition : Condition, condition.filter = filter ∧ condition.tokens ⊆ conditions.tokens := by
  rcases List.mem_cons.1 h with rfl | hmore
  · refine ⟨conditions.first, rfl, fun token htoken => ?_⟩
    simp [Conditions.tokens, htoken]
  · obtain ⟨joined, hjoined, rfl⟩ := List.mem_map.1 hmore
    refine ⟨joined.2, rfl, fun token htoken => ?_⟩
    have hseparated : token ∈ moreConditions conditions.more :=
      List.mem_flatMap.2 ⟨joined, hjoined, List.mem_cons_of_mem _ htoken⟩
    simp [Conditions.tokens, hseparated]

theorem mem_projections_tokens {projections : Projections} {path : String} (h : path ∈ projections.paths) :
    path ≠ "" ∧ .path path ∈ projections.tokens := by
  obtain ⟨text, htext, rfl⟩ := List.mem_map.1 h
  refine ⟨text.2, ?_⟩
  rcases List.mem_cons.1 htext with rfl | hmore
  · simp [Projections.tokens]
  · have hseparated : .path text.1 ∈ morePaths projections.more := List.mem_flatMap.2 ⟨text, hmore, by simp⟩
    simp [Projections.tokens, hseparated]

/-- The clause of a body can be written. -/
theorem legible_clause {body : Body} (h : Sound body.tokens) : LegibleClause body.clause ∧
    ∀ property ∈ clauseAssignments body.clause, Reading.unquoteKey property.key = property.key := by
  cases body with
  | create | delete => exact ⟨⟨nofun, nofun, nofun⟩, nofun⟩
  | assign pairs =>
    exact ⟨⟨nofun, nofun, fun property hproperty => (legible_block h hproperty).1⟩,
      fun property hproperty => (legible_block h hproperty).2⟩
  | find conditions projections =>
    refine ⟨⟨fun filter hfilter => ?_, fun path hpath => ?_, nofun⟩, nofun⟩
    · cases conditions with
      | none => exact absurd hfilter List.not_mem_nil
      | some conditions =>
        obtain ⟨condition, rfl, hsubset⟩ := mem_conditions_tokens hfilter
        exact legible_filter (h.of_subset fun token htoken => List.mem_append_left _ (hsubset htoken))
    · cases projections with
      | none => exact absurd hpath List.not_mem_nil
      | some projections =>
        obtain ⟨hne, hmem⟩ := mem_projections_tokens hpath
        exact ⟨hne, h.spelled (.path path) (List.mem_append_right _ hmem)⟩

/-- A query that was read has a node, can be written, and has no key in quotes. -/
theorem parse_legible {text : String} {query : Query} (h : parse text = .ok query) :
    query.Legible ∧ query.graph.nodes ≠ [] ∧
      ∀ property ∈ query.properties, Reading.unquoteKey property.key = property.key := by
  have hgraph := parse_wellFormed h
  obtain ⟨phrase, htokens⟩ := exists_phrase_of_parse h
  obtain ⟨hfits, -, rfl⟩ := (parse_phrase htokens query).1 h
  have hsound : Sound phrase.tokens := ⟨htokens ▸ tokensOf_spelled text, htokens ▸ hfits⟩
  have hpattern : Sound phrase.pattern.tokens := hsound.of_subset pattern_tokens_subset
  have hbody : Sound phrase.body.tokens := hsound.of_subset fun token htoken => by simp [Phrase.tokens, htoken]
  have hmention (mention : Mention) (hmem : mention ∈ phrase.pattern.mentions) : Sound mention.tokens :=
    hpattern.of_subset (Pattern.mention_tokens_subset hmem)
  have hproperty (node : Node) (hnode : node ∈ phrase.query.graph.nodes) (property : Property)
      (hmem : property ∈ node.properties) :
      LegibleProperty property ∧ Reading.unquoteKey property.key = property.key := by
    obtain ⟨mention, hin, hshown⟩ := (mention_of_node hnode).2 property hmem
    exact legible_mention (hmention mention hin) hshown
  obtain ⟨hclause, hassigned⟩ := legible_clause hbody
  refine ⟨⟨hgraph.id_eq, hgraph.bindings_nodup, hgraph.ends_mem, hgraph.edges_nodup, fun node hnode => ?_,
    fun edge hedge => ?_, hclause⟩, ?_, fun property hmem => ?_⟩
  · obtain ⟨⟨mention, hin, hname, hkind⟩, -⟩ := mention_of_node hnode
    obtain ⟨hnameWord, hkindWord⟩ := isWord_head hsound.spelled hin
    exact ⟨hname ▸ hnameWord, hkind ▸ hkindWord, fun property hmem => (hproperty node hnode property hmem).1⟩
  · exact hpattern.spelled (.identifier edge.label) (label_mem_tokens (List.mem_eraseDups.1 hedge))
  · have hfirst : phrase.pattern.first.first ∈ phrase.pattern.mentions := by
      simp [Pattern.mentions, Pattern.chains, Chain.mentions]
    obtain ⟨node, hnode, -⟩ := exists_node_iff.2 ⟨_, hfirst, rfl, rfl⟩
    exact List.ne_nil_of_mem hnode
  · rcases List.mem_append.1 hmem with hnodes | hassignment
    · obtain ⟨node, hnode, hshown⟩ := List.mem_flatMap.1 hnodes
      exact (hproperty node hnode property hshown).2
    · exact hassigned property hassignment

end ClusterQuery.Query
