import ClusterQuery.Proofs.Query.PrintedPhrase

/-!
# Reading what was printed

The tokens of a printed query are those of the phrase that its pattern and its clause lay out (`exists_chains`,
`tokens_phraseOf`), and the phrase says the query (`query_phraseOf`). So reading the text gives the query back when all
that it holds can be written and no quotes are taken off its keys (`Legible.parse_text`).
-/

namespace ClusterQuery

open Query (IsWord IsPathText LegibleNode LegibleClause LegibleProperty Layout)

namespace Query

/-- The properties of the nodes and the assignments. -/
def properties (query : Query) : List Property :=
  query.graph.nodes.flatMap (·.properties) ++ clauseAssignments query.clause

/-- The nodes have the ids of their kinds and names and distinct names, the edges are distinct and join nodes, and all
names, labels, keys, paths and numbers are spelled as the grammar has them, but for keys without characters. -/
structure Legible (query : Query) : Prop where
  ids : ∀ node ∈ query.graph.nodes, node.id = Node.idOf node.kind node.name
  bindings : query.graph.bindings.Nodup
  ends : ∀ edge ∈ query.graph.edges, edge.source ∈ query.graph.ids ∧ edge.target ∈ query.graph.ids
  edges : query.graph.edges.Nodup
  nodes : ∀ node ∈ query.graph.nodes, LegibleNode node
  labels : ∀ edge ∈ query.graph.edges, IsWord edge.label
  clause : LegibleClause query.clause

/-- A text without quotes between two quotes. -/
def Wrapped (key : String) : Prop :=
  ∃ name, key.toList = '"' :: name ++ ['"'] ∧ '"' ∉ name

/-- A legible query whose keys have characters and are not wrapped in quotes. -/
structure Printable (query : Query) : Prop extends query.Legible where
  keys : ∀ property ∈ query.properties, property.key ≠ "" ∧ ¬Wrapped property.key

/-- A key is taken as it is, or loses the quotes around a name that has none. -/
theorem unquoteKey_cases (key : String) : Reading.unquoteKey key = key ∨
    ∃ name, key.toList = '"' :: name ++ ['"'] ∧ '"' ∉ name ∧ Reading.unquoteKey key = String.ofList name := by
  unfold Reading.unquoteKey
  split
  · rename_i rest hkey
    split
    · rename_i name hrest
      split
      · exact Or.inl rfl
      · rename_i hname
        refine Or.inr ⟨name.reverse, ?_, by simpa using hname, rfl⟩
        rw [hkey, ← List.reverse_reverse rest, hrest]
        simp
    · exact Or.inl rfl
  · exact Or.inl rfl

/-- A key that is not wrapped in quotes keeps what quotes it has. -/
theorem unquoteKey_of_not_wrapped {key : String} (h : ¬Wrapped key) : Reading.unquoteKey key = key :=
  (unquoteKey_cases key).resolve_right fun ⟨name, hkey, hname, _⟩ => h ⟨name, hkey, hname⟩

namespace Legible

variable {query : Query} (h : query.Legible)

include h

theorem slashless {node : Node} (hnode : node ∈ query.graph.nodes) :
    NodeHead.Slashless ⟨node.name, node.kind⟩ :=
  ⟨(h.nodes node hnode).kind.slash_notMem, (h.nodes node hnode).name.slash_notMem⟩

/-- Distinct names make distinct ids. -/
theorem ids_nodup : query.graph.ids.Nodup := by
  have hnames : query.graph.nodes.Pairwise fun first second => first.name ≠ second.name :=
    List.pairwise_map.1 h.bindings
  refine List.pairwise_map.2 (hnames.imp_of_mem fun {first second} hfirst hsecond hne hid => hne ?_)
  rw [h.ids first hfirst, h.ids second hsecond] at hid
  have hheads : (⟨first.name, first.kind⟩ : NodeHead) = ⟨second.name, second.kind⟩ :=
    Phrase.idOf_injective (h.slashless hfirst) hid
  exact congrArg NodeHead.name hheads

theorem closed : query.graph.Closed :=
  ⟨h.ids_nodup, h.ends⟩

/-- A node that a mention shows is a node of the graph, with its properties or without. -/
theorem node_of_mention {mentions : List Node} {count : Nat} (hmentions : query.graph.Introduced mentions count)
    {node : Node} (hnode : node ∈ mentions) :
    LegibleNode node ∧ node.id = Node.idOf node.kind node.name ∧ ∃ other ∈ query.graph.nodes,
      node.name = other.name ∧ node.kind = other.kind ∧ ∀ property ∈ node.properties, property ∈ other.properties := by
  obtain ⟨other, hother, rfl | rfl⟩ := hmentions.known node hnode
  · exact ⟨h.nodes node hother, h.ids node hother, node, hother, rfl, rfl, fun _ => id⟩
  · have hlegible := h.nodes other hother
    exact ⟨⟨hlegible.name, hlegible.kind, fun _ hmem => absurd hmem List.not_mem_nil⟩, h.ids other hother, other,
      hother, rfl, rfl, fun _ hmem => absurd hmem List.not_mem_nil⟩

/-- A label between laid out nodes is that of an edge. -/
theorem label_of_hop {chains : List Layout} (hedges : chains.flatMap Layout.edges = query.graph.edges) {chain : Layout}
    (hchain : chain ∈ chains) {hop : String × Node} (hhop : hop ∈ chain.hops) : IsWord hop.1 := by
  have hlabel (source : Node) (hops : List (String × Node)) (hmem : hop ∈ hops) :
      ∃ edge ∈ Layout.edgesFrom source hops, edge.label = hop.1 := by
    induction hops generalizing source with
    | nil => exact absurd hmem List.not_mem_nil
    | cons first rest ih =>
      rcases List.mem_cons.1 hmem with rfl | hrest
      · exact ⟨_, List.mem_cons_self, rfl⟩
      · obtain ⟨edge, hedge, hl⟩ := ih first.2 hrest
        exact ⟨edge, List.mem_cons_of_mem _ hedge, hl⟩
  obtain ⟨edge, hedge, hl⟩ := hlabel chain.first chain.hops hhop
  rw [← hl]
  exact h.labels edge (hedges ▸ List.mem_flatMap.2 ⟨chain, hchain, hedge⟩)

/-- The tokens of the printed query: those of chains that lay out its pattern, and those of its clause. -/
theorem exists_chains (hne : query.graph.nodes ≠ []) :
    ∃ first more, tokensOf query.text =
        Phrase.verbToken (bodyOf query.clause).verb :: chainsTokens (first :: more) ++
          (clauseTokens query.clause ++ [.finish]) ∧
      query.graph.Introduced ((first :: more).flatMap Layout.mentions) query.graph.nodes.length ∧
      (first :: more).flatMap Layout.edges = query.graph.edges ∧ ∀ chain ∈ first :: more, chain.Legible := by
  obtain ⟨chains, htext, hintroduced, hedges⟩ := Graph.exists_layout h.closed
  have hlegible : ∀ chain ∈ chains, chain.Legible := fun chain hchain =>
    ⟨fun node hnode => (h.node_of_mention hintroduced (List.mem_flatMap.2 ⟨chain, hchain, hnode⟩)).1,
      fun hop hhop => h.label_of_hop hedges hchain hhop⟩
  cases chains with
  | nil =>
    have hnodes := hintroduced.nodes
    rw [List.take_length] at hnodes
    exact absurd hnodes.symm hne
  | cons first more =>
    refine ⟨first, more, ?_, hintroduced, hedges, hlegible⟩
    have hverb (after : List Char) : tokensFrom .none .pattern none (query.clause.keyword.toList ++ ' ' :: after) =
        Phrase.verbToken (bodyOf query.clause).verb ::
          tokensFrom .none .pattern (some (Phrase.verbToken (bodyOf query.clause).verb)) after := by
      have hkeyword (word : String) (token : Token) (hword : IsWord word) (htoken : keyword? word = some token)
          (hstays : Lexer.transition .none .pattern token = (.none, .pattern)) :
          tokensFrom .none .pattern none (word.toList ++ ' ' :: after) =
            token :: tokensFrom .none .pattern (some token) after := by
        rw [tokensFrom_keyword hword htoken (by simp) (forall_mem_head? (by decide)), hstays,
          tokensFrom_blank (by decide)]
      cases query.clause with
      | find => exact hkeyword "MATCH" .matchWord (by decide) (by decide) rfl
      | create => exact hkeyword "CREATE" .createWord (by decide) (by decide) rfl
      | assign => exact hkeyword "SET" .setWord (by decide) (by decide) rfl
      | delete => exact hkeyword "DELETE" .deleteWord (by decide) (by decide) rfl
    have hsplit : query.text.toList = query.clause.keyword.toList ++ ' ' ::
        ([',', ' '].intercalate ((first :: more).map Layout.chars) ++ query.clause.text.toList) := by
      simp [text, htext]
    rw [tokensOf_eq, hsplit, hverb, tokensFrom_chains (List.cons_ne_nil _ _) hlegible, tokensFrom_clause h.clause]
    rfl

/-- The properties that a mention shows are properties of the query. -/
theorem property_of_mention {mentions : List Node} {count : Nat} (hmentions : query.graph.Introduced mentions count)
    {node : Node} (hnode : node ∈ mentions) {property : Property} (hproperty : property ∈ node.properties) :
    property ∈ query.properties := by
  obtain ⟨-, -, other, hother, -, -, hproperties⟩ := h.node_of_mention hmentions hnode
  exact List.mem_append_left _ (List.mem_flatMap.2 ⟨other, hother, hproperties property hproperty⟩)

/-- No binding is mentioned with two kinds. -/
theorem oneKindEach {mentions : List Node} {count : Nat} (hmentions : query.graph.Introduced mentions count) :
    Phrase.OneKindEach (mentions.map mentionOf) := by
  intro first hfirst second hsecond hname
  obtain ⟨firstNode, hfirstNode, rfl⟩ := List.mem_map.1 hfirst
  obtain ⟨secondNode, hsecondNode, rfl⟩ := List.mem_map.1 hsecond
  obtain ⟨-, -, one, hone, honeName, honeKind, -⟩ := h.node_of_mention hmentions hfirstNode
  obtain ⟨-, -, other, hother, hotherName, hotherKind, -⟩ := h.node_of_mention hmentions hsecondNode
  have hnames : one.name = other.name := honeName.symm.trans (Eq.trans hname hotherName)
  have hsame : one = other := List.inj_on_of_nodup_map h.bindings hone hother hnames
  exact honeKind.trans (hsame ▸ hotherKind.symm)

section Phrases

variable (hkeys : ∀ property ∈ query.properties, property.key ≠ "")
  (hquotes : ∀ property ∈ query.properties, Reading.unquoteKey property.key = property.key) {first : Layout}
  {more : List Layout}
  (hintroduced : query.graph.Introduced ((first :: more).flatMap Layout.mentions) query.graph.nodes.length)

include hkeys hintroduced

/-- The phrase of the chains that lay out a query has the tokens that are printed for them. -/
theorem tokens_phraseOf : (phraseOf first more query.clause).tokens =
    Phrase.verbToken (bodyOf query.clause).verb :: chainsTokens (first :: more) ++
      (clauseTokens query.clause ++ [Token.finish]) :=
  Query.tokens_phraseOf h.clause (fun property hproperty => hkeys property (List.mem_append_right _ hproperty))
    fun chain hchain _ hnode property hproperty =>
      hkeys property (h.property_of_mention hintroduced (List.mem_flatMap.2 ⟨chain, hchain, hnode⟩) hproperty)

include hquotes

/-- The phrase of the chains that lay out a query says the query. -/
theorem query_phraseOf (hedges : (first :: more).flatMap Layout.edges = query.graph.edges) :
    (phraseOf first more query.clause).query = query := by
  have hmention {node : Node} (hnode : node ∈ (first :: more).flatMap Layout.mentions) :=
    h.node_of_mention hintroduced hnode
  have hproperties : ∀ node ∈ (first :: more).flatMap Layout.mentions, (mentionOf node).properties = node.properties :=
    fun node hnode => properties_mentionOf
      (fun property hproperty => hkeys property (h.property_of_mention hintroduced hnode hproperty))
      (fun property hproperty => hquotes property (h.property_of_mention hintroduced hnode hproperty))
      (fun property hproperty => ((hmention hnode).1.properties property hproperty).value)
  have hnodes : Phrase.nodesOf (phraseOf first more query.clause).pattern.mentions = query.graph.nodes := by
    rw [mentions_phraseOf, nodesOf_map_mentionOf
      (fun node hnode => ⟨(hmention hnode).1.name, (hmention hnode).1.kind⟩)
      (fun node hnode => (hmention hnode).2.1) hproperties, hintroduced.nodes, List.take_length]
  have hedges : (phraseOf first more query.clause).pattern.edges.eraseDups = query.graph.edges := by
    rw [edges_phraseOf fun chain hchain node hnode =>
      (hmention (List.mem_flatMap.2 ⟨chain, hchain, hnode⟩)).2.1, hedges, eraseDups_of_nodup h.edges]
  have hclause : (phraseOf first more query.clause).body.clause = query.clause :=
    clause_bodyOf h.clause (fun property hproperty => hkeys property (List.mem_append_right _ hproperty))
      fun property hproperty => hquotes property (List.mem_append_right _ hproperty)
  rw [Phrase.query, Phrase.graphOf, hnodes, hedges, hclause]

end Phrases

/-- What is printed is read as it was, when the keys have characters and quotes around them are part of them. -/
theorem parse_text (hne : query.graph.nodes ≠ []) (hkeys : ∀ property ∈ query.properties, property.key ≠ "")
    (hquotes : ∀ property ∈ query.properties, Reading.unquoteKey property.key = property.key) :
    parse query.text = .ok query := by
  obtain ⟨first, more, htokens, hintroduced, hedges, hchains⟩ := h.exists_chains hne
  have hphrase : (phraseOf first more query.clause).tokens = tokensOf query.text :=
    (h.tokens_phraseOf hkeys hintroduced).trans htokens.symm
  refine (parse_phrase hphrase query).2 ⟨?_, ?_, (h.query_phraseOf hkeys hquotes hintroduced hedges).symm⟩
  · refine numbersFit_of_fits ?_
    rw [htokens, List.cons_append, List.forall_mem_cons, List.forall_mem_append, List.forall_mem_append]
    refine ⟨?_, fits_chainsTokens hchains, fits_clauseTokens h.clause, List.forall_mem_singleton.2 trivial⟩
    cases (bodyOf query.clause).verb <;> trivial
  · rw [mentions_phraseOf]
    exact h.oneKindEach hintroduced

end Legible

/-- Reading what was printed for a printable query gives the query back. -/
theorem parse_text_of_printable {query : Query} (h : query.Printable) (hne : query.graph.nodes ≠ []) :
    parse query.text = .ok query :=
  h.toLegible.parse_text hne (fun property hproperty => (h.keys property hproperty).1)
    fun property hproperty => unquoteKey_of_not_wrapped (h.keys property hproperty).2

/-- A query with keywords for names, a key that comes twice, and an edge against the order of its nodes. -/
def backwards : Query :=
  ⟨⟨[⟨"Deployment/match", "Deployment", "match", [⟨"replicas", .integer 2⟩, ⟨"replicas", .string "\"2\""⟩]⟩,
      ⟨"Pod/set", "Pod", "set", []⟩], [⟨"Pod/set", "Deployment/match", "where"⟩]⟩,
    .find [⟨"match.spec", .notEqual, .boolean true⟩] ["set"]⟩

theorem printable_backwards : backwards.Printable where
  ids := by decide
  bindings := by decide
  ends := by decide
  edges := by decide
  nodes := by
    have hcount : LegibleProperty ⟨"replicas", .integer 2⟩ := ⟨by decide, by decide, by decide⟩
    have hquoted : LegibleProperty ⟨"replicas", .string "\"2\""⟩ := ⟨by decide, trivial⟩
    refine List.forall_mem_cons.2 ⟨⟨by decide, by decide, ?_⟩, List.forall_mem_singleton.2 ?_⟩
    · exact List.forall_mem_cons.2 ⟨hcount, List.forall_mem_singleton.2 hquoted⟩
    · exact ⟨by decide, by decide, nofun⟩
  labels := by decide
  clause :=
    ⟨List.forall_mem_singleton.2 ⟨⟨by decide, by decide⟩, trivial⟩, List.forall_mem_singleton.2 ⟨by decide, by decide⟩,
      nofun⟩
  keys := by
    have hwrapped : ¬Wrapped "replicas" := by
      rintro ⟨name, hname, -⟩
      cases hname
    refine List.forall_mem_cons.2 ⟨⟨by decide, hwrapped⟩, List.forall_mem_singleton.2 ⟨by decide, hwrapped⟩⟩

theorem parse_text_of_printable_backwards :
    backwards.Printable ∧ backwards.graph.nodes ≠ [] ∧ parse backwards.text = .ok backwards :=
  ⟨printable_backwards, by decide, parse_text_of_printable printable_backwards (by decide)⟩

end Query

end ClusterQuery
