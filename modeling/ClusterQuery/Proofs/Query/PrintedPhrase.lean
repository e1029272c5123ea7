import ClusterQuery.Proofs.Query.Language
import ClusterQuery.Proofs.Query.PrintedPattern

/-!
# The phrase that is printed

The chains of a printed pattern and the clause of its query make a phrase (`phraseOf`). When all keys and paths have
characters, the phrase has the tokens of the printed text; when no key is wrapped in quotes either, it says the query.
-/

namespace ClusterQuery.Query

open Phrase

/-! ## Values, keys and paths -/

/-- The value that writes a literal. -/
def valueOf : Literal → Value
  | .string value => .string value
  | .integer value => .integer (toString value)
  | .boolean value => .boolean value

theorem token_valueOf (literal : Literal) : (valueOf literal).token = valueToken literal := by
  cases literal <;> rfl

theorem numberOf_toString {value : Int} (h : 0 ≤ value) : (numberOf (toString value) : Int) = value := by
  have htext : toString value = value.toNat.repr := by
    change value.repr = _
    rw [Int.repr_eq_if, if_pos h]
  rw [numberOf, htext, Nat.toList_repr, Nat.ofDigitChars_ten_toDigits, Int.toNat_of_nonneg h]

theorem literal_valueOf {literal : Literal} (h : literal.Printable) : (valueOf literal).literal = literal := by
  cases literal with
  | integer value => exact congrArg Literal.integer (numberOf_toString h.1)
  | _ => rfl

/-- The path of a text, if it has characters. -/
def pathText? (text : String) : Option PathText :=
  if h : text ≠ "" then some ⟨text, h⟩ else none

theorem pathText?_of_ne {text : String} (h : text ≠ "") : pathText? text = some ⟨text, h⟩ :=
  dif_pos h

/-- The pairs of properties, of those that have a key. -/
def pairsOf (properties : List Property) : List Pair :=
  properties.filterMap fun property => (pathText? property.key).map (⟨·, valueOf property.value⟩)

theorem pairsOf_cons {property : Property} {rest : List Property} (h : property.key ≠ "") :
    pairsOf (property :: rest) = ⟨⟨property.key, h⟩, valueOf property.value⟩ :: pairsOf rest := by
  rw [pairsOf, List.filterMap_cons, pathText?_of_ne h]
  rfl

theorem morePairs_pairsOf {properties : List Property} (h : ∀ property ∈ properties, property.key ≠ "") :
    morePairs (pairsOf properties) = properties.flatMap (fun property => .comma :: propertyTokens property) := by
  induction properties with
  | nil => rfl
  | cons property rest ih =>
    obtain ⟨hkey, hrest⟩ := List.forall_mem_cons.1 h
    rw [pairsOf_cons hkey, morePairs, List.flatMap_cons, ← morePairs, ih hrest, List.flatMap_cons, Pair.tokens,
      token_valueOf, propertyTokens]

/-- A block has the tokens of its properties. -/
theorem blockTokens_pairsOf {properties : List Property} (h : ∀ property ∈ properties, property.key ≠ "") :
    blockTokens (pairsOf properties) = propertiesTokens properties := by
  cases properties with
  | nil => rfl
  | cons property rest =>
    obtain ⟨hkey, hrest⟩ := List.forall_mem_cons.1 h
    rw [pairsOf_cons hkey, blockTokens, blockRest, morePairs_pairsOf hrest, propertiesTokens, Pair.tokens,
      token_valueOf, propertyTokens]
    rfl

/-- A block says its properties. -/
theorem map_property_pairsOf {properties : List Property} (hkeys : ∀ property ∈ properties, property.key ≠ "")
    (hquotes : ∀ property ∈ properties, Reading.unquoteKey property.key = property.key)
    (hvalues : ∀ property ∈ properties, property.value.Printable) :
    (pairsOf properties).map Pair.property = properties := by
  induction properties with
  | nil => rfl
  | cons property rest ih =>
    obtain ⟨hkey, hkeys⟩ := List.forall_mem_cons.1 hkeys
    obtain ⟨hquote, hquotes⟩ := List.forall_mem_cons.1 hquotes
    obtain ⟨hvalue, hvalues⟩ := List.forall_mem_cons.1 hvalues
    rw [pairsOf_cons hkey, List.map_cons, ih hkeys hquotes hvalues, Pair.property, literal_valueOf hvalue, hquote]

/-! ## Patterns -/

/-- The mention that shows a node. -/
def mentionOf (node : Node) : Mention :=
  ⟨⟨node.name, node.kind⟩, if node.properties.isEmpty then none else some (pairsOf node.properties)⟩

/-- The hop that shows an edge and its target. -/
def hopOf (hop : String × Node) : Hop :=
  ⟨hop.1, mentionOf hop.2⟩

/-- The chain that is laid out. -/
def chainOf (chain : Layout) : Chain :=
  ⟨mentionOf chain.first, chain.hops.map hopOf⟩

theorem tokens_mentionOf {node : Node} (h : ∀ property ∈ node.properties, property.key ≠ "") :
    (mentionOf node).tokens = nodeTokens node := by
  unfold mentionOf Mention.tokens nodeTokens
  split
  · rfl
  · rw [Option.elim_some, blockTokens_pairsOf h]

theorem tokens_chainOf {chain : Layout} (h : ∀ node ∈ chain.mentions, ∀ property ∈ node.properties, property.key ≠ "") :
    (chainOf chain).tokens = chain.tokens := by
  obtain ⟨hfirst, htargets⟩ := List.forall_mem_cons.1 h
  rw [chainOf, Chain.tokens, Layout.tokens, tokens_mentionOf hfirst, List.flatMap_map]
  refine congrArg _ (List.flatMap_congr fun hop hhop => ?_)
  rw [hopOf, Hop.tokens, tokens_mentionOf (htargets hop.2 (List.mem_map_of_mem hhop)), Layout.hopTokens]

theorem mentions_chainOf (chain : Layout) : (chainOf chain).mentions = chain.mentions.map mentionOf := by
  simp [chainOf, Chain.mentions, Layout.mentions, hopOf]

theorem id_mentionOf {node : Node} (h : node.id = Node.idOf node.kind node.name) : (mentionOf node).id = node.id := by
  rw [h]
  rfl

theorem edgesFrom_hopOf {source : Node} {hops : List (String × Node)}
    (h : ∀ hop ∈ hops, hop.2.id = Node.idOf hop.2.kind hop.2.name) :
    edgesFrom source.id (hops.map hopOf) = Layout.edgesFrom source hops := by
  induction hops generalizing source with
  | nil => rfl
  | cons hop rest ih =>
    obtain ⟨hid, hrest⟩ := List.forall_mem_cons.1 h
    have htarget : (hopOf hop).target.id = hop.2.id := id_mentionOf hid
    rw [List.map_cons, edgesFrom, htarget, ih hrest]
    rfl

theorem edges_chainOf {chain : Layout} (h : ∀ node ∈ chain.mentions, node.id = Node.idOf node.kind node.name) :
    (chainOf chain).edges = chain.edges := by
  obtain ⟨hfirst, htargets⟩ := List.forall_mem_cons.1 h
  have hhops : ∀ hop ∈ chain.hops, hop.2.id = Node.idOf hop.2.kind hop.2.name :=
    fun hop hhop => htargets hop.2 (List.mem_map_of_mem hhop)
  rw [chainOf, Chain.edges, id_mentionOf hfirst, edgesFrom_hopOf hhops, Layout.edges]

theorem properties_mentionOf {node : Node} (hkeys : ∀ property ∈ node.properties, property.key ≠ "")
    (hquotes : ∀ property ∈ node.properties, Reading.unquoteKey property.key = property.key)
    (hvalues : ∀ property ∈ node.properties, property.value.Printable) :
    (mentionOf node).properties = node.properties := by
  unfold mentionOf Mention.properties
  split
  · rename_i hempty
    rw [List.isEmpty_iff.1 hempty]
    rfl
  · exact map_property_pairsOf hkeys hquotes hvalues

/-- The nodes of the mentions are those that the mentions add up to. -/
theorem nodesOf_map_mentionOf {nodes : List Node} (hwords : ∀ node ∈ nodes, IsWord node.name ∧ IsWord node.kind)
    (hids : ∀ node ∈ nodes, node.id = Node.idOf node.kind node.name)
    (hproperties : ∀ node ∈ nodes, (mentionOf node).properties = node.properties) :
    nodesOf (nodes.map mentionOf) = Graph.nodesOfMentions nodes := by
  induction nodes using List.reverseRecOn with
  | nil => rfl
  | append_singleton rest node ih =>
    obtain ⟨hwords, hword⟩ := List.forall_mem_append.1 hwords
    obtain ⟨hids, hid⟩ := List.forall_mem_append.1 hids
    obtain ⟨hproperties, hproperty⟩ := List.forall_mem_append.1 hproperties
    obtain ⟨hname, hkind⟩ := List.forall_mem_singleton.1 hword
    have hhead : (mentionOf node).head.Slashless := ⟨hkind.slash_notMem, hname.slash_notMem⟩
    have hnode : Node.ofBinding node.name node.kind (mentionOf node).properties = node := by
      rw [List.forall_mem_singleton.1 hproperty, Node.ofBinding, ← List.forall_mem_singleton.1 hid]
    rw [List.map_append, List.map_singleton, nodesOf_concat hhead, ih hwords hids hproperties,
      Graph.nodesOfMentions_concat]
    exact congrArg (Graph.addToNodes · _) hnode

/-! ## Bodies -/

/-- The conditions of filters, of those that have a path. -/
def conditionsOf (filters : List Filter) : List Condition :=
  filters.filterMap fun filter => (pathText? filter.path).map (⟨·, filter.comparison, valueOf filter.value⟩)

theorem conditionsOf_cons {filter : Filter} {rest : List Filter} (h : filter.path ≠ "") :
    conditionsOf (filter :: rest) =
      ⟨⟨filter.path, h⟩, filter.comparison, valueOf filter.value⟩ :: conditionsOf rest := by
  rw [conditionsOf, List.filterMap_cons, pathText?_of_ne h]
  rfl

/-- The conditions with the word that printed text has between them. -/
def whereOf (filters : List Filter) : Option Conditions :=
  match conditionsOf filters with
  | [] => none
  | first :: more => some ⟨first, more.map (.andWord, ·)⟩

/-- The projections of paths, of those that have characters. -/
def returnOf (paths : List String) : Option Projections :=
  match paths.filterMap pathText? with
  | [] => none
  | first :: more => some ⟨first, more⟩

/-- What follows the pattern of a clause. -/
def bodyOf : Clause → Body
  | .find filters projections => .find (whereOf filters) (returnOf projections)
  | .create => .create
  | .assign assignments => .assign (pairsOf assignments)
  | .delete => .delete

section Filters

variable {filters : List Filter} (h : ∀ filter ∈ filters, LegibleFilter filter)

include h

theorem moreConditions_conditionsOf : moreConditions ((conditionsOf filters).map (.andWord, ·)) =
    filters.flatMap (fun filter => .andWord :: filterTokens filter) := by
  induction filters with
  | nil => rfl
  | cons filter rest ih =>
    obtain ⟨hfilter, hrest⟩ := List.forall_mem_cons.1 h
    rw [conditionsOf_cons hfilter.path.characters, List.map_cons, moreConditions, List.flatMap_cons, ← moreConditions,
      ih hrest, List.flatMap_cons, filterTokens, ← token_valueOf]
    rfl

theorem map_filter_conditionsOf : (conditionsOf filters).map Condition.filter = filters := by
  induction filters with
  | nil => rfl
  | cons filter rest ih =>
    obtain ⟨hfilter, hrest⟩ := List.forall_mem_cons.1 h
    rw [conditionsOf_cons hfilter.path.characters, List.map_cons, ih hrest, Condition.filter,
      literal_valueOf hfilter.value]

theorem tokens_whereOf : (whereOf filters).elim [] Conditions.tokens = filtersTokens filters := by
  cases filters with
  | nil => rfl
  | cons filter rest =>
    obtain ⟨hfilter, hrest⟩ := List.forall_mem_cons.1 h
    rw [whereOf, conditionsOf_cons hfilter.path.characters]
    dsimp only
    rw [Option.elim_some, Conditions.tokens, moreConditions_conditionsOf hrest, filtersTokens, filterTokens,
      ← token_valueOf]
    rfl

theorem filters_whereOf : (whereOf filters).elim [] Conditions.filters = filters := by
  have hconditions : (whereOf filters).elim [] Conditions.filters = (conditionsOf filters).map Condition.filter := by
    unfold whereOf
    cases conditionsOf filters with
    | nil => rfl
    | cons first more => simp [Conditions.filters]
  rw [hconditions, map_filter_conditionsOf h]

end Filters

section Paths

variable {paths : List String} (h : ∀ path ∈ paths, LegiblePath path)

include h

theorem map_val_pathTexts : (paths.filterMap pathText?).map (·.1) = paths := by
  induction paths with
  | nil => rfl
  | cons path rest ih =>
    obtain ⟨hpath, hrest⟩ := List.forall_mem_cons.1 h
    rw [List.filterMap_cons, pathText?_of_ne hpath.characters, List.map_cons, ih hrest]

theorem tokens_returnOf : (returnOf paths).elim [] Projections.tokens = projectionsTokens paths := by
  have htokens : (returnOf paths).elim [] Projections.tokens =
      projectionsTokens ((paths.filterMap pathText?).map (·.1)) := by
    unfold returnOf
    cases paths.filterMap pathText? with
    | nil => rfl
    | cons first more => simp [Projections.tokens, projectionsTokens, morePaths]
  rw [htokens, map_val_pathTexts h]

theorem paths_returnOf : (returnOf paths).elim [] Projections.paths = paths := by
  have hpaths : (returnOf paths).elim [] Projections.paths = (paths.filterMap pathText?).map (·.1) := by
    unfold returnOf
    cases paths.filterMap pathText? <;> rfl
  rw [hpaths, map_val_pathTexts h]

end Paths

section Clauses

variable {clause : Clause} (h : LegibleClause clause)
  (hkeys : ∀ property ∈ clauseAssignments clause, property.key ≠ "")

include h hkeys

/-- The body of a clause has the tokens of what is printed for it. -/
theorem tokens_bodyOf : (bodyOf clause).tokens = clauseTokens clause := by
  cases clause with
  | create | delete => rfl
  | assign assignments => exact blockTokens_pairsOf hkeys
  | find filters projections =>
    have hfilters : ∀ filter ∈ filters, LegibleFilter filter := h.filters
    have hprojections : ∀ path ∈ projections, LegiblePath path := h.projections
    rw [bodyOf, Body.tokens, tokens_whereOf hfilters, tokens_returnOf hprojections, clauseTokens]

/-- The body of a clause says the clause. -/
theorem clause_bodyOf
    (hquotes : ∀ property ∈ clauseAssignments clause, Reading.unquoteKey property.key = property.key) :
    (bodyOf clause).clause = clause := by
  cases clause with
  | create | delete => rfl
  | assign assignments =>
    have hvalues : ∀ property ∈ assignments, property.value.Printable :=
      fun property hproperty => (h.assignments property hproperty).value
    exact congrArg Clause.assign (map_property_pairsOf hkeys hquotes hvalues)
  | find filters projections =>
    have hfilters : ∀ filter ∈ filters, LegibleFilter filter := h.filters
    have hprojections : ∀ path ∈ projections, LegiblePath path := h.projections
    rw [bodyOf, Body.clause, filters_whereOf hfilters, paths_returnOf hprojections]

end Clauses

/-! ## Phrases -/

/-- The phrase of chains, at least one, and a clause. -/
def phraseOf (first : Layout) (more : List Layout) (clause : Clause) : Phrase :=
  ⟨⟨chainOf first, more.map chainOf⟩, bodyOf clause, false⟩

variable {first : Layout} {more : List Layout} {clause : Clause}

theorem mentions_phraseOf :
    (phraseOf first more clause).pattern.mentions = ((first :: more).flatMap Layout.mentions).map mentionOf := by
  simp [phraseOf, Pattern.mentions, Pattern.chains, List.flatMap_map, List.map_flatMap, mentions_chainOf]

theorem edges_phraseOf (h : ∀ chain ∈ first :: more, ∀ node ∈ chain.mentions, node.id = Node.idOf node.kind node.name) :
    (phraseOf first more clause).pattern.edges = (first :: more).flatMap Layout.edges := by
  have hchains : (phraseOf first more clause).pattern.edges = ((first :: more).map chainOf).flatMap Chain.edges := rfl
  rw [hchains, List.flatMap_map]
  exact List.flatMap_congr fun chain hchain => edges_chainOf (h chain hchain)

/-- The phrase has the tokens of what is printed. -/
theorem tokens_phraseOf (hclause : LegibleClause clause)
    (hkeys : ∀ property ∈ clauseAssignments clause, property.key ≠ "")
    (hmentions : ∀ chain ∈ first :: more, ∀ node ∈ chain.mentions, ∀ property ∈ node.properties, property.key ≠ "") :
    (phraseOf first more clause).tokens =
      verbToken (bodyOf clause).verb :: chainsTokens (first :: more) ++ (clauseTokens clause ++ [Token.finish]) := by
  obtain ⟨hfirst, hmore⟩ := List.forall_mem_cons.1 hmentions
  have hchains : moreChains (more.map chainOf) = more.flatMap fun chain => .comma :: chain.tokens := by
    rw [moreChains, List.flatMap_map]
    exact List.flatMap_congr fun chain hchain => congrArg _ (tokens_chainOf (hmore chain hchain))
  rw [phraseOf, Phrase.tokens, Pattern.tokens, tokens_chainOf hfirst, hchains, tokens_bodyOf hclause hkeys,
    chainsTokens]
  simp [endTokens]

/-! ## Numbers -/

/-- A number is at most the greatest signed 64-bit one. -/
def Token.Fits : Token → Prop
  | .integer digits => numberOf digits ≤ 2 ^ 63 - 1
  | _ => True

theorem numbersFit_of_fits {tokens : List Token} (h : ∀ token ∈ tokens, token.Fits) : NumbersFit tokens :=
  fun digits hdigits => h (.integer digits) hdigits

theorem fits_valueToken {literal : Literal} (h : literal.Printable) : (valueToken literal).Fits := by
  cases literal with
  | integer value =>
    obtain ⟨hnonneg, hrange⟩ := h
    simp only [Literal.inRange, Bool.and_eq_true, decide_eq_true_eq] at hrange
    have hnumber := numberOf_toString hnonneg
    have hpow : Nat.pow 2 63 = 2 ^ 63 := rfl
    change numberOf (toString value) ≤ 2 ^ 63 - 1
    omega
  | _ => trivial

/-- The tokens of pieces after a separator each. -/
theorem fits_separated {α : Type} {separator : Token} {entries : List α} {tokens : α → List Token}
    (hseparator : separator.Fits) (h : ∀ entry ∈ entries, ∀ token ∈ tokens entry, token.Fits) :
    ∀ token ∈ entries.flatMap (fun entry => separator :: tokens entry), token.Fits :=
  List.forall_mem_flatMap.2 fun entry hentry => List.forall_mem_cons.2 ⟨hseparator, h entry hentry⟩

theorem fits_propertiesTokens {properties : List Property} (h : ∀ property ∈ properties, LegibleProperty property) :
    ∀ token ∈ propertiesTokens properties, token.Fits := by
  have hproperty : ∀ property ∈ properties, ∀ token ∈ propertyTokens property, token.Fits := by
    intro property hmem
    have hvalue := fits_valueToken (h property hmem).value
    rintro token (_ | ⟨_, _ | ⟨_, _ | ⟨_, ⟨⟩⟩⟩⟩)
    exacts [trivial, trivial, hvalue]
  cases properties with
  | nil =>
    rintro token (_ | ⟨_, _ | ⟨_, _ | ⟨_, ⟨⟩⟩⟩⟩)
    exacts [trivial, trivial, trivial]
  | cons first more =>
    obtain ⟨hfirst, hmore⟩ := List.forall_mem_cons.1 hproperty
    rw [propertiesTokens, List.forall_mem_append, List.cons_append, List.forall_mem_cons, List.forall_mem_append]
    exact ⟨⟨trivial, hfirst, fits_separated trivial hmore⟩, List.forall_mem_singleton.2 trivial⟩

theorem fits_nodeTokens {node : Node} (h : LegibleNode node) : ∀ token ∈ nodeTokens node, token.Fits := by
  have hproperties : ∀ token ∈ (if node.properties.isEmpty then [] else propertiesTokens node.properties),
      token.Fits := by
    split
    · exact fun _ hmem => absurd hmem List.not_mem_nil
    · exact fits_propertiesTokens h.properties
  rw [nodeTokens, List.forall_mem_append, List.forall_mem_append]
  refine ⟨⟨?_, hproperties⟩, List.forall_mem_singleton.2 trivial⟩
  rintro token (_ | ⟨_, _ | ⟨_, _ | ⟨_, _ | ⟨_, ⟨⟩⟩⟩⟩⟩)
  all_goals trivial

theorem fits_chainsTokens {chains : List Layout} (h : ∀ chain ∈ chains, chain.Legible) :
    ∀ token ∈ chainsTokens chains, token.Fits := by
  have hchain : ∀ chain ∈ chains, ∀ token ∈ chain.tokens, token.Fits := by
    intro chain hmem
    obtain ⟨hfirst, htargets⟩ := List.forall_mem_cons.1 (h chain hmem).mentions
    have hhop (hop : String × Node) (hhop : hop ∈ chain.hops) : ∀ token ∈ Layout.hopTokens hop, token.Fits := by
      rw [Layout.hopTokens, List.forall_mem_append]
      refine ⟨?_, fits_nodeTokens (htargets hop.2 (List.mem_map_of_mem hhop))⟩
      rintro token (_ | ⟨_, _ | ⟨_, _ | ⟨_, _ | ⟨_, _ | ⟨_, _ | ⟨_, ⟨⟩⟩⟩⟩⟩⟩⟩)
      all_goals trivial
    rw [Layout.tokens, List.forall_mem_append]
    exact ⟨fits_nodeTokens hfirst, List.forall_mem_flatMap.2 hhop⟩
  cases chains with
  | nil => exact fun _ hmem => absurd hmem List.not_mem_nil
  | cons first more =>
    obtain ⟨hfirst, hmore⟩ := List.forall_mem_cons.1 hchain
    rw [chainsTokens, List.forall_mem_append]
    exact ⟨hfirst, fits_separated trivial hmore⟩

theorem fits_clauseTokens (h : LegibleClause clause) : ∀ token ∈ clauseTokens clause, token.Fits := by
  cases clause with
  | create | delete => exact fun _ hmem => absurd hmem List.not_mem_nil
  | assign assignments => exact fits_propertiesTokens h.assignments
  | find filters projections =>
    have hfilter : ∀ filter ∈ filters, ∀ token ∈ filterTokens filter, token.Fits := by
      intro filter hmem
      have hsign : (comparisonToken filter.comparison).Fits := by cases filter.comparison <;> trivial
      have hvalue := fits_valueToken (h.filters filter hmem).value
      rintro token (_ | ⟨_, _ | ⟨_, _ | ⟨_, ⟨⟩⟩⟩⟩)
      exacts [trivial, hsign, hvalue]
    have hfilters : ∀ token ∈ filtersTokens filters, token.Fits := by
      cases filters with
      | nil => exact fun _ hmem => absurd hmem List.not_mem_nil
      | cons first more =>
        obtain ⟨hfirst, hmore⟩ := List.forall_mem_cons.1 hfilter
        rw [filtersTokens, List.cons_append, List.forall_mem_cons, List.forall_mem_append]
        exact ⟨trivial, hfirst, fits_separated trivial hmore⟩
    have hprojections : ∀ token ∈ projectionsTokens projections, token.Fits := by
      cases projections with
      | nil => exact fun _ hmem => absurd hmem List.not_mem_nil
      | cons first more =>
        rw [projectionsTokens, List.forall_mem_cons, List.forall_mem_cons]
        exact ⟨trivial, trivial, fits_separated trivial fun _ _ => List.forall_mem_singleton.2 trivial⟩
    rw [clauseTokens, List.forall_mem_append]
    exact ⟨hfilters, hprojections⟩

end ClusterQuery.Query
