import ClusterQuery.Proofs.Query.Image

/-!
# Printing what was read

An empty name in quotes is taken for a key without characters. Such a key is printed as nothing before its colon, and no
reading goes on from there (`answer?_emptyKey`); any other query that was read is read again from its text
(`parse_text_of_parse`).
-/

namespace ClusterQuery.Query

namespace Reading

/-! ## Keys without characters -/

section Completion

variable {reading : Reading} {placed : PlacedToken} {query : Query}

/-- A token that has to come completes no query. -/
theorem expect_ne_query (reading : Reading) (placed : PlacedToken) (token : Token) (expected : String) (stage : Stage)
    (query : Query) : reading.expect placed token expected stage ≠ .ok (.inr query) := by
  unfold expect
  split <;> nofun

theorem expectName_ne_query (reading : Reading) (placed : PlacedToken) (expected : String) (stage : String → Stage)
    (query : Query) : reading.expectName placed expected stage ≠ .ok (.inr query) := by
  unfold expectName
  split <;> nofun

theorem bind_ne_query {α : Type} (answer : Except ParseError α) {next : α → Outcome}
    (h : ∀ a, next a ≠ .ok (.inr query)) : (answer >>= next) ≠ .ok (.inr query) := by
  cases answer with
  | error cause => nofun
  | ok a => exact h a

theorem readFirstKey_ne_query (reading : Reading) (placed : PlacedToken) (owner : BlockOwner) (query : Query) :
    reading.readFirstKey placed owner ≠ .ok (.inr query) := by
  unfold readFirstKey
  split
  · nofun
  · exact bind_ne_query _ fun _ => nofun

theorem token_of_ending_query (h : reading.ending placed = .ok (.inr query)) : placed.token = .finish := by
  unfold ending at h
  split at h
  · cases h
  · assumption
  · cases h

theorem token_of_afterPattern_query (h : reading.afterPattern placed = .ok (.inr query)) :
    placed.token = .finish := by
  unfold afterPattern at h
  split at h
  · split at h
    · cases h
    · cases h
    · exact token_of_ending_query h
  · exact absurd h (expect_ne_query _ _ _ _ _ _)
  · exact token_of_ending_query h
  · exact token_of_ending_query h

/-- Only the end completes a query. -/
theorem token_of_step_query (h : reading.step placed = .ok (.inr query)) : placed.token = .finish := by
  unfold step at h
  cases hstage : reading.stage with rw [hstage] at h
  | nodeOpen | bindingColon | edgeBracket | edgeColon | edgeClose | edgeArrow | keyColon =>
    exact absurd h (expect_ne_query _ _ _ _ _ _)
  | bindingName | kind | edgeLabel => exact absurd h (expectName_ne_query _ _ _ _ _)
  | key | filterPath | projectionPath | value | filterValue => exact absurd h (bind_ne_query _ fun _ => nofun)
  | firstKey owner => exact absurd h (readFirstKey_ne_query _ _ _ _)
  | close => exact token_of_ending_query h
  | patternMore =>
    dsimp only at h
    split at h
    · cases h
    · cases h
    · exact token_of_afterPattern_query h
  | filterMore | projectionMore =>
    dsimp only at h
    split at h
    all_goals first | cases h | exact token_of_ending_query h
  | finish =>
    dsimp only at h
    split at h
    · assumption
    · cases h
  | nodeBlockOrClose | nodeClose =>
    dsimp only at h
    split at h
    all_goals first | cases h | exact absurd h (addNode_ne_query _ _ _ _)
  | emptyBlockClose owner | blockMore owner =>
    dsimp only at h
    split at h
    all_goals first | cases h | cases owner <;> cases h
  | verb | filterComparison =>
    dsimp only at h
    split at h <;> cases h

end Completion

/-- A path without characters is not read before a colon. -/
theorem answer?_emptyKey {reading : Reading} {front rest : List Token} (hfront : .finish ∉ front) :
    reading.answer? (front ++ .path "" :: .colon :: rest) = none := by
  induction front generalizing reading with
  | nil =>
    rw [List.nil_append, answer?_cons]
    obtain ⟨verb, graph, openEdge, filters, projections, assignments, stage⟩ := reading
    cases stage with
    | patternMore => cases verb <;> rfl
    | _ => rfl
  | cons token front ih =>
    rw [List.mem_cons, not_or] at hfront
    rw [List.cons_append, answer?_cons]
    cases hstep : reading.step ⟨token, .start⟩ with
    | error cause => rfl
    | ok outcome =>
      cases outcome with
      | inl next => exact ih hfront.2
      | inr query => exact absurd (token_of_step_query hstep).symm hfront.1

end Reading

/-! ## Tokens of a key without characters -/

theorem within_flatMap {α : Type} {entries : List α} {entry : α} (h : entry ∈ entries) (tokens : α → List Token) :
    tokens entry <:+: entries.flatMap tokens := by
  obtain ⟨front, rest, rfl⟩ := List.append_of_mem h
  exact ⟨front.flatMap tokens, rest.flatMap tokens, by simp⟩

theorem within_separated {α : Type} {entries : List α} {entry : α} (h : entry ∈ entries) (separator : Token)
    (tokens : α → List Token) : tokens entry <:+: entries.flatMap (fun entry => separator :: tokens entry) :=
  (List.suffix_cons separator (tokens entry)).isInfix.trans (within_flatMap h fun entry => separator :: tokens entry)

theorem propertyTokens_within {properties : List Property} {property : Property} (h : property ∈ properties) :
    propertyTokens property <:+: propertiesTokens properties := by
  cases properties with
  | nil => exact absurd h List.not_mem_nil
  | cons first more =>
    rw [propertiesTokens]
    refine List.IsInfix.trans ?_ (List.prefix_append _ _).isInfix
    rcases List.mem_cons.1 h with rfl | hmore
    · exact ⟨[.leftBrace], more.flatMap fun property => .comma :: propertyTokens property, by simp⟩
    · exact (within_separated hmore .comma propertyTokens).trans (List.suffix_append _ _).isInfix

theorem propertiesTokens_within {node : Node} (h : node.properties ≠ []) :
    propertiesTokens node.properties <:+: nodeTokens node := by
  rw [nodeTokens, if_neg (mt List.isEmpty_iff.1 h)]
  exact ⟨_, _, rfl⟩

theorem nodeTokens_within {chain : Layout} {node : Node} (h : node ∈ chain.mentions) :
    nodeTokens node <:+: chain.tokens := by
  rw [Layout.tokens]
  rcases List.mem_cons.1 h with rfl | htarget
  · exact (List.prefix_append _ _).isInfix
  · obtain ⟨hop, hhop, rfl⟩ := List.mem_map.1 htarget
    refine List.IsInfix.trans ?_ (List.suffix_append _ _).isInfix
    exact (List.suffix_append _ _).isInfix.trans (within_flatMap hhop Layout.hopTokens)

theorem chainTokens_within {chains : List Layout} {chain : Layout} (h : chain ∈ chains) :
    chain.tokens <:+: chainsTokens chains := by
  cases chains with
  | nil => exact absurd h List.not_mem_nil
  | cons first more =>
    rw [chainsTokens]
    rcases List.mem_cons.1 h with rfl | hmore
    · exact (List.prefix_append _ _).isInfix
    · exact (within_separated hmore .comma Layout.tokens).trans (List.suffix_append _ _).isInfix

/-- The tokens of a property stand in what is printed. -/
theorem Legible.propertyTokens_within {query : Query} (h : query.Legible) (hne : query.graph.nodes ≠ [])
    {property : Property} (hproperty : property ∈ query.properties) :
    propertyTokens property <:+: tokensOf query.text := by
  obtain ⟨first, more, htokens, hintroduced, -, -⟩ := h.exists_chains hne
  rw [htokens]
  rcases List.mem_append.1 hproperty with hnode | hassigned
  · obtain ⟨node, hnode, hproperty⟩ := List.mem_flatMap.1 hnode
    obtain ⟨chain, hchain, hmention⟩ := List.mem_flatMap.1 (hintroduced.full node (by rwa [List.take_length]))
    have hpattern : propertyTokens property <:+: chainsTokens (first :: more) :=
      (Query.propertyTokens_within hproperty).trans <|
        (propertiesTokens_within (List.ne_nil_of_mem hproperty)).trans <|
          (nodeTokens_within hmention).trans (chainTokens_within hchain)
    exact (hpattern.trans (List.suffix_cons _ _).isInfix).trans (List.prefix_append _ _).isInfix
  · have hclause : propertyTokens property <:+: clauseTokens query.clause := by
      cases hclause : query.clause with
      | assign assignments =>
        rw [hclause] at hassigned
        exact Query.propertyTokens_within hassigned
      | _ =>
        rw [hclause] at hassigned
        exact absurd hassigned List.not_mem_nil
    exact (hclause.trans (List.prefix_append _ _).isInfix).trans (List.suffix_append _ _).isInfix

/-- What is printed for a query with a key without characters is not read. -/
theorem Legible.parse_text_ne {query : Query} (h : query.Legible) (hne : query.graph.nodes ≠ []) {property : Property}
    (hproperty : property ∈ query.properties) (hkey : property.key = "") (other : Query) :
    parse query.text ≠ .ok other := by
  obtain ⟨front, rest, hsplit⟩ := h.propertyTokens_within hne hproperty
  have htokens : tokensOf query.text = front ++ .path "" :: .colon :: valueToken property.value :: rest := by
    rw [← hsplit, propertyTokens, hkey]
    simp
  have hfront : .finish ∉ front := by
    obtain ⟨before, hbefore, hnot⟩ := tokensOf_finish query.text
    have hsame : before = front ++ (.path "" :: .colon :: valueToken property.value :: rest).dropLast := by
      rw [htokens] at hbefore
      have hlast := congrArg List.dropLast hbefore
      rw [List.dropLast_concat, List.dropLast_append_of_ne_nil (by simp)] at hlast
      exact hlast.symm
    rw [hsame, List.mem_append, not_or] at hnot
    exact hnot.1
  intro hparse
  rw [parse_eq_ok_iff, htokens, Reading.answer?_emptyKey hfront] at hparse
  cases hparse

/-- What was read and printed is read again as it was, when every key has characters, and not at all otherwise. -/
theorem parse_text_of_parse {text : String} {query : Query} (h : parse text = .ok query) (other : Query) :
    parse query.text = .ok other ↔ other = query ∧ ∀ property ∈ query.properties, property.key ≠ "" := by
  obtain ⟨hlegible, hne, hquotes⟩ := parse_legible h
  constructor
  · intro hother
    have hkeys : ∀ property ∈ query.properties, property.key ≠ "" := fun property hproperty hkey =>
      hlegible.parse_text_ne hne hproperty hkey other hother
    have hsame := hlegible.parse_text hne hkeys hquotes
    rw [hother] at hsame
    exact ⟨Except.ok.inj hsame, hkeys⟩
  · rintro ⟨rfl, hkeys⟩
    exact hlegible.parse_text hne hkeys hquotes

/-- An empty name in quotes, which is printed as no name at all. -/
theorem parse_text_ne_of_emptyName :
    ¬∀ text query, parse text = .ok query → parse query.text = .ok query := by
  intro h
  have hread : parse "MATCH (p:Pod \x7b\"\": 1\x7d)" =
      .ok ⟨⟨[⟨"Pod/p", "Pod", "p", [⟨"", .integer 1⟩]⟩], []⟩, .find [] []⟩ := by decide +kernel
  have hagain := h _ _ hread
  have hrefused : (parse (Query.text ⟨⟨[⟨"Pod/p", "Pod", "p", [⟨"", .integer 1⟩]⟩], []⟩, .find [] []⟩)).toOption =
      none := by decide +kernel
  rw [hagain] at hrefused
  cases hrefused

theorem parse_text_of_parse_quotedName :
    ∃ query, parse "match (d:Deployment \x7b\"app\": 'x'\x7d) where d.spec.replicas = 02" = .ok query ∧
      parse query.text = .ok query := by
  have hread : parse "match (d:Deployment \x7b\"app\": 'x'\x7d) where d.spec.replicas = 02" =
      .ok ⟨⟨[⟨"Deployment/d", "Deployment", "d", [⟨"app", .string "x"⟩]⟩], []⟩,
        .find [⟨"d.spec.replicas", .equal, .integer 2⟩] []⟩ := by decide +kernel
  exact ⟨_, hread, (parse_text_of_parse hread _).2 ⟨rfl, by decide⟩⟩

end ClusterQuery.Query
