import ClusterQuery.Proofs.Query.Derivation
import ClusterQuery.Proofs.Query.Spelling

/-!
# The parser accepts its grammar

A text is read exactly when its tokens are those of a phrase whose numbers fit and whose bindings have one kind each,
and what is read is what the phrase says (`parse_accepts_grammar`).
-/

namespace ClusterQuery.Query

namespace Phrase

theorem Chain.mention_tokens_subset {chain : Chain} {mention : Mention} (h : mention ∈ chain.mentions) :
    mention.tokens ⊆ chain.tokens := by
  rw [Chain.mentions, List.mem_cons, List.mem_map] at h
  rw [Chain.tokens]
  rcases h with rfl | ⟨hop, hhop, rfl⟩
  · exact List.subset_append_left _ _
  · refine List.Subset.trans ?_ (List.subset_append_right _ _)
    exact fun token htoken => List.mem_flatMap.2 ⟨hop, hhop, List.mem_append_right _ htoken⟩

theorem Pattern.chain_tokens_subset {pattern : Pattern} {chain : Chain} (h : chain ∈ pattern.chains) :
    chain.tokens ⊆ pattern.tokens := by
  rw [Pattern.tokens]
  rcases List.mem_cons.1 h with rfl | hmore
  · exact List.subset_append_left _ _
  · refine List.Subset.trans ?_ (List.subset_append_right _ _)
    exact fun token htoken => List.mem_flatMap.2 ⟨chain, hmore, List.mem_cons_of_mem _ htoken⟩

theorem Pattern.mention_tokens_subset {pattern : Pattern} {mention : Mention} (h : mention ∈ pattern.mentions) :
    mention.tokens ⊆ pattern.tokens := by
  obtain ⟨chain, hchain, hmention⟩ := List.mem_flatMap.1 h
  exact List.Subset.trans (Chain.mention_tokens_subset hmention) (Pattern.chain_tokens_subset hchain)

end Phrase

namespace Phrase

variable {phrase : Phrase}

theorem pattern_tokens_subset : phrase.pattern.tokens ⊆ phrase.tokens := by
  intro token htoken
  simp [Phrase.tokens, htoken]

/-- The names of a phrase whose tokens are spelled as their forms want are words. -/
theorem isWord_head (h : ∀ token ∈ phrase.tokens, token.Spelled) {mention : Mention}
    (hmention : mention ∈ phrase.pattern.mentions) : IsWord mention.head.name ∧ IsWord mention.head.kind := by
  have htokens : mention.tokens ⊆ phrase.tokens :=
    List.Subset.trans (Pattern.mention_tokens_subset hmention) pattern_tokens_subset
  exact ⟨h (.identifier mention.head.name) (htokens (by simp [Mention.tokens])),
    h (.identifier mention.head.kind) (htokens (by simp [Mention.tokens]))⟩

/-- A phrase that begins the tokens of a text is all of them, because it holds the end. -/
theorem eq_nil_of_tokens_append {text : String} {rest : List Token} (h : tokensOf text = phrase.tokens ++ rest) :
    rest = [] := by
  obtain ⟨front, hfront, hnot⟩ := tokensOf_finish text
  obtain ⟨before, hbefore⟩ : ∃ before, phrase.tokens = before ++ [Token.finish] := by
    rw [Phrase.tokens]
    cases phrase.semicolon with
    | false => exact ⟨_, rfl⟩
    | true => exact ⟨_, (List.append_assoc _ [Token.semicolon] [Token.finish]).symm⟩
  rcases List.eq_nil_or_concat rest with hnil | ⟨initial, last, hlast⟩
  · exact hnil
  · have hends : front = phrase.tokens ++ initial := by
      rw [hfront, hlast, List.concat_eq_append, ← List.append_assoc] at h
      exact (List.append_inj' h rfl).1
    exact absurd (by simp [hends, hbefore]) hnot

end Phrase

/-- A text is read as its tokens complete a query. -/
theorem parse_eq_ok_iff {text : String} {query : Query} :
    parse text = .ok query ↔ Reading.start.answer? (tokensOf text) = some query := by
  rw [tokensOf, ← Reading.run_toOption, ← parse]
  cases parse text <;> simp [Except.toOption]

/-- A text whose tokens are a phrase is read as what the phrase says, when its numbers fit and no binding has two kinds,
and is not read otherwise. -/
theorem parse_phrase {text : String} {phrase : Phrase} (h : phrase.tokens = tokensOf text) (query : Query) :
    parse text = .ok query ↔
      NumbersFit (tokensOf text) ∧ Phrase.OneKindEach phrase.pattern.mentions ∧ query = phrase.query := by
  have hspelled : ∀ token ∈ phrase.tokens, token.Spelled := h ▸ tokensOf_spelled text
  have hheads : ∀ mention ∈ phrase.pattern.mentions, mention.head.Slashless := fun mention hmention =>
    ⟨(Phrase.isWord_head hspelled hmention).2.slash_notMem, (Phrase.isWord_head hspelled hmention).1.slash_notMem⟩
  have hanswer : Reading.start.answer? (phrase.tokens ++ []) = some query ↔ _ := Reading.answer?_phrase hheads
  rwa [List.append_nil, h, ← parse_eq_ok_iff] at hanswer

/-- The tokens of a text that is read are a phrase. -/
theorem exists_phrase_of_parse {text : String} {query : Query} (h : parse text = .ok query) :
    ∃ phrase : Phrase, phrase.tokens = tokensOf text := by
  obtain ⟨phrase, rest, he⟩ := Reading.eq_append_of_start (parse_eq_ok_iff.1 h)
  obtain rfl := Phrase.eq_nil_of_tokens_append he
  exact ⟨phrase, by rw [he, List.append_nil]⟩

/-- The texts that are read are those whose tokens are a phrase whose numbers fit and whose bindings have one kind each.
What is read is what the phrase says, whichever phrase it is. -/
theorem parse_accepts_grammar (text : String) :
    ((∃ query, parse text = .ok query) ↔
      ∃ phrase : Phrase, phrase.tokens = tokensOf text ∧ NumbersFit (tokensOf text) ∧
        Phrase.OneKindEach phrase.pattern.mentions) ∧
    ∀ phrase : Phrase, phrase.tokens = tokensOf text → ∀ query,
      (parse text = .ok query ↔
        NumbersFit (tokensOf text) ∧ Phrase.OneKindEach phrase.pattern.mentions ∧ query = phrase.query) := by
  refine ⟨⟨?_, ?_⟩, fun phrase he query => parse_phrase he query⟩
  · rintro ⟨query, h⟩
    obtain ⟨phrase, he⟩ := exists_phrase_of_parse h
    obtain ⟨hfits, hone, -⟩ := (parse_phrase he query).1 h
    exact ⟨phrase, he, hfits, hone⟩
  · rintro ⟨phrase, he, hfits, hone⟩
    exact ⟨phrase.query, (parse_phrase he _).2 ⟨hfits, hone, rfl⟩⟩

end ClusterQuery.Query
