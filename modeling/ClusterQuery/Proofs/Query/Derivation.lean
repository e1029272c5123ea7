import ClusterQuery.Proofs.Query.Acceptance

/-!
# Tokens that complete a query are a phrase

What may come at each stage is what the grammar has there, so tokens that complete a query begin with a tree of the
grammar (`eq_append_of_start`). Each lemma takes the tree of one form off the tokens of a reading that completes a
query; the lists of a form are taken off by induction on the number of tokens.
-/

namespace ClusterQuery.Query

namespace Reading

open Phrase

variable (reading : Reading) {query : Query} {tokens rest : List Token}

/-! ## Tokens of one form -/

section Forms

variable {reading : Reading}

/-- Where one token only may come, that token comes. -/
theorem eq_cons_of_expect {next : Reading} {token : Token} {expected : String} {stage : Stage}
    (hstep : ∀ placed, reading.step placed = next.expect placed token expected stage)
    (h : reading.answer? tokens = some query) :
    ∃ rest, tokens = token :: rest ∧ (next.atStage stage).answer? rest = some query := by
  cases tokens with
  | nil => cases h
  | cons first rest =>
    rw [answer?_cons, hstep, expect] at h
    by_cases he : first = token
    · subst he
      rw [if_pos rfl] at h
      exact ⟨rest, rfl, h⟩
    · rw [if_neg he] at h
      cases h

/-- Where a name must come, one comes. -/
theorem eq_cons_of_expectName {expected : String} {stage : String → Stage}
    (hstep : ∀ placed, reading.step placed = reading.expectName placed expected stage)
    (h : reading.answer? tokens = some query) :
    ∃ name rest, tokens = .identifier name :: rest ∧ (reading.atStage (stage name)).answer? rest = some query := by
  cases tokens with
  | nil => cases h
  | cons first rest =>
    rw [answer?_cons, hstep] at h
    cases first with
    | identifier name => exact ⟨name, rest, rfl, h⟩
    | _ => cases h

/-- Where a path must come, one with characters comes. -/
theorem eq_cons_of_expectPath {expected : String} {next : String → Outcome}
    (hstep : ∀ placed, reading.step placed = expectPath placed expected >>= next)
    (h : reading.answer? tokens = some query) :
    ∃ (path : PathText) (rest : List Token), tokens = .path path :: rest ∧ follow (next path) rest = some query := by
  cases tokens with
  | nil => cases h
  | cons first rest =>
    rw [answer?_cons, hstep] at h
    obtain ⟨path, hpath, hnext⟩ := follow_bind.1 h
    cases first with
    | path text =>
      by_cases hne : text = ""
      · simp [expectPath, hne] at hpath
      · obtain rfl : text = path := by simpa [expectPath, hne] using hpath
        exact ⟨⟨text, hne⟩, rest, rfl, hnext⟩
    | _ => cases hpath

/-- Where a value must come, one comes. -/
theorem eq_cons_of_expectLiteral {next : Literal → Outcome}
    (hstep : ∀ placed, reading.step placed = expectLiteral placed >>= next)
    (h : reading.answer? tokens = some query) :
    ∃ (value : Value) (rest : List Token), tokens = value.token :: rest ∧
      ∃ literal, follow (next literal) rest = some query := by
  cases tokens with
  | nil => cases h
  | cons first rest =>
    rw [answer?_cons, hstep] at h
    obtain ⟨literal, hliteral, hnext⟩ := follow_bind.1 h
    cases first with
    | string value => exact ⟨.string value, rest, rfl, literal, hnext⟩
    | boolean value => exact ⟨.boolean value, rest, rfl, literal, hnext⟩
    | integer digits => exact ⟨.integer digits, rest, rfl, literal, hnext⟩
    | _ => cases hliteral

end Forms

/-! ## Blocks -/

/-- After a key its pair is completed. -/
theorem eq_append_of_keyColon {owner : BlockOwner} {properties : List Property} {key : String}
    (h : (reading.atStage (.keyColon owner properties key)).answer? tokens = some query) :
    ∃ (value : Value) (rest : List Token), tokens = .colon :: value.token :: rest ∧
      ∃ further, (reading.atStage (.blockMore owner further)).answer? rest = some query := by
  obtain ⟨rest, rfl, hvalue⟩ := eq_cons_of_expect (fun _ => rfl) h
  obtain ⟨value, rest, rfl, literal, hmore⟩ := eq_cons_of_expectLiteral (fun _ => rfl) hvalue
  have hblock : (reading.atStage (.blockMore owner (properties ++ [⟨key, literal⟩]))).answer? rest = some query := hmore
  exact ⟨value, rest, rfl, _, hblock⟩

/-- After a pair come further ones and the closing brace. -/
theorem eq_append_of_blockMore {owner : BlockOwner} {properties : List Property}
    (h : (reading.atStage (.blockMore owner properties)).answer? tokens = some query) :
    ∃ pairs rest, tokens = morePairs pairs ++ Token.rightBrace :: rest := by
  induction hlength : tokens.length using Nat.strongRecOn generalizing tokens properties with
  | ind n ih =>
  cases tokens with
  | nil => cases h
  | cons first rest =>
    cases first with
    | rightBrace => exact ⟨[], rest, rfl⟩
    | comma =>
      have hfirst : (reading.atStage (.key owner properties)).answer? rest = some query := h
      obtain ⟨key, rest, rfl, hkey⟩ := eq_cons_of_expectPath (fun _ => rfl) hfirst
      obtain ⟨value, rest, rfl, further, hmore⟩ := eq_append_of_keyColon reading hkey
      obtain ⟨pairs, rest, rfl⟩ := ih rest.length (by simp at hlength; omega) hmore rfl
      exact ⟨⟨key, value⟩ :: pairs, rest, rfl⟩
    | _ => cases h

/-- After an opening brace comes the rest of a block. -/
theorem eq_append_of_firstKey {owner : BlockOwner}
    (h : (reading.atStage (.firstKey owner)).answer? tokens = some query) :
    ∃ pairs rest, tokens = blockRest pairs ++ rest := by
  by_cases hempty : tokens.head? = some (.path "")
  · obtain ⟨rest, rfl⟩ := List.head?_eq_some_iff.1 hempty
    cases rest with
    | nil => cases h
    | cons first rest =>
      cases first with
      | rightBrace => exact ⟨[], rest, rfl⟩
      | _ => cases h
  · have hfirst : (reading.atStage (.key owner [])).answer? tokens = some query := by
      cases tokens with
      | nil => cases h
      | cons first rest =>
        have hne : first ≠ .path "" := fun he => hempty (by rw [he]; rfl)
        rw [answer?_cons] at h ⊢
        change follow (readFirstKey _ _ owner) _ = _ at h
        rwa [readFirstKey, if_neg hne] at h
    obtain ⟨key, rest, rfl, hkey⟩ := eq_cons_of_expectPath (fun _ => rfl) hfirst
    obtain ⟨value, rest, rfl, further, hmore⟩ := eq_append_of_keyColon reading hkey
    obtain ⟨pairs, rest, rfl⟩ := eq_append_of_blockMore reading hmore
    exact ⟨⟨key, value⟩ :: pairs, rest, by simp [blockRest, Pair.tokens]⟩

/-! ## Patterns -/

/-- A node that has been completed is followed by more of the pattern or what comes after it. -/
theorem atPatternMore_of_addNode {head : NodeHead} {properties : List Property}
    (h : follow (reading.addNode head properties) rest = some query) :
    ∃ (next : Reading) (id : String), next.verb = reading.verb ∧
      (next.atStage (.patternMore id)).answer? rest = some query := by
  unfold addNode at h
  dsimp only at h
  split at h
  · cases h
  · split at h
    · exact ⟨{ reading with graph := reading.graph.addNode (Node.ofBinding head.name head.kind properties) }, _, rfl, h⟩
    · split at h
      · cases h
      · rename_i graph hadd
        exact ⟨{ reading with graph := graph, openEdge := none }, _, rfl, h⟩

/-- After the kind of a node come its properties, if it has any, and the closing parenthesis. -/
theorem eq_append_of_nodeBlockOrClose {head : NodeHead}
    (h : (reading.atStage (.nodeBlockOrClose head)).answer? tokens = some query) :
    ∃ (block : Option (List Pair)) (rest : List Token),
      tokens = block.elim [] blockTokens ++ .rightParen :: rest := by
  cases tokens with
  | nil => cases h
  | cons first rest =>
    cases first with
    | rightParen => exact ⟨none, rest, rfl⟩
    | leftBrace =>
      have hblock : (reading.atStage (.firstKey (.node head))).answer? rest = some query := h
      obtain ⟨pairs, rest, rfl⟩ := eq_append_of_firstKey reading hblock
      obtain ⟨-, hclose⟩ := answer?_blockRest.1 hblock
      obtain ⟨rest, rfl⟩ : ∃ after, rest = .rightParen :: after := by
        cases rest with
        | nil => cases hclose
        | cons first after =>
          cases first with
          | rightParen => exact ⟨after, rfl⟩
          | _ => cases hclose
      exact ⟨some pairs, rest, by simp [blockTokens]⟩
    | _ => cases h

/-- Where a node opens, one is mentioned. -/
theorem eq_append_of_nodeOpen (h : (reading.atStage .nodeOpen).answer? tokens = some query) :
    ∃ (mention : Mention) (rest : List Token), tokens = mention.tokens ++ rest ∧
      ∃ (next : Reading) (id : String), next.verb = reading.verb ∧
        (next.atStage (.patternMore id)).answer? rest = some query := by
  have hshape : ∃ (mention : Mention) (rest : List Token), tokens = mention.tokens ++ rest := by
    obtain ⟨rest, rfl, hname⟩ := eq_cons_of_expect (fun _ => rfl) h
    obtain ⟨name, rest, rfl, hcolon⟩ := eq_cons_of_expectName (fun _ => rfl) hname
    obtain ⟨rest, rfl, hkind⟩ := eq_cons_of_expect (fun _ => rfl) hcolon
    obtain ⟨kind, rest, rfl, hclose⟩ := eq_cons_of_expectName (fun _ => rfl) hkind
    obtain ⟨block, rest, rfl⟩ := eq_append_of_nodeBlockOrClose reading hclose
    exact ⟨⟨⟨name, kind⟩, block⟩, rest, by simp [Mention.tokens]⟩
  obtain ⟨mention, rest, rfl⟩ := hshape
  exact ⟨mention, rest, rfl, atPatternMore_of_addNode reading (answer?_mention.1 h).2⟩

/-- After a node come edges, further chains and what follows the pattern. -/
theorem eq_append_of_patternMore {id : String} (h : (reading.atStage (.patternMore id)).answer? tokens = some query) :
    ∃ (hops : List Hop) (chains : List Chain) (token : Token) (rest : List Token),
      tokens = hops.flatMap Hop.tokens ++ moreChains chains ++ token :: rest ∧
      ∃ next : Reading, next.verb = reading.verb ∧ follow (next.afterPattern ⟨token, .start⟩) rest = some query := by
  induction hlength : tokens.length using Nat.strongRecOn generalizing tokens reading id with
  | ind n ih =>
  cases tokens with
  | nil => cases h
  | cons first rest =>
    cases first with
    | dash =>
      have hedge : (reading.atStage (.edgeBracket id)).answer? rest = some query := h
      obtain ⟨rest, rfl, hcolon⟩ := eq_cons_of_expect (fun _ => rfl) hedge
      obtain ⟨rest, rfl, hlabel⟩ := eq_cons_of_expect (fun _ => rfl) hcolon
      obtain ⟨label, rest, rfl, hclose⟩ := eq_cons_of_expectName (fun _ => rfl) hlabel
      obtain ⟨rest, rfl, harrow⟩ := eq_cons_of_expect (fun _ => rfl) hclose
      obtain ⟨rest, rfl, htarget⟩ := eq_cons_of_expect (fun _ => rfl) harrow
      obtain ⟨target, rest, rfl, next, id, hverb, hmore⟩ := eq_append_of_nodeOpen _ htarget
      obtain ⟨hops, chains, token, rest, rfl, last, hlast, hafter⟩ :=
        ih rest.length (by simp at hlength; omega) next hmore rfl
      exact ⟨⟨label, target⟩ :: hops, chains, token, rest, by simp [Hop.tokens], last, hlast.trans hverb, hafter⟩
    | comma =>
      have hnode : (reading.atStage .nodeOpen).answer? rest = some query := h
      obtain ⟨mention, rest, rfl, next, id, hverb, hmore⟩ := eq_append_of_nodeOpen reading hnode
      obtain ⟨hops, chains, token, rest, rfl, last, hlast, hafter⟩ :=
        ih rest.length (by simp at hlength; omega) next hmore rfl
      exact ⟨[], ⟨mention, hops⟩ :: chains, token, rest, by simp [moreChains, Chain.tokens], last, hlast.trans hverb,
        hafter⟩
    | _ => exact ⟨[], [], _, rest, rfl, reading.atStage (.patternMore id), rfl, h⟩

/-! ## Bodies -/

/-- What ends a query. -/
theorem eq_append_of_ending {token : Token} (h : follow (reading.ending ⟨token, .start⟩) rest = some query) :
    ∃ semicolon after, token :: rest = endTokens semicolon ++ after := by
  cases token with
  | finish => exact ⟨false, rest, rfl⟩
  | semicolon =>
    cases rest with
    | nil => cases h
    | cons second after =>
      cases second with
      | finish => exact ⟨true, after, rfl⟩
      | _ => cases h
  | _ => cases h

/-- After a projected path come further ones and the end. -/
theorem eq_append_of_projectionMore (h : (reading.atStage .projectionMore).answer? tokens = some query) :
    ∃ paths semicolon after, tokens = morePaths paths ++ (endTokens semicolon ++ after) := by
  induction hlength : tokens.length using Nat.strongRecOn generalizing tokens reading with
  | ind n ih =>
  cases tokens with
  | nil => cases h
  | cons first rest =>
    cases first with
    | comma =>
      have hnext : (reading.atStage .projectionPath).answer? rest = some query := h
      obtain ⟨path, rest, rfl, hmore⟩ := eq_cons_of_expectPath (fun _ => rfl) hnext
      obtain ⟨paths, semicolon, after, rfl⟩ := ih rest.length (by simp at hlength; omega)
        { reading with projections := reading.projections ++ [path.1] } hmore rfl
      exact ⟨path :: paths, semicolon, after, rfl⟩
    | _ => exact ⟨[], eq_append_of_ending (reading.atStage .projectionMore) h⟩

/-- Where a projected path comes, projections and the end come. -/
theorem eq_append_of_projectionPath (h : (reading.atStage .projectionPath).answer? tokens = some query) :
    ∃ (projections : Projections) (semicolon : Bool) (after : List Token),
      .returnWord :: tokens = projections.tokens ++ (endTokens semicolon ++ after) := by
  obtain ⟨first, rest, rfl, hmore⟩ := eq_cons_of_expectPath (fun _ => rfl) h
  obtain ⟨more, semicolon, after, rfl⟩ :=
    eq_append_of_projectionMore { reading with projections := reading.projections ++ [first.1] } hmore
  exact ⟨⟨first, more⟩, semicolon, after, rfl⟩

/-- Where a path to compare comes, a condition comes. -/
theorem eq_append_of_filterPath (h : (reading.atStage .filterPath).answer? tokens = some query) :
    ∃ (condition : Condition) (rest : List Token), tokens = condition.tokens ++ rest ∧
      ∃ next : Reading, (next.atStage .filterMore).answer? rest = some query := by
  obtain ⟨path, rest, rfl, hpath⟩ := eq_cons_of_expectPath (fun _ => rfl) h
  obtain ⟨comparison, rest, rfl, hvalue⟩ : ∃ comparison after, rest = comparisonToken comparison :: after ∧
      (reading.atStage (.filterValue path comparison)).answer? after = some query := by
    cases rest with
    | nil => cases hpath
    | cons first after =>
      cases first with
      | equal => exact ⟨.equal, after, rfl, hpath⟩
      | notEqual => exact ⟨.notEqual, after, rfl, hpath⟩
      | _ => cases hpath
  obtain ⟨value, rest, rfl, literal, hmore⟩ := eq_cons_of_expectLiteral (fun _ => rfl) hvalue
  exact ⟨⟨path, comparison, value⟩, rest, rfl, { reading with filters := _ }, hmore⟩

/-- After a condition come further ones, projections if there are any, and the end. -/
theorem eq_append_of_filterMore (h : (reading.atStage .filterMore).answer? tokens = some query) :
    ∃ (conditions : List (Joint × Condition)) (projections : Option Projections) (semicolon : Bool)
      (after : List Token), tokens = moreConditions conditions ++
        (projections.elim [] Projections.tokens ++ (endTokens semicolon ++ after)) := by
  induction hlength : tokens.length using Nat.strongRecOn generalizing tokens reading with
  | ind n ih =>
  cases tokens with
  | nil => cases h
  | cons first rest =>
    have hmore (joint : Joint) (hpath : (reading.atStage .filterPath).answer? rest = some query) :
        ∃ (conditions : List (Joint × Condition)) (projections : Option Projections) (semicolon : Bool)
          (after : List Token), joint.token :: rest = moreConditions conditions ++
            (projections.elim [] Projections.tokens ++ (endTokens semicolon ++ after)) := by
      obtain ⟨condition, rest, rfl, next, hnext⟩ := eq_append_of_filterPath reading hpath
      obtain ⟨conditions, projections, semicolon, after, rfl⟩ :=
        ih rest.length (by simp at hlength; omega) next hnext rfl
      exact ⟨(joint, condition) :: conditions, projections, semicolon, after, by simp [moreConditions]⟩
    have hends (hending : follow ((reading.atStage .filterMore).ending ⟨first, .start⟩) rest = some query) :
        ∃ semicolon after, first :: rest = endTokens semicolon ++ after := eq_append_of_ending _ hending
    cases first with
    | andWord => exact hmore .andWord h
    | comma => exact hmore .comma h
    | returnWord =>
      obtain ⟨projections, semicolon, after, he⟩ := eq_append_of_projectionPath reading h
      exact ⟨[], some projections, semicolon, after, he⟩
    | _ =>
      obtain ⟨semicolon, after, he⟩ := hends h
      exact ⟨[], none, semicolon, after, he⟩

/-- After the pattern comes what belongs to the word that the query begins with. -/
theorem eq_append_of_afterPattern {token : Token}
    (h : follow (reading.afterPattern ⟨token, .start⟩) rest = some query) :
    ∃ (body : Body) (semicolon : Bool) (after : List Token), body.verb = reading.verb ∧
      token :: rest = body.tokens ++ (endTokens semicolon ++ after) := by
  unfold afterPattern at h
  cases hverb : reading.verb with
  | create =>
    rw [hverb] at h
    obtain ⟨semicolon, after, he⟩ := eq_append_of_ending reading h
    exact ⟨.create, semicolon, after, rfl, he⟩
  | delete =>
    rw [hverb] at h
    obtain ⟨semicolon, after, he⟩ := eq_append_of_ending reading h
    exact ⟨.delete, semicolon, after, rfl, he⟩
  | assign =>
    rw [hverb] at h
    by_cases hbrace : token = .leftBrace
    · subst hbrace
      have hblock : (reading.atStage (.firstKey .query)).answer? rest = some query := h
      obtain ⟨pairs, rest, rfl⟩ := eq_append_of_firstKey reading hblock
      obtain ⟨-, hclose⟩ := answer?_blockRest.1 hblock
      cases rest with
      | nil => cases hclose
      | cons first rest =>
        obtain ⟨semicolon, after, he⟩ := eq_append_of_ending _ hclose
        exact ⟨.assign pairs, semicolon, after, rfl, by simp [Body.tokens, blockTokens, he]⟩
    · simp [expect, hbrace, follow] at h
  | find =>
    rw [hverb] at h
    have hends (hending : follow (reading.ending ⟨token, .start⟩) rest = some query) :
        ∃ semicolon after, token :: rest = endTokens semicolon ++ after := eq_append_of_ending reading hending
    cases token with
    | whereWord =>
      obtain ⟨condition, rest, rfl, next, hmore⟩ := eq_append_of_filterPath reading h
      obtain ⟨conditions, projections, semicolon, after, rfl⟩ := eq_append_of_filterMore next hmore
      exact ⟨.find (some ⟨condition, conditions⟩) projections, semicolon, after, rfl,
        by simp [Body.tokens, Conditions.tokens]⟩
    | returnWord =>
      obtain ⟨projections, semicolon, after, he⟩ := eq_append_of_projectionPath reading h
      exact ⟨.find none (some projections), semicolon, after, rfl, he⟩
    | _ =>
      obtain ⟨semicolon, after, he⟩ := hends h
      exact ⟨.find none none, semicolon, after, rfl, he⟩

/-- Tokens that complete a query begin with a phrase. -/
theorem eq_append_of_start (h : start.answer? tokens = some query) :
    ∃ (phrase : Phrase) (rest : List Token), tokens = phrase.tokens ++ rest := by
  obtain ⟨verb, rest, rfl, hnode⟩ : ∃ verb rest, tokens = verbToken verb :: rest ∧
      ((ofGraph verb Graph.empty).atStage .nodeOpen).answer? rest = some query := by
    cases tokens with
    | nil => cases h
    | cons first rest =>
      cases first with
      | matchWord => exact ⟨.find, rest, rfl, h⟩
      | createWord => exact ⟨.create, rest, rfl, h⟩
      | setWord => exact ⟨.assign, rest, rfl, h⟩
      | deleteWord => exact ⟨.delete, rest, rfl, h⟩
      | _ => cases h
  obtain ⟨first, rest, rfl, next, id, hnext, hmore⟩ := eq_append_of_nodeOpen _ hnode
  obtain ⟨hops, chains, token, rest, rfl, last, hlast, hafter⟩ := eq_append_of_patternMore next hmore
  obtain ⟨body, semicolon, rest, hbody, he⟩ := eq_append_of_afterPattern last hafter
  have hsame : body.verb = verb := hbody.trans (hlast.trans hnext)
  refine ⟨⟨⟨⟨first, hops⟩, chains⟩, body, semicolon⟩, rest, ?_⟩
  simp [Phrase.tokens, Pattern.tokens, Chain.tokens, hsame, he]

end Reading

end ClusterQuery.Query
