import ClusterQuery.Proofs.Query.Mentions
import ClusterQuery.Proofs.Query.Recognition

/-!
# Phrases that are accepted

What a reading of a pattern has taken up so far is the graph of the mentions and edges so far, so the tokens of a
further chain continue it with the graph of the longer lists, as long as no binding gets a second kind
(`answer?_chain`). The conditions, projections or assignments follow (`answer?_body`), and a whole phrase completes its
own query exactly when its numbers fit and every binding has one kind (`answer?_phrase`).
-/

namespace ClusterQuery.Query

/-- The id of the node that hops from a node end at. -/
def Phrase.lastFrom (source : String) : List Phrase.Hop → String
  | [] => source
  | hop :: rest => lastFrom hop.target.id rest

/-- The id of the node that a chain ends at. -/
def Phrase.Chain.last (chain : Phrase.Chain) : String :=
  lastFrom chain.first.id chain.hops

/-- The id of the node that further chains end at. -/
def Phrase.lastOf (id : String) : List Phrase.Chain → String
  | [] => id
  | chain :: rest => lastOf chain.last rest

namespace Reading

open Phrase

/-- The reading of a query whose pattern has a graph so far. -/
def ofGraph (verb : Verb) (graph : Graph) : Reading :=
  ⟨verb, graph, none, [], [], [], .nodeOpen⟩

/-- The reading with an edge that waits for its target. -/
def fromSource (reading : Reading) (source label : String) : Reading :=
  { reading with openEdge := some (source, label) }

section Graphs

variable {verb : Verb} {query : Query} {rest : List Token} {mentions : List Mention} {edges : List Edge}

/-- A node at the start of a chain is mentioned, when its binding has no other kind. -/
theorem follow_addNode_first {mention : Mention} (h : OneKindEach mentions) (hhead : mention.head.Slashless) :
    follow ((ofGraph verb (graphOf mentions edges)).addNode mention.head mention.properties) rest = some query ↔
      OneKindEach (mentions ++ [mention]) ∧
        ((ofGraph verb (graphOf (mentions ++ [mention]) edges)).atStage (.patternMore mention.id)).answer? rest =
          some query := by
  have hconflict := conflict_eq_none_iff h edges mention
  unfold addNode
  simp only [ofGraph, addNode_graphOf hhead]
  split
  · rename_i existing hfound
    rw [hfound] at hconflict
    simp [← hconflict, follow]
  · rename_i hnone
    exact (and_iff_right (hconflict.1 hnone)).symm

/-- A node that an edge leads to is mentioned with the edge, when its binding has no other kind. -/
theorem follow_addNode_target {mention : Mention} {source label : String} (h : OneKindEach mentions)
    (hhead : mention.head.Slashless) (hsource : ∃ first ∈ mentions, first.id = source) :
    follow (((ofGraph verb (graphOf mentions edges)).fromSource source label).addNode mention.head mention.properties)
        rest = some query ↔
      OneKindEach (mentions ++ [mention]) ∧
        ((ofGraph verb (graphOf (mentions ++ [mention]) (edges ++ [⟨source, mention.id, label⟩]))).atStage
          (.patternMore mention.id)).answer? rest = some query := by
  have hedge : (graphOf (mentions ++ [mention]) edges).addEdge ⟨source, mention.id, label⟩ =
      .ok (graphOf (mentions ++ [mention]) (edges ++ [⟨source, mention.id, label⟩])) := by
    obtain ⟨first, hfirst, he⟩ := hsource
    exact addEdge_graphOf ⟨first, List.mem_append_left _ hfirst, he⟩ ⟨mention, by simp, rfl⟩
  have hconflict := conflict_eq_none_iff h edges mention
  unfold addNode
  simp only [ofGraph, fromSource, addNode_graphOf hhead]
  split
  · rename_i existing hfound
    rw [hfound] at hconflict
    simp [← hconflict, follow]
  · rename_i hnone
    refine Iff.trans ?_ (and_iff_right (hconflict.1 hnone)).symm
    have hid : (Node.ofBinding mention.head.name mention.head.kind mention.properties).id = mention.id := rfl
    rw [hid, hedge]
    exact Iff.rfl

/-- An edge and the node it leads to. -/
theorem answer?_hop {hop : Hop} {source : String} (h : OneKindEach mentions) (hhead : hop.target.head.Slashless)
    (hsource : ∃ first ∈ mentions, first.id = source) :
    ((ofGraph verb (graphOf mentions edges)).atStage (.patternMore source)).answer? (hop.tokens ++ rest) = some query ↔
      NumbersFit hop.tokens ∧ OneKindEach (mentions ++ [hop.target]) ∧
        ((ofGraph verb (graphOf (mentions ++ [hop.target]) (edges ++ [⟨source, hop.target.id, hop.label⟩]))).atStage
          (.patternMore hop.target.id)).answer? rest = some query := by
  have hstart : ((ofGraph verb (graphOf mentions edges)).atStage (.patternMore source)).answer? (hop.tokens ++ rest) =
      (((ofGraph verb (graphOf mentions edges)).fromSource source hop.label).atStage .nodeOpen).answer?
        (hop.target.tokens ++ rest) := rfl
  have hfits : NumbersFit hop.tokens ↔ NumbersFit hop.target.tokens := by
    simp [Hop.tokens, numbersFit_cons]
  rw [hstart, answer?_mention, follow_addNode_target h hhead hsource, hfits]

/-- Edges one after another, each from the node that the one before it leads to. -/
theorem answer?_hops {hops : List Hop} {source : String} (edges : List Edge) (h : OneKindEach mentions)
    (hheads : ∀ hop ∈ hops, hop.target.head.Slashless) (hsource : ∃ first ∈ mentions, first.id = source) :
    ((ofGraph verb (graphOf mentions edges)).atStage (.patternMore source)).answer?
        (hops.flatMap Hop.tokens ++ rest) = some query ↔
      NumbersFit (hops.flatMap Hop.tokens) ∧ OneKindEach (mentions ++ hops.map Hop.target) ∧
        ((ofGraph verb (graphOf (mentions ++ hops.map Hop.target) (edges ++ edgesFrom source hops))).atStage
          (.patternMore (lastFrom source hops))).answer? rest = some query := by
  induction hops generalizing mentions source edges with
  | nil => simp [numbersFit_nil, h, edgesFrom, lastFrom]
  | cons hop more ih =>
    obtain ⟨hhead, hheads⟩ := List.forall_mem_cons.1 hheads
    have hsplit : mentions ++ (hop :: more).map Hop.target = mentions ++ [hop.target] ++ more.map Hop.target := by simp
    have hedges : edges ++ edgesFrom source (hop :: more) =
        edges ++ [⟨source, hop.target.id, hop.label⟩] ++ edgesFrom hop.target.id more := by simp [edgesFrom]
    have hrest (hone : OneKindEach (mentions ++ [hop.target])) :=
      ih (edges ++ [⟨source, hop.target.id, hop.label⟩]) hone hheads ⟨hop.target, by simp, rfl⟩
    rw [List.flatMap_cons, List.append_assoc, answer?_hop h hhead hsource, numbersFit_append, hsplit, hedges]
    constructor
    · rintro ⟨hfits, hone, hanswer⟩
      obtain ⟨hmore, hall, hlast⟩ := (hrest hone).1 hanswer
      exact ⟨⟨hfits, hmore⟩, hall, hlast⟩
    · rintro ⟨⟨hfits, hmore⟩, hall, hlast⟩
      exact ⟨hfits, hall.of_append, (hrest hall.of_append).2 ⟨hmore, hall, hlast⟩⟩

/-- A chain. -/
theorem answer?_chain {chain : Chain} (edges : List Edge) (h : OneKindEach mentions)
    (hheads : ∀ mention ∈ chain.mentions, mention.head.Slashless) :
    ((ofGraph verb (graphOf mentions edges)).atStage .nodeOpen).answer? (chain.tokens ++ rest) = some query ↔
      NumbersFit chain.tokens ∧ OneKindEach (mentions ++ chain.mentions) ∧
        ((ofGraph verb (graphOf (mentions ++ chain.mentions) (edges ++ chain.edges))).atStage
          (.patternMore chain.last)).answer? rest = some query := by
  obtain ⟨hfirst, hheads⟩ := List.forall_mem_cons.1 hheads
  have htargets : ∀ hop ∈ chain.hops, hop.target.head.Slashless :=
    fun hop hhop => hheads hop.target (List.mem_map_of_mem hhop)
  have hsource : ∃ first ∈ mentions ++ [chain.first], first.id = chain.first.id := ⟨chain.first, by simp, rfl⟩
  have hsplit : mentions ++ chain.mentions = mentions ++ [chain.first] ++ chain.hops.map Hop.target := by
    simp [Chain.mentions]
  rw [Chain.tokens, List.append_assoc, answer?_mention, follow_addNode_first h hfirst, numbersFit_append, hsplit]
  constructor
  · rintro ⟨hfits, hone, hanswer⟩
    obtain ⟨hmore, hall, hlast⟩ := (answer?_hops edges hone htargets hsource).1 hanswer
    exact ⟨⟨hfits, hmore⟩, hall, hlast⟩
  · rintro ⟨⟨hfits, hmore⟩, hall, hlast⟩
    exact ⟨hfits, hall.of_append, (answer?_hops edges hall.of_append htargets hsource).2 ⟨hmore, hall, hlast⟩⟩

/-- Chains after a comma each. -/
theorem answer?_moreChains {chains : List Chain} {id : String} (edges : List Edge) (h : OneKindEach mentions)
    (hheads : ∀ mention ∈ chains.flatMap Chain.mentions, mention.head.Slashless) :
    ((ofGraph verb (graphOf mentions edges)).atStage (.patternMore id)).answer? (moreChains chains ++ rest) =
        some query ↔
      NumbersFit (moreChains chains) ∧ OneKindEach (mentions ++ chains.flatMap Chain.mentions) ∧
        ((ofGraph verb (graphOf (mentions ++ chains.flatMap Chain.mentions)
          (edges ++ chains.flatMap Chain.edges))).atStage (.patternMore (lastOf id chains))).answer? rest =
            some query := by
  induction chains generalizing mentions edges id with
  | nil => simp [moreChains, numbersFit_nil, h, lastOf]
  | cons chain more ih =>
    rw [List.flatMap_cons, List.forall_mem_append] at hheads
    have hstart : ((ofGraph verb (graphOf mentions edges)).atStage (.patternMore id)).answer?
        (moreChains (chain :: more) ++ rest) =
          ((ofGraph verb (graphOf mentions edges)).atStage .nodeOpen).answer?
            (chain.tokens ++ (moreChains more ++ rest)) := by
      rw [moreChains, List.flatMap_cons, List.append_assoc]
      rfl
    have hfits : NumbersFit (moreChains (chain :: more)) ↔ NumbersFit chain.tokens ∧ NumbersFit (moreChains more) := by
      simp [moreChains, numbersFit_cons, numbersFit_append]
    rw [hstart, answer?_chain edges h hheads.1, hfits, List.flatMap_cons, List.flatMap_cons, ← List.append_assoc,
      ← List.append_assoc]
    constructor
    · rintro ⟨hchain, hone, hanswer⟩
      obtain ⟨hmore, hall, hlast⟩ := (ih _ hone hheads.2).1 hanswer
      exact ⟨⟨hchain, hmore⟩, hall, hlast⟩
    · rintro ⟨⟨hchain, hmore⟩, hall, hlast⟩
      exact ⟨hchain, hall.of_append, (ih _ hall.of_append hheads.2).2 ⟨hmore, hall, hlast⟩⟩

/-- A pattern. -/
theorem answer?_pattern {pattern : Pattern} (hheads : ∀ mention ∈ pattern.mentions, mention.head.Slashless) :
    (ofGraph verb Graph.empty).answer? (pattern.tokens ++ rest) = some query ↔
      NumbersFit pattern.tokens ∧ OneKindEach pattern.mentions ∧
        ((ofGraph verb (graphOf pattern.mentions pattern.edges)).atStage
          (.patternMore (lastOf pattern.first.last pattern.more))).answer? rest = some query := by
  rw [Pattern.mentions, Pattern.chains, List.flatMap_cons, List.forall_mem_append] at hheads
  have hempty : OneKindEach ([] : List Mention) := fun _ h => absurd h List.not_mem_nil
  have hfirst : (ofGraph verb Graph.empty).answer? (pattern.first.tokens ++ (moreChains pattern.more ++ rest)) =
      some query ↔ _ := answer?_chain [] hempty hheads.1
  rw [Pattern.tokens, List.append_assoc, numbersFit_append, hfirst]
  constructor
  · rintro ⟨hchain, hone, hanswer⟩
    obtain ⟨hmore, hall, hlast⟩ := (answer?_moreChains _ hone hheads.2).1 hanswer
    exact ⟨⟨hchain, hmore⟩, hall, hlast⟩
  · rintro ⟨⟨hchain, hmore⟩, hall, hlast⟩
    exact ⟨hchain, hall.of_append, (answer?_moreChains _ hall.of_append hheads.2).2 ⟨hmore, hall, hlast⟩⟩

end Graphs

section Bodies

variable {reading : Reading} {query : Query} {rest : List Token}

/-- A condition. -/
theorem answer?_condition {condition : Condition} :
    (reading.atStage .filterPath).answer? (condition.tokens ++ rest) = some query ↔
      NumbersFit condition.tokens ∧
        (({ reading with filters := reading.filters ++ [condition.filter] } : Reading).atStage .filterMore).answer?
          rest = some query := by
  obtain ⟨path, comparison, value⟩ := condition
  have hstart : (reading.atStage .filterPath).answer? ((⟨path, comparison, value⟩ : Condition).tokens ++ rest) =
      (reading.atStage (.filterValue path comparison)).answer? (value.token :: rest) := by
    have hpath : (reading.atStage .filterPath).answer? ((⟨path, comparison, value⟩ : Condition).tokens ++ rest) =
        (reading.atStage (.filterComparison path)).answer? (comparisonToken comparison :: value.token :: rest) := by
      rw [Condition.tokens, List.cons_append, answer?_cons]
      change follow (expectPath _ _ >>= _) _ = _
      rw [expectPath_path]
      rfl
    rw [hpath]
    cases comparison <;> rfl
  have hfits : NumbersFit (⟨path, comparison, value⟩ : Condition).tokens ↔ NumbersFit [value.token] := by
    cases comparison <;> simp [Condition.tokens, comparisonToken, numbersFit_cons]
  rw [hstart, hfits, answer?_cons]
  refine follow_bind.trans ?_
  simp only [expectLiteral_token]
  constructor
  · rintro ⟨_, ⟨hvalue, rfl⟩, h⟩
    exact ⟨hvalue, h⟩
  · rintro ⟨hvalue, h⟩
    exact ⟨_, ⟨hvalue, rfl⟩, h⟩

/-- Conditions after a joint each. -/
theorem answer?_moreConditions {conditions : List (Joint × Condition)} :
    (reading.atStage .filterMore).answer? (moreConditions conditions ++ rest) = some query ↔
      NumbersFit (moreConditions conditions) ∧
        (({ reading with filters := reading.filters ++ conditions.map (·.2.filter) } : Reading).atStage
          .filterMore).answer? rest = some query := by
  induction conditions generalizing reading with
  | nil => simp [moreConditions, numbersFit_nil, atStage]
  | cons joined more ih =>
    obtain ⟨joint, condition⟩ := joined
    have hstart : (reading.atStage .filterMore).answer? (moreConditions ((joint, condition) :: more) ++ rest) =
        (reading.atStage .filterPath).answer? (condition.tokens ++ (moreConditions more ++ rest)) := by
      rw [moreConditions, List.flatMap_cons, List.append_assoc]
      cases joint <;> rfl
    have hfits : NumbersFit (moreConditions ((joint, condition) :: more)) ↔
        NumbersFit condition.tokens ∧ NumbersFit (moreConditions more) := by
      have hjoint (digits : String) : joint.token ≠ .integer digits := by cases joint <;> nofun
      simp [moreConditions, numbersFit_cons hjoint, numbersFit_append]
    rw [hstart, answer?_condition, ih, hfits, and_assoc]
    simp

/-- A path that is projected. -/
theorem answer?_projection {path : PathText} :
    (reading.atStage .projectionPath).answer? (.path path :: rest) =
      (({ reading with projections := reading.projections ++ [path.1] } : Reading).atStage .projectionMore).answer?
        rest := by
  rw [answer?_cons]
  change follow (expectPath _ _ >>= _) _ = _
  rw [expectPath_path]
  rfl

/-- Paths after a comma each. -/
theorem answer?_morePaths {paths : List PathText} :
    (reading.atStage .projectionMore).answer? (morePaths paths ++ rest) =
      (({ reading with projections := reading.projections ++ paths.map (·.1) } : Reading).atStage
        .projectionMore).answer? rest := by
  induction paths generalizing reading with
  | nil => simp [morePaths, atStage]
  | cons path more ih =>
    have hstart : (reading.atStage .projectionMore).answer? (morePaths (path :: more) ++ rest) =
        (reading.atStage .projectionPath).answer? (.path path :: (morePaths more ++ rest)) := rfl
    rw [hstart, answer?_projection, ih]
    simp

/-- Projections, if there are any, to the end. -/
theorem answer?_projections (reading : Reading) (projections : Option Projections) (semicolon : Bool)
    (rest : List Token) {before : Reading}
    (hnone : ∀ tokens, before.answer? (endTokens semicolon ++ tokens) = some ⟨reading.graph, reading.clause⟩)
    (hsome : ∀ tokens, before.answer? (.returnWord :: tokens) = (reading.atStage .projectionPath).answer? tokens) :
    before.answer? (projections.elim [] Projections.tokens ++ (endTokens semicolon ++ rest)) =
      some ⟨reading.graph, ({ reading with
        projections := reading.projections ++ projections.elim [] Projections.paths } : Reading).clause⟩ := by
  cases projections with
  | none =>
    simp only [Option.elim_none, List.append_nil]
    exact hnone rest
  | some projections =>
    rw [Option.elim_some, Projections.tokens, List.cons_append, hsome, List.cons_append, answer?_projection,
      answer?_morePaths]
    cases semicolon <;> simp [Projections.paths, endTokens] <;> rfl

/-- Conditions, from their word on. -/
theorem answer?_conditions {conditions : Conditions} (hverb : reading.verb = .find) {id : String} :
    (reading.atStage (.patternMore id)).answer? (conditions.tokens ++ rest) = some query ↔
      NumbersFit conditions.tokens ∧
        (({ reading with filters := reading.filters ++ conditions.filters } : Reading).atStage .filterMore).answer?
          rest = some query := by
  have hstart : (reading.atStage (.patternMore id)).answer? (conditions.tokens ++ rest) =
      (reading.atStage .filterPath).answer? (conditions.first.tokens ++ (moreConditions conditions.more ++ rest)) := by
    obtain ⟨verb, graph, openEdge, filters, projections, assignments, stage⟩ := reading
    obtain rfl : verb = .find := hverb
    rw [Conditions.tokens, List.cons_append, List.cons_append, List.append_assoc]
    rfl
  have hfits : NumbersFit conditions.tokens ↔
      NumbersFit conditions.first.tokens ∧ NumbersFit (moreConditions conditions.more) := by
    simp [Conditions.tokens, numbersFit_cons, numbersFit_append]
  rw [hstart, answer?_condition, answer?_moreConditions, hfits, and_assoc]
  simp [Conditions.filters]

/-- What follows the pattern, to the end. -/
theorem answer?_body {body : Body} {semicolon : Bool} {graph : Graph} {id : String} :
    ((ofGraph body.verb graph).atStage (.patternMore id)).answer? (body.tokens ++ (endTokens semicolon ++ rest)) =
        some query ↔
      NumbersFit body.tokens ∧ query = ⟨graph, body.clause⟩ := by
  cases body with
  | create | delete =>
    refine Iff.trans ?_ (and_iff_right numbersFit_nil).symm
    cases semicolon <;> exact Option.some_inj.trans eq_comm
  | assign block =>
    have hstart : ((ofGraph .assign graph).atStage (.patternMore id)).answer?
        (blockTokens block ++ (endTokens semicolon ++ rest)) =
          ((ofGraph .assign graph).atStage (.firstKey .query)).answer?
            (blockRest block ++ (endTokens semicolon ++ rest)) := rfl
    have hfits : NumbersFit (blockTokens block) ↔ NumbersFit (blockRest block) := by
      simp [blockTokens, numbersFit_cons]
    refine (iff_of_eq (congrArg (· = some query) hstart)).trans ?_
    rw [answer?_blockRest, Body.tokens, hfits]
    refine and_congr_right' ?_
    cases semicolon <;> exact Option.some_inj.trans eq_comm
  | find conditions projections =>
    have hfits : NumbersFit (projections.elim [] Projections.tokens) := by
      cases projections <;> simp [NumbersFit, Projections.tokens, morePaths]
    rw [Body.tokens, numbersFit_append, and_iff_left hfits, List.append_assoc]
    cases conditions with
    | none =>
      have hanswer : ((ofGraph .find graph).atStage (.patternMore id)).answer? _ = some _ :=
        answer?_projections (ofGraph .find graph) projections semicolon rest
          (fun tokens => by cases semicolon <;> rfl) (fun tokens => rfl)
      refine Iff.trans ?_ (and_iff_right numbersFit_nil).symm
      rw [Option.elim_none, List.nil_append, Body.verb, hanswer, Option.some_inj, eq_comm]
      rfl
    | some conditions =>
      have hanswer : ({ ofGraph .find graph with filters := conditions.filters, stage := .filterMore } :
          Reading).answer? _ = some _ :=
        answer?_projections { ofGraph .find graph with filters := conditions.filters } projections semicolon rest
          (fun tokens => by cases semicolon <;> rfl) (fun tokens => rfl)
      rw [Option.elim_some, Body.verb, answer?_conditions rfl]
      refine and_congr_right' ?_
      change ({ ofGraph .find graph with filters := conditions.filters, stage := .filterMore } : Reading).answer? _ =
        some query ↔ _
      rw [hanswer, Option.some_inj, eq_comm]
      rfl

/-- A phrase completes its query when its numbers fit and no binding has two kinds, and nothing else. -/
theorem answer?_phrase {phrase : Phrase} (hheads : ∀ mention ∈ phrase.pattern.mentions, mention.head.Slashless) :
    start.answer? (phrase.tokens ++ rest) = some query ↔
      NumbersFit phrase.tokens ∧ OneKindEach phrase.pattern.mentions ∧ query = phrase.query := by
  have hstart : start.answer? (phrase.tokens ++ rest) = (ofGraph phrase.body.verb Graph.empty).answer?
      (phrase.pattern.tokens ++ (phrase.body.tokens ++ (endTokens phrase.semicolon ++ rest))) := by
    rw [Phrase.tokens, List.append_assoc, List.append_assoc, List.cons_append]
    cases phrase.body.verb <;> rfl
  have hfits : NumbersFit phrase.tokens ↔ NumbersFit phrase.pattern.tokens ∧ NumbersFit phrase.body.tokens := by
    have hends : NumbersFit (endTokens phrase.semicolon) := by
      cases phrase.semicolon <;> simp [endTokens, numbersFit_cons, numbersFit_nil]
    rw [Phrase.tokens, numbersFit_append, and_iff_left hends, ← numbersFit_append]
    exact numbersFit_cons (by cases phrase.body.verb <;> nofun)
  rw [hstart, answer?_pattern hheads, answer?_body, hfits]
  simp only [and_assoc, and_left_comm, Phrase.query]

end Bodies

end Reading

end ClusterQuery.Query
