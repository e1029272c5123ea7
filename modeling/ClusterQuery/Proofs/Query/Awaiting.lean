import Mathlib.Data.Set.Basic
import ClusterQuery.Proofs.Query.Recognition

/-!
# What the grammar has at each stage

Each stage of a reading stands for the sequences of tokens that the grammar has from there to the end of the query
(`Stage.awaited`), whatever has been read of names, keys and values before. After its first token such a sequence goes
on with what another stage awaits, and the lemmas on `token :: rest` say with which; and there is always a way to go on
(`Stage.awaited_completes`).
-/

namespace ClusterQuery.Query

namespace Awaited

open Phrase

/-! ## Parts of a query and what follows them -/

/-- A token of some kind, and then a sequence of some kind. -/
def before (first : Set Token) (next : Set (List Token)) : Set (List Token) :=
  {tokens | ∃ token ∈ first, ∃ rest ∈ next, tokens = token :: rest}

def names : Set Token :=
  Set.range Token.identifier

def paths : Set Token :=
  Set.range fun path : PathText => Token.path path

def values : Set Token :=
  Set.range Value.token

/-- The end, a semicolon before it or none. -/
def ends : Set (List Token) :=
  Set.range endTokens

/-- After a projected path: further ones and the end. -/
def morePaths : Set (List Token) :=
  {tokens | ∃ paths, ∃ after ∈ ends, tokens = Phrase.morePaths paths ++ after}

/-- After the conditions: projections, if there are any, and the end. -/
def projected : Set (List Token) :=
  {tokens | ∃ projections, ∃ after ∈ ends, tokens = Option.elim projections [] Projections.tokens ++ after}

/-- After a condition: further ones, projections and the end. -/
def moreConditions : Set (List Token) :=
  {tokens | ∃ conditions, ∃ after ∈ projected, tokens = Phrase.moreConditions conditions ++ after}

def filterValue : Set (List Token) :=
  before values moreConditions

def filterComparison : Set (List Token) :=
  before (Set.range comparisonToken) filterValue

def filterPath : Set (List Token) :=
  before paths filterComparison

variable (verb : Verb)

/-- After the pattern: what belongs to the word that the query begins with, and the end. -/
def afterPattern : Set (List Token) :=
  {tokens | ∃ body : Body, body.verb = verb ∧ ∃ after ∈ ends, tokens = body.tokens ++ after}

/-- After a node: edges, further chains and what follows the pattern. -/
def morePattern : Set (List Token) :=
  {tokens | ∃ (hops : List Hop) (chains : List Chain), ∃ after ∈ afterPattern verb,
    tokens = hops.flatMap Hop.tokens ++ (moreChains chains ++ after)}

def nodeClose : Set (List Token) :=
  before {.rightParen} (morePattern verb)

/-- After a block: the rest of the node it belongs to, or the end. -/
def afterBlock : BlockOwner → Set (List Token)
  | .node _ => nodeClose verb
  | .query => ends

variable (owner : BlockOwner)

/-- After a pair: further ones, the closing brace and what follows the block. -/
def blockMore : Set (List Token) :=
  {tokens | ∃ pairs, ∃ after ∈ afterBlock verb owner, tokens = morePairs pairs ++ .rightBrace :: after}

def value : Set (List Token) :=
  before values (blockMore verb owner)

def keyColon : Set (List Token) :=
  before {.colon} (value verb owner)

def key : Set (List Token) :=
  before paths (keyColon verb owner)

def emptyBlockClose : Set (List Token) :=
  before {.rightBrace} (afterBlock verb owner)

/-- After an opening brace: the rest of the block and what follows it. -/
def firstKey : Set (List Token) :=
  {tokens | ∃ pairs, ∃ after ∈ afterBlock verb owner, tokens = blockRest pairs ++ after}

/-- After the kind of a node: its block, if it has one, the closing parenthesis and more of the pattern. -/
def nodeBlockOrClose : Set (List Token) :=
  {tokens | ∃ block : Option (List Pair), ∃ after ∈ morePattern verb,
    tokens = block.elim [] blockTokens ++ .rightParen :: after}

def kind : Set (List Token) :=
  before names (nodeBlockOrClose verb)

def bindingColon : Set (List Token) :=
  before {.colon} (kind verb)

def bindingName : Set (List Token) :=
  before names (bindingColon verb)

def nodeOpen : Set (List Token) :=
  before {.leftParen} (bindingName verb)

def edgeArrow : Set (List Token) :=
  before {.arrow} (nodeOpen verb)

def edgeClose : Set (List Token) :=
  before {.rightBracket} (edgeArrow verb)

def edgeLabel : Set (List Token) :=
  before names (edgeClose verb)

def edgeColon : Set (List Token) :=
  before {.colon} (edgeLabel verb)

def edgeBracket : Set (List Token) :=
  before {.leftBracket} (edgeColon verb)

end Awaited

/-- What the grammar has at a stage of a query that begins with a word, to the end. -/
def Stage.awaited (verb : Verb) : Stage → Set (List Token)
  | .verb => Set.range Phrase.tokens
  | .nodeOpen => Awaited.nodeOpen verb
  | .bindingName => Awaited.bindingName verb
  | .bindingColon _ => Awaited.bindingColon verb
  | .kind _ => Awaited.kind verb
  | .nodeBlockOrClose _ => Awaited.nodeBlockOrClose verb
  | .nodeClose _ _ => Awaited.nodeClose verb
  | .firstKey owner => Awaited.firstKey verb owner
  | .emptyBlockClose owner => Awaited.emptyBlockClose verb owner
  | .key owner _ => Awaited.key verb owner
  | .keyColon owner _ _ => Awaited.keyColon verb owner
  | .value owner _ _ => Awaited.value verb owner
  | .blockMore owner _ => Awaited.blockMore verb owner
  | .patternMore _ => Awaited.morePattern verb
  | .edgeBracket _ => Awaited.edgeBracket verb
  | .edgeColon _ => Awaited.edgeColon verb
  | .edgeLabel _ => Awaited.edgeLabel verb
  | .edgeClose _ _ => Awaited.edgeClose verb
  | .edgeArrow _ _ => Awaited.edgeArrow verb
  | .filterPath => Awaited.filterPath
  | .filterComparison _ => Awaited.filterComparison
  | .filterValue _ _ => Awaited.filterValue
  | .filterMore => Awaited.moreConditions
  | .projectionPath => Awaited.before Awaited.paths Awaited.morePaths
  | .projectionMore => Awaited.morePaths
  | .close => Awaited.ends
  | .finish => {[.finish]}

namespace Awaited

open Phrase

section First

variable {verb : Verb} {owner : BlockOwner} {first : Set Token} {next : Set (List Token)} {token : Token}
  {tokens rest : List Token}

/-! ## The first token -/

@[simp] theorem cons_mem_before : token :: rest ∈ before first next ↔ token ∈ first ∧ rest ∈ next := by
  constructor
  · rintro ⟨_, hfirst, _, hnext, he⟩
    cases he
    exact ⟨hfirst, hnext⟩
  · rintro ⟨hfirst, hnext⟩
    exact ⟨token, hfirst, rest, hnext, rfl⟩

theorem cons_mem_ends :
    token :: rest ∈ ends ↔ (token = .semicolon ∧ rest = [.finish]) ∨ (token = .finish ∧ rest = []) := by
  constructor
  · rintro ⟨semicolon, he⟩
    cases semicolon <;> cases he
    · exact Or.inr ⟨rfl, rfl⟩
    · exact Or.inl ⟨rfl, rfl⟩
  · rintro (⟨rfl, rfl⟩ | ⟨rfl, rfl⟩)
    · exact ⟨true, rfl⟩
    · exact ⟨false, rfl⟩

theorem cons_mem_morePaths :
    token :: rest ∈ morePaths ↔ (token = .comma ∧ rest ∈ before paths morePaths) ∨ token :: rest ∈ ends := by
  constructor
  · rintro ⟨more, after, hafter, he⟩
    cases more with
    | nil => exact Or.inr (he ▸ hafter)
    | cons path more =>
      cases he
      exact Or.inl ⟨rfl, cons_mem_before.2 ⟨⟨path, rfl⟩, more, after, hafter, rfl⟩⟩
  · rintro (⟨rfl, _, ⟨path, rfl⟩, _, ⟨more, after, hafter, rfl⟩, rfl⟩ | hends)
    · exact ⟨path :: more, after, hafter, rfl⟩
    · exact ⟨[], _, hends, rfl⟩

theorem cons_mem_projected :
    token :: rest ∈ projected ↔ (token = .returnWord ∧ rest ∈ before paths morePaths) ∨ token :: rest ∈ ends := by
  constructor
  · rintro ⟨projections, after, hafter, he⟩
    cases projections with
    | none => exact Or.inr (he ▸ hafter)
    | some projections =>
      cases he
      exact Or.inl ⟨rfl, cons_mem_before.2 ⟨⟨projections.first, rfl⟩, projections.more, after, hafter, rfl⟩⟩
  · rintro (⟨rfl, _, ⟨path, rfl⟩, _, ⟨more, after, hafter, rfl⟩, rfl⟩ | hends)
    · exact ⟨some ⟨path, more⟩, after, hafter, rfl⟩
    · exact ⟨none, _, hends, rfl⟩

/-- A condition and what follows it. -/
theorem mem_filterPath :
    tokens ∈ filterPath ↔ ∃ condition : Condition, ∃ rest ∈ moreConditions, tokens = condition.tokens ++ rest := by
  constructor
  · rintro ⟨_, ⟨path, rfl⟩, _, ⟨_, ⟨comparison, rfl⟩, _, ⟨_, ⟨value, rfl⟩, rest, hrest, rfl⟩, rfl⟩, rfl⟩
    exact ⟨⟨path, comparison, value⟩, rest, hrest, rfl⟩
  · rintro ⟨⟨path, comparison, value⟩, rest, hrest, rfl⟩
    exact ⟨_, ⟨path, rfl⟩, _, ⟨_, ⟨comparison, rfl⟩, _, ⟨_, ⟨value, rfl⟩, rest, hrest, rfl⟩, rfl⟩, rfl⟩

theorem cons_mem_moreConditions :
    token :: rest ∈ moreConditions ↔
      ((token = .andWord ∨ token = .comma) ∧ rest ∈ filterPath) ∨ token :: rest ∈ projected := by
  constructor
  · rintro ⟨more, after, hafter, he⟩
    cases more with
    | nil => exact Or.inr (he ▸ hafter)
    | cons joined more =>
      obtain ⟨joint, condition⟩ := joined
      obtain ⟨rfl, rfl⟩ := List.cons.inj he
      refine Or.inl ⟨?_, mem_filterPath.2 ⟨condition, _, ⟨more, after, hafter, rfl⟩, List.append_assoc _ _ _⟩⟩
      cases joint <;> simp [Joint.token]
  · rintro (⟨htoken, hcondition⟩ | hprojected)
    · obtain ⟨condition, _, ⟨more, after, hafter, rfl⟩, rfl⟩ := mem_filterPath.1 hcondition
      obtain ⟨joint, rfl⟩ : ∃ joint : Joint, joint.token = token := by
        rcases htoken with rfl | rfl
        · exact ⟨.andWord, rfl⟩
        · exact ⟨.comma, rfl⟩
      exact ⟨(joint, condition) :: more, after, hafter, by simp [Phrase.moreConditions]⟩
    · exact ⟨[], _, hprojected, rfl⟩

/-- A pair after its key, and what follows it. -/
theorem mem_keyColon :
    tokens ∈ keyColon verb owner ↔ ∃ (value : Value) (pairs : List Pair), ∃ after ∈ afterBlock verb owner,
      tokens = .colon :: value.token :: (morePairs pairs ++ .rightBrace :: after) := by
  constructor
  · rintro ⟨_, rfl, _, ⟨_, ⟨value, rfl⟩, _, ⟨pairs, after, hafter, rfl⟩, rfl⟩, rfl⟩
    exact ⟨value, pairs, after, hafter, rfl⟩
  · rintro ⟨value, pairs, after, hafter, rfl⟩
    exact ⟨_, rfl, _, ⟨_, ⟨value, rfl⟩, _, ⟨pairs, after, hafter, rfl⟩, rfl⟩, rfl⟩

/-- A block after its opening brace: an empty path and the closing brace, or a pair and what follows it. -/
theorem cons_mem_firstKey :
    token :: rest ∈ firstKey verb owner ↔
      (token = .path "" ∧ rest ∈ emptyBlockClose verb owner) ∨ (token ∈ paths ∧ rest ∈ keyColon verb owner) := by
  constructor
  · rintro ⟨pairs, after, hafter, he⟩
    cases pairs with
    | nil =>
      cases he
      exact Or.inl ⟨rfl, _, rfl, after, hafter, rfl⟩
    | cons pair more =>
      cases he
      exact Or.inr ⟨⟨pair.key, rfl⟩, mem_keyColon.2 ⟨pair.value, more, after, hafter, by simp⟩⟩
  · rintro (⟨rfl, _, rfl, after, hafter, rfl⟩ | ⟨⟨key, rfl⟩, hcolon⟩)
    · exact ⟨[], after, hafter, rfl⟩
    · obtain ⟨value, more, after, hafter, rfl⟩ := mem_keyColon.1 hcolon
      exact ⟨⟨key, value⟩ :: more, after, hafter, by simp [blockRest, Pair.tokens]⟩

theorem cons_mem_blockMore :
    token :: rest ∈ blockMore verb owner ↔
      (token = .comma ∧ rest ∈ key verb owner) ∨ (token = .rightBrace ∧ rest ∈ afterBlock verb owner) := by
  constructor
  · rintro ⟨pairs, after, hafter, he⟩
    cases pairs with
    | nil =>
      cases he
      exact Or.inr ⟨rfl, hafter⟩
    | cons pair more =>
      cases he
      exact Or.inl ⟨rfl, _, ⟨pair.key, rfl⟩, _, mem_keyColon.2 ⟨pair.value, more, after, hafter, rfl⟩, rfl⟩
  · rintro (⟨rfl, _, ⟨key, rfl⟩, _, hcolon, rfl⟩ | ⟨rfl, hafter⟩)
    · obtain ⟨value, more, after, hafter, rfl⟩ := mem_keyColon.1 hcolon
      exact ⟨⟨key, value⟩ :: more, after, hafter, rfl⟩
    · exact ⟨[], rest, hafter, rfl⟩

theorem cons_mem_nodeBlockOrClose (head : NodeHead) :
    token :: rest ∈ nodeBlockOrClose verb ↔
      (token = .leftBrace ∧ rest ∈ firstKey verb (.node head)) ∨ (token = .rightParen ∧ rest ∈ morePattern verb) := by
  constructor
  · rintro ⟨block, after, hafter, he⟩
    cases block with
    | none =>
      cases he
      exact Or.inr ⟨rfl, hafter⟩
    | some pairs =>
      cases he
      exact Or.inl ⟨rfl, pairs, _, ⟨_, rfl, after, hafter, rfl⟩, rfl⟩
  · rintro (⟨rfl, pairs, _, ⟨_, rfl, after, hafter, rfl⟩, rfl⟩ | ⟨rfl, hafter⟩)
    · exact ⟨some pairs, after, hafter, rfl⟩
    · exact ⟨none, rest, hafter, rfl⟩

/-- A node and what follows it. -/
theorem mem_nodeOpen :
    tokens ∈ nodeOpen verb ↔ ∃ mention : Mention, ∃ rest ∈ morePattern verb, tokens = mention.tokens ++ rest := by
  constructor
  · rintro ⟨_, rfl, _, ⟨_, ⟨name, rfl⟩, _, ⟨_, rfl, _, ⟨_, ⟨kind, rfl⟩, _, hblock, rfl⟩, rfl⟩, rfl⟩, rfl⟩
    obtain ⟨block, rest, hrest, rfl⟩ := hblock
    exact ⟨⟨⟨name, kind⟩, block⟩, rest, hrest, by simp [Mention.tokens]⟩
  · rintro ⟨⟨⟨name, kind⟩, block⟩, rest, hrest, rfl⟩
    exact ⟨_, rfl, _, ⟨_, ⟨name, rfl⟩, _, ⟨_, rfl, _, ⟨_, ⟨kind, rfl⟩, _, ⟨block, rest, hrest, rfl⟩, rfl⟩, rfl⟩, rfl⟩,
      by simp [Mention.tokens]⟩

/-- An edge after its dash, and what follows it. -/
theorem mem_edgeBracket :
    tokens ∈ edgeBracket verb ↔ ∃ label, ∃ rest ∈ nodeOpen verb,
      tokens = .leftBracket :: .colon :: .identifier label :: .rightBracket :: .arrow :: rest := by
  constructor
  · rintro ⟨_, rfl, _, ⟨_, rfl, _, ⟨_, ⟨label, rfl⟩, _, ⟨_, rfl, _, ⟨_, rfl, rest, hrest, rfl⟩, rfl⟩, rfl⟩, rfl⟩, rfl⟩
    exact ⟨label, rest, hrest, rfl⟩
  · rintro ⟨label, rest, hrest, rfl⟩
    exact ⟨_, rfl, _, ⟨_, rfl, _, ⟨_, ⟨label, rfl⟩, _, ⟨_, rfl, _, ⟨_, rfl, rest, hrest, rfl⟩, rfl⟩, rfl⟩, rfl⟩, rfl⟩

theorem cons_mem_morePattern :
    token :: rest ∈ morePattern verb ↔
      (token = .dash ∧ rest ∈ edgeBracket verb) ∨ (token = .comma ∧ rest ∈ nodeOpen verb) ∨
        token :: rest ∈ afterPattern verb := by
  constructor
  · rintro ⟨hops, chains, after, hafter, he⟩
    cases hops with
    | cons hop more =>
      obtain ⟨rfl, rfl⟩ := List.cons.inj he
      have hnode : hop.target.tokens ++ (more.flatMap Hop.tokens ++ (moreChains chains ++ after)) ∈ nodeOpen verb :=
        mem_nodeOpen.2 ⟨hop.target, _, ⟨more, chains, after, hafter, rfl⟩, rfl⟩
      exact Or.inl ⟨rfl, mem_edgeBracket.2 ⟨hop.label, _, hnode, by simp [List.flatMap_def]⟩⟩
    | nil =>
      cases chains with
      | nil => exact Or.inr (Or.inr (he ▸ hafter))
      | cons chain more =>
        obtain ⟨rfl, rfl⟩ := List.cons.inj he
        refine Or.inr (Or.inl ⟨rfl, mem_nodeOpen.2 ⟨chain.first, _, ⟨chain.hops, more, after, hafter, rfl⟩, ?_⟩⟩)
        simp [Chain.tokens, moreChains, List.flatMap_def]
  · rintro (⟨rfl, hedge⟩ | ⟨rfl, hnode⟩ | hafter)
    · obtain ⟨label, _, hnode, rfl⟩ := mem_edgeBracket.1 hedge
      obtain ⟨target, _, ⟨hops, chains, after, hafter, rfl⟩, rfl⟩ := mem_nodeOpen.1 hnode
      exact ⟨⟨label, target⟩ :: hops, chains, after, hafter, by simp [Hop.tokens]⟩
    · obtain ⟨mention, _, ⟨hops, chains, after, hafter, rfl⟩, rfl⟩ := mem_nodeOpen.1 hnode
      exact ⟨[], ⟨mention, hops⟩ :: chains, after, hafter, by simp [moreChains, Chain.tokens]⟩
    · exact ⟨[], [], _, hafter, rfl⟩

theorem cons_mem_afterPattern_find :
    token :: rest ∈ afterPattern .find ↔ (token = .whereWord ∧ rest ∈ filterPath) ∨ token :: rest ∈ projected := by
  constructor
  · rintro ⟨body, hverb, after, hafter, he⟩
    cases body with
    | find conditions projections =>
      have hprojected : projections.elim [] Projections.tokens ++ after ∈ projected := ⟨projections, after, hafter, rfl⟩
      cases conditions with
      | none => exact Or.inr (he ▸ hprojected)
      | some conditions =>
        simp only [Body.tokens, Option.elim_some, Conditions.tokens, List.cons_append, List.append_assoc] at he
        obtain ⟨rfl, rfl⟩ := List.cons.inj he
        exact Or.inl ⟨rfl, mem_filterPath.2 ⟨conditions.first, _, ⟨conditions.more, _, hprojected, rfl⟩, rfl⟩⟩
    | _ => cases hverb
  · rintro (⟨rfl, hfilter⟩ | ⟨projections, after, hafter, he⟩)
    · obtain ⟨condition, _, ⟨more, _, ⟨projections, after, hafter, rfl⟩, rfl⟩, rfl⟩ := mem_filterPath.1 hfilter
      exact ⟨.find (some ⟨condition, more⟩) projections, rfl, after, hafter, by simp [Body.tokens, Conditions.tokens]⟩
    · exact ⟨.find none projections, rfl, after, hafter, he⟩

theorem cons_mem_afterPattern_assign :
    token :: rest ∈ afterPattern .assign ↔ token = .leftBrace ∧ rest ∈ firstKey .assign .query := by
  constructor
  · rintro ⟨body, hverb, after, hafter, he⟩
    cases body with
    | assign block =>
      cases he
      exact ⟨rfl, block, after, hafter, rfl⟩
    | _ => cases hverb
  · rintro ⟨rfl, block, after, hafter, rfl⟩
    exact ⟨.assign block, rfl, after, hafter, rfl⟩

/-- After a pattern that is created or deleted the query ends. -/
theorem afterPattern_eq_ends (h : verb = .create ∨ verb = .delete) : afterPattern verb = ends := by
  ext tokens
  constructor
  · rintro ⟨body, hverb, after, hafter, rfl⟩
    cases body with
    | create | delete => exact hafter
    | _ =>
      subst hverb
      rcases h with h | h <;> cases h
  · intro hends
    rcases h with rfl | rfl
    · exact ⟨.create, rfl, tokens, hends, rfl⟩
    · exact ⟨.delete, rfl, tokens, hends, rfl⟩

/-- What follows the pattern begins with a word, an opening brace or the end. -/
theorem first_of_afterPattern (h : token :: rest ∈ afterPattern verb) :
    token ∈ [.whereWord, .returnWord, .leftBrace, .semicolon, .finish] := by
  have hends (h : token :: rest ∈ ends) : token = .semicolon ∨ token = .finish :=
    (cons_mem_ends.1 h).imp And.left And.left
  cases verb with
  | find =>
    rcases cons_mem_afterPattern_find.1 h with ⟨rfl, -⟩ | h
    · simp
    rcases cons_mem_projected.1 h with ⟨rfl, -⟩ | h
    · simp
    rcases hends h with rfl | rfl <;> simp
  | assign => simp [(cons_mem_afterPattern_assign.1 h).1]
  | create => rcases hends (afterPattern_eq_ends (Or.inl rfl) ▸ h) with rfl | rfl <;> simp
  | delete => rcases hends (afterPattern_eq_ends (Or.inr rfl) ▸ h) with rfl | rfl <;> simp

theorem cons_mem_phrases :
    token :: rest ∈ Set.range Phrase.tokens ↔ ∃ verb, token = verbToken verb ∧ rest ∈ nodeOpen verb := by
  constructor
  · rintro ⟨⟨pattern, body, semicolon⟩, he⟩
    obtain ⟨rfl, rfl⟩ := List.cons.inj he
    refine ⟨body.verb, rfl, mem_nodeOpen.2 ⟨pattern.first.first, _, ⟨pattern.first.hops, pattern.more, _,
      ⟨body, rfl, _, ⟨semicolon, rfl⟩, rfl⟩, rfl⟩, ?_⟩⟩
    simp [Pattern.tokens, Chain.tokens]
  · rintro ⟨verb, rfl, hnode⟩
    obtain ⟨mention, _, ⟨hops, chains, _, ⟨body, rfl, _, ⟨semicolon, rfl⟩, rfl⟩, rfl⟩, rfl⟩ := mem_nodeOpen.1 hnode
    exact ⟨⟨⟨⟨mention, hops⟩, chains⟩, body, semicolon⟩, by simp [Phrase.tokens, Pattern.tokens, Chain.tokens]⟩

end First

/-! ## Ways to go on -/

section Completion

/-- Some sequence of a kind has numbers that fit. -/
def Completes (language : Set (List Token)) : Prop :=
  ∃ tokens ∈ language, NumbersFit tokens

variable {verb : Verb} {owner : BlockOwner} {language next : Set (List Token)} {first : Set Token} {token : Token}

theorem Completes.mono (h : Completes next) (hsubset : next ⊆ language) : Completes language :=
  h.imp fun _ ⟨hmem, hfits⟩ => ⟨hsubset hmem, hfits⟩

/-- A token that is no number goes before a sequence. -/
theorem Completes.cons (h : Completes next) (token : Token) (htoken : ∀ digits, token ≠ .integer digits)
    (hmem : ∀ rest ∈ next, token :: rest ∈ language) : Completes language := by
  obtain ⟨rest, hrest, hfits⟩ := h
  exact ⟨token :: rest, hmem rest hrest, numbersFit_append.2 ⟨numbersFit_singleton htoken, hfits⟩⟩

theorem Completes.before (h : Completes next) (hfirst : token ∈ first) (htoken : ∀ digits, token ≠ .integer digits) :
    Completes (before first next) :=
  h.cons token htoken fun _ hrest => cons_mem_before.2 ⟨hfirst, hrest⟩

theorem Completes.sign (h : Completes next) (token : Token) (htoken : ∀ digits, token ≠ .integer digits) :
    Completes (Awaited.before {token} next) :=
  h.before rfl htoken

theorem Completes.name (h : Completes next) : Completes (Awaited.before names next) :=
  h.before ⟨"", rfl⟩ fun _ => nofun

theorem Completes.path (h : Completes next) : Completes (Awaited.before paths next) :=
  h.before ⟨⟨"*", by decide⟩, rfl⟩ fun _ => nofun

theorem Completes.value (h : Completes next) : Completes (Awaited.before values next) :=
  h.before ⟨.string "", rfl⟩ fun _ => nofun

theorem completes_ends : Completes ends :=
  ⟨[.finish], ⟨false, rfl⟩, numbersFit_singleton fun _ => nofun⟩

theorem completes_morePaths : Completes morePaths :=
  .mono completes_ends fun after hafter => ⟨[], after, hafter, rfl⟩

theorem completes_projected : Completes projected :=
  .mono completes_ends fun after hafter => ⟨none, after, hafter, rfl⟩

theorem completes_moreConditions : Completes moreConditions :=
  .mono completes_projected fun after hafter => ⟨[], after, hafter, rfl⟩

theorem completes_filterComparison : Completes filterComparison :=
  .before (.value completes_moreConditions) ⟨.equal, rfl⟩ fun _ => nofun

/-- A block may be empty. -/
theorem Completes.firstKey (h : Completes (emptyBlockClose verb owner)) : Completes (firstKey verb owner) :=
  h.cons (.path "") (fun _ => nofun) fun _ hrest => cons_mem_firstKey.2 (Or.inl ⟨rfl, hrest⟩)

theorem completes_afterPattern : Completes (afterPattern verb) := by
  cases verb with
  | find =>
    refine .mono completes_projected ?_
    rintro _ ⟨projections, after, hafter, rfl⟩
    exact ⟨.find none projections, rfl, after, hafter, rfl⟩
  | create => exact afterPattern_eq_ends (Or.inl rfl) ▸ completes_ends
  | delete => exact afterPattern_eq_ends (Or.inr rfl) ▸ completes_ends
  | assign =>
    have hempty : Completes (emptyBlockClose .assign .query) := .sign completes_ends .rightBrace fun _ => nofun
    exact hempty.firstKey.cons .leftBrace (fun _ => nofun) fun _ hrest => cons_mem_afterPattern_assign.2 ⟨rfl, hrest⟩

theorem completes_morePattern : Completes (morePattern verb) :=
  .mono completes_afterPattern fun after hafter => ⟨[], [], after, hafter, rfl⟩

theorem completes_afterBlock : Completes (afterBlock verb owner) := by
  cases owner with
  | node head => exact .sign completes_morePattern .rightParen fun _ => nofun
  | query => exact completes_ends

theorem completes_emptyBlockClose : Completes (emptyBlockClose verb owner) :=
  .sign completes_afterBlock .rightBrace fun _ => nofun

theorem completes_blockMore : Completes (blockMore verb owner) :=
  .cons completes_afterBlock .rightBrace (fun _ => nofun) fun _ hrest => cons_mem_blockMore.2 (Or.inr ⟨rfl, hrest⟩)

theorem completes_keyColon : Completes (keyColon verb owner) :=
  .sign (.value completes_blockMore) .colon fun _ => nofun

theorem completes_nodeBlockOrClose : Completes (nodeBlockOrClose verb) :=
  .cons completes_morePattern .rightParen (fun _ => nofun) fun after hafter => ⟨none, after, hafter, rfl⟩

theorem completes_bindingColon : Completes (bindingColon verb) :=
  .sign (.name completes_nodeBlockOrClose) .colon fun _ => nofun

theorem completes_nodeOpen : Completes (nodeOpen verb) :=
  .sign (.name completes_bindingColon) .leftParen fun _ => nofun

theorem completes_edgeClose : Completes (edgeClose verb) := by
  have harrow : Completes (edgeArrow verb) := .sign completes_nodeOpen .arrow fun _ => nofun
  exact harrow.sign .rightBracket fun _ => nofun

end Completion

end Awaited

open Awaited in
/-- There is a way to go on from every stage. -/
theorem Stage.awaited_completes (verb : Verb) (stage : Stage) : Completes (stage.awaited verb) := by
  cases stage with
  | verb =>
    have hmatch : Completes (Awaited.nodeOpen .find) := completes_nodeOpen
    exact hmatch.cons .matchWord (fun _ => nofun) fun rest hrest => cons_mem_phrases.2 ⟨.find, rfl, hrest⟩
  | nodeOpen => exact completes_nodeOpen
  | bindingName => exact .name completes_bindingColon
  | bindingColon => exact completes_bindingColon
  | kind => exact .name completes_nodeBlockOrClose
  | nodeBlockOrClose => exact completes_nodeBlockOrClose
  | nodeClose => exact .sign completes_morePattern .rightParen fun _ => nofun
  | firstKey => exact .firstKey completes_emptyBlockClose
  | emptyBlockClose => exact completes_emptyBlockClose
  | key => exact .path completes_keyColon
  | keyColon => exact completes_keyColon
  | value => exact .value completes_blockMore
  | blockMore => exact completes_blockMore
  | patternMore => exact completes_morePattern
  | edgeBracket => exact .sign (.sign (.name completes_edgeClose) .colon fun _ => nofun) .leftBracket fun _ => nofun
  | edgeColon => exact .sign (.name completes_edgeClose) .colon fun _ => nofun
  | edgeLabel => exact .name completes_edgeClose
  | edgeClose => exact completes_edgeClose
  | edgeArrow => exact .sign completes_nodeOpen .arrow fun _ => nofun
  | filterPath => exact .path completes_filterComparison
  | filterComparison => exact completes_filterComparison
  | filterValue => exact .value completes_moreConditions
  | filterMore => exact completes_moreConditions
  | projectionPath => exact .path completes_morePaths
  | projectionMore => exact completes_morePaths
  | close => exact completes_ends
  | finish => exact ⟨[.finish], rfl, numbersFit_singleton fun _ => nofun⟩

end ClusterQuery.Query
