import Mathlib.Algebra.Group.Nat.Defs
import ClusterQuery.Query.Parser

/-!
# The grammar of queries

Phrases are the trees of the grammar, one constructor or structure for each way to write something, and `tokens` spells
a phrase out:

    query       := MATCH pattern (WHERE filters)? (RETURN projections)? ';'? END
                 | CREATE pattern ';'? END
                 | SET pattern properties ';'? END
                 | DELETE pattern ';'? END
    pattern     := chain (',' chain)*
    chain       := node (edge node)*
    node        := '(' NAME ':' NAME properties? ')'
    edge        := '-' '[' ':' NAME ']' '->'
    properties  := '{' PATH ':' value (',' PATH ':' value)* '}' | '{' EMPTY-PATH '}'
    filters     := filter ((AND | ',') filter)*
    filter      := PATH ('=' | '!=') value
    projections := PATH (',' PATH)*
    value       := STRING | INTEGER | BOOLEAN

A PATH has characters. What a phrase says is its query: the nodes in the order of their first mention, the edges in
order without repeats, and the clause (`Phrase.query`).
-/

namespace ClusterQuery.Query

/-- A field path as the grammar has it: one with characters. -/
abbrev PathText := { text : String // text ≠ "" }

namespace Phrase

/-- A value, a number by its digits. -/
inductive Value where
  | string (value : String)
  | integer (digits : String)
  | boolean (value : Bool)

/-- A key with its value. -/
structure Pair where
  key : PathText
  value : Value

/-- A node where it is mentioned; no pairs are an empty block, and no block is none at all. -/
structure Mention where
  head : NodeHead
  block : Option (List Pair)

/-- An edge with the node it leads to. -/
structure Hop where
  label : String
  target : Mention

/-- A node and the edges that lead on from it. -/
structure Chain where
  first : Mention
  hops : List Hop

/-- Chains, at least one. -/
structure Pattern where
  first : Chain
  more : List Chain

/-- A condition on a path. -/
structure Condition where
  path : PathText
  comparison : Comparison
  value : Value

/-- What stands between two conditions. -/
inductive Joint where
  | andWord
  | comma

/-- Conditions, at least one, the further ones with what stands before them. -/
structure Conditions where
  first : Condition
  more : List (Joint × Condition)

/-- Paths, at least one. -/
structure Projections where
  first : PathText
  more : List PathText

/-- What a query does with its pattern. -/
inductive Body where
  | find (conditions : Option Conditions) (projections : Option Projections)
  | create
  | assign (block : List Pair)
  | delete

end Phrase

/-- A query as it is written. -/
structure Phrase where
  pattern : Phrase.Pattern
  body : Phrase.Body
  semicolon : Bool

/-! ## Spelling -/

namespace Phrase

def Value.token : Value → Token
  | .string value => .string value
  | .integer digits => .integer digits
  | .boolean value => .boolean value

def Pair.tokens (pair : Pair) : List Token :=
  [.path pair.key, .colon, pair.value.token]

/-- The pairs after the first, each after a comma. -/
def morePairs (pairs : List Pair) : List Token :=
  pairs.flatMap fun pair => .comma :: pair.tokens

/-- A block after its opening brace; an empty one holds an empty path. -/
def blockRest : List Pair → List Token
  | [] => [.path "", .rightBrace]
  | first :: more => first.tokens ++ morePairs more ++ [.rightBrace]

/-- A block. -/
def blockTokens (pairs : List Pair) : List Token :=
  .leftBrace :: blockRest pairs

def Mention.tokens (mention : Mention) : List Token :=
  [.leftParen, .identifier mention.head.name, .colon, .identifier mention.head.kind] ++
    (mention.block.elim [] blockTokens) ++ [.rightParen]

def Hop.tokens (hop : Hop) : List Token :=
  [.dash, .leftBracket, .colon, .identifier hop.label, .rightBracket, .arrow] ++ hop.target.tokens

def Chain.tokens (chain : Chain) : List Token :=
  chain.first.tokens ++ chain.hops.flatMap Hop.tokens

/-- The chains after the first, each after a comma. -/
def moreChains (chains : List Chain) : List Token :=
  chains.flatMap fun chain => .comma :: chain.tokens

def Pattern.tokens (pattern : Pattern) : List Token :=
  pattern.first.tokens ++ moreChains pattern.more

/-- The sign of a comparison. -/
def comparisonToken : Comparison → Token
  | .equal => .equal
  | .notEqual => .notEqual

def Condition.tokens (condition : Condition) : List Token :=
  [.path condition.path, comparisonToken condition.comparison, condition.value.token]

def Joint.token : Joint → Token
  | .andWord => .andWord
  | .comma => .comma

/-- The conditions after the first, each after what stands before it. -/
def moreConditions (conditions : List (Joint × Condition)) : List Token :=
  conditions.flatMap fun (joint, condition) => joint.token :: condition.tokens

def Conditions.tokens (conditions : Conditions) : List Token :=
  .whereWord :: conditions.first.tokens ++ moreConditions conditions.more

/-- The paths after the first, each after a comma. -/
def morePaths (paths : List PathText) : List Token :=
  paths.flatMap fun path => [.comma, .path path.val]

def Projections.tokens (projections : Projections) : List Token :=
  .returnWord :: .path projections.first :: morePaths projections.more

namespace Body

/-- The word that the query begins with. -/
def verb : Body → Verb
  | .find .. => .find
  | .create => .create
  | .assign _ => .assign
  | .delete => .delete

/-- What follows the pattern. -/
def tokens : Body → List Token
  | .find conditions projections =>
    conditions.elim [] Conditions.tokens ++ projections.elim [] Projections.tokens
  | .create => []
  | .assign block => blockTokens block
  | .delete => []

end Body

/-- The token of the word that a query begins with. -/
def verbToken : Verb → Token
  | .find => .matchWord
  | .create => .createWord
  | .assign => .setWord
  | .delete => .deleteWord

/-- The end, a semicolon before it or none. -/
def endTokens (semicolon : Bool) : List Token :=
  if semicolon then [.semicolon, .finish] else [.finish]

/-- The phrase, token by token. -/
def tokens (phrase : Phrase) : List Token :=
  verbToken phrase.body.verb :: phrase.pattern.tokens ++ phrase.body.tokens ++ endTokens phrase.semicolon

end Phrase

/-! ## What a phrase says -/

/-- The number that digits write. -/
def numberOf (digits : String) : Nat :=
  Nat.ofDigitChars 10 digits.toList 0

/-- Every number is at most the greatest signed 64-bit one. -/
def NumbersFit (tokens : List Token) : Prop :=
  ∀ digits, Token.integer digits ∈ tokens → numberOf digits ≤ 2 ^ 63 - 1

namespace Phrase

def Value.literal : Value → Literal
  | .string value => .string value
  | .integer digits => .integer (numberOf digits)
  | .boolean value => .boolean value

/-- The property of a pair, its key without the quotes around it. -/
def Pair.property (pair : Pair) : Property :=
  ⟨Reading.unquoteKey pair.key, pair.value.literal⟩

namespace Mention

/-- The id of the node. -/
def id (mention : Mention) : String :=
  Node.idOf mention.head.kind mention.head.name

/-- The properties that the mention shows. -/
def properties (mention : Mention) : List Property :=
  (mention.block.getD []).map Pair.property

end Mention

/-- The properties of new keys, each key once. -/
def newProperties (known : List String) : List Property → List Property
  | [] => []
  | property :: rest =>
    if property.key ∈ known then newProperties known rest
    else property :: newProperties (known ++ [property.key]) rest

/-- The properties of a node from its mentions: those of the first as they stand, of the later ones what is new. -/
def mergedProperties : List (List Property) → List Property
  | [] => []
  | first :: later => first ++ newProperties (first.map (·.key)) later.flatten

/-- The node of a binding and a kind, by the mentions of a pattern. -/
def nodeOf (mentions : List Mention) (head : NodeHead) : Node :=
  Node.ofBinding head.name head.kind
    (mergedProperties ((mentions.filter (·.head = head)).map Mention.properties))

/-- The nodes of mentions, in the order of their first mention. -/
def nodesOf (mentions : List Mention) : List Node :=
  (mentions.map Mention.head).eraseDups.map (nodeOf mentions)

/-- The edges of hops that go on from a node. -/
def edgesFrom (source : String) : List Hop → List Edge
  | [] => []
  | hop :: rest => ⟨source, hop.target.id, hop.label⟩ :: edgesFrom hop.target.id rest

namespace Chain

def mentions (chain : Chain) : List Mention :=
  chain.first :: chain.hops.map Hop.target

def edges (chain : Chain) : List Edge :=
  edgesFrom chain.first.id chain.hops

end Chain

namespace Pattern

def chains (pattern : Pattern) : List Chain :=
  pattern.first :: pattern.more

/-- The mentions of nodes, in order. -/
def mentions (pattern : Pattern) : List Mention :=
  pattern.chains.flatMap Chain.mentions

/-- The edges, in order. -/
def edges (pattern : Pattern) : List Edge :=
  pattern.chains.flatMap Chain.edges

end Pattern

/-- The graph of mentions and edges: each node and each edge once. -/
def graphOf (mentions : List Mention) (edges : List Edge) : Graph :=
  ⟨nodesOf mentions, edges.eraseDups⟩

/-- No binding is mentioned with two kinds. -/
def OneKindEach (mentions : List Mention) : Prop :=
  ∀ first ∈ mentions, ∀ second ∈ mentions, first.head.name = second.head.name → first.head.kind = second.head.kind

def Condition.filter (condition : Condition) : Filter :=
  ⟨condition.path, condition.comparison, condition.value.literal⟩

def Conditions.filters (conditions : Conditions) : List Filter :=
  conditions.first.filter :: conditions.more.map (·.2.filter)

def Projections.paths (projections : Projections) : List String :=
  (projections.first :: projections.more).map (·.1)

def Body.clause : Body → Clause
  | .find conditions projections =>
    .find (conditions.elim [] Conditions.filters) (projections.elim [] Projections.paths)
  | .create => .create
  | .assign block => .assign (block.map Pair.property)
  | .delete => .delete

/-- The query that the phrase says. -/
def query (phrase : Phrase) : Query :=
  ⟨graphOf phrase.pattern.mentions phrase.pattern.edges, phrase.body.clause⟩

end Phrase

end ClusterQuery.Query
