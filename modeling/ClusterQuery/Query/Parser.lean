import ClusterQuery.Query.Basic
import ClusterQuery.Query.Lexer

/-!
# Reading queries

The grammar of queries over tokens has no nesting, so the reader is a machine that takes one token after another: each
stage says what may come next, and the first token that may not come is the error. `MATCH` takes a pattern, filters and
projections; `CREATE` and `DELETE` take a pattern; `SET` takes a pattern and a block of assignments. A semicolon may end
the query.
-/

namespace ClusterQuery.Query

/-- Why a text is no query. -/
inductive ParseError where
  | illegalCharacter (c : Char) (place : Place)
  | unexpectedToken (found : Token) (expected : String) (place : Place)
  | unexpectedEnd (expected : String) (place : Place)
  | emptyPath (place : Place)
  | invalidInteger (digits : String) (place : Place)
  | conflictingBinding (name first second : String)
  | emptyQuery
  | graph (cause : GraphError)
  deriving DecidableEq, Repr

namespace ParseError

/-- The wording of a parse error. -/
def message : ParseError → String
  | .illegalCharacter c place => "Illegal character '" ++ String.singleton c ++ "' at " ++ place.text
  | .unexpectedToken found expected place =>
    "Unexpected " ++ found.text ++ " at " ++ place.text ++ ", expected " ++ expected
  | .unexpectedEnd expected place => "Unexpected end of input at " ++ place.text ++ ", expected " ++ expected
  | .emptyPath place => "Empty field path at " ++ place.text
  | .invalidInteger digits place => "Invalid integer '" ++ digits ++ "' at " ++ place.text
  | .conflictingBinding name first second =>
    "Binding '" ++ name ++ "' is bound to both " ++ first ++ " and " ++ second
  | .emptyQuery => "Empty query"
  | .graph cause => "Graph error: " ++ cause.message

/-- The place of the token at fault, when one is. -/
def place? : ParseError → Option Place
  | .illegalCharacter _ place => some place
  | .unexpectedToken _ _ place => some place
  | .unexpectedEnd _ place => some place
  | .emptyPath place => some place
  | .invalidInteger _ place => some place
  | .conflictingBinding .. => none
  | .emptyQuery => none
  | .graph _ => none

/-- The error of a token that may not come where something else is expected. -/
def unexpected (placed : PlacedToken) (expected : String) : ParseError :=
  match placed.token with
  | .illegal c => .illegalCharacter c placed.place
  | .finish => .unexpectedEnd expected placed.place
  | found => .unexpectedToken found expected placed.place

end ParseError

/-- The word a query begins with. -/
inductive Verb where
  | find
  | create
  | assign
  | delete
  deriving DecidableEq, Repr

/-- A node read up to its kind. -/
structure NodeHead where
  name : String
  kind : String
  deriving DecidableEq, Repr

/-- What a block of properties belongs to: a node, or the query as its assignments. -/
inductive BlockOwner where
  | node (head : NodeHead)
  | query
  deriving DecidableEq, Repr

/-- What may come next. -/
inductive Stage where
  /-- The word a query begins with. -/
  | verb
  /-- The opening parenthesis of a node. -/
  | nodeOpen
  | bindingName
  | bindingColon (name : String)
  | kind (name : String)
  /-- A block of properties, or the closing parenthesis of the node. -/
  | nodeBlockOrClose (head : NodeHead)
  /-- The closing parenthesis of a node with its properties. -/
  | nodeClose (head : NodeHead) (properties : List Property)
  /-- The first key of a block or the empty path of an empty one. -/
  | firstKey (owner : BlockOwner)
  /-- The closing brace of an empty block. -/
  | emptyBlockClose (owner : BlockOwner)
  /-- A further key of a block. -/
  | key (owner : BlockOwner) (properties : List Property)
  | keyColon (owner : BlockOwner) (properties : List Property) (key : String)
  | value (owner : BlockOwner) (properties : List Property) (key : String)
  /-- A comma or the closing brace of a block. -/
  | blockMore (owner : BlockOwner) (properties : List Property)
  /-- After a node of the given id: an edge, a comma before another chain, or what follows the pattern. -/
  | patternMore (id : String)
  | edgeBracket (source : String)
  | edgeColon (source : String)
  | edgeLabel (source : String)
  | edgeClose (source label : String)
  | edgeArrow (source label : String)
  | filterPath
  | filterComparison (path : String)
  | filterValue (path : String) (comparison : Comparison)
  /-- A separator before another filter, or what follows the filters. -/
  | filterMore
  | projectionPath
  /-- A comma before another projection, or the end. -/
  | projectionMore
  /-- A semicolon or the end. -/
  | close
  /-- The end. -/
  | finish
  deriving DecidableEq, Repr

/-- What has been read of a query, and what may come next. -/
structure Reading where
  verb : Verb
  graph : Graph
  /-- The node and the label of an edge whose target has not been read. -/
  openEdge : Option (String × String)
  filters : List Filter
  projections : List String
  assignments : List Property
  stage : Stage
  deriving DecidableEq, Repr

namespace Reading

/-- Nothing has been read. -/
def start : Reading :=
  ⟨.find, Graph.empty, none, [], [], [], .verb⟩

/-- What follows a token: the reading after it, the finished query, or the error. -/
abbrev Outcome := Except ParseError (Reading ⊕ Query)

/-- The reading goes on at a stage. -/
def goTo (reading : Reading) (stage : Stage) : Outcome :=
  .ok (.inl { reading with stage := stage })

/-- The clause that has been read. -/
def clause (reading : Reading) : Clause :=
  match reading.verb with
  | .find => .find reading.filters reading.projections
  | .create => .create
  | .assign => .assign reading.assignments
  | .delete => .delete

/-- A token that only the end of the query or a semicolon before it may be. -/
def ending (reading : Reading) (placed : PlacedToken) : Outcome :=
  match placed.token with
  | .semicolon => reading.goTo .finish
  | .finish => .ok (.inr ⟨reading.graph, reading.clause⟩)
  | _ => .error (.unexpected placed "end of query")

/-- A token that one token only may be. -/
def expect (reading : Reading) (placed : PlacedToken) (token : Token) (expected : String) (stage : Stage) : Outcome :=
  if placed.token = token then reading.goTo stage else .error (.unexpected placed expected)

/-- A token that must be a name. -/
def expectName (reading : Reading) (placed : PlacedToken) (expected : String) (stage : String → Stage) : Outcome :=
  match placed.token with
  | .identifier name => reading.goTo (stage name)
  | _ => .error (.unexpected placed expected)

/-- A token that must be a field path with characters. -/
def expectPath (placed : PlacedToken) (expected : String) : Except ParseError String :=
  match placed.token with
  | .path text => if text = "" then .error (.emptyPath placed.place) else .ok text
  | _ => .error (.unexpected placed expected)

/-- A token that must be a literal. -/
def expectLiteral (placed : PlacedToken) : Except ParseError Literal :=
  match placed.token with
  | .string value => .ok (.string value)
  | .boolean value => .ok (.boolean value)
  | .integer digits =>
    match Literal.integerOf? digits.toList with
    | some value => .ok (.integer value)
    | none => .error (.invalidInteger digits placed.place)
  | _ => .error (.unexpected placed "string, integer or boolean")

/-- A key without the quotes around it, when no quote stands between them. -/
def unquoteKey (key : String) : String :=
  match key.toList with
  | '"' :: rest =>
    match rest.reverse with
    | '"' :: name => if '"' ∈ name then key else String.ofList name.reverse
    | _ => key
  | _ => key

/-- The reading after a complete node: its binding has one kind only, and it is the target of the open edge. -/
def addNode (reading : Reading) (head : NodeHead) (properties : List Property) : Outcome :=
  let node := Node.ofBinding head.name head.kind properties
  let conflict := (reading.graph.nodeOfBinding? head.name).filter (·.kind ≠ head.kind)
  match conflict with
  | some existing => .error (.conflictingBinding head.name existing.kind head.kind)
  | none =>
    let graph := reading.graph.addNode node
    match reading.openEdge with
    | none => { reading with graph := graph }.goTo (.patternMore node.id)
    | some (source, label) =>
      match graph.addEdge ⟨source, node.id, label⟩ with
      | .error cause => .error (.graph cause)
      | .ok graph => { reading with graph := graph, openEdge := none }.goTo (.patternMore node.id)

/-- The reading after the closing brace of a block. -/
def closeBlock (reading : Reading) (properties : List Property) : BlockOwner → Outcome
  | .node head => reading.goTo (.nodeClose head properties)
  | .query => { reading with assignments := properties }.goTo .close

/-- The first key of a block, or the empty path of an empty block. -/
def readFirstKey (reading : Reading) (placed : PlacedToken) (owner : BlockOwner) : Outcome :=
  if placed.token = .path "" then reading.goTo (.emptyBlockClose owner)
  else do
    let key ← expectPath placed "property name"
    reading.goTo (.keyColon owner [] (unquoteKey key))

/-- What follows the pattern, by the word the query began with. -/
def afterPattern (reading : Reading) (placed : PlacedToken) : Outcome :=
  match reading.verb with
  | .find =>
    match placed.token with
    | .whereWord => reading.goTo .filterPath
    | .returnWord => reading.goTo .projectionPath
    | _ => reading.ending placed
  | .assign => reading.expect placed .leftBrace "'\x7b' opening the SET assignments" (.firstKey .query)
  | .create => reading.ending placed
  | .delete => reading.ending placed

/-- The reading after one more token. -/
def step (reading : Reading) (placed : PlacedToken) : Outcome :=
  match reading.stage with
  | .verb =>
    match placed.token with
    | .matchWord => { reading with verb := .find }.goTo .nodeOpen
    | .createWord => { reading with verb := .create }.goTo .nodeOpen
    | .setWord => { reading with verb := .assign }.goTo .nodeOpen
    | .deleteWord => { reading with verb := .delete }.goTo .nodeOpen
    | .finish => .error .emptyQuery
    | _ => .error (.unexpected placed "MATCH, CREATE, SET or DELETE")
  | .nodeOpen => reading.expect placed .leftParen "'(' starting a node" .bindingName
  | .bindingName => reading.expectName placed "binding name" .bindingColon
  | .bindingColon name => reading.expect placed .colon "':' between binding and kind" (.kind name)
  | .kind name => reading.expectName placed "resource kind" fun kind => .nodeBlockOrClose ⟨name, kind⟩
  | .nodeBlockOrClose head =>
    match placed.token with
    | .leftBrace => reading.goTo (.firstKey (.node head))
    | .rightParen => reading.addNode head []
    | _ => .error (.unexpected placed "')' closing the node")
  | .nodeClose head properties =>
    match placed.token with
    | .rightParen => reading.addNode head properties
    | _ => .error (.unexpected placed "')' closing the node")
  | .firstKey owner => reading.readFirstKey placed owner
  | .emptyBlockClose owner =>
    match placed.token with
    | .rightBrace => reading.closeBlock [] owner
    | _ => .error (.unexpected placed "property name or '\x7d'")
  | .key owner properties => do
    let key ← expectPath placed "property name"
    reading.goTo (.keyColon owner properties (unquoteKey key))
  | .keyColon owner properties key =>
    reading.expect placed .colon "':' after property name" (.value owner properties key)
  | .value owner properties key => do
    let value ← expectLiteral placed
    reading.goTo (.blockMore owner (properties ++ [⟨key, value⟩]))
  | .blockMore owner properties =>
    match placed.token with
    | .comma => reading.goTo (.key owner properties)
    | .rightBrace => reading.closeBlock properties owner
    | _ => .error (.unexpected placed "',' or '\x7d'")
  | .patternMore id =>
    match placed.token with
    | .dash => reading.goTo (.edgeBracket id)
    | .comma => reading.goTo .nodeOpen
    | _ => reading.afterPattern placed
  | .edgeBracket source =>
    reading.expect placed .leftBracket "'[' starting a relationship" (.edgeColon source)
  | .edgeColon source => reading.expect placed .colon "':' before the relationship type" (.edgeLabel source)
  | .edgeLabel source => reading.expectName placed "relationship type" (.edgeClose source)
  | .edgeClose source label =>
    reading.expect placed .rightBracket "']' closing the relationship" (.edgeArrow source label)
  | .edgeArrow source label =>
    { reading with openEdge := some (source, label) }.expect placed .arrow "'->'" .nodeOpen
  | .filterPath => do
    let path ← expectPath placed "field path"
    reading.goTo (.filterComparison path)
  | .filterComparison path =>
    match placed.token with
    | .equal => reading.goTo (.filterValue path .equal)
    | .notEqual => reading.goTo (.filterValue path .notEqual)
    | _ => .error (.unexpected placed "'=' or '!='")
  | .filterValue path comparison => do
    let value ← expectLiteral placed
    { reading with filters := reading.filters ++ [Filter.mk path comparison value] }.goTo .filterMore
  | .filterMore =>
    match placed.token with
    | .andWord => reading.goTo .filterPath
    | .comma => reading.goTo .filterPath
    | .returnWord => reading.goTo .projectionPath
    | _ => reading.ending placed
  | .projectionPath => do
    let path ← expectPath placed "field path"
    { reading with projections := reading.projections ++ [path] }.goTo .projectionMore
  | .projectionMore =>
    match placed.token with
    | .comma => reading.goTo .projectionPath
    | _ => reading.ending placed
  | .close => reading.ending placed
  | .finish =>
    match placed.token with
    | .finish => .ok (.inr ⟨reading.graph, reading.clause⟩)
    | _ => .error (.unexpected placed "end of query")

/-- The query that the rest of the tokens completes. -/
def run (reading : Reading) : List PlacedToken → Except ParseError Query
  | [] => .error .emptyQuery
  | placed :: rest =>
    match reading.step placed with
    | .error cause => .error cause
    | .ok (.inr query) => .ok query
    | .ok (.inl next) => next.run rest

end Reading

/-- The query that a text writes. -/
def parse (text : String) : Except ParseError Query :=
  Reading.start.run (tokenize text)

end ClusterQuery.Query
