import ClusterQuery.Execution.Error
import ClusterQuery.Store.Call

/-!
# Plans

Where each condition of a query is looked at. The properties of a node and the filters on labels, name and namespace go
into the selectors of its search; every other filter is a predicate on the documents found.
-/

namespace ClusterQuery

/-- What queries run with: a namespace, empty for all, and whether they are traced. -/
structure Context where
  inNamespace : String
  debug : Bool
  deriving DecidableEq, Repr

namespace Context

/-- The namespace that searches are confined to, if they are. -/
def scope? (context : Context) : Option String :=
  if context.inNamespace = "" then none else some context.inNamespace

end Context

/-- The selector that a condition belongs to, with its key there. -/
inductive SelectorKey where
  | label (key : String)
  | field (key : String)
  deriving DecidableEq, Repr

namespace SelectorKey

/-- What the key of a label in the metadata begins with. -/
def labelStart : String := "metadata.labels."

/-- The place of a property: a key below the labels and a key with a slash or without a dot is a label, any other a
field. -/
def ofProperty (key : String) : SelectorKey :=
  match labelStart.toList.isPrefixOf? key.toList with
  | some rest => .label (String.ofList rest)
  | none => if '/' ∈ key.toList ∨ '.' ∉ key.toList then .label key else .field key

/-- The names of segments that are all fields. -/
def fieldNames? : List Segment → Option (List String)
  | [] => some []
  | .field name :: rest => (fieldNames? rest).map (name :: ·)
  | _ :: _ => none

/-- The place of a filter in a selector, if it has one: a label, whose key may have been split at its dots, the name or
the namespace. -/
def ofFilter? (path : FieldPath) : Option SelectorKey :=
  match fieldNames? path.segments with
  | some ("metadata" :: "labels" :: first :: rest) => some (.label (".".intercalate (first :: rest)))
  | some ["metadata", "name"] => some (.field "metadata.name")
  | some ["metadata", "namespace"] => some (.field "metadata.namespace")
  | _ => none

end SelectorKey

namespace Search

/-- The search with one more condition. -/
def constrain (search : Search) (key : SelectorKey) (comparison : Comparison) (value : String) :
    Except SelectorError Search :=
  match key with
  | .label key => (search.labels.addLabel key comparison value).map fun labels => { search with labels := labels }
  | .field key => (search.fields.addField key comparison value).map fun fields => { search with fields := fields }

/-- The search with the condition of a property: its name, its namespace, or a label or field. -/
def addProperty (search : Search) (property : Property) : Except SelectorError Search :=
  let value := property.value.selectorText
  if property.key = "name" then search.constrain (.field "metadata.name") .equal value
  else if property.key = "namespace" then .ok { search with inNamespace := some value }
  else search.constrain (.ofProperty property.key) .equal value

/-- The search for the documents of a node: in its own namespace or the context's, and in none for a kind of the whole
cluster. -/
def ofNode (node : Node) (kind : Kind) (context : Context) : Except SelectorError Search := do
  let search ← node.properties.foldlM addProperty everything
  let place := if kind.namespaced then search.inNamespace <|> context.scope? else none
  return { search with inNamespace := place }

end Search

/-- A filter that is checked on the documents found. -/
structure Predicate where
  path : FieldPath
  comparison : Comparison
  value : Literal
  deriving DecidableEq, Repr

/-- A document passes the predicate: some value at the path equals the literal, or none does. -/
def Predicate.accepts (predicate : Predicate) (document : Document) : Bool :=
  predicate.comparison.holds ((predicate.path.resolve document).any predicate.value.agrees)

/-- A node with all that is needed to find its documents. -/
structure Target where
  node : Node
  kind : Kind
  search : Search
  predicates : List Predicate
  deriving DecidableEq, Repr

namespace Target

/-- A document passes every predicate. -/
def accepts (target : Target) (document : Document) : Bool :=
  target.predicates.all (·.accepts document)

/-- The namespace in which an existing document is addressed. -/
def namespaceOf (target : Target) (document : Document) : Option String :=
  if target.kind.namespaced then document.namespace? else none

/-- The target with one more filter, whose path is relative to its documents. -/
def addFilter (target : Target) (filter : Filter) (path : FieldPath) : Except SelectorError Target :=
  match SelectorKey.ofFilter? path with
  | some key =>
    (target.search.constrain key filter.comparison filter.value.selectorText).map fun search =>
      { target with search := search }
  | none => .ok { target with predicates := target.predicates ++ [⟨path, filter.comparison, filter.value⟩] }

/-- Targets with a filter on the first of the given binding. -/
def addFilterTo (binding : String) (filter : Filter) (path : FieldPath) :
    List Target → Except SelectorError (List Target)
  | [] => .ok []
  | target :: rest =>
    if target.node.name = binding then (target.addFilter filter path).map (· :: rest)
    else (addFilterTo binding filter path rest).map (target :: ·)

/-- The targets have one of the given binding. -/
def binds (targets : List Target) (name : String) : Bool :=
  targets.any (·.node.name == name)

/-- Targets with one more filter: its path starts with a binding and goes on from there. -/
def filtered (targets : List Target) (filter : Filter) : Except ExecutionError (List Target) := do
  let path ← (FieldPath.parse filter.path).mapError .fieldPath
  match path.head? with
  | none => .error (.selector (.unknownBinding filter.path))
  | some binding =>
    if !binds targets binding then .error (.selector (.unknownBinding filter.path))
    else if path.tail.isEmpty then .error (.selector .emptyPath)
    else (addFilterTo binding filter path.tail targets).mapError .selector

/-- The targets of nodes with their kinds. -/
def ofNodes (context : Context) (nodes : List (Node × Kind)) : Except ExecutionError (List Target) :=
  nodes.mapM fun (node, kind) =>
    ((Search.ofNode node kind context).map fun search => ⟨node, kind, search, []⟩).mapError .selector

end Target

/-- The filters of a clause; only the search for documents has some. -/
def Clause.filters : Clause → List Filter
  | .find filters _ => filters
  | _ => []

/-- The targets of a query whose nodes have been given their kinds. -/
def Query.targets (query : Query) (context : Context) (kinds : List Kind) : Except ExecutionError (List Target) := do
  let targets ← Target.ofNodes context (query.graph.nodes.zip kinds)
  query.clause.filters.foldlM Target.filtered targets

/-- The projections of a binding: what follows it in each path that starts with it. -/
abbrev Projections := List (String × List FieldPath)

/-- The projections with one more path of a binding. -/
def Projections.add (projections : Projections) (binding : String) (path : FieldPath) : Projections :=
  Keyed.insert binding ((projections.lookup binding).getD [] ++ [path]) projections

/-- The projections of a query by binding; every path starts with the binding of a target. -/
def projectionsOf (targets : List Target) (texts : List String) : Except ExecutionError Projections :=
  texts.foldlM (fun projections text => do
    let path ← (FieldPath.parse text).mapError .fieldPath
    match path.head? with
    | some binding =>
      if Target.binds targets binding then .ok (projections.add binding path.tail)
      else .error (.unknownBinding text)
    | none => .error (.unknownBinding text)) []

/-- The patches that assignments make, one per target. A key that starts with a binding and goes on is for the first
target of that binding, any other key for every target. -/
def patchesOf (targets : List Target) (assignments : List Property) : Except ExecutionError (List Document) :=
  assignments.foldlM (fun patches assignment => do
    let path ← (FieldPath.parse assignment.key).mapError .fieldPath
    let bound := path.head?.bind fun binding => targets.findIdx? (·.node.name == binding)
    let (only, path) : Option Nat × FieldPath :=
      match bound with
      | some position => if 1 < path.segments.length then (some position, path.tail) else (none, path)
      | none => (none, path)
    match path.nest assignment.value.toDocument with
    | none => .error (.invalidMutation (.throughArray assignment.key))
    | some patch =>
      match only with
      | some position => .ok (patches.modify position (·.merge patch))
      | none => .ok (patches.map (·.merge patch))) (targets.map fun _ => Document.empty)

namespace Target

/-- The namespace assumed where a new document names none. -/
def defaultNamespace : String := "default"

/-- The namespace of a new document. -/
def newNamespace (target : Target) : Option String :=
  if target.kind.namespaced then some (target.search.inNamespace.getD defaultNamespace) else none

/-- The name of a new document: that of its properties, or else the binding. -/
def newName (target : Target) : String :=
  ((target.node.property? "name").map Literal.selectorText).getD target.node.name

/-- The properties that are neither the name nor the namespace. -/
def details (target : Target) : List Property :=
  target.node.properties.filter fun property => property.key ≠ "name" && property.key ≠ "namespace"

/-- The labels of a new document. -/
def newLabels (target : Target) : Fields :=
  Keyed.ofList (target.details.filterMap fun property =>
    match SelectorKey.ofProperty property.key with
    | .label key => some (key, .string property.value.selectorText)
    | .field _ => none)

/-- The patches that the fields among the properties make, in order. -/
def newPatches (target : Target) : Except ExecutionError (List Document) :=
  target.details.filterMapM fun property =>
    match SelectorKey.ofProperty property.key with
    | .label _ => .ok none
    | .field key => do
      let path ← (FieldPath.parse key).mapError .fieldPath
      match path.nest property.value.toDocument with
      | some patch => .ok (some patch)
      | none => .error (.invalidMutation (.toArray key))

/-- The metadata of a new document: its name, its namespace and its labels, the last two only if it has some. -/
def newMetadata (target : Target) : Fields :=
  let place := target.newNamespace.toList.map fun name => ("namespace", Document.string name)
  let labels := if target.newLabels.isEmpty then [] else [("labels", Document.object target.newLabels)]
  Keyed.ofList (("name", .string target.newName) :: place ++ labels)

/-- The document that a node to be created describes. -/
def newDocument (target : Target) : Except ExecutionError Document := do
  let patches ← target.newPatches
  let base := Document.ofFields [("apiVersion", .string target.kind.coordinate.apiVersion),
    ("kind", .string target.kind.kind), ("metadata", .object target.newMetadata)]
  return patches.foldl Document.merge base

end Target

end ClusterQuery
