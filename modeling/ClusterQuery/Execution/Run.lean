import ClusterQuery.Execution.Engine
import ClusterQuery.Execution.Plan
import ClusterQuery.Execution.Result
import ClusterQuery.Query.Printer
import ClusterQuery.Relation.Narrowing

/-!
# Running queries

A query runs in stages: every node gets its kind, conditions become searches and predicates, the documents of every node
are listed and narrowed along the edges, and then they are returned or changed. The first error ends the run; changes
already made stay.
-/

namespace ClusterQuery

/-- A step of a run: an answer or an error, and the engine after it. -/
abbrev Run (α : Type) := ExceptT ExecutionError (StateM Engine) α

namespace Run

/-- A step that gives an answer or an error and leaves the engine as it is. -/
def ofExcept {α : Type} (answer : Except ExecutionError α) : Run α :=
  fun engine => (answer, engine)

/-- A line in the log of a traced run. -/
def trace (context : Context) (line : String) : Run Unit :=
  fun engine => (.ok (), if context.debug then engine.note line else engine)

/-- The kind of a node. -/
def resolveNode (node : Node) : Run Kind :=
  fun engine =>
    match engine.resolve node.kind with
    | (.ok kind, after) => (.ok kind, after)
    | (.error cause, after) => (.error (.resolution node.kind cause), after)

/-- A call to the store about a target. -/
def call {α : Type} (target : Target) (request : Gateway → Gateway.Answer α) : Run α :=
  fun engine =>
    match request engine.gateway with
    | (.ok answer, gateway) => (.ok answer, { engine with gateway := gateway })
    | (.error cause, gateway) =>
      (.error (.store target.node.name target.kind.kind cause), { engine with gateway := gateway })

/-- The targets of a query. -/
def plan (query : Query) (context : Context) : Run (List Target) := do
  let kinds ← query.graph.nodes.mapM resolveNode
  ofExcept (query.targets context kinds)

/-- The line that traces a target. -/
def targetLine (target : Target) : String :=
  target.node.name ++ " -> " ++ target.kind.coordinate.text ++ " (namespace: " ++ target.search.inNamespace.getD "*" ++
    ", fields: '" ++ target.search.fields.text ++ "', labels: '" ++ target.search.labels.text ++ "', predicates: " ++
    toString target.predicates.length ++ ")"

/-- The position of the first target of a node id. -/
def targetPosition? (targets : List Target) (id : String) : Option Nat :=
  targets.findIdx? (·.node.id == id)

/-- The kind of the target at a position. -/
def kindAt (targets : List Target) (position : Nat) : String :=
  ((targets[position]?).map (·.kind.kind)).getD ""

/-- The link of an edge by the first rule that joins the kinds at its ends; an edge without targets at both ends has
none. -/
def linkOf? (rules : List Rule) (targets : List Target) (edge : Edge) : Except ExecutionError (Option Link) :=
  match targetPosition? targets edge.source, targetPosition? targets edge.target with
  | some source, some target =>
    match Rule.find? rules (kindAt targets source) (kindAt targets target) with
    | some (_, rule, sourceIsParent) => .ok (some (Link.ofRule source target rule sourceIsParent))
    | none => .error (.noRelationship (kindAt targets source) (kindAt targets target))
  | _, _ => .ok none

/-- The links of the edges, in order. -/
def linksOf (rules : List Rule) (graph : Graph) (targets : List Target) : Except ExecutionError (List Link) :=
  graph.edges.filterMapM (linkOf? rules targets)

/-- What the store answers to the searches of all targets, one call for each whether or not others fail. The calls may
run side by side; this fixes the schedule in which they are made and answered in the order of the targets. -/
def searchAll : List Target → Engine → List (Except StoreError (List Document)) × Engine
  | [], engine => ([], engine)
  | target :: rest, engine =>
    let (answer, gateway) := engine.gateway.list target.kind.coordinate target.search
    let (answers, after) := searchAll rest { engine with gateway := gateway }
    (answer :: answers, after)

/-- The documents of an answer that pass the predicates of its target. -/
def keep (context : Context) (target : Target) (answer : Except StoreError (List Document)) : Run (List Document) := do
  match answer with
  | .error cause => throw (.store target.node.name target.kind.kind cause)
  | .ok documents =>
    let kept := documents.filter target.accepts
    trace context (target.node.name ++ ": fetched " ++ toString documents.length ++ ", kept " ++ toString kept.length ++
      " after filters")
    return kept

/-- The documents that every target finds. -/
def fetch (context : Context) (targets : List Target) : Run Link.Family := do
  let answers ← fun engine => let (answers, after) := searchAll targets engine; (.ok answers, after)
  (targets.zip answers).mapM fun (target, answer) => keep context target answer

/-- The documents of every target that take part in the pattern. -/
def matched (rules : List Rule) (context : Context) (graph : Graph) (targets : List Target) : Run Link.Family := do
  let links ← ofExcept (linksOf rules graph targets)
  let fetched ← fetch context targets
  match Link.narrowAll links fetched with
  | some family => return family
  | none => throw .endless

/-- The pattern with the edges whose ends both kept documents; of two targets of one id the later counts. -/
def resultGraph (graph : Graph) (targets : List Target) (family : Link.Family) : Graph :=
  let found := (targets.zip family).reverse
  graph.restrict fun node => (found.find? (·.1.node.id == node.id)).any fun pair => !pair.2.isEmpty

/-- The bindings of targets with their documents. -/
def bindingsOf (pairs : List (Target × List Document)) : Bindings :=
  Keyed.ofList (pairs.map fun (target, documents) => (target.node.name, documents))

/-- Returns the documents that take part, cut down to the projections: without any, whole under every binding; else
under the projected bindings only. -/
def find (rules : List Rule) (context : Context) (graph : Graph) (targets : List Target) (texts : List String) :
    Run Result := do
  let projections ← ofExcept (projectionsOf targets texts)
  let family ← matched rules context graph targets
  let shown := (targets.zip family).filterMap fun (target, documents) =>
    if texts.isEmpty then some (target, documents)
    else (projections.lookup target.node.name).map fun paths => (target, documents.map (·.project paths))
  return ⟨bindingsOf shown, resultGraph graph targets family, 0⟩

/-- Stores the document of every target, in order. -/
def create (graph : Graph) (targets : List Target) : Run Result := do
  if !graph.edges.isEmpty then throw (.invalidMutation .relationships)
  let bindings ← targets.foldlM (fun (bindings : Bindings) target => do
    let document ← ofExcept target.newDocument
    let stored ← call target fun gateway => gateway.create target.kind.coordinate target.newNamespace document
    return Keyed.insert target.node.name ((bindings.lookup target.node.name).getD [] ++ [stored]) bindings) []
  return ⟨bindings, graph, 0⟩

/-- Changes one document by a patch and answers it as stored; an empty patch changes nothing. -/
def update (target : Target) (patch document : Document) : Run Document :=
  match patch with
  | .object (_ :: _) =>
    let changed := document.merge patch
    call target fun gateway => gateway.update target.kind.coordinate (target.namespaceOf changed) changed
  | _ => return document

/-- Changes the documents that take part by the assignments. -/
def assign (rules : List Rule) (context : Context) (graph : Graph) (targets : List Target)
    (assignments : List Property) : Run Result := do
  let patches ← ofExcept (patchesOf targets assignments)
  let family ← matched rules context graph targets
  let updated ← ((targets.zip family).zip patches).mapM fun ((target, documents), patch) => do
    return (target, ← documents.mapM (update target patch))
  return ⟨bindingsOf updated, resultGraph graph targets family, 0⟩

/-- Removes one document. -/
def remove (context : Context) (target : Target) (document : Document) : Run Unit := do
  match document.name? with
  | none => throw (.invalidMutation (.nameless target.kind.kind))
  | some name =>
    call target fun gateway => gateway.delete target.kind.coordinate (target.namespaceOf document) name
    trace context ("deleted " ++ target.kind.kind ++ " " ++ name)

/-- Removes the documents that take part. -/
def delete (rules : List Rule) (context : Context) (graph : Graph) (targets : List Target) : Run Result := do
  let family ← matched rules context graph targets
  (targets.zip family).forM fun (target, documents) => documents.forM (remove context target)
  return ⟨bindingsOf (targets.zip family), resultGraph graph targets family, 0⟩

/-- Does what the clause says with the targets. -/
def act (rules : List Rule) (context : Context) (query : Query) (targets : List Target) : Run Result :=
  match query.clause with
  | .find _ projections => find rules context query.graph targets projections
  | .create => create query.graph targets
  | .assign assignments => assign rules context query.graph targets assignments
  | .delete => delete rules context query.graph targets

/-- Runs a query. -/
def execute (rules : List Rule) (context : Context) (query : Query) : Run Result := do
  trace context ("executing " ++ query.text)
  let targets ← plan query context
  targets.forM fun target => trace context (targetLine target)
  let result ← act rules context query targets
  trace context (query.clause.keyword ++ " finished with " ++ toString result.documentCount ++ " documents")
  return result

end Run

end ClusterQuery
