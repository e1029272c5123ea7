import ClusterQuery.Execution.Run
import ClusterQuery.Settings
import ClusterQuery.Text.Blank

/-!
# Sessions

A session runs query texts one after another on one engine, under a context that can be changed between them.
-/

namespace ClusterQuery

/-- An engine, the rules, and the context of the next query. -/
structure Session where
  engine : Engine
  context : Context
  poolSize : Nat
  rules : List Rule

namespace Session

/-- A namespace as the context holds it: without blanks around it and in lower case; `all` and nothing mean all. -/
def normalizeNamespace (text : String) : String :=
  let trimmed := String.ofList (Text.trim text.toList)
  if trimmed = "" ∨ Text.sameIgnoringCase trimmed "all" then "" else Text.lower trimmed

/-- The session over a store that valid settings start. -/
def start (store : Store) (settings : Settings) : Except SettingsError Session :=
  settings.validate.map fun _ =>
    ⟨Engine.ofStore store, ⟨normalizeNamespace settings.inNamespace, settings.debug⟩, settings.poolSize, settings.rules⟩

/-- Runs a query under the context. -/
def execute (session : Session) (query : Query) : Except ExecutionError Result × Session :=
  let (answer, engine) := Run.execute session.rules session.context query session.engine
  (answer, { session with engine := engine })

/-- Reads and runs a query text. -/
def process (session : Session) (text : String) : Except ExecutionError Result × Session :=
  match Query.parse text with
  | .error cause => (.error (.parse cause), session)
  | .ok query => session.execute query

/-- Changes the namespace. -/
def setNamespace (session : Session) (text : String) : Session :=
  let name := normalizeNamespace text
  { session with
    engine := session.engine.note ("namespace set to " ++ if name = "" then "all" else name)
    context := { session.context with inNamespace := name } }

/-- Turns tracing on or off. -/
def setDebug (session : Session) (debug : Bool) : Session :=
  { session with context := { session.context with debug := debug } }

/-- Fills the cache of kinds. -/
def warm (session : Session) : Except CatalogError Nat × Session :=
  let (answer, engine) := session.engine.warm
  (answer, { session with engine := engine })

/-- Empties the cache of kinds. -/
def clearCache (session : Session) : Session :=
  { session with engine := session.engine.clearCache }

/-- The kind of an identifier. -/
def resolve (session : Session) (identifier : String) : Except CatalogError Kind × Session :=
  let (answer, engine) := session.engine.resolve identifier
  (answer, { session with engine := engine })

end Session

end ClusterQuery
