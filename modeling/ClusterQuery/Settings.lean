import ClusterQuery.Relation.RuleText

/-!
# Settings

What a session starts with: how many calls may be in flight at once, the namespace, whether execution is traced, and the
relationship rules. Settings are read from a record in which every member may be left out.
-/

namespace ClusterQuery

/-- What a session starts with. -/
structure Settings where
  poolSize : Nat
  /-- The namespace that queries are confined to; empty for all. -/
  inNamespace : String
  debug : Bool
  rules : List Rule
  deriving DecidableEq, Repr

/-- Why settings are refused. -/
inductive SettingsError where
  /-- The text is no record of settings. -/
  | unreadable
  | emptyPool
  | badRule (cause : FieldPath.PathError)
  deriving DecidableEq, Repr

namespace SettingsError

/-- What is wrong with readable settings. -/
def detail : SettingsError → String
  | .unreadable => "not a record of settings"
  | .emptyPool => "worker_pool_size must be at least 1"
  | .badRule cause => "relationship rule: " ++ cause.message

/-- The wording of a settings error. -/
def message : SettingsError → String
  | .unreadable => "Failed to parse configuration: " ++ detail .unreadable
  | cause => "Invalid configuration: " ++ cause.detail

end SettingsError

namespace Settings

/-- The settings assumed where none are given. -/
def standard : Settings :=
  ⟨1, "default", false, Rule.standard⟩

/-- A call can be made, and the paths of all rules can be read. -/
def validate (settings : Settings) : Except SettingsError Unit :=
  if settings.poolSize = 0 then .error .emptyPool
  else (Rule.validate settings.rules).mapError .badRule

/-- The settings of a record. -/
def ofJson? (room : Nat) (json : Json) : Option Settings := do
  let members ← json.record? ["worker_pool_size", "namespace", "debug", "relationships"] room
  let poolSize ← Json.optional? members "worker_pool_size" standard.poolSize Json.natural?
  let inNamespace ← Json.optional? members "namespace" standard.inNamespace Json.string?
  let debug ← Json.optional? members "debug" standard.debug Json.bool?
  let rules ← Json.optional? members "relationships" standard.rules (Json.list? Rule.ofJson? (room - 1))
  return ⟨poolSize, inNamespace, debug, rules⟩

/-- The valid settings of a tree. -/
def ofTree (json : Json) : Except SettingsError Settings :=
  match ofJson? Json.maxDepth json with
  | none => .error .unreadable
  | some settings => settings.validate.map fun _ => settings

/-- The valid settings of a text. -/
def read (text : String) : Except SettingsError Settings :=
  match Json.read? text with
  | none => .error .unreadable
  | some json => ofTree json

/-- The record of settings. -/
def toDocument (settings : Settings) : Document :=
  .ofFields [("worker_pool_size", .int settings.poolSize), ("namespace", .string settings.inNamespace),
    ("debug", .bool settings.debug), ("relationships", .array (settings.rules.map Rule.toDocument))]

end Settings

end ClusterQuery
