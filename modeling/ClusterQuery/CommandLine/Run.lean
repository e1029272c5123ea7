import ClusterQuery.CommandLine.Help
import ClusterQuery.Graph.Drawing
import ClusterQuery.Session
import ClusterQuery.Store.Snapshot
import ClusterQuery.Text.Shown

/-!
# Running the command line

What a command writes and the code it ends with, as a function of its arguments and of the files they name.
-/

namespace ClusterQuery.CommandLine

/-- What there is under the name of a file. -/
inductive FileAnswer where
  | missing
  /-- Something that cannot be read as text. -/
  | unreadable
  | text (content : String)
  deriving DecidableEq, Repr

/-- What a command writes to its two outputs, and its exit code. -/
structure Outcome where
  code : Nat
  out : String
  err : String
  deriving DecidableEq, Repr

namespace Outcome

/-- The command has done what it was asked for. -/
def success (out : String) : Outcome := ⟨0, out, ""⟩

/-- The command has failed. -/
def failure (detail : String) : Outcome := ⟨1, "", "Error: " ++ detail ++ "\n"⟩

/-- The arguments are wrong. -/
def usage : Outcome :=
  ⟨2, "", "error: unexpected arguments\n\n" ++ "For more information, try '--help'.\n"⟩

/-- The outcome with lines of the log before what it writes about errors. -/
def withLog (outcome : Outcome) (log : List String) : Outcome :=
  { outcome with err := String.join (log.map fun line => "INFO " ++ line ++ "\n") ++ outcome.err }

end Outcome

/-- The detail about a file that is not there. -/
def notFoundDetail : String :=
  "Io(Os \x7b code: 2, kind: NotFound, message: \"No such file or directory\" \x7d)"

/-- The detail about a file that is no text. -/
def unreadableDetail : String :=
  "Io(Error \x7b kind: InvalidData, message: \"stream did not contain valid UTF-8\" \x7d)"

/-- The detail about a text that cannot be read as a record. -/
def parseDetail : String := "Parse(Error(\"invalid record\"))"

/-- The settings in a file, or the standard ones where none is named. -/
def readSettings (files : String → FileAnswer) : Option String → Except String Settings
  | none => .ok Settings.standard
  | some path =>
    match files path with
    | .missing => .error notFoundDetail
    | .unreadable => .error unreadableDetail
    | .text content =>
      match Settings.read content with
      | .ok settings => .ok settings
      | .error .unreadable => .error parseDetail
      | .error cause => .error ("Invalid(" ++ Text.shown cause.detail ++ ")")

/-- The session over the snapshot in a file. -/
def openSession (files : String → FileAnswer) (path : String) (settings : Settings) : Except String Session :=
  match files path with
  | .missing => .error (Text.shown ("Snapshot not found at " ++ Text.shown path))
  | .unreadable => .error unreadableDetail
  | .text content =>
    match Store.read? content with
    | none => .error parseDetail
    | some store => (Session.start store settings).mapError fun cause => "Invalid(" ++ Text.shown cause.detail ++ ")"

/-- Runs one query on a session and shows its result. -/
def runQuery (request : Request) (text : String) (session : Session) : Outcome :=
  let placed :=
    match request.namespace? with
    | some name => session.setNamespace name
    | none => session
  let traced := if request.given.has .debug then placed.setDebug true else placed
  let (answer, after) := traced.process text
  let outcome :=
    match answer with
    | .error cause => Outcome.failure cause.message
    | .ok result =>
      Outcome.success (result.format request.format ++ "\n" ++
        if request.given.has .graph then result.graph.drawing ++ "\n" else "")
  if request.showsLog then outcome.withLog after.engine.log else outcome

/-- How an error of the catalog is shown when a command ends with it. -/
def catalogDetail : CatalogError → String
  | .kindNotFound identifier => "KindNotFound(" ++ Text.shown identifier ++ ")"
  | .invalidGroupVersion text => "InvalidGroupVersion(" ++ Text.shown text ++ ")"
  | .discovery cause => "Discovery(" ++ Text.shown cause.message ++ ")"

/-- Lists the kinds of a session. -/
def runKinds (request : Request) (session : Session) : Outcome :=
  let (answer, after) := session.warm
  let outcome :=
    match answer with
    | .error cause => Outcome.failure (catalogDetail cause)
    | .ok _ => Outcome.success (kindsText after.engine.cache.entries ++ "\n")
  if request.showsLog then outcome.withLog after.engine.log else outcome

/-- Does what a request asks for. `seed` is the number of the first id that new objects get. -/
def runRequest (files : String → FileAnswer) (seed : Nat) (request : Request) : Outcome :=
  let start (settings : Settings) (act : Session → Outcome) : Outcome :=
    match openSession files ((request.given.value? .snapshot).getD "") settings with
    | .error detail => .failure detail
    | .ok session =>
      let engine := session.engine
      let store := { engine.gateway.store with nextUid := seed }
      act { session with engine := { engine with gateway := { engine.gateway with store := store } } }
  match request.command with
  | .version => .success (versionLine ++ programSummary ++ "\n")
  | .kinds => start Settings.standard (runKinds request)
  | .query =>
    match readSettings files (request.given.value? .settings) with
    | .error detail => .failure detail
    | .ok settings => start settings (runQuery request (request.given.positional.headD ""))

/-- Does what the arguments ask for. -/
def run (files : String → FileAnswer) (seed : Nat) (arguments : List String) : Outcome :=
  match read arguments with
  | .error .usage => .usage
  | .error (.help topic) => .success (helpText topic)
  | .error .version => .success versionLine
  | .ok request => runRequest files seed request

end ClusterQuery.CommandLine
