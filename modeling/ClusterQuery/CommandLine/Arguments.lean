import ClusterQuery.Report.Format
import ClusterQuery.Text.LowerCase

/-!
# Arguments

The grammar of the command line: a command with options of its own, and options that stand before or after the command.
An option has a long name and often a letter; its value follows as the next argument, after an equals sign, or right
after the letter. Letters without values can be joined. After two dashes every argument is positional.
-/

namespace ClusterQuery.CommandLine

/-- The commands. -/
inductive Command where
  | query
  | kinds
  | version
  deriving DecidableEq, Repr

/-- The options. -/
inductive Flag where
  | snapshot
  | inNamespace
  | allNamespaces
  | format
  | graph
  | settings
  | debug
  | verbose
  | logLevel
  | help
  | version
  deriving DecidableEq, Repr

namespace Flag

/-- The long name. -/
def name : Flag → String
  | .snapshot => "snapshot"
  | .inNamespace => "namespace"
  | .allNamespaces => "all-namespaces"
  | .format => "format"
  | .graph => "graph"
  | .settings => "config"
  | .debug => "debug"
  | .verbose => "verbose"
  | .logLevel => "log-level"
  | .help => "help"
  | .version => "version"

/-- The letter, if there is one. -/
def letter? : Flag → Option Char
  | .snapshot => some 's'
  | .inNamespace => some 'n'
  | .allNamespaces => some 'A'
  | .format => some 'f'
  | .settings => some 'c'
  | .verbose => some 'v'
  | .help => some 'h'
  | .version => some 'V'
  | _ => none

/-- The option takes a value. -/
def takesValue : Flag → Bool
  | .snapshot => true
  | .inNamespace => true
  | .format => true
  | .settings => true
  | .logLevel => true
  | _ => false

/-- The value may stand: a format and a level by name, a file by any name but the empty one. -/
def accepts (flag : Flag) (value : String) : Bool :=
  match flag with
  | .snapshot => value != ""
  | .settings => value != ""
  | .format => value == "table" || value == "json"
  | .logLevel => ["error", "warn", "info", "debug", "trace"].any (Text.sameIgnoringCase · value)
  | _ => true

/-- The options that stand before a command, or after the one given. -/
def allowed : Option Command → List Flag
  | none => [.verbose, .logLevel, .help, .version]
  | some .query =>
    [.snapshot, .inNamespace, .allNamespaces, .format, .graph, .settings, .debug, .verbose, .logLevel, .help]
  | some .kinds => [.snapshot, .verbose, .logLevel, .help]
  | some .version => [.verbose, .logLevel, .help]

end Flag

/-- The options and positional arguments read so far. -/
structure Given where
  flags : List (Flag × String)
  positional : List String
  deriving DecidableEq, Repr

namespace Given

/-- Nothing has been given. -/
def nothing : Given := ⟨[], []⟩

/-- The option was given. -/
def has (given : Given) (flag : Flag) : Bool :=
  given.flags.any (·.1 == flag)

/-- The value of an option. -/
def value? (given : Given) (flag : Flag) : Option String :=
  given.flags.lookup flag

end Given

/-- What help can be about. -/
inductive Topic where
  | program
  | command (which : Command)
  /-- The help itself. -/
  | help
  deriving DecidableEq, Repr

/-- The topic of a place before any command or after one. -/
def Topic.ofCommand : Option Command → Topic
  | none => .program
  | some which => .command which

/-- Why reading the arguments ends early: they are wrong, or help or the version is asked for. -/
inductive Stop where
  | usage
  | help (topic : Topic)
  | version
  deriving DecidableEq, Repr

/-- What one argument gives: more options, and perhaps an option whose value is the next argument. -/
abbrev Step := Except Stop (Given × Option Flag)

/-- An option with its value is given, once. -/
def giveValue (given : Given) (flag : Flag) (value : String) : Except Stop Given :=
  if given.has flag || !flag.accepts value then .error .usage
  else .ok { given with flags := given.flags ++ [(flag, value)] }

/-- An option without a value is given, once. -/
def giveFlag (command : Option Command) (given : Given) (flag : Flag) : Except Stop Given :=
  match flag with
  | .help => .error (.help (.ofCommand command))
  | .version => .error .version
  | _ => if given.has flag then .error .usage else .ok { given with flags := given.flags ++ [(flag, "")] }

/-- An argument after two dashes: a long name, with a value after an equals sign or without. -/
def readLong (command : Option Command) (given : Given) (text : List Char) : Step :=
  let (name, rest) := text.span (· ≠ '=')
  match (Flag.allowed command).find? (·.name == String.ofList name), rest with
  | none, _ => .error .usage
  | some flag, [] =>
    if flag.takesValue then .ok (given, some flag) else (giveFlag command given flag).map fun given => (given, none)
  | some flag, _ :: value =>
    if flag.takesValue then (giveValue given flag (String.ofList value)).map fun given => (given, none)
    else .error .usage

/-- An argument after one dash: letters, of which one with a value takes the rest. -/
def readLetters (command : Option Command) (given : Given) : List Char → Step
  | [] => .ok (given, none)
  | letter :: rest =>
    match (Flag.allowed command).find? (·.letter? == some letter) with
    | none => .error .usage
    | some flag =>
      if flag.takesValue then
        match rest with
        | [] => .ok (given, some flag)
        | '=' :: value => (giveValue given flag (String.ofList value)).map fun given => (given, none)
        | value => (giveValue given flag (String.ofList value)).map fun given => (given, none)
      else
        match giveFlag command given flag with
        | .error stop => .error stop
        | .ok given => readLetters command given rest

/-- A positional argument, of which a command takes a number. -/
def givePositional (limit : Nat) (given : Given) (text : String) : Except Stop Given :=
  if given.positional.length < limit then .ok { given with positional := given.positional ++ [text] }
  else .error .usage

/-- How many positional arguments a command takes. -/
def positionalLimit : Command → Nat
  | .query => 1
  | .kinds => 0
  | .version => 0

/-- The arguments after a command. `awaiting` is an option whose value has not come, `plain` is set after two dashes. -/
def readArguments (command : Command) (plain : Bool) (given : Given) (awaiting : Option Flag) :
    List String → Except Stop Given
  | [] => if awaiting.isSome then .error .usage else .ok given
  | argument :: rest =>
    if plain then do
      readArguments command plain (← givePositional (positionalLimit command) given argument) none rest
    else
      match argument.toList, awaiting with
      | '-' :: _ :: _, some _ => .error .usage
      | ['-', '-'], none => readArguments command true given none rest
      | '-' :: '-' :: text, none => do
        let (given, awaiting) ← readLong (some command) given text
        readArguments command plain given awaiting rest
      | '-' :: letter :: text, none => do
        let (given, awaiting) ← readLetters (some command) given (letter :: text)
        readArguments command plain given awaiting rest
      | _, some flag => do
        readArguments command plain (← giveValue given flag argument) none rest
      | _, none => do
        readArguments command plain (← givePositional (positionalLimit command) given argument) none rest

/-- The command of a name. -/
def command? (name : String) : Option Command :=
  match name with
  | "query" => some .query
  | "kinds" => some .kinds
  | "version" => some .version
  | _ => none

/-- What the command line asks for: a command, the options before it and what was given after it. -/
structure Request where
  command : Command
  before : Given
  given : Given
  deriving DecidableEq, Repr

/-- The required arguments are there, and no two that exclude each other. -/
def complete (command : Command) (given : Given) : Bool :=
  match command with
  | .query =>
    given.has .snapshot && given.positional.length == 1 && !(given.has .inNamespace && given.has .allNamespaces)
  | .kinds => given.has .snapshot
  | .version => true

/-- The topic that names after the word `help` choose. -/
def topic? : List String → Option Topic
  | [] => some .program
  | ["help"] => some .help
  | [name] => (command? name).map .command
  | _ => none

/-- The last option before the command: nothing, an option that waits for its value, or one whose value has come. A
value that came as an argument of its own is looked at when the next option comes or when the command has been
read. -/
inductive Held where
  | nothing
  | awaiting (flag : Flag)
  | value (flag : Flag) (text : String)
  deriving DecidableEq, Repr

/-- The options before the command with the last one. -/
def Held.settle (held : Held) (before : Given) : Except Stop Given :=
  match held with
  | .nothing => .ok before
  | .awaiting _ => .error .usage
  | .value flag text => giveValue before flag text

/-- What a name in the place of a command and the arguments after it ask for. -/
def readCommand (before : Given) (held : Held) (name : String) (rest : List String) : Except Stop Request :=
  match command? name with
  | some command => do
    let given ← readArguments command false Given.nothing none rest
    if complete command given then
      let before ← held.settle before
      .ok ⟨command, before, given⟩
    else .error .usage
  | none =>
    match if name = "help" then topic? rest else none with
    | some topic => .error (.help topic)
    | none => .error .usage

/-- What the arguments ask for, from the options before the command on. -/
def readFrom (before : Given) (held : Held) : List String → Except Stop Request
  | [] => .error .usage
  | argument :: rest =>
    match argument.toList, held with
    | '-' :: _ :: _, .awaiting _ => .error .usage
    | _, .awaiting flag => readFrom before (.value flag argument) rest
    | ['-', '-'], _ => .error .usage
    | '-' :: '-' :: text, held => do
      let (before, awaiting) ← readLong none (← held.settle before) text
      readFrom before ((awaiting.map .awaiting).getD .nothing) rest
    | '-' :: letter :: text, held => do
      let (before, awaiting) ← readLetters none (← held.settle before) (letter :: text)
      readFrom before ((awaiting.map .awaiting).getD .nothing) rest
    | _, held => readCommand before held argument rest

/-- What the command line asks for. -/
def read (arguments : List String) : Except Stop Request :=
  readFrom Given.nothing .nothing arguments

namespace Request

/-- The lines logged while running are shown. -/
def showsLog (request : Request) : Bool :=
  let level := (request.given.value? .logLevel) <|> (request.before.value? .logLevel)
  request.before.has .verbose || request.given.has .verbose || request.given.has .debug ||
    level.any fun level => ["info", "debug", "trace"].any (Text.sameIgnoringCase · level)

/-- The namespace that the arguments name: the option for all wins. -/
def namespace? (request : Request) : Option String :=
  if request.given.has .allNamespaces then some "all" else request.given.value? .inNamespace

/-- The format that the arguments name, or else tables. -/
def format (request : Request) : Format :=
  if request.given.value? .format = some "json" then .json else .table

end Request

end ClusterQuery.CommandLine
