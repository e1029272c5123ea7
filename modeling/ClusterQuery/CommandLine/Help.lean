import ClusterQuery.CommandLine.Arguments

/-!
# Help

The texts that the command line shows about itself.
-/

namespace ClusterQuery.CommandLine

/-- The name of the program. -/
def programName : String := "kubecypher"

/-- The version of the program. -/
def programVersion : String := "0.0.1"

/-- What the program is for. -/
def programSummary : String := "Graph-pattern queries over Kubernetes resources"

/-- The line about the option that shows the log. -/
def verboseLine : String := "  -v, --verbose                Enable debug logging"

/-- The line about the option that chooses how much of the log is shown. -/
def logLevelLine : String := "      --log-level <LOG_LEVEL>  Log level (error, warn, info, debug, trace)"

/-- The line about the option that asks for help. -/
def helpLine : String := "  -h, --help                   Print help"

/-- The lines of help about a topic. -/
def helpLines : Topic → List String
  | .program =>
    [programSummary, "", "Usage: " ++ programName ++ " [OPTIONS] <COMMAND>", "", "Commands:",
      "  query    Run one query against a cluster snapshot",
      "  kinds    List the resource kinds a snapshot's discovery data knows",
      "  version  Show version information",
      "  help     Print this message or the help of the given subcommand(s)", "", "Options:",
      verboseLine, logLevelLine, helpLine, "  -V, --version                Print version"]
  | .command .query =>
    ["Run one query against a cluster snapshot", "",
      "Usage: " ++ programName ++ " query [OPTIONS] --snapshot <SNAPSHOT> <QUERY>", "", "Arguments:",
      "  <QUERY>  Query text, e.g. 'MATCH (d:Deployment) RETURN d.metadata.name'", "", "Options:",
      "  -s, --snapshot <SNAPSHOT>    Cluster snapshot file (JSON)",
      "  -n, --namespace <NAMESPACE>  Namespace scope",
      "  -A, --all-namespaces         Query across all namespaces",
      "  -f, --format <FORMAT>        Output format [default: table] [possible values: table, json]",
      verboseLine,
      "      --graph                  Print the result graph in Graphviz dot format",
      logLevelLine,
      "  -c, --config <CONFIG>        Executor configuration file (JSON)",
      "      --debug                  Log execution details at info level",
      helpLine]
  | .command .kinds =>
    ["List the resource kinds a snapshot's discovery data knows", "",
      "Usage: " ++ programName ++ " kinds [OPTIONS] --snapshot <SNAPSHOT>", "", "Options:",
      "  -s, --snapshot <SNAPSHOT>    Cluster snapshot file (JSON)", verboseLine, logLevelLine, helpLine]
  | .command .version =>
    ["Show version information", "", "Usage: " ++ programName ++ " version [OPTIONS]", "", "Options:",
      verboseLine, logLevelLine, helpLine]
  | .help =>
    ["Print this message or the help of the given subcommand(s)", "",
      "Usage: " ++ programName ++ " help [COMMAND]...", "", "Arguments:",
      "  [COMMAND]...  Print help for the subcommand(s)"]

/-- The help about a topic. -/
def helpText (topic : Topic) : String :=
  String.join ((helpLines topic).map (· ++ "\n"))

/-- The line that names the version. -/
def versionLine : String :=
  programName ++ " " ++ programVersion ++ "\n"

end ClusterQuery.CommandLine
