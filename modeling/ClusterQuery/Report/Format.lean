import ClusterQuery.Execution.Result
import ClusterQuery.Catalog.Kind
import ClusterQuery.Report.Table

/-!
# Reports

How results and cached kinds are shown: as tables, one for each binding, or as indented text of an object.
-/

namespace ClusterQuery

/-- The formats of a result. -/
inductive Format where
  | table
  | json
  deriving DecidableEq, Repr

namespace Document

/-- A string of the metadata, or a dash. -/
def metadataText (document : Document) (key : String) : String :=
  (document.stringAt? ["metadata", key]).getD "-"

/-- The document in a cell: a string bare, all else in compact form. -/
def cellText : Document → String
  | .string value => value
  | .null => "NULL"
  | document => document.compact

end Document

namespace Result

/-- The table of the documents under a binding. -/
def bindingTable (documents : List Document) : Table :=
  ⟨["Namespace", "Name", "Document"],
    documents.map fun document =>
      [document.metadataText "namespace", document.metadataText "name", document.cellText]⟩

/-- The part of the report about one binding. -/
def bindingText (name : String) (documents : List Document) : String :=
  "\n" ++ name ++ " (" ++ toString documents.length ++ ")\n" ++
    (if documents.isEmpty then "  no matches" else (bindingTable documents).text) ++ "\n"

/-- The result as tables. -/
def tableText (result : Result) : String :=
  if result.isEmpty then "No results found\n"
  else
    "Query Results\nExecution time: " ++ toString result.elapsedMs ++ " ms\nDocuments: " ++
      toString result.documentCount ++ "\n" ++
      String.join (result.bindings.map fun (name, documents) => bindingText name documents)

/-- The result as the text of an object. -/
def jsonText (result : Result) : String :=
  (Document.ofFields [("status", .string "success"), ("bindings", result.bindingsDocument),
    ("documents", .int result.documentCount), ("execution_time_ms", .int result.elapsedMs)]).pretty

/-- The result in a format. -/
def format (result : Result) : Format → String
  | .table => result.tableText
  | .json => result.jsonText

end Result

/-- The table of kinds by identifier. -/
def kindsText (entries : List (String × Kind)) : String :=
  Table.text
    ⟨["Identifier", "Kind", "API Version", "Resource", "Namespaced"],
      entries.map fun (identifier, kind) =>
        [identifier, kind.kind, kind.coordinate.apiVersion, kind.coordinate.resource,
          if kind.namespaced then "true" else "false"]⟩

end ClusterQuery
