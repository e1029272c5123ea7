import ClusterQuery.Document.Basic
import ClusterQuery.Text.Quoted

/-!
# Writing documents

The compact form without spaces, and the indented form with two spaces per level, one item or field per line and a blank
after the colon. Fields are written in the order in which the object holds them.
-/

namespace ClusterQuery.Document

mutual

/-- The text on one line, without spaces. -/
def compact : Document → String
  | .null => "null"
  | .bool true => "true"
  | .bool false => "false"
  | .number value => value.text
  | .string value => Text.quote value
  | .array items => "[" ++ compactItems items ++ "]"
  | .object fields => "\x7b" ++ compactFields fields ++ "\x7d"

/-- The items, separated by commas. -/
def compactItems : List Document → String
  | [] => ""
  | [item] => item.compact
  | item :: rest => item.compact ++ "," ++ compactItems rest

/-- The fields, separated by commas. -/
def compactFields : Fields → String
  | [] => ""
  | [(key, value)] => Text.quote key ++ ":" ++ value.compact
  | (key, value) :: rest => Text.quote key ++ ":" ++ value.compact ++ "," ++ compactFields rest

end

/-- Two spaces per level. -/
def indent (level : Nat) : String :=
  String.ofList (List.replicate (2 * level) ' ')

mutual

/-- The indented text of a value whose first line starts at a level. -/
def prettyAt (level : Nat) : Document → String
  | .null => "null"
  | .bool true => "true"
  | .bool false => "false"
  | .number value => value.text
  | .string value => Text.quote value
  | .array [] => "[]"
  | .array items => "[\n" ++ prettyItems (level + 1) items ++ "\n" ++ indent level ++ "]"
  | .object [] => "\x7b\x7d"
  | .object fields => "\x7b\n" ++ prettyFields (level + 1) fields ++ "\n" ++ indent level ++ "\x7d"

/-- The items, one to a line. -/
def prettyItems (level : Nat) : List Document → String
  | [] => ""
  | [item] => indent level ++ item.prettyAt level
  | item :: rest => indent level ++ item.prettyAt level ++ ",\n" ++ prettyItems level rest

/-- The fields, one to a line. -/
def prettyFields (level : Nat) : Fields → String
  | [] => ""
  | [(key, value)] => indent level ++ Text.quote key ++ ": " ++ value.prettyAt level
  | (key, value) :: rest =>
    indent level ++ Text.quote key ++ ": " ++ value.prettyAt level ++ ",\n" ++ prettyFields level rest

end

/-- The indented text. -/
def pretty (document : Document) : String :=
  document.prettyAt 0

/-- The text in which selectors and rules compare a value: a string bare, null as nothing, all else in compact form. -/
def scalarText : Document → String
  | .string value => value
  | .null => ""
  | .bool value => compact (.bool value)
  | .number value => compact (.number value)
  | .array items => compact (.array items)
  | .object fields => compact (.object fields)

end ClusterQuery.Document
