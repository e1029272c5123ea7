import ClusterQuery.Query.Literal

/-!
# Tokens of queries

The words, signs and values that a query text is made of, each with the place where it starts.
-/

namespace ClusterQuery.Query

/-- A token of a query text. -/
inductive Token where
  | matchWord
  | whereWord
  | returnWord
  | createWord
  | setWord
  | deleteWord
  | andWord
  | leftParen
  | rightParen
  | leftBracket
  | rightBracket
  | leftBrace
  | rightBrace
  | colon
  | comma
  | semicolon
  | dash
  | arrow
  | equal
  | notEqual
  /-- The characters of a quoted string, its escapes resolved. -/
  | string (value : String)
  /-- The digits of a number as written. -/
  | integer (digits : String)
  | boolean (value : Bool)
  | identifier (name : String)
  /-- A field path taken up as one token; empty when none stands where one may. -/
  | path (text : String)
  /-- The end of the text. -/
  | finish
  /-- A character that begins no token. -/
  | illegal (c : Char)
  deriving DecidableEq, Repr

/-- How errors name a token. -/
def Token.text : Token → String
  | .matchWord => "MATCH"
  | .whereWord => "WHERE"
  | .returnWord => "RETURN"
  | .createWord => "CREATE"
  | .setWord => "SET"
  | .deleteWord => "DELETE"
  | .andWord => "AND"
  | .leftParen => "'('"
  | .rightParen => "')'"
  | .leftBracket => "'['"
  | .rightBracket => "']'"
  | .leftBrace => "'\x7b'"
  | .rightBrace => "'\x7d'"
  | .colon => "':'"
  | .comma => "','"
  | .semicolon => "';'"
  | .dash => "'-'"
  | .arrow => "'->'"
  | .equal => "'='"
  | .notEqual => "'!='"
  | .string value => "string \"" ++ value ++ "\""
  | .integer digits => "integer " ++ digits
  | .boolean value => "boolean " ++ boolText value
  | .identifier name => "identifier '" ++ name ++ "'"
  | .path text => "path '" ++ text ++ "'"
  | .finish => "end of input"
  | .illegal c => "illegal character '" ++ String.singleton c ++ "'"

/-- A place in a text: bytes before it in UTF-8, its line and its column in characters, both from one. -/
structure Place where
  offset : Nat
  line : Nat
  column : Nat
  deriving DecidableEq, Repr

namespace Place

/-- The start of a text. -/
def start : Place := ⟨0, 1, 1⟩

/-- The place after one more character; only a line feed begins a line. -/
def advance (place : Place) (c : Char) : Place :=
  if c = '\n' then ⟨place.offset + c.utf8Size, place.line + 1, 1⟩
  else ⟨place.offset + c.utf8Size, place.line, place.column + 1⟩

/-- The place after more characters. -/
def advanceBy (place : Place) (cs : List Char) : Place :=
  cs.foldl advance place

/-- How errors name a place. -/
def text (place : Place) : String :=
  "line " ++ toString place.line ++ ", column " ++ toString place.column

end Place

/-- A token and the place where it starts. -/
structure PlacedToken where
  token : Token
  place : Place
  deriving DecidableEq, Repr

end ClusterQuery.Query
