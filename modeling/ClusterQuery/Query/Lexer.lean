import ClusterQuery.Query.Token
import ClusterQuery.Text.Blank
import ClusterQuery.Text.LowerCase

/-!
# Reading tokens

The reader hands out one token at a time. Where a field path may come it takes up the longest run of path characters as
one token, possibly empty: after `RETURN`, after `WHERE`, after an opening brace, after a comma outside the pattern and
after `AND` in the filters. Elsewhere words, numbers, strings and signs are tokens of their own. The reader never fails;
a character that begins no token is an illegal token.
-/

namespace ClusterQuery.Query

/-- Why the next token is a field path, if it is. -/
inductive Capture where
  | none
  | afterReturn
  | afterWhere
  | afterBrace
  | afterSeparator
  deriving DecidableEq, Repr

/-- The part of the query in which the reader stands. -/
inductive Zone where
  | pattern
  | block
  | projection
  | filter
  deriving DecidableEq, Repr

/-- The reader of tokens: the text still to read and where it starts, what comes next, and the last token. -/
structure Lexer where
  rest : List Char
  place : Place
  capture : Capture
  zone : Zone
  last : Option Token
  deriving DecidableEq, Repr

/-- A character of field paths. -/
def isPathChar (c : Char) : Bool :=
  c.isAlphanum || c = '.' || c = '[' || c = ']' || c = '_' || c = '"' || c = '*' || c = '$' || c = '#' || c = '-' ||
    c = '/'

/-- A character that may follow an empty field path. -/
def endsEmptyPath (c : Char) : Bool :=
  c = '(' || c = ')' || c = '{' || c = '}' || c = ':' || c = ',' || c = ';' || c = '=' || c = '!'

/-- A character that begins a word. -/
def isWordStart (c : Char) : Bool :=
  c.isAlpha || c = '_'

/-- A character that continues a word. -/
def isWordChar (c : Char) : Bool :=
  c.isAlphanum || c = '_'

/-- The position of the first quote among bytes, or else their end; a backslash takes the byte after it along. -/
def quotePosition (quote : UInt8) : List UInt8 → Nat
  | [] => 0
  | [byte] => if byte = quote then 0 else 1
  | byte :: following :: rest =>
    if byte = '\\'.toUInt8 then quotePosition quote rest + 2
    else if byte = quote then 0
    else quotePosition quote (following :: rest) + 1

/-- The characters up to a position among the bytes of a text, and those from there; a position inside a character is
moved to its end. -/
def splitAtByte : Nat → List Char → List Char × List Char
  | 0, text => ([], text)
  | _ + 1, [] => ([], [])
  | position + 1, c :: rest =>
    let (front, back) := splitAtByte (position + 1 - c.utf8Size) rest
    (c :: front, back)

/-- The characters up to the closing quote, with their backslashes. -/
def escapedBody? (quote : Char) (text : List Char) : Option (List Char) :=
  let (body, rest) := splitAtByte (quotePosition quote.toUInt8 (text.flatMap String.utf8EncodeChar)) text
  if rest.head? = some quote then some body else none

/-- The characters that a quoted body stands for: a backslash before `n`, `t` and `r` makes a control character, before
any other character that character. -/
def unescape : List Char → List Char
  | [] => []
  | '\\' :: c :: rest =>
    (if c = 'n' then '\n' else if c = 't' then '\t' else if c = 'r' then '\r' else c) :: unescape rest
  | c :: rest => c :: unescape rest

/-- The keyword that a word is, in any case of its letters. -/
def keyword? (word : String) : Option Token :=
  match Text.asciiUpper word with
  | "MATCH" => some .matchWord
  | "WHERE" => some .whereWord
  | "RETURN" => some .returnWord
  | "CREATE" => some .createWord
  | "SET" => some .setWord
  | "DELETE" => some .deleteWord
  | "AND" => some .andWord
  | "TRUE" => some (.boolean true)
  | "FALSE" => some (.boolean false)
  | _ => none

/-- The token that a word is: a name after an opening parenthesis, a colon or an opening bracket of the pattern,
whatever its letters; else a keyword if it is one. -/
def wordToken (zone : Zone) (last : Option Token) (word : String) : Token :=
  let nameComes := zone = .pattern ∧ (last = some .leftParen ∨ last = some .colon ∨ last = some .leftBracket)
  if nameComes then .identifier word else (keyword? word).getD (.identifier word)

/-- The token of a sign that stands for itself. -/
def sign? : Char → Option Token
  | '(' => some .leftParen
  | ')' => some .rightParen
  | '[' => some .leftBracket
  | ']' => some .rightBracket
  | '{' => some .leftBrace
  | '}' => some .rightBrace
  | ':' => some .colon
  | ',' => some .comma
  | ';' => some .semicolon
  | '=' => some .equal
  | _ => none

/-- The token at the start of a text that starts with the given character, and how many more characters it takes. -/
def scanToken (zone : Zone) (last : Option Token) (first : Char) (following : List Char) : Token × Nat :=
  match sign? first with
  | some token => (token, 0)
  | none =>
    if first = '-' then (if following.head? = some '>' then (.arrow, 1) else (.dash, 0))
    else if first = '!' then (if following.head? = some '=' then (.notEqual, 1) else (.illegal first, 0))
    else if first = '"' ∨ first = '\'' then
      match escapedBody? first following with
      | some body => (.string (String.ofList (unescape body)), body.length + 1)
      | none => (.illegal first, 0)
    else if first.isDigit then
      let digits := following.takeWhile Char.isDigit
      (.integer (String.ofList (first :: digits)), digits.length)
    else if isWordStart first then
      let word := following.takeWhile isWordChar
      (wordToken zone last (String.ofList (first :: word)), word.length)
    else (.illegal first, 0)

/-- The field path at the start of a text, possibly empty, and how many characters it takes; an illegal character where
nothing can follow an empty path. -/
def capturePath (text : List Char) : Token × Nat :=
  let path := text.takeWhile isPathChar
  match path, text with
  | [], c :: _ => if endsEmptyPath c then (.path "", 0) else (.illegal c, 1)
  | path, _ => (.path (String.ofList path), path.length)

namespace Lexer

/-- The reader at the start of a text. -/
def ofText (text : List Char) : Lexer :=
  ⟨text, Place.start, .none, .pattern, none⟩

/-- The reader past a number of characters. -/
def skip (lexer : Lexer) (count : Nat) : Lexer :=
  { lexer with rest := lexer.rest.drop count, place := lexer.place.advanceBy (lexer.rest.take count) }

/-- The reader past the blanks before it. -/
def skipBlanks (lexer : Lexer) : Lexer :=
  lexer.skip (lexer.rest.takeWhile Text.isBlank).length

/-- What comes after a token, and in which zone. -/
def transition (capture : Capture) (zone : Zone) (token : Token) : Capture × Zone :=
  match token with
  | .returnWord => (.afterReturn, .projection)
  | .whereWord => (.afterWhere, .filter)
  | .leftBrace => (.afterBrace, .block)
  | .rightBrace => (.none, .pattern)
  | .comma => if zone = .pattern then (capture, zone) else (.afterSeparator, zone)
  | .andWord => if zone = .filter then (.afterSeparator, zone) else (capture, zone)
  | _ => (capture, zone)

/-- The next token and the reader after it. At the end of the text it is the end, over and over. -/
def next (lexer : Lexer) : PlacedToken × Lexer :=
  let here := lexer.skipBlanks
  if here.capture = .none then
    match here.rest with
    | [] => (⟨.finish, here.place⟩, here)
    | first :: following =>
      let (token, more) := scanToken here.zone here.last first following
      let (capture, zone) := transition here.capture here.zone token
      (⟨token, here.place⟩,
        { here.skip (more + 1) with capture := capture, zone := zone, last := some token })
  else
    let (token, count) := capturePath here.rest
    (⟨token, here.place⟩, { here.skip count with capture := .none, last := some token })

/-- An upper bound on the tokens before the end: a path may be empty, but another token follows it. -/
def measure (lexer : Lexer) : Nat :=
  2 * lexer.rest.length + if lexer.capture = .none then 0 else 1

theorem length_skip (lexer : Lexer) (count : Nat) : (lexer.skip count).rest.length = lexer.rest.length - count := by
  simp [skip]

theorem length_skipBlanks_le (lexer : Lexer) : lexer.skipBlanks.rest.length ≤ lexer.rest.length := by
  rw [skipBlanks, length_skip]
  omega

@[simp] theorem capture_skipBlanks (lexer : Lexer) : lexer.skipBlanks.capture = lexer.capture := rfl

theorem next_measure_lt (lexer : Lexer) (h : lexer.next.1.token ≠ .finish) : lexer.next.2.measure < lexer.measure := by
  have hb := length_skipBlanks_le lexer
  unfold next at h ⊢
  by_cases hc : lexer.capture = .none
  · simp only [capture_skipBlanks, hc, ↓reduceIte] at h ⊢
    match hr : lexer.skipBlanks.rest with
    | [] => simp [hr] at h
    | first :: following =>
      have hl := congrArg List.length hr
      simp only [List.length_cons] at hl
      simp only [measure, length_skip, hc, ↓reduceIte]
      split <;> omega
  · simp only [capture_skipBlanks, hc, ↓reduceIte] at h ⊢
    simp only [measure, length_skip, hc, ↓reduceIte]
    omega

/-- The tokens from the reader on, up to the end and with it. -/
def tokens (lexer : Lexer) : List PlacedToken :=
  if _h : lexer.next.1.token = .finish then [lexer.next.1]
  else lexer.next.1 :: lexer.next.2.tokens
termination_by lexer.measure
decreasing_by exact next_measure_lt lexer _h

end Lexer

/-- The tokens of a query text, the end last. -/
def tokenize (text : String) : List PlacedToken :=
  (Lexer.ofText text.toList).tokens

end ClusterQuery.Query
