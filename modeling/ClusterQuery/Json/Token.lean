import ClusterQuery.Json.NumberText

/-!
# Tokens of document texts

A document text is a sequence of brackets, separators, words and strings with blanks between them. Words are `null`,
`true`, `false` and numbers. A number beyond the finite reals and a string with an unpaired surrogate escape are tokens
without a value: they may stand where nothing reads them.
-/

namespace ClusterQuery.Json

/-- A token of a document text. -/
inductive Token where
  | openArray
  | closeArray
  | openObject
  | closeObject
  | colon
  | comma
  | null
  | bool (value : Bool)
  | number (value : Option Number)
  | string (value : Option String)
  deriving DecidableEq, Repr

/-- The blanks between tokens. -/
def isGap (c : Char) : Bool :=
  c = ' ' || c = '\n' || c = '\t' || c = '\r'

/-- The characters of words. -/
def isWordChar (c : Char) : Bool :=
  isDigit c || ('a' ≤ c && c ≤ 'z') || c = 'E' || c = '+' || c = '-' || c = '.'

/-- The token that a word is. -/
def wordToken? (word : List Char) : Option Token :=
  if word = ['n', 'u', 'l', 'l'] then some .null
  else if word = ['t', 'r', 'u', 'e'] then some (.bool true)
  else if word = ['f', 'a', 'l', 's', 'e'] then some (.bool false)
  else (numberParts? word).map fun parts => .number parts.number?

/-- One element of a string: a character, or the unit of a four-digit escape. -/
inductive StringUnit where
  | char (c : Char)
  | unit (code : Nat)
  deriving DecidableEq, Repr

/-- The value of a hexadecimal digit. -/
def hexValue? (c : Char) : Option Nat :=
  if isDigit c then some (c.toNat - 48)
  else if 'a' ≤ c ∧ c ≤ 'f' then some (c.toNat - 87)
  else if 'A' ≤ c ∧ c ≤ 'F' then some (c.toNat - 55)
  else none

/-- The code of four hexadecimal digits. -/
def hexCode? (a b c d : Char) : Option Nat := do
  let a ← hexValue? a
  let b ← hexValue? b
  let c ← hexValue? c
  let d ← hexValue? d
  return 4096 * a + 256 * b + 16 * c + d

/-- The character that a one-letter escape stands for. -/
def escaped? (c : Char) : Option Char :=
  match c with
  | '"' => some '"'
  | '\\' => some '\\'
  | '/' => some '/'
  | 'b' => some (Char.ofNat 8)
  | 'f' => some (Char.ofNat 12)
  | 'n' => some '\n'
  | 'r' => some '\r'
  | 't' => some '\t'
  | _ => none

/-- The characters of a string: a high unit and the low unit right after it make one character, and no other surrogate
may stand. -/
def charsOf? : List StringUnit → Option (List Char)
  | [] => some []
  | .char c :: rest => (charsOf? rest).map (c :: ·)
  | .unit high :: .unit low :: rest =>
    if 0xD800 ≤ high ∧ high < 0xDC00 then
      if 0xDC00 ≤ low ∧ low < 0xE000 then
        (charsOf? rest).map (Char.ofNat (0x10000 + 1024 * (high - 0xD800) + (low - 0xDC00)) :: ·)
      else none
    else if 0xDC00 ≤ high ∧ high < 0xE000 then none
    else (charsOf? (.unit low :: rest)).map (Char.ofNat high :: ·)
  | .unit code :: rest =>
    if 0xD800 ≤ code ∧ code < 0xE000 then none else (charsOf? rest).map (Char.ofNat code :: ·)

/-- The string of elements read in reverse. -/
def stringToken (units : List StringUnit) : Token :=
  .string ((charsOf? units.reverse).map String.ofList)

/-- Where the reader of tokens stands: between tokens, inside a word or inside a string, with what it has read of it in
reverse. -/
inductive ScanMode where
  | gap
  | word (letters : List Char)
  | text (units : List StringUnit)

/-- What a character between tokens gives: the tokens it completes and where the reader stands after it. -/
def gapChar? (c : Char) : Option (List Token × ScanMode) :=
  if isGap c then some ([], .gap)
  else if isWordChar c then some ([], .word [c])
  else
    match c with
    | '"' => some ([], .text [])
    | '[' => some ([.openArray], .gap)
    | ']' => some ([.closeArray], .gap)
    | '{' => some ([.openObject], .gap)
    | '}' => some ([.closeObject], .gap)
    | ':' => some ([.colon], .gap)
    | ',' => some ([.comma], .gap)
    | _ => none

/-- The tokens of the rest of a text, in reverse before those already read. -/
def scanFrom (read : List Token) : ScanMode → List Char → Option (List Token)
  | .gap, [] => some read
  | .gap, c :: rest =>
    match gapChar? c with
    | some (tokens, mode) => scanFrom (tokens ++ read) mode rest
    | none => none
  | .word letters, [] => (wordToken? letters.reverse).map (· :: read)
  | .word letters, c :: rest =>
    if isWordChar c then scanFrom read (.word (c :: letters)) rest
    else
      match wordToken? letters.reverse, gapChar? c with
      | some token, some (tokens, mode) => scanFrom (tokens ++ token :: read) mode rest
      | _, _ => none
  | .text _, [] => none
  | .text units, '"' :: rest => scanFrom (stringToken units :: read) .gap rest
  | .text units, '\\' :: 'u' :: a :: b :: c :: d :: rest =>
    match hexCode? a b c d with
    | some code => scanFrom read (.text (.unit code :: units)) rest
    | none => none
  | .text units, '\\' :: c :: rest =>
    match escaped? c with
    | some character => scanFrom read (.text (.char character :: units)) rest
    | none => none
  | .text units, c :: rest => if c.toNat < 0x20 then none else scanFrom read (.text (.char c :: units)) rest

/-- The tokens of a document text, or nothing when a part of it is no token. -/
def tokens? (text : List Char) : Option (List Token) :=
  (scanFrom [] .gap text).map List.reverse

end ClusterQuery.Json
