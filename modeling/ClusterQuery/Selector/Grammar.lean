/-!
# Keys and values of selectors

A label key is a name with or without a domain before it and a slash between them; a label value is a name or empty; a
field key is a dotted list of words. All of them are ASCII.
-/

namespace ClusterQuery.Selector

/-- A lower-case ASCII letter or a digit. -/
def isLowerAlnum (c : Char) : Bool :=
  ('a' ≤ c && c ≤ 'z') || ('0' ≤ c && c ≤ '9')

/-- An ASCII letter or a digit. -/
def isAlnum (c : Char) : Bool :=
  isLowerAlnum c || ('A' ≤ c && c ≤ 'Z')

/-- The list begins and ends with a character of the class. -/
def bounded (inClass : Char → Bool) (cs : List Char) : Bool :=
  cs.head?.any inClass && cs.getLast?.any inClass

/-- The pieces between separators; at least one, possibly empty. -/
def pieces (separator : Char) : List Char → List (List Char)
  | [] => [[]]
  | c :: rest =>
    if c = separator then [] :: pieces separator rest
    else
      match pieces separator rest with
      | first :: others => (c :: first) :: others
      | [] => [[c]]

/-- The longest name of a label. -/
def maxNameLength : Nat := 63

/-- The longest domain of a label key. -/
def maxDomainLength : Nat := 253

/-- A label name: up to 63 letters, digits, dashes, underscores and dots, with a letter or a digit at both ends. -/
def isLabelName (cs : List Char) : Bool :=
  cs.length ≤ maxNameLength && cs.all (fun c => isAlnum c || c = '-' || c = '_' || c = '.') && bounded isAlnum cs

/-- One label of a domain: lower-case letters, digits and dashes, no dash at either end. -/
def isDomainLabel (cs : List Char) : Bool :=
  cs.all (fun c => isLowerAlnum c || c = '-') && bounded isLowerAlnum cs

/-- A domain: up to 253 characters of labels with dots between them. -/
def isDomain (cs : List Char) : Bool :=
  cs.length ≤ maxDomainLength && (pieces '.' cs).all isDomainLabel

/-- A label key: a label name, or a domain and a label name around the first slash. -/
def isLabelKey (cs : List Char) : Bool :=
  match cs.span (· ≠ '/') with
  | (name, []) => isLabelName name
  | (domain, _ :: name) => isDomain domain && isLabelName name

/-- A label value: empty or a label name. -/
def isLabelValue (cs : List Char) : Bool :=
  cs.isEmpty || isLabelName cs

/-- A word of a field key: letters, digits and underscores, no digit first. -/
def isFieldWord (cs : List Char) : Bool :=
  cs.all (fun c => isAlnum c || c = '_') && cs.head?.any fun c => !('0' ≤ c && c ≤ '9')

/-- A field key: words with dots between them. -/
def isFieldKey (cs : List Char) : Bool :=
  (pieces '.' cs).all isFieldWord

end ClusterQuery.Selector
