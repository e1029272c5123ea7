import ClusterQuery.Text.Blank
import ClusterQuery.Text.CaseTable

/-!
# Lower case

Lower-casing of whole texts: ASCII letters by their fixed distance, other letters by the case table, capital I with a
dot as two characters, and a capital sigma by its place in the word.
-/

namespace ClusterQuery.Text

/-- The letter belongs to the run of upper-case letters. -/
def CaseRun.contains (run : CaseRun) (code : Nat) : Bool :=
  run.first ≤ code && code ≤ run.last && (code - run.first) % run.step == 0

/-- The lower case of one character outside any context. -/
def lowerChar (c : Char) : List Char :=
  if c.toNat < 0x80 then [c.toLower]
  else if c = 'İ' then ['i', Char.ofNat 0x307]
  else
    match caseRuns.find? (·.contains c.toNat) with
    | some run => [Char.ofNat (c.toNat + run.distance).toNat]
    | none => [c]

/-- A character of the Cased property. -/
def isCased (c : Char) : Bool :=
  inRanges casedRanges c.toNat

/-- A character of the Case_Ignorable property. -/
def isCaseIgnorable (c : Char) : Bool :=
  inRanges caseIgnorableRanges c.toNat

/-- Past any case-ignorable characters, a cased one comes next. -/
def meetsCased (cs : List Char) : Bool :=
  match cs.dropWhile isCaseIgnorable with
  | c :: _ => isCased c
  | [] => false

/-- Lower case of a text whose already passed characters are given in reverse: a capital sigma that ends a word becomes
the final sigma. -/
def lowerFrom (passed : List Char) : List Char → List Char
  | [] => []
  | c :: rest =>
    let lowered :=
      if c = 'Σ' then (if meetsCased passed && !meetsCased rest then ['ς'] else ['σ']) else lowerChar c
    lowered ++ lowerFrom (c :: passed) rest

/-- The lower case of a text. -/
def lower (text : String) : String :=
  String.ofList (lowerFrom [] text.toList)

/-- An ASCII letter in lower case, any other character as it is. -/
def asciiLower (text : String) : String :=
  String.ofList (text.toList.map Char.toLower)

/-- An ASCII letter in upper case, any other character as it is. -/
def asciiUpper (text : String) : String :=
  String.ofList (text.toList.map Char.toUpper)

/-- Two texts differ at most in the case of ASCII letters. -/
def sameIgnoringCase (a b : String) : Bool :=
  a.toList.map Char.toLower == b.toList.map Char.toLower

end ClusterQuery.Text
