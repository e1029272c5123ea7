import ClusterQuery.Document.Writer
import ClusterQuery.FieldPath.Reach
import ClusterQuery.FieldPath.Text
import ClusterQuery.Selector.Grammar

/-!
# Selectors

A selector is a conjunction of requirements, each an equality or inequality of one label or one field with a text. A
requirement is held at most once, in the order of its first mention.
-/

namespace ClusterQuery

/-- The two comparisons that selectors and filters know. -/
inductive Comparison where
  | equal
  | notEqual
  deriving DecidableEq, Repr

namespace Comparison

/-- The sign of the comparison. -/
def text : Comparison → String
  | .equal => "="
  | .notEqual => "!="

/-- The comparison holds, given whether the two sides are equal. -/
def holds (comparison : Comparison) (equal : Bool) : Bool :=
  match comparison with
  | .equal => equal
  | .notEqual => !equal

end Comparison

/-- One condition of a selector. -/
structure Requirement where
  key : String
  comparison : Comparison
  value : String
  deriving DecidableEq, Repr

namespace Requirement

/-- A character of a value: a comma, an equals sign or a backslash takes a backslash. -/
def escapeChar (c : Char) : List Char :=
  if c = '\\' ∨ c = ',' ∨ c = '=' then ['\\', c] else [c]

/-- The text of the condition. -/
def text (requirement : Requirement) : String :=
  requirement.key ++ requirement.comparison.text ++ String.ofList (requirement.value.toList.flatMap escapeChar)

/-- The condition as one on the labels in the metadata; a missing label is no text. -/
def acceptsLabels (requirement : Requirement) (document : Document) : Bool :=
  let actual := ((document.at? ["metadata", "labels"]).bind (·.get? requirement.key)).bind Document.string?
  requirement.comparison.holds (actual == some requirement.value)

/-- The condition as one on the field that the key leads to; a missing field counts as the empty text. -/
def acceptsFields (requirement : Requirement) (document : Document) : Bool :=
  let actual :=
    match FieldPath.parse requirement.key with
    | .ok path => ((path.first? document).map Document.scalarText).getD ""
    | .error _ => ""
  requirement.comparison.holds (actual == requirement.value)

end Requirement

/-- Why a condition is refused, or a filter has no place in a selector. -/
inductive SelectorError where
  | invalidLabelKey (key : String)
  | invalidLabelValue (key value : String)
  | invalidFieldPath (path : String)
  | unknownBinding (path : String)
  | emptyPath
  deriving DecidableEq, Repr

/-- The wording of a selector error. -/
def SelectorError.message : SelectorError → String
  | .invalidLabelKey key => "Invalid label key '" ++ key ++ "'"
  | .invalidLabelValue key value => "Invalid value '" ++ value ++ "' for label '" ++ key ++ "'"
  | .invalidFieldPath path => "Invalid field path '" ++ path ++ "'"
  | .unknownBinding path => "Filter path '" ++ path ++ "' does not start with a bound variable"
  | .emptyPath => "Empty filter path"

/-- A conjunction of requirements. -/
structure Selector where
  requirements : List Requirement
  deriving DecidableEq, Repr

namespace Selector

/-- The selector without requirements, which accepts everything. -/
def empty : Selector := ⟨[]⟩

/-- The selector has no requirements. -/
def isEmpty (selector : Selector) : Bool :=
  selector.requirements.isEmpty

/-- The selector with one more requirement, unless it has it already. -/
def insert (selector : Selector) (requirement : Requirement) : Selector :=
  if requirement ∈ selector.requirements then selector else ⟨selector.requirements ++ [requirement]⟩

/-- The selector with a condition on a label; the key is looked at before the value. -/
def addLabel (selector : Selector) (key : String) (comparison : Comparison) (value : String) :
    Except SelectorError Selector :=
  if !isLabelKey key.toList then .error (.invalidLabelKey key)
  else if !isLabelValue value.toList then .error (.invalidLabelValue key value)
  else .ok (selector.insert ⟨key, comparison, value⟩)

/-- The selector with a condition on a field. -/
def addField (selector : Selector) (path : String) (comparison : Comparison) (value : String) :
    Except SelectorError Selector :=
  if isFieldKey path.toList then .ok (selector.insert ⟨path, comparison, value⟩)
  else .error (.invalidFieldPath path)

/-- Every requirement accepts the labels of the document. -/
def matchesLabels (selector : Selector) (document : Document) : Bool :=
  selector.requirements.all (·.acceptsLabels document)

/-- Every requirement accepts the fields of the document. -/
def matchesFields (selector : Selector) (document : Document) : Bool :=
  selector.requirements.all (·.acceptsFields document)

/-- The texts of the requirements, with commas between them. -/
def text (selector : Selector) : String :=
  ",".intercalate (selector.requirements.map Requirement.text)

end Selector

end ClusterQuery
