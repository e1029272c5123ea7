import ClusterQuery.Document.Writer
import ClusterQuery.FieldPath.Reach
import ClusterQuery.FieldPath.Text
import ClusterQuery.Text.LowerCase

/-!
# Relationship rules

A rule says when a document of one kind is linked to a document of another: by an owner reference, by a selector over
the child's labels, or by a field of each with one text. Of a list of rules the first that joins two kinds applies.
-/

namespace ClusterQuery

/-- How a parent is linked to a child. -/
inductive Linkage where
  /-- The child names the parent among its owners. -/
  | ownerReference
  /-- Every entry of the object at a path of the parent is a label of the child. -/
  | labelSelector (selectorPath : String)
  /-- A value at a path of the parent has the text of a value at a path of the child. -/
  | fieldReference (parentPath childPath : String)
  deriving DecidableEq, Repr

/-- The linkage between two kinds. -/
structure Rule where
  parent : String
  child : String
  linkage : Linkage
  deriving DecidableEq, Repr

namespace Linkage

/-- An owner reference names the parent: by its id if the parent has one, else by its kind and name. -/
def refersTo (parent reference : Document) : Bool :=
  match parent.stringAt? ["metadata", "uid"] with
  | some uid => reference.stringAt? ["uid"] == some uid
  | none =>
    parent.name?.isSome && reference.stringAt? ["kind"] == parent.stringAt? ["kind"] &&
      reference.stringAt? ["name"] == parent.name?

/-- The child names the parent among its owners. -/
def owns (parent child : Document) : Bool :=
  match (child.at? ["metadata", "ownerReferences"]).bind Document.items? with
  | some references => references.any (refersTo parent)
  | none => false

/-- The object at the path of the parent is not empty, and each of its entries is a label of the child. -/
def selects (selectorPath : String) (parent child : Document) : Bool :=
  match FieldPath.parse selectorPath with
  | .error _ => false
  | .ok path =>
    match (path.first? parent).bind Document.fields? with
    | none => false
    | some wanted =>
      let labels := child.at? ["metadata", "labels"]
      !wanted.isEmpty && wanted.all fun (key, value) => (labels.bind (·.get? key)).any (· == value)

/-- A value at the parent's path has the text of a value at the child's path. -/
def references (parentPath childPath : String) (parent child : Document) : Bool :=
  match FieldPath.parse parentPath, FieldPath.parse childPath with
  | .ok parentPath, .ok childPath =>
    let wanted := (parentPath.resolve parent).map Document.scalarText
    (childPath.resolve child).any fun value => wanted.contains value.scalarText
  | _, _ => false

/-- The parent and the child are linked, whatever their namespaces. -/
def joins (linkage : Linkage) (parent child : Document) : Bool :=
  match linkage with
  | .ownerReference => owns parent child
  | .labelSelector selectorPath => selects selectorPath parent child
  | .fieldReference parentPath childPath => references parentPath childPath parent child

/-- The paths of the linkage can be read. -/
def validate : Linkage → Except FieldPath.PathError Unit
  | .ownerReference => .ok ()
  | .labelSelector selectorPath => (FieldPath.parse selectorPath).map fun _ => ()
  | .fieldReference parentPath childPath => do
    let _ ← FieldPath.parse parentPath
    let _ ← FieldPath.parse childPath
    return ()

end Linkage

/-- Two documents may be linked as far as their namespaces go: they do not have different ones. -/
def sharedNamespace (a b : Document) : Bool :=
  match a.namespace?, b.namespace? with
  | some a, some b => a == b
  | _, _ => true

namespace Rule

/-- A parent and a child are linked. -/
def links (rule : Rule) (parent child : Document) : Bool :=
  sharedNamespace parent child && rule.linkage.joins parent child

/-- The rule joins two kinds, ignoring the case of ASCII letters: with the first as the parent, or else as the child. -/
def direction? (rule : Rule) (a b : String) : Option Bool :=
  if Text.sameIgnoringCase rule.parent a && Text.sameIgnoringCase rule.child b then some true
  else if Text.sameIgnoringCase rule.parent b && Text.sameIgnoringCase rule.child a then some false
  else none

/-- The first rule that joins two kinds, its position, and whether the first kind is the parent. -/
def find? (rules : List Rule) (a b : String) : Option (Nat × Rule × Bool) :=
  (rules.zipIdx).findSome? fun (rule, position) => (rule.direction? a b).map fun isParent => (position, rule, isParent)

/-- The paths of all rules can be read. -/
def validate (rules : List Rule) : Except FieldPath.PathError Unit :=
  rules.forM (·.linkage.validate)

/-- The rules assumed where none are given. -/
def standard : List Rule :=
  [⟨"Deployment", "ReplicaSet", .ownerReference⟩, ⟨"ReplicaSet", "Pod", .ownerReference⟩,
    ⟨"StatefulSet", "Pod", .ownerReference⟩, ⟨"DaemonSet", "Pod", .ownerReference⟩, ⟨"Job", "Pod", .ownerReference⟩,
    ⟨"CronJob", "Job", .ownerReference⟩, ⟨"Service", "Pod", .labelSelector "spec.selector"⟩,
    ⟨"Ingress", "Service", .fieldReference "spec.rules[*].http.paths[*].backend.service.name" "metadata.name"⟩]

end Rule

end ClusterQuery
