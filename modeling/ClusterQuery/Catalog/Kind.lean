import ClusterQuery.Catalog.Listing
import ClusterQuery.Store.Error
import ClusterQuery.Text.LowerCase

/-!
# Resource kinds

A kind as the platform serves it, and the search for one in the listings: the first resource whose plural name, kind or
short name is the key, ignoring the case of ASCII letters.
-/

namespace ClusterQuery

/-- A resource kind with its coordinate. -/
structure Kind where
  coordinate : Coordinate
  kind : String
  namespaced : Bool
  deriving DecidableEq, Repr

/-- Why an identifier names no kind. -/
inductive CatalogError where
  | kindNotFound (identifier : String)
  | invalidGroupVersion (text : String)
  | discovery (cause : StoreError)
  deriving DecidableEq, Repr

/-- The wording of a catalog error. -/
def CatalogError.message : CatalogError → String
  | .kindNotFound identifier => "Resource kind not found: " ++ identifier
  | .invalidGroupVersion text => "Invalid group/version '" ++ text ++ "'"
  | .discovery cause => "Discovery failed: " ++ cause.message

/-- The group and the version that a text joins with a slash; a version alone belongs to the core group. -/
def parseGroupVersion (text : String) : Except CatalogError (String × String) :=
  match text.toList.span (· ≠ '/') with
  | (version, []) => if version = [] then .error (.invalidGroupVersion text) else .ok ("", text)
  | (group, _ :: version) =>
    if group = [] ∨ version = [] ∨ '/' ∈ version then .error (.invalidGroupVersion text)
    else .ok (String.ofList group, String.ofList version)

namespace Resource

/-- The names that a resource goes by: plural name, kind and short names. -/
def aliases (resource : Resource) : List String :=
  resource.name :: resource.kind :: resource.shortNames

/-- One of the names is the key, ignoring the case of ASCII letters. -/
def answersTo (resource : Resource) (key : String) : Bool :=
  resource.aliases.any (Text.sameIgnoringCase · key)

end Resource

/-- The kind of a resource listed under a group and a version. -/
def Kind.ofResource (groupVersion : String × String) (resource : Resource) : Kind :=
  ⟨⟨groupVersion.1, groupVersion.2, resource.name⟩, resource.kind, resource.namespaced⟩

/-- The kind that a key names: the first resource that answers to it, in listing order. Only the group and version of
that resource must be well formed. -/
def findKind? (key : String) : List Listing → Except CatalogError (Option Kind)
  | [] => .ok none
  | listing :: rest =>
    match listing.resources.find? (·.answersTo key) with
    | some resource => (parseGroupVersion listing.groupVersion).map fun parts => some (.ofResource parts resource)
    | none => findKind? key rest

end ClusterQuery
