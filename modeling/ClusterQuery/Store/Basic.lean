import ClusterQuery.Store.Call
import ClusterQuery.Store.Error
import ClusterQuery.Store.Uid

/-!
# Stores

A store holds a catalog and the objects of a cluster in memory, in the order of their insertion, and records every call
it answers. A call gives an answer or an error, and the store after it; a call that fails leaves the objects as they
were. The ids of new objects are drawn from a supply that is part of the store, and nothing is known about them.
-/

namespace ClusterQuery

namespace Document

/-- The document is an object of a kind. -/
def isInstance (document : Document) (apiVersion kind : String) : Bool :=
  document.stringAt? ["apiVersion"] == some apiVersion && document.stringAt? ["kind"] == some kind

/-- The document with a change to the fields of its metadata, which it gets if it has none; nothing when it is no object
or its metadata is none. -/
def withMetadata? (document : Document) (change : Fields → Fields) : Option Document :=
  match document with
  | .object fields =>
    match fields.lookup "metadata" with
    | some (.object metadata) => some (.object (Keyed.insert "metadata" (.object (change metadata)) fields))
    | some _ => none
    | none => some (.object (Keyed.insert "metadata" (.object (change [])) fields))
  | _ => none

end Document

/-- A catalog, the objects and the record of calls. -/
structure Store where
  listings : List Listing
  objects : List Document
  calls : List Call
  /-- The error that every list call gives, if they are made to fail. -/
  listFailure : Option StoreError
  /-- The ids to give out, by their numbers. -/
  uids : Nat → String
  /-- The number of the next id to give out. -/
  nextUid : Nat

namespace Store

/-- The store of a catalog and objects, before any call. -/
def ofObjects (listings : List Listing) (objects : List Document) : Store :=
  ⟨listings, objects, [], none, Uid.ofNumber, 0⟩

/-- An answer or an error, and the store after the call. -/
abbrev Answer (α : Type) := Except StoreError α × Store

/-- The store with one more call on record. -/
def record (store : Store) (call : Call) : Store :=
  { store with calls := store.calls ++ [call] }

/-- The store with one more object. -/
def insert (store : Store) (document : Document) : Store :=
  { store with objects := store.objects ++ [document] }

/-- The error of a call about a resource that the catalog does not have. -/
def unknownResource (coordinate : Coordinate) : StoreError :=
  .notFound ("the server could not find resource " ++ coordinate.text)

/-- The error of a call about an object that the store does not have. -/
def unknownObject (coordinate : Coordinate) (name : String) : StoreError :=
  .notFound (coordinate.resource ++ " \"" ++ name ++ "\" not found")

/-- The document is the object of a kind, a namespace and a name. -/
def isObject (apiVersion kind : String) (inNamespace : Option String) (name : String) (document : Document) : Bool :=
  document.isInstance apiVersion kind && document.namespace? == inNamespace && document.name? == some name

/-- The position of the first object of a kind, a namespace and a name. -/
def position? (objects : List Document) (apiVersion kind : String) (inNamespace : Option String) (name : String) :
    Option Nat :=
  objects.findIdx? (isObject apiVersion kind inNamespace name)

/-- The object passes a search for a resource; a resource of the whole cluster is in every namespace. -/
def passes (coordinate : Coordinate) (resource : Resource) (search : Search) (document : Document) : Bool :=
  document.isInstance coordinate.apiVersion resource.kind &&
    (match search.inNamespace with
      | some name => !resource.namespaced || document.namespace? == some name
      | none => true) &&
    search.fields.matchesFields document && search.labels.matchesLabels document

/-- The catalog. -/
def discover (store : Store) : Answer (List Listing) :=
  (.ok store.listings, store.record .discover)

/-- The objects of a resource that pass a search. -/
def list (store : Store) (coordinate : Coordinate) (search : Search) : Answer (List Document) :=
  let recorded := store.record (.list coordinate search.inNamespace search.fields.text search.labels.text)
  match store.listFailure with
  | some error => (.error error, recorded)
  | none =>
    match resourceAt? store.listings coordinate with
    | none => (.error (unknownResource coordinate), recorded)
    | some resource => (.ok (store.objects.filter (passes coordinate resource search)), recorded)

/-- The fields of the metadata of a new object: its namespace, and an id unless it brings one. -/
def newMetadata (inNamespace : Option String) (uid : String) (metadata : Fields) : Fields :=
  let placed :=
    match inNamespace with
    | some name => Keyed.insert "namespace" (.string name) metadata
    | none => metadata
  if (placed.lookup "uid").isSome then placed else Keyed.insert "uid" (.string uid) placed

/-- Stores a new object and answers it as stored. -/
def create (store : Store) (coordinate : Coordinate) (inNamespace : Option String) (document : Document) :
    Answer Document :=
  match document.name? with
  | none => (.error (.invalid "metadata.name is required"), store)
  | some name =>
    let recorded := store.record (.create coordinate inNamespace name)
    match resourceAt? store.listings coordinate with
    | none => (.error (unknownResource coordinate), recorded)
    | some resource =>
      let place := if resource.namespaced then inNamespace else none
      match document.withMetadata? (newMetadata place (store.uids store.nextUid)) with
      | none => (.error (.invalid "document must be an object"), recorded)
      | some stored =>
        if (position? store.objects coordinate.apiVersion resource.kind place name).isSome then
          (.error (.alreadyExists (coordinate.resource ++ " \"" ++ name ++ "\" already exists")), recorded)
        else (.ok stored, { recorded.insert stored with nextUid := store.nextUid + 1 })

/-- The document with the id of the object it replaces. -/
def withUidOf (old document : Document) : Option Document :=
  match old.at? ["metadata", "uid"] with
  | some uid => document.withMetadata? (Keyed.insert "uid" uid)
  | none => some document

/-- Replaces an object and answers it as stored; its id stays. -/
def update (store : Store) (coordinate : Coordinate) (inNamespace : Option String) (document : Document) :
    Answer Document :=
  match document.name? with
  | none => (.error (.invalid "metadata.name is required"), store)
  | some name =>
    let recorded := store.record (.update coordinate inNamespace name)
    match resourceAt? store.listings coordinate with
    | none => (.error (unknownResource coordinate), recorded)
    | some resource =>
      let place := if resource.namespaced then inNamespace else none
      match position? store.objects coordinate.apiVersion resource.kind place name with
      | none => (.error (unknownObject coordinate name), recorded)
      | some position =>
        match withUidOf (store.objects.getD position .null) document with
        | none => (.error (.invalid "document must be an object"), recorded)
        | some stored => (.ok stored, { recorded with objects := store.objects.set position stored })

/-- Removes an object. -/
def delete (store : Store) (coordinate : Coordinate) (inNamespace : Option String) (name : String) : Answer Unit :=
  let recorded := store.record (.delete coordinate inNamespace name)
  match resourceAt? store.listings coordinate with
  | none => (.error (unknownResource coordinate), recorded)
  | some resource =>
    let place := if resource.namespaced then inNamespace else none
    match position? store.objects coordinate.apiVersion resource.kind place name with
    | none => (.error (unknownObject coordinate name), recorded)
    | some position => (.ok (), { recorded with objects := store.objects.eraseIdx position })

end Store

end ClusterQuery
