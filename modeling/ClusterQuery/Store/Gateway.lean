import ClusterQuery.Store.Basic

/-!
# Gateways

A gateway is the way to a store, with or without a fault on it. A fault lets a number of calls of its names through and
fails every later one with its error before the store sees it.
-/

namespace ClusterQuery

/-- Calls of the given names fail after the given number of them. -/
structure Fault where
  names : List CallName
  error : StoreError
  after : Nat
  deriving DecidableEq, Repr

/-- A store and the fault on the way to it. -/
structure Gateway where
  store : Store
  fault : Option Fault

namespace Gateway

/-- The gateway to a store, without a fault. -/
def ofStore (store : Store) : Gateway := ⟨store, none⟩

/-- How many calls may be under way at once: as many as wanted, and at least one. -/
def callsAtOnce (wanted : Nat) : Nat := max wanted 1

/-- An answer or an error, and the gateway after the call. -/
abbrev Answer (α : Type) := Except StoreError α × Gateway

/-- A call that reaches the store, past what is left of the fault. -/
def reach {α : Type} (gateway : Gateway) (fault : Option Fault) (call : Store → Store.Answer α) : Answer α :=
  ((call gateway.store).1, ⟨(call gateway.store).2, fault⟩)

/-- A call of a name under the fault. -/
def guarded {α : Type} (gateway : Gateway) (name : CallName) (call : Store → Store.Answer α) : Answer α :=
  match gateway.fault with
  | none => gateway.reach none call
  | some fault =>
    if name ∈ fault.names then
      if fault.after = 0 then (.error fault.error, gateway)
      else gateway.reach (some { fault with after := fault.after - 1 }) call
    else gateway.reach (some fault) call

/-- The catalog. -/
def discover (gateway : Gateway) : Answer (List Listing) :=
  gateway.guarded .discover Store.discover

/-- The objects of a resource that pass a search. -/
def list (gateway : Gateway) (coordinate : Coordinate) (search : Search) : Answer (List Document) :=
  gateway.guarded .list fun store => store.list coordinate search

/-- Stores a new object and answers it as stored. -/
def create (gateway : Gateway) (coordinate : Coordinate) (inNamespace : Option String) (document : Document) :
    Answer Document :=
  gateway.guarded .create fun store => store.create coordinate inNamespace document

/-- Replaces an object and answers it as stored. -/
def update (gateway : Gateway) (coordinate : Coordinate) (inNamespace : Option String) (document : Document) :
    Answer Document :=
  gateway.guarded .update fun store => store.update coordinate inNamespace document

/-- Removes an object. -/
def delete (gateway : Gateway) (coordinate : Coordinate) (inNamespace : Option String) (name : String) :
    Answer Unit :=
  gateway.guarded .delete fun store => store.delete coordinate inNamespace name

end Gateway

end ClusterQuery
