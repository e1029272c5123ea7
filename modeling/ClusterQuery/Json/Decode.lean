import ClusterQuery.Json.Basic

/-!
# Reading records

Records are read from the trees of texts. In an object a known member stands at most once, and members of other names
are skipped without a look at their values. In an array the members stand in their order, and the last ones may be left
out. A member of the wrong type is refused.
-/

namespace ClusterQuery.Json

/-- A string. -/
def string? : Json → Option String
  | .string value => value
  | _ => none

/-- A truth value. -/
def bool? : Json → Option Bool
  | .bool value => some value
  | _ => none

/-- An unsigned 64-bit number. -/
def natural? : Json → Option Nat
  | .number (some (.integer value)) => if 0 ≤ value ∧ value < Nat.pow 2 64 then some value.toNat else none
  | _ => none

/-- The items of an array, each read with the room that is left inside it. -/
def list? {α : Type} (read : Nat → Json → Option α) (room : Nat) : Json → Option (List α)
  | .array items => if room = 0 then none else items.mapM (read (room - 1))
  | _ => none

/-- The members of a record whose members have the given names. -/
def record? (names : List String) (room : Nat) : Json → Option Members
  | .object members => if room ≠ 0 ∧ members.all (·.1.isSome) then some members else none
  | .array items => if room ≠ 0 ∧ items.length ≤ names.length then some ((names.map some).zip items) else none
  | _ => none

/-- A member of a record that must stand. -/
def required? {α : Type} (members : Members) (name : String) (read : Json → Option α) : Option α :=
  match members.filter (·.1 == some name) with
  | [(_, value)] => read value
  | _ => none

/-- A member of a record with a value for when it does not stand. -/
def optional? {α : Type} (members : Members) (name : String) (missing : α) (read : Json → Option α) : Option α :=
  match members.filter (·.1 == some name) with
  | [] => some missing
  | [(_, value)] => read value
  | _ => none

end ClusterQuery.Json
