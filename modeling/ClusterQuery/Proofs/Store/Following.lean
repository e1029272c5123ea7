import ClusterQuery.Proofs.Store.Identities

/-!
# Objects followed through calls

A call that fails leaves the objects of a store; one that succeeds appends an object with an id, puts another in the
place of the first that it addresses, with its id, or removes that one (`Store.perform_changes`). Only a removal moves
objects, and it moves those behind it up by one. So an object can be followed by its position through any calls
(`Store.follow`): those that are left keep their order (`Store.follow_lt_follow_iff`), and an id, once there, stays
until its object is removed (`Store.follow_keeps`).
-/

namespace ClusterQuery

/-- A call that may change the objects of a store. -/
inductive Mutation where
  | create (coordinate : Coordinate) (inNamespace : Option String) (document : Document)
  | update (coordinate : Coordinate) (inNamespace : Option String) (document : Document)
  | delete (coordinate : Coordinate) (inNamespace : Option String) (name : String)

/-- The id in the metadata. -/
def Document.uid? (document : Document) : Option Document :=
  document.at? ["metadata", "uid"]

namespace Store

/-- The answer to a call, with the document as stored if it stores one, and the store after it. -/
def perform (store : Store) : Mutation → Answer (Option Document)
  | .create coordinate inNamespace document => (store.create coordinate inNamespace document).map (·.map some) id
  | .update coordinate inNamespace document => (store.update coordinate inNamespace document).map (·.map some) id
  | .delete coordinate inNamespace name => (store.delete coordinate inNamespace name).map (·.map fun _ => none) id

/-- The store after some calls. -/
def after (store : Store) (calls : List Mutation) : Store :=
  calls.foldl (fun store call => (store.perform call).2) store

/-- A call for a name addresses an object: it is the first of the identity that the call asks for, between the two parts
of the objects. -/
structure Finds (store : Store) (coordinate : Coordinate) (inNamespace : Option String) (name : String)
    (front : List Document) (found : Document) (back : List Document) : Prop where
  objects_eq : store.objects = front ++ found :: back
  first : ∃ resource, resourceAt? store.listings coordinate = some resource ∧
    found.identity = addressed coordinate resource inNamespace name ∧
    ∀ other ∈ front, other.identity ≠ addressed coordinate resource inNamespace name

/-- The position of the object that a call removes, if it removes one. -/
def removed? (store : Store) : Mutation → Option Nat
  | .delete coordinate inNamespace name =>
    (resourceAt? store.listings coordinate).bind fun resource =>
      position? store.objects coordinate.apiVersion resource.kind (if resource.namespaced then inNamespace else none)
        name
  | _ => none

/-- Where the object at a position is when another has been removed; nowhere, if it was the one. -/
def pastRemoval (gone position : Nat) : Option Nat :=
  if position = gone then none else some (if position < gone then position else position - 1)

/-- Where the object at a position is after a call, if the call does not remove it. -/
def moved? (store : Store) (call : Mutation) (position : Nat) : Option Nat :=
  match store.removed? call with
  | some gone => pastRemoval gone position
  | none => some position

/-- Where the object at a position is after some calls, if none of them removes it. -/
def follow (store : Store) : List Mutation → Nat → Option Nat
  | [], position => some position
  | call :: rest, position => (store.moved? call position).bind ((store.perform call).2.follow rest)

/-- What a call does to the objects by its answer: which they are after it, and where each of those before it is
then. -/
inductive Changes (store : Store) :
    Mutation → Except StoreError (Option Document) → List Document → (Nat → Option Nat) → Prop where
  | failed (call : Mutation) (cause : StoreError) : Changes store call (.error cause) store.objects some
  | created {coordinate : Coordinate} {inNamespace : Option String} {document stored : Document}
      (hcompletes : Completes store.listings coordinate inNamespace document stored)
      (huid : stored.uid?.isSome = true) :
      Changes store (.create coordinate inNamespace document) (.ok (some stored)) (store.objects ++ [stored]) some
  | updated {coordinate : Coordinate} {inNamespace : Option String} {document stored old : Document} {name : String}
      {front back : List Document} (hname : document.name? = some name)
      (hfinds : store.Finds coordinate inNamespace name front old back) (hstored : withUidOf old document = some stored)
      (huid : ∀ uid, old.uid? = some uid → stored.uid? = some uid) :
      Changes store (.update coordinate inNamespace document) (.ok (some stored)) (front ++ stored :: back) some
  | deleted {coordinate : Coordinate} {inNamespace : Option String} {name : String} {old : Document}
      {front back : List Document} (hfinds : store.Finds coordinate inNamespace name front old back) :
      Changes store (.delete coordinate inNamespace name) (.ok none) (front ++ back) (pastRemoval front.length)

/-! ## What one call does -/

variable {store : Store} {coordinate : Coordinate} {resource : Resource} {inNamespace : Option String} {name : String}

/-- The object at the position that a call looks for is the one that the call addresses. -/
theorem finds_of_position? {position : Nat} (hresource : resourceAt? store.listings coordinate = some resource)
    (h : position? store.objects coordinate.apiVersion resource.kind (if resource.namespaced then inNamespace else none)
      name = some position) :
    ∃ front found back, store.Finds coordinate inNamespace name front found back ∧ front.length = position := by
  obtain ⟨hbound, hobject, hbefore⟩ := List.findIdx?_eq_some_iff_getElem.1 h
  refine ⟨store.objects.take position, store.objects[position], store.objects.drop (position + 1),
    ⟨?_, resource, hresource, isObject_iff.1 hobject, fun other hother hsame => ?_⟩, List.length_take_of_le hbound.le⟩
  · rw [← List.drop_eq_getElem_cons hbound, List.take_append_drop]
  · obtain ⟨index, hindex, rfl⟩ := List.mem_take_iff_getElem.1 hother
    exact hbefore index (by omega) (isObject_iff.2 hsame)

/-- What is made of a new document has an id. -/
theorem Completes.uid? {listings : List Listing} {document stored : Document}
    (h : Completes listings coordinate inNamespace document stored) : stored.uid?.isSome = true := by
  obtain ⟨_, uid, -, hstored⟩ := h
  obtain ⟨-, metadata, hmetadata⟩ := Document.at?_of_withMetadata? hstored
  rw [Document.uid?, (hmetadata "uid").2, lookup_newMetadata, if_neg (by decide), if_pos rfl]
  cases metadata.lookup "uid" <;> rfl

/-- A document that is given the id of another has it. -/
theorem uid?_of_withUidOf {old document stored uid : Document} (h : withUidOf old document = some stored)
    (huid : old.uid? = some uid) : stored.uid? = some uid := by
  unfold withUidOf at h
  rw [show old.at? ["metadata", "uid"] = some uid from huid] at h
  obtain ⟨-, metadata, hmetadata⟩ := Document.at?_of_withMetadata? h
  rw [Document.uid?, (hmetadata "uid").2, Keyed.lookup_insert, if_pos rfl]

/-- An update that fails leaves the objects. -/
theorem update_eq_error {after : Store} {document : Document} {cause : StoreError}
    (h : store.update coordinate inNamespace document = (.error cause, after)) : after.objects = store.objects := by
  unfold update at h
  dsimp only at h
  repeat' split at h
  all_goals
    cases h
    try rfl

/-- A removal takes away the object that it addresses, or fails and leaves the objects when there is none. -/
theorem delete_cases (store : Store) (coordinate : Coordinate) (inNamespace : Option String) (name : String) :
    (∃ cause, (store.delete coordinate inNamespace name).1 = .error cause ∧
      (store.delete coordinate inNamespace name).2.objects = store.objects ∧
      store.removed? (.delete coordinate inNamespace name) = none) ∨
    ∃ front found back, (store.delete coordinate inNamespace name).1 = .ok () ∧
      store.Finds coordinate inNamespace name front found back ∧
      (store.delete coordinate inNamespace name).2.objects = front ++ back ∧
      store.removed? (.delete coordinate inNamespace name) = some front.length := by
  unfold delete removed?
  dsimp only
  cases hresource : resourceAt? store.listings coordinate with
  | none => exact Or.inl ⟨_, rfl, rfl, rfl⟩
  | some resource =>
    dsimp only
    rw [Option.bind_some]
    cases hposition : position? store.objects coordinate.apiVersion resource.kind
        (if resource.namespaced then inNamespace else none) name with
    | none => exact Or.inl ⟨_, rfl, rfl, rfl⟩
    | some position =>
      obtain ⟨front, found, back, hfinds, rfl⟩ := finds_of_position? hresource hposition
      refine Or.inr ⟨front, found, back, rfl, hfinds, ?_, rfl⟩
      dsimp only
      rw [hfinds.objects_eq, List.eraseIdx_append_of_length_le (Nat.le_refl _), Nat.sub_self, List.eraseIdx_cons_zero]

/-- What is done by any call is told by its answer. -/
theorem perform_changes (store : Store) (call : Mutation) :
    store.Changes call (store.perform call).1 (store.perform call).2.objects (store.moved? call) := by
  cases call with
  | create coordinate inNamespace document =>
    show store.Changes _ ((store.create coordinate inNamespace document).1.map some)
      (store.create coordinate inNamespace document).2.objects some
    rcases hcreate : store.create coordinate inNamespace document with ⟨cause | stored, after⟩
    · rw [(create_eq_error hcreate).2]
      exact .failed _ cause
    · obtain ⟨hcompletes, -, hobjects⟩ := create_eq_ok hcreate
      rw [hobjects]
      exact .created hcompletes hcompletes.uid?
  | update coordinate inNamespace document =>
    show store.Changes _ ((store.update coordinate inNamespace document).1.map some)
      (store.update coordinate inNamespace document).2.objects some
    rcases hupdate : store.update coordinate inNamespace document with ⟨cause | stored, after⟩
    · rw [update_eq_error hupdate]
      exact .failed _ cause
    · obtain ⟨name, resource, position, hname, hresource, hposition, hstored, -, hobjects⟩ := update_eq_ok hupdate
      obtain ⟨front, old, back, hfinds, rfl⟩ := finds_of_position? hresource hposition
      have hold : store.objects.getD front.length .null = old := by
        rw [hfinds.objects_eq, List.getD_eq_getElem?_getD, List.getElem?_append_right (Nat.le_refl _), Nat.sub_self]
        rfl
      rw [hold] at hstored
      rw [hobjects, hfinds.objects_eq, List.set_append_right _ _ (Nat.le_refl _), Nat.sub_self]
      exact .updated hname hfinds hstored fun uid => uid?_of_withUidOf hstored
  | delete coordinate inNamespace name =>
    show store.Changes _ ((store.delete coordinate inNamespace name).1.map fun _ => none)
      (store.delete coordinate inNamespace name).2.objects _
    rcases delete_cases store coordinate inNamespace name with
      ⟨cause, hanswer, hobjects, hremoved⟩ | ⟨front, found, back, hanswer, hfinds, hobjects, hremoved⟩
    · have hmoved : store.moved? (.delete coordinate inNamespace name) = some :=
        funext fun position => by rw [moved?, hremoved]
      rw [hanswer, hobjects, hmoved]
      exact .failed _ cause
    · have hmoved : store.moved? (.delete coordinate inNamespace name) = pastRemoval front.length :=
        funext fun position => by rw [moved?, hremoved]
      rw [hanswer, hobjects, hmoved]
      exact .deleted hfinds

/-! ## What many calls do -/

/-- A removal leaves the others in order. -/
theorem pastRemoval_lt_iff {gone position other position' other' : Nat} (h : pastRemoval gone position = some position')
    (h' : pastRemoval gone other = some other') : position < other ↔ position' < other' := by
  unfold pastRemoval at h h'
  obtain ⟨hne, heq⟩ := Option.ite_none_left_eq_some.1 h
  obtain ⟨hne', heq'⟩ := Option.ite_none_left_eq_some.1 h'
  cases heq
  cases heq'
  split <;> split <;> omega

/-- A call leaves the objects that it does not remove in order. -/
theorem moved?_lt_iff {call : Mutation} {position other position' other' : Nat}
    (h : store.moved? call position = some position') (h' : store.moved? call other = some other') :
    position < other ↔ position' < other' := by
  unfold moved? at h h'
  cases hremoved : store.removed? call with
  | none =>
    rw [hremoved] at h h'
    cases h
    cases h'
    rfl
  | some gone =>
    rw [hremoved] at h h'
    exact pastRemoval_lt_iff h h'

/-- An object that a call does not remove is at its place after the call, and has the id it had. -/
theorem Changes.keeps {call : Mutation} {answer : Except StoreError (Option Document)} {objects : List Document}
    {move : Nat → Option Nat} (h : store.Changes call answer objects move) {position position' : Nat}
    (hmove : move position = some position') {old : Document} (hold : store.objects[position]? = some old) :
    ∃ new, objects[position']? = some new ∧ ∀ uid, old.uid? = some uid → new.uid? = some uid := by
  cases h with
  | failed =>
    cases hmove
    exact ⟨old, hold, fun _ huid => huid⟩
  | created =>
    cases hmove
    exact ⟨old, by rw [List.getElem?_append_left (List.getElem?_eq_some_iff.1 hold).1, hold], fun _ huid => huid⟩
  | @updated _ _ _ stored replaced _ front back _ hfinds _ huid =>
    cases hmove
    rw [hfinds.objects_eq] at hold
    rcases Nat.lt_trichotomy position front.length with hlt | rfl | hgt
    · rw [List.getElem?_append_left hlt] at hold ⊢
      exact ⟨old, hold, fun _ huid => huid⟩
    · rw [List.getElem?_append_right (Nat.le_refl _), Nat.sub_self, List.getElem?_cons_zero] at hold ⊢
      cases hold
      exact ⟨stored, rfl, huid⟩
    · obtain ⟨more, rfl⟩ := Nat.exists_eq_add_of_lt hgt
      rw [List.getElem?_append_right (by omega), show front.length + more + 1 - front.length = more + 1 by omega,
        List.getElem?_cons_succ] at hold ⊢
      exact ⟨old, hold, fun _ huid => huid⟩
  | @deleted _ _ _ gone front back hfinds =>
    rw [hfinds.objects_eq] at hold
    obtain ⟨hne, heq⟩ := Option.ite_none_left_eq_some.1 hmove
    refine ⟨old, ?_, fun _ huid => huid⟩
    rcases Nat.lt_or_gt_of_ne hne with hlt | hgt
    · rw [if_pos hlt] at heq
      cases heq
      rwa [List.getElem?_append_left hlt] at hold ⊢
    · rw [if_neg (by omega)] at heq
      cases heq
      obtain ⟨more, rfl⟩ := Nat.exists_eq_add_of_lt hgt
      rw [List.getElem?_append_right (by omega), show front.length + more + 1 - front.length = more + 1 by omega,
        List.getElem?_cons_succ] at hold
      rwa [List.getElem?_append_right (by omega), show front.length + more + 1 - 1 - front.length = more by omega]

/-- Calls leave the objects that they do not remove in order. -/
theorem follow_lt_follow_iff {calls : List Mutation} {position other position' other' : Nat}
    (h : store.follow calls position = some position') (h' : store.follow calls other = some other') :
    position < other ↔ position' < other' := by
  induction calls generalizing store position other with
  | nil =>
    cases h
    cases h'
    rfl
  | cons call rest ih =>
    obtain ⟨middle, hfirst, hrest⟩ := Option.bind_eq_some_iff.1 h
    obtain ⟨middle', hfirst', hrest'⟩ := Option.bind_eq_some_iff.1 h'
    exact (moved?_lt_iff hfirst hfirst').trans (ih hrest hrest')

/-- An object that calls do not remove is at its place after them, and has the id it had. -/
theorem follow_keeps {calls : List Mutation} {position position' : Nat}
    (h : store.follow calls position = some position') {old : Document} (hold : store.objects[position]? = some old) :
    ∃ new, (store.after calls).objects[position']? = some new ∧ ∀ uid, old.uid? = some uid → new.uid? = some uid := by
  induction calls generalizing store position old with
  | nil =>
    cases h
    exact ⟨old, hold, fun _ huid => huid⟩
  | cons call rest ih =>
    obtain ⟨middle, hfirst, hrest⟩ := Option.bind_eq_some_iff.1 h
    obtain ⟨new, hnew, huid⟩ := (store.perform_changes call).keeps hfirst hold
    obtain ⟨last, hlast, huid'⟩ := ih hrest hnew
    exact ⟨last, hlast, fun uid hsome => huid' uid (huid uid hsome)⟩

/-- Whatever creations, updates and removals a store has answered: the next one that fails leaves the objects, and one
that succeeds appends an object with an id, replaces the first object that it addresses by one with its id, if it had
one, or removes that object, and leaves all others. So through any further calls the objects that are not removed keep
their order, and an object that has an id keeps it as long as it is there. -/
theorem calls_keep_order_and_ids (store : Store) (earlier : List Mutation) :
    (∀ call, (store.after earlier).Changes call ((store.after earlier).perform call).1
      ((store.after earlier).perform call).2.objects ((store.after earlier).moved? call)) ∧
    ∀ later,
      (∀ position other position' other', (store.after earlier).follow later position = some position' →
        (store.after earlier).follow later other = some other' → (position < other ↔ position' < other')) ∧
      ∀ position position' old, (store.after earlier).follow later position = some position' →
        (store.after earlier).objects[position]? = some old →
        ∃ new, ((store.after earlier).after later).objects[position']? = some new ∧
          ∀ uid, old.uid? = some uid → new.uid? = some uid :=
  ⟨perform_changes _, fun _ => ⟨fun _ _ _ _ => follow_lt_follow_iff, fun _ _ _ h hold => follow_keeps h hold⟩⟩

end Store

end ClusterQuery
