import Mathlib.Data.List.Forall2
import Mathlib.Data.List.Nodup
import ClusterQuery.Proofs.Document.Merging
import ClusterQuery.Store.Basic

/-!
# Writes to a store

Objects are told apart by kind, namespace and name (`Identity`). A write replaces an object by the document that was
read, with a patch merged into it; patches that keep the identity and the id (`Tame`) come back to the same object. So
of several patches written to an object the last alone is in it (`Rewritten.update`).
-/

namespace ClusterQuery

/-- What tells an object of a store apart from the others. -/
structure Identity where
  apiVersion : Option String
  kind : Option String
  inNamespace : Option String
  name : Option String
  deriving DecidableEq, Repr

namespace Document

/-- What tells a stored document apart from the others. -/
def identity (document : Document) : Identity :=
  ⟨document.stringAt? ["apiVersion"], document.stringAt? ["kind"], document.namespace?, document.name?⟩

/-- The paths of the identity and of the id that a store gives. -/
def reservedPaths : List (List String) :=
  [["apiVersion"], ["kind"], ["metadata", "name"], ["metadata", "namespace"], ["metadata", "uid"]]

/-- A patch that leaves the identity and the id of every document as they are. -/
structure Tame (patch : Document) : Prop where
  orderly : patch.Orderly
  spares : ∀ path ∈ reservedPaths, patch.Spares path

/-- The documents have the same values, but for the order of the fields of their metadata. -/
def Alike (document other : Document) : Prop :=
  ∀ path, path ≠ [] → path ≠ ["metadata"] → document.at? path = other.at? path

theorem Alike.refl (document : Document) : document.Alike document :=
  fun _ _ _ => rfl

/-- Documents with the same values at the reserved paths have the same identity. -/
theorem identity_eq_of_at?_eq {document other : Document}
    (h : ∀ path ∈ reservedPaths, document.at? path = other.at? path) : document.identity = other.identity := by
  have hversion := h ["apiVersion"] (by decide)
  have hkind := h ["kind"] (by decide)
  have hname := h ["metadata", "name"] (by decide)
  have hnamespace := h ["metadata", "namespace"] (by decide)
  simp only [identity, namespace?, name?, stringAt?, hversion, hkind, hname, hnamespace]

/-- Documents that are alike have the same values at the reserved paths. -/
theorem Alike.at?_reserved {document other : Document} (h : document.Alike other) {path : List String}
    (hpath : path ∈ reservedPaths) : document.at? path = other.at? path := by
  refine h path ?_ ?_
  · rintro rfl
    exact absurd hpath (by decide)
  · rintro rfl
    exact absurd hpath (by decide)

theorem Alike.identity_eq {document other : Document} (h : document.Alike other) :
    document.identity = other.identity :=
  identity_eq_of_at?_eq fun _ hpath => h.at?_reserved hpath

/-- A document with a tame patch has the values it had at the reserved paths. -/
theorem Tame.at?_reserved {patch : Document} (h : patch.Tame) (document : Document) {path : List String}
    (hpath : path ∈ reservedPaths) : (document.merge patch).at? path = document.at? path :=
  at?_merge_of_spares h.orderly (h.spares path hpath) document

theorem Tame.identity_merge {patch : Document} (h : patch.Tame) (document : Document) :
    (document.merge patch).identity = document.identity :=
  identity_eq_of_at?_eq fun _ hpath => h.at?_reserved document hpath

/-- A scalar that a tame patch sets is neither a whole document nor whole metadata. -/
theorem Tame.path_ne {patch value : Document} {path : List String} (h : patch.Tame)
    (hpath : patch.at? path = some value) (hvalue : value.isScalar = true) : path ≠ [] ∧ path ≠ ["metadata"] := by
  have hname := (h.spares ["metadata", "name"] (by decide)).not_isPrefixOf hpath hvalue
  constructor
  · rintro rfl
    exact hname List.nil_prefix
  · rintro rfl
    exact hname (by decide)

end Document

namespace Store

/-- A field that is inserted as it stands changes nothing at a path through it. -/
theorem at?_insert_of_get? {fields : Fields} {key : String} {value : Document} {path : List String}
    (h : fields.lookup key = some value) (hpath : path ≠ []) :
    (Document.object (Keyed.insert key value fields)).at? path = (Document.object fields).at? path := by
  obtain ⟨first, rest, rfl⟩ := List.exists_cons_of_ne_nil hpath
  rw [Document.at?_cons, Document.at?_cons, Document.get?, Document.get?, Keyed.lookup_insert]
  split
  · rename_i hkey
    rw [hkey, h]
  · rfl

/-- A document that is given the id it has is alike. -/
theorem withUidOf_alike {old document stored : Document}
    (huid : old.at? ["metadata", "uid"] = document.at? ["metadata", "uid"])
    (h : withUidOf old document = some stored) : stored.Alike document := by
  unfold withUidOf at h
  split at h
  · rename_i uid hold
    obtain ⟨metadata, hmetadata, hid⟩ := Option.bind_eq_some_iff.1 (huid.symm.trans hold)
    obtain ⟨held, hheld, hid⟩ := Option.bind_eq_some_iff.1 hid
    cases hid
    cases document with
    | object fields =>
      cases metadata with
      | object inner =>
        have hfields : fields.lookup "metadata" = some (.object inner) := hmetadata
        rw [Document.withMetadata?, hfields] at h
        cases h
        intro path hne hne'
        obtain ⟨first, rest, rfl⟩ := List.exists_cons_of_ne_nil hne
        rw [Document.at?_cons, Document.at?_cons, Document.get?, Document.get?, Keyed.lookup_insert]
        split
        · rename_i hkey
          subst hkey
          rw [hfields]
          exact at?_insert_of_get? hheld fun hrest => hne' (by rw [hrest])
        · rfl
      | _ => cases hheld
    | _ => cases hmetadata
  · cases h
    exact Document.Alike.refl document

/-- The object of a kind, a namespace and a name is the one of the identity. -/
theorem isObject_iff {apiVersion kind name : String} {inNamespace : Option String} {document : Document} :
    isObject apiVersion kind inNamespace name document = true ↔
      document.identity = ⟨some apiVersion, some kind, inNamespace, some name⟩ := by
  simp [isObject, Document.isInstance, Document.identity, and_assoc]

/-- An update replaces the first object of the kind, the namespace and the name. -/
theorem update_eq_ok {store after : Store} {coordinate : Coordinate} {inNamespace : Option String}
    {document stored : Document} (h : store.update coordinate inNamespace document = (.ok stored, after)) :
    ∃ name resource position, document.name? = some name ∧
      resourceAt? store.listings coordinate = some resource ∧
      position? store.objects coordinate.apiVersion resource.kind (if resource.namespaced then inNamespace else none)
        name = some position ∧
      withUidOf (store.objects.getD position .null) document = some stored ∧
      after.listings = store.listings ∧ after.objects = store.objects.set position stored := by
  unfold update at h
  split at h
  · cases (Prod.mk.inj h).1
  · rename_i name hname
    dsimp only at h
    split at h
    · cases (Prod.mk.inj h).1
    · rename_i resource hresource
      split at h
      · cases (Prod.mk.inj h).1
      · rename_i position hposition
        split at h
        · cases (Prod.mk.inj h).1
        · rename_i found hfound
          obtain ⟨hanswer, rfl⟩ := Prod.mk.inj h
          cases hanswer
          exact ⟨name, resource, position, hname, hresource, hposition, hfound, rfl, rfl⟩

end Store

/-- The patch that is written last to the object of an identity, if one is. -/
def lastPatch? (writes : List (Identity × Document)) (identity : Identity) : Option Document :=
  (writes.filter (·.1 = identity)).getLast?.map (·.2)

/-- A document after writes that each carry what was first read. -/
def afterWrites (writes : List (Identity × Document)) (document : Document) : Document :=
  match lastPatch? writes document.identity with
  | some patch => document.merge patch
  | none => document

/-- After writes to the objects of a store each has the last patch that was written to it. -/
def Rewritten (writes : List (Identity × Document)) (before after : List Document) : Prop :=
  List.Forall₂ (fun old new => new.Alike (afterWrites writes old)) before after

theorem lastPatch?_append (writes more : List (Identity × Document)) (identity : Identity) :
    lastPatch? (writes ++ more) identity = (lastPatch? more identity).or (lastPatch? writes identity) := by
  rw [lastPatch?, List.filter_append, List.getLast?_append]
  cases hlast : (more.filter (·.1 = identity)).getLast? <;> simp [lastPatch?, hlast]

/-- The last patch of an object is one that was written to it. -/
theorem mem_of_lastPatch?_eq_some {writes : List (Identity × Document)} {identity : Identity} {patch : Document}
    (h : lastPatch? writes identity = some patch) : (identity, patch) ∈ writes := by
  obtain ⟨write, hwrite, rfl⟩ := Option.map_eq_some_iff.1 h
  obtain ⟨hmem, hidentity⟩ := List.mem_filter.1 (List.mem_of_getLast? hwrite)
  obtain rfl := of_decide_eq_true hidentity
  exact hmem

/-- An object has no last patch when none was written to it. -/
theorem lastPatch?_eq_none_iff {writes : List (Identity × Document)} {identity : Identity} :
    lastPatch? writes identity = none ↔ ∀ write ∈ writes, write.1 ≠ identity := by
  simp [lastPatch?]

namespace Rewritten

variable {writes : List (Identity × Document)} {before after : List Document}

/-- Before any write the objects are as they are. -/
theorem nil (objects : List Document) : Rewritten [] objects objects :=
  List.forall₂_same.2 fun document _ => Document.Alike.refl document

/-- Tame writes keep the reserved values of every object. -/
theorem at?_afterWrites (htame : ∀ write ∈ writes, write.2.Tame) (document : Document) {path : List String}
    (hpath : path ∈ Document.reservedPaths) : (afterWrites writes document).at? path = document.at? path := by
  unfold afterWrites
  split
  · rename_i patch hpatch
    exact (htame _ (mem_of_lastPatch?_eq_some hpatch)).at?_reserved document hpath
  · rfl

/-- Tame writes keep the reserved values of every object. -/
theorem at?_reserved (h : Rewritten writes before after) (htame : ∀ write ∈ writes, write.2.Tame) {path : List String}
    (hpath : path ∈ Document.reservedPaths) : List.Forall₂ (fun old new => new.at? path = old.at? path) before after :=
  List.Forall₂.imp (fun old _ hnew => (hnew.at?_reserved hpath).trans (at?_afterWrites htame old hpath)) h

/-- Tame writes keep the identity of every object. -/
theorem identity_eq (h : Rewritten writes before after) (htame : ∀ write ∈ writes, write.2.Tame) :
    List.Forall₂ (fun old new => new.identity = old.identity) before after :=
  List.Forall₂.imp (fun old _ hnew => hnew.identity_eq.trans
    (Document.identity_eq_of_at?_eq fun _ hpath => at?_afterWrites htame old hpath)) h

/-- Tame writes keep the identities of the objects, place by place. -/
theorem identities_eq (h : Rewritten writes before after) (htame : ∀ write ∈ writes, write.2.Tame) :
    after.map Document.identity = before.map Document.identity := by
  refine List.ext_getElem (by simp [h.length_eq]) fun position hafter hbefore => ?_
  rw [List.getElem_map, List.getElem_map]
  exact (h.identity_eq htame).get _ _

/-- A write to one object is the last to it. -/
theorem afterWrites_append_self (writes : List (Identity × Document)) (document patch : Document) :
    afterWrites (writes ++ [(document.identity, patch)]) document = document.merge patch := by
  rw [afterWrites, lastPatch?_append]
  simp [lastPatch?]

/-- A write to one object says nothing of another. -/
theorem afterWrites_append_of_ne (writes : List (Identity × Document)) {identity : Identity} {document : Document}
    (h : document.identity ≠ identity) (patch : Document) :
    afterWrites (writes ++ [(identity, patch)]) document = afterWrites writes document := by
  rw [afterWrites, lastPatch?_append, lastPatch?_eq_none_iff.2 (by simpa using Ne.symm h), Option.none_or]
  rfl

/-- One more write to an object that was read: the store finds the object by its identity, whatever has been written to
it, and puts in its place what was read with the patch merged into it. -/
theorem update {store next : Store} {coordinate : Coordinate} {inNamespace : Option String}
    {patch document stored : Document} (hnodup : (before.map Document.identity).Nodup)
    (htame : ∀ write ∈ writes, write.2.Tame) (hpatch : patch.Tame) (h : Rewritten writes before store.objects)
    (hmem : document ∈ before) (hresource : ∀ resource, resourceAt? store.listings coordinate = some resource →
      document.isInstance coordinate.apiVersion resource.kind = true ∧
        document.namespace? = if resource.namespaced then inNamespace else none)
    (hupdate : store.update coordinate inNamespace (document.merge patch) = (.ok stored, next)) :
    next.listings = store.listings ∧ Rewritten (writes ++ [(document.identity, patch)]) before next.objects := by
  obtain ⟨name, resource, position, hname, hfound, hposition, hstored, hlistings, hobjects⟩ :=
    Store.update_eq_ok hupdate
  obtain ⟨hinstance, hplace⟩ := hresource resource hfound
  obtain ⟨hbound, hobject, -⟩ := List.findIdx?_eq_some_iff_getElem.1 hposition
  have hlength := h.length_eq
  -- the object found at the position is the one that was read
  have hidentity : document.identity = (store.objects[position]).identity := by
    rw [Store.isObject_iff.1 hobject, ← Store.isObject_iff, Store.isObject, hinstance, hplace]
    have hsame : document.name? = some name :=
      (congrArg Identity.name (hpatch.identity_merge document)).symm.trans hname
    simp [hsame]
  have hread : before[position] = document := by
    refine List.inj_on_of_nodup_map hnodup (List.getElem_mem _) hmem ?_
    exact (hidentity.trans ((h.identity_eq htame).get (by omega) hbound)).symm
  have halike : stored.Alike (document.merge patch) := by
    refine Store.withUidOf_alike ?_ hstored
    have huid : ["metadata", "uid"] ∈ Document.reservedPaths := by decide
    rw [List.getD_eq_getElem?_getD, List.getElem?_eq_getElem hbound, Option.getD_some,
      hpatch.at?_reserved document huid, ← hread]
    exact (h.at?_reserved htame huid).get (by omega) hbound
  refine ⟨hlistings, List.forall₂_iff_get.2 ⟨by simp [hobjects, hlength], fun other hother hother' => ?_⟩⟩
  simp only [List.get_eq_getElem, hobjects, List.getElem_set]
  split
  · rename_i heq
    subst heq
    rwa [hread, afterWrites_append_self]
  · rename_i hne
    have hdiffers : (before[other]).identity ≠ document.identity := by
      intro he
      have hsame := List.inj_on_of_nodup_map hnodup (List.getElem_mem hother) hmem he
      exact hne ((hnodup.of_map _).getElem_inj_iff.1 (hread.trans hsame.symm))
    rw [afterWrites_append_of_ne writes hdiffers]
    exact h.get hother (by omega)

end Rewritten

end ClusterQuery
