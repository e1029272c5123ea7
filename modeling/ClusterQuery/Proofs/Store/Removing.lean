import Mathlib.Data.List.Nodup
import ClusterQuery.Proofs.Store.Writing

/-!
# Removals from a store

A call that removes an object addresses it by its identity (`Store.addressed`). Where identities are distinct it removes
the one object of the identity and keeps the others in order (`Store.delete_of_mem`); where no object has the identity
it fails and changes no object (`Store.delete_of_notMem`).
-/

namespace ClusterQuery

/-- Among entries with distinct keys, the first of a key is the only one. -/
theorem eraseP_eq_filter {α β : Type} [DecidableEq β] {key : α → β} {entries : List α} (h : (entries.map key).Nodup)
    (b : β) : (entries.eraseP fun entry => key entry == b) = entries.filter fun entry => key entry ≠ b := by
  induction entries with
  | nil => rfl
  | cons entry rest ih =>
    obtain ⟨hfirst, hrest⟩ := List.nodup_cons.1 h
    by_cases heq : key entry = b
    · -- the rest keeps all of its entries
      have hall : rest.filter (fun other => key other ≠ b) = rest := by
        refine List.filter_eq_self.2 fun other hother => ?_
        rw [decide_eq_true_eq]
        intro hsame
        exact hfirst (heq ▸ hsame ▸ List.mem_map_of_mem hother)
      rw [List.eraseP_cons_of_pos (by simp [heq]), List.filter_cons_of_neg (by simp [heq]), hall]
    · rw [List.eraseP_cons_of_neg (by simp [heq]), List.filter_cons_of_pos (by simp [heq]), ih hrest]

namespace Store

/-- The objects of other identities, in order. -/
def without (objects : List Document) (gone : List Identity) : List Document :=
  objects.filter fun object => object.identity ∉ gone

/-- The identity of the object that a call for a name addresses. -/
def addressed (coordinate : Coordinate) (resource : Resource) (inNamespace : Option String) (name : String) :
    Identity :=
  ⟨some coordinate.apiVersion, some resource.kind, if resource.namespaced then inNamespace else none, some name⟩

@[simp] theorem mem_without {objects : List Document} {gone : List Identity} {object : Document} :
    object ∈ without objects gone ↔ object ∈ objects ∧ object.identity ∉ gone := by
  simp [without]

@[simp] theorem without_nil (objects : List Document) : without objects [] = objects := by
  simp [without]

theorem without_without (objects : List Document) (gone more : List Identity) :
    without (without objects gone) more = without objects (gone ++ more) := by
  simp only [without, List.filter_filter, List.mem_append, not_or, Bool.decide_and, Bool.and_comm]

/-- Without objects of distinct identities, those that are left have distinct ones. -/
theorem nodup_without {objects : List Document} (h : (objects.map Document.identity).Nodup) (gone : List Identity) :
    ((without objects gone).map Document.identity).Nodup :=
  h.sublist (List.filter_sublist.map _)

/-- An identity that is not gone is left when it was there. -/
theorem mem_map_without {objects : List Document} {gone : List Identity} {identity : Identity} :
    identity ∈ (without objects gone).map Document.identity ↔
      identity ∈ objects.map Document.identity ∧ identity ∉ gone := by
  simp only [List.mem_map, mem_without]
  constructor
  · rintro ⟨object, ⟨hmem, hkept⟩, rfl⟩
    exact ⟨⟨object, hmem, rfl⟩, hkept⟩
  · rintro ⟨⟨object, hmem, rfl⟩, hkept⟩
    exact ⟨object, ⟨hmem, hkept⟩, rfl⟩

section Deleting

variable {store : Store} {coordinate : Coordinate} {resource : Resource} {inNamespace : Option String} {name : String}

/-- The object that a call addresses is the first of its identity. -/
theorem isObject_addressed :
    isObject coordinate.apiVersion resource.kind (if resource.namespaced then inNamespace else none) name =
      fun object => object.identity == addressed coordinate resource inNamespace name := by
  funext object
  rw [Bool.eq_iff_iff, isObject_iff, beq_iff_eq, addressed]

/-- A call addresses an object exactly when its identity is one of the store. -/
theorem isSome_position?_iff {objects : List Document} :
    (position? objects coordinate.apiVersion resource.kind (if resource.namespaced then inNamespace else none)
      name).isSome = true ↔ addressed coordinate resource inNamespace name ∈ objects.map Document.identity := by
  rw [position?, isObject_addressed, List.findIdx?_isSome, List.any_eq_true, List.mem_map]
  exact exists_congr fun object => and_congr_right fun _ => beq_iff_eq

/-- A removal of an identity that some object has removes that object and keeps the others. -/
theorem delete_of_mem (hresource : resourceAt? store.listings coordinate = some resource)
    (hdistinct : (store.objects.map Document.identity).Nodup)
    (h : addressed coordinate resource inNamespace name ∈ store.objects.map Document.identity) :
    store.delete coordinate inNamespace name =
      (.ok (), { store.record (.delete coordinate inNamespace name) with
        objects := without store.objects [addressed coordinate resource inNamespace name] }) := by
  obtain ⟨position, hposition⟩ := Option.isSome_iff_exists.1 (isSome_position?_iff.2 h)
  have hrest : store.objects.eraseIdx position =
      without store.objects [addressed coordinate resource inNamespace name] := by
    rw [position?, isObject_addressed] at hposition
    have herase : (store.objects.eraseP fun object =>
        object.identity == addressed coordinate resource inNamespace name) = store.objects.eraseIdx position := by
      rw [List.eraseP_eq_eraseIdx, hposition]
    rw [← herase, eraseP_eq_filter hdistinct, without]
    simp only [List.mem_singleton]
  simp only [delete, hresource, hposition, hrest]

/-- A removal of an identity that no object has fails and changes no object. -/
theorem delete_of_notMem (hresource : resourceAt? store.listings coordinate = some resource)
    (h : addressed coordinate resource inNamespace name ∉ store.objects.map Document.identity) :
    store.delete coordinate inNamespace name =
      (.error (unknownObject coordinate name), store.record (.delete coordinate inNamespace name)) := by
  have hnone := Option.not_isSome_iff_eq_none.1 (mt isSome_position?_iff.1 h)
  simp only [delete, hresource, hnone]

end Deleting

end Store

end ClusterQuery
