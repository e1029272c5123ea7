import ClusterQuery.Proofs.Document.Merging
import ClusterQuery.Proofs.Document.Sorted

/-!
# Patches that are merged twice

Insertions under different keys can be made in either order (`Keyed.insert_comm`), so what has been combined into a
list comes into it a second time where it already stands (`Keyed.combine_combine`). A patch whose keys are in order thus
changes nothing when it is merged into a document again (`Document.merge_merge`), and what it makes of a sorted document
is sorted (`Document.Sorted.merge`).
-/

namespace ClusterQuery

namespace Keyed

variable {α : Type}

/-- Of two insertions under one key the later counts. -/
theorem insert_insert (key : String) (value old : α) (pairs : List (String × α)) :
    insert key value (insert key old pairs) = insert key value pairs := by
  induction pairs with
  | nil => simp [insert]
  | cons pair rest ih =>
    obtain ⟨k, v⟩ := pair
    simp only [insert]
    split
    · simp [insert]
    · split
      · simp [insert]
      · simp [insert, *]

/-- Insertions under different keys can be made in either order. -/
theorem insert_comm {key other : String} (h : key ≠ other) (value value' : α) (pairs : List (String × α)) :
    insert key value (insert other value' pairs) = insert other value' (insert key value pairs) := by
  -- in the list as in its rest, each key goes before the first one that it is below
  induction pairs with
  | nil => grind [insert]
  | cons pair rest ih => grind [insert]

section Combine

variable {f : α → α → α} {start : α}

/-- Nothing combined with pairs in key order gives those pairs. -/
theorem nil_combine (hstart : ∀ value, f start value = value) {more : List (String × α)} (hmore : Ascending more) :
    combine f start [] more = more := by
  refine Ascending.ext (ascending_combine more List.Pairwise.nil) hmore ?_
  intro key
  rw [lookup_combine hstart hmore]
  exact Option.merge_none_left

/-- An insertion under a key that the others do not have can be made before they are combined in. -/
theorem insert_combine {more : List (String × α)} {key : String} (h : key ∉ more.map (·.1)) (value : α)
    (pairs : List (String × α)) :
    insert key value (combine f start pairs more) = combine f start (insert key value pairs) more := by
  induction more generalizing pairs with
  | nil => rfl
  | cons pair rest ih =>
    simp only [List.map_cons, List.mem_cons, not_or] at h
    simp only [combine, List.foldl_cons] at ih ⊢
    rw [ih h.2, insert_comm h.1, lookup_insert, if_neg (Ne.symm h.1)]

/-- Pairs with different keys are combined in a second time without a change, when each of their values is. -/
theorem combine_combine {more : List (String × α)} (hmore : Ascending more)
    (hf : ∀ pair ∈ more, ∀ value, f (f value pair.2) pair.2 = f value pair.2) (pairs : List (String × α)) :
    combine f start (combine f start pairs more) more = combine f start pairs more := by
  induction more generalizing pairs with
  | nil => rfl
  | cons pair rest ih =>
    obtain ⟨hpair, hrest⟩ := List.forall_mem_cons.1 hf
    have hkey : pair.1 ∉ rest.map (·.1) := hmore.notMem
    have hcons : ∀ list, combine f start list (pair :: rest) =
        combine f start (insert pair.1 (f ((list.lookup pair.1).getD start) pair.2) list) rest := fun _ => rfl
    -- under the first key stands its combined value, and there it stays
    have hlookup : ∀ value, (combine f start (insert pair.1 value pairs) rest).lookup pair.1 = some value := by
      intro value
      rw [lookup_combine_of_lookup_eq_none (lookup_eq_none_iff.2 hkey), lookup_insert, if_pos rfl]
    rw [hcons pairs, hcons, hlookup, Option.getD_some, hpair, insert_combine hkey, insert_insert]
    exact ih (List.pairwise_cons.1 hmore).2 hrest _

end Combine

end Keyed

namespace Document

/-- A patch with its keys in order is combined into the fields of a document, if it has some. -/
theorem merge_object {patch : Fields} (hpatch : Keyed.Ascending patch) (document : Document) :
    document.merge (.object patch) = .object (Keyed.combine merge .null (document.fields?.getD []) patch) := by
  cases document with
  | object fields =>
    rw [merge, mergeFields_eq_combine]
    rfl
  | _ =>
    rw [merge]
    · exact congrArg Document.object (Keyed.nil_combine null_merge hpatch).symm
    · intro fields h
      cases h

/-- A patch that is merged a second time changes nothing. -/
theorem merge_merge {patch : Document} (hpatch : patch.Sorted) (document : Document) :
    (document.merge patch).merge patch = document.merge patch := by
  induction hpatch generalizing document with
  | null => exact merge_scalar rfl _
  | bool | number | string => simp [merge]
  | array => simp [merge]
  | @object fields hkeys _ ih =>
    rw [merge_object hkeys, merge_object hkeys]
    exact congrArg Document.object (Keyed.combine_combine hkeys ih _)

/-- The fields of a sorted document, if it has some, are in order, and what stands under their keys is sorted. -/
theorem Sorted.fields {document : Document} (h : document.Sorted) : Keyed.Ascending (document.fields?.getD []) ∧
    ∀ key value, (document.fields?.getD []).lookup key = some value → value.Sorted := by
  cases h with
  | object hkeys hvalues => exact ⟨hkeys, fun key value hvalue => hvalues _ (Keyed.mem_of_lookup hvalue)⟩
  | _ => exact ⟨List.Pairwise.nil, nofun⟩

/-- A sorted patch leaves a sorted document sorted. -/
theorem Sorted.merge {document patch : Document} (h : document.Sorted) (hpatch : patch.Sorted) :
    (document.merge patch).Sorted := by
  induction hpatch generalizing document with
  | null | bool | number | string => simp [Document.merge]
  | array hitems => simpa [Document.merge] using hitems
  | @object patch hkeys hvalues ih =>
    obtain ⟨hfields, hheld⟩ := h.fields
    have hcombined : Keyed.Ascending (Keyed.combine Document.merge .null (document.fields?.getD []) patch) :=
      Keyed.ascending_combine patch hfields
    rw [merge_object hkeys, sorted_object]
    refine ⟨hcombined, ?_⟩
    rintro ⟨key, value⟩ hmem
    rw [← hcombined.lookup_eq_some_iff, Keyed.lookup_combine null_merge hkeys, Option.merge_eq_some_iff] at hmem
    rcases hmem with ⟨hold, -⟩ | ⟨-, hnew⟩ | ⟨old, new, hold, hnew, rfl⟩
    · exact hheld key value hold
    · exact hvalues (key, value) (Keyed.mem_of_lookup hnew)
    · exact ih (key, new) (Keyed.mem_of_lookup hnew) (hheld key old hold)

/-- A sorted value that is nested at a path makes a sorted document. -/
theorem Sorted.nested {value : Document} (h : value.Sorted) (path : List String) : (nested path value).Sorted := by
  induction path with
  | nil => exact h
  | cons key rest ih => simpa [Document.nested, singleton] using ih

end Document

end ClusterQuery
