import Mathlib.Data.List.Basic
import Mathlib.Data.List.Induction
import Mathlib.Data.List.Nodup

/-!
# Lists without repeats and lists with separators

What one more entry does to the list of first mentions (`eraseDups_concat`), texts with a separator between them
(`intercalate_cons`), and the images of the first entries of a list (`filterMap_take`).
-/

namespace ClusterQuery

variable {α β : Type}

/-! ## Lists without repeats -/

section Repeats

variable [DecidableEq α]

theorem eraseDups_concat (entries : List α) (entry : α) :
    (entries ++ [entry]).eraseDups = if entry ∈ entries then entries.eraseDups else entries.eraseDups ++ [entry] := by
  rw [List.eraseDups_append]
  by_cases h : entry ∈ entries
  · simp [h, List.removeAll]
  · simp [h, List.removeAll, List.eraseDups_cons]

theorem eraseDups_of_nodup {entries : List α} (h : entries.Nodup) : entries.eraseDups = entries := by
  induction entries using List.reverseRecOn with
  | nil => rfl
  | append_singleton rest entry ih =>
    obtain ⟨hrest, -, hnew⟩ := List.nodup_append.1 h
    rw [eraseDups_concat, if_neg fun hmem => hnew entry hmem entry List.mem_cons_self rfl, ih hrest]

theorem nodup_eraseDups (entries : List α) : entries.eraseDups.Nodup := by
  induction entries using List.reverseRecOn with
  | nil => simp
  | append_singleton rest entry ih =>
    rw [eraseDups_concat]
    split
    · exact ih
    · rename_i h
      exact List.concat_eq_append ▸ ih.concat (by simpa using h)

end Repeats

/-! ## Separators -/

theorem intercalate_cons (separator first : List α) (more : List (List α)) :
    separator.intercalate (first :: more) = first ++ more.flatMap (separator ++ ·) := by
  induction more generalizing first with
  | nil => simp
  | cons second rest ih =>
    rw [List.intercalate_cons_cons, ih, List.flatMap_cons]
    simp only [List.append_assoc]

/-! ## Images -/

/-- When the first entries all have an image, the images of the first entries are the first images. -/
theorem filterMap_take {image : α → Option β} {entries : List α} {count : Nat}
    (h : ∀ entry ∈ entries.take count, (image entry).isSome = true) (hcount : count ≤ entries.length) :
    (entries.take count).filterMap image = (entries.filterMap image).take count ∧
      count ≤ (entries.filterMap image).length := by
  have hlength : ((entries.take count).filterMap image).length = count := by
    rw [List.filterMap_length_eq_length.2 h, List.length_take, Nat.min_eq_left hcount]
  have hsplit : entries.filterMap image =
      (entries.take count).filterMap image ++ (entries.drop count).filterMap image := by
    rw [← List.filterMap_append, List.take_append_drop]
  rw [hsplit, List.length_append]
  exact ⟨(List.take_left' hlength).symm, by omega⟩

end ClusterQuery
