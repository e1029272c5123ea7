/-!
# Keyed lists

Lists of pairs in ascending order of their keys, by code points, each key once. `Keyed.insert` keeps them so
(`ascending_insert`) and changes what stands under its own key only (`lookup_insert`).
-/

namespace ClusterQuery.Keyed

/-- The list with a value under a key: in place of the pair of that key, else in key order. -/
def insert {α : Type} (key : String) (value : α) : List (String × α) → List (String × α)
  | [] => [(key, value)]
  | (k, v) :: rest =>
    if key < k then (key, value) :: (k, v) :: rest
    else if key = k then (key, value) :: rest
    else (k, v) :: insert key value rest

/-- The list of pairs in key order; of two pairs of one key the later wins. -/
def ofList {α : Type} (pairs : List (String × α)) : List (String × α) :=
  pairs.foldl (fun sorted pair => insert pair.1 pair.2 sorted) []

/-- The keys ascend, so each stands once. -/
def Ascending {α : Type} (pairs : List (String × α)) : Prop :=
  pairs.Pairwise fun first second => first.1 < second.1

/-- An insertion puts its value under its key and leaves every other key as it is. -/
theorem lookup_insert {α : Type} (key k : String) (value : α) (pairs : List (String × α)) :
    (insert key value pairs).lookup k = if k = key then some value else pairs.lookup k := by
  induction pairs with
  | nil =>
    by_cases h : k = key
    · simp [insert, h]
    · have hb : (k == key) = false := by simpa using h
      simp [insert, List.lookup_cons, hb, h]
  | cons pair rest ih =>
    obtain ⟨l, v⟩ := pair
    simp only [insert]
    by_cases h : k = key
    · split
      · simp [h]
      · split
        · simp [h]
        · rename_i hne
          have hl : (k == l) = false := by simpa [h] using hne
          rw [if_pos h] at ih
          simpa only [List.lookup_cons, hl] using ih
    · have hb : (k == key) = false := by simpa using h
      rw [if_neg h] at ih ⊢
      split
      · simp [List.lookup_cons, hb]
      · split
        · rename_i he
          subst he
          simp [List.lookup_cons, hb]
        · simp only [List.lookup_cons, ih]

/-- An insertion adds no key but its own. -/
theorem mem_keys_insert {α : Type} {key k : String} {value : α} {pairs : List (String × α)}
    (h : k ∈ (insert key value pairs).map (·.1)) : k = key ∨ k ∈ pairs.map (·.1) := by
  induction pairs with
  | nil => simpa [insert] using h
  | cons pair rest ih =>
    obtain ⟨l, v⟩ := pair
    simp only [insert] at h
    split at h
    · simpa using h
    · split at h
      · simp only [List.map_cons, List.mem_cons] at h ⊢
        exact h.imp_right Or.inr
      · simp only [List.map_cons, List.mem_cons] at h ⊢
        rcases h with rfl | h
        · exact Or.inr (Or.inl rfl)
        · exact (ih h).imp_right Or.inr

/-- An insertion keeps the keys in ascending order. -/
theorem ascending_insert {α : Type} (key : String) (value : α) {pairs : List (String × α)} (h : Ascending pairs) :
    Ascending (insert key value pairs) := by
  induction pairs with
  | nil => simp [insert, Ascending]
  | cons pair rest ih =>
    obtain ⟨l, v⟩ := pair
    obtain ⟨hl, hrest⟩ := List.pairwise_cons.1 h
    simp only [insert]
    split
    · rename_i hlt
      refine List.pairwise_cons.2 ⟨fun other hmem => ?_, h⟩
      rcases List.mem_cons.1 hmem with rfl | hmem
      · exact hlt
      · exact String.lt_trans hlt (hl other hmem)
    · split
      · rename_i he
        exact List.pairwise_cons.2 ⟨fun other hmem => he ▸ hl other hmem, hrest⟩
      · rename_i hnlt hne
        refine List.pairwise_cons.2 ⟨fun other hmem => ?_, ih hrest⟩
        rcases mem_keys_insert (List.mem_map_of_mem hmem) with hk | hk
        · have hle : l ≤ key := String.not_lt.1 hnlt
          simp only at hk ⊢
          rw [hk]
          exact Std.lt_of_le_of_ne hle (Ne.symm hne)
        · obtain ⟨q, hq, he⟩ := List.mem_map.1 hk
          exact he ▸ hl q hq

/-- A list made from any pairs is in key order. -/
theorem ascending_ofList {α : Type} (pairs : List (String × α)) : Ascending (ofList pairs) := by
  have general : ∀ more sorted : List (String × α), Ascending sorted →
      Ascending (more.foldl (fun sorted pair => insert pair.1 pair.2 sorted) sorted) := by
    intro more
    induction more with
    | nil => exact fun _ h => h
    | cons pair rest ih => exact fun sorted h => ih _ (ascending_insert pair.1 pair.2 h)
  exact general pairs [] List.Pairwise.nil

end ClusterQuery.Keyed
