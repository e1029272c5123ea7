import Mathlib.Data.List.Nodup
import Mathlib.Data.List.Sort
import ClusterQuery.Keyed

/-!
# Entries told apart by a key

Where the keys of entries are distinct, a key finds the entry that has it: in a list (`find?_eq_of_nodup_map`) and in
the keyed list made of it (`Keyed.lookup_ofList_of_mem`). Keyed lists are equal when they have the same under every key
(`Keyed.Ascending.ext`), and one is combined into another key by key (`Keyed.lookup_combine`).
-/

namespace ClusterQuery

/-- Among entries with distinct keys, a key finds the entry that has it. -/
theorem find?_eq_of_nodup_map {α : Type} {f : α → String} {entries : List α} (h : (entries.map f).Nodup) {entry : α}
    (hmem : entry ∈ entries) {key : String} (hkey : f entry = key) : entries.find? (f · == key) = some entry := by
  induction entries with
  | nil => exact absurd hmem List.not_mem_nil
  | cons first rest ih =>
    obtain ⟨hfirst, hrest⟩ := List.nodup_cons.1 h
    rw [List.find?_cons]
    by_cases hne : f first = key
    · -- the first entry with the key is the only one
      rw [beq_iff_eq.2 hne]
      rcases List.mem_cons.1 hmem with rfl | hmem
      · rfl
      · exact absurd (hne.trans hkey.symm ▸ List.mem_map_of_mem hmem) hfirst
    · rw [beq_eq_false_iff_ne.2 hne]
      exact ih hrest ((List.mem_cons.1 hmem).resolve_left fun he => hne (he ▸ hkey))

namespace Keyed

variable {α : Type}

/-- A value that is looked up is one of the pairs. -/
theorem mem_of_lookup {pairs : List (String × α)} {key : String} {value : α} (h : pairs.lookup key = some value) :
    (key, value) ∈ pairs := by
  obtain ⟨before, after, rfl, -⟩ := List.lookup_eq_some_iff.1 h
  exact List.mem_append_right before List.mem_cons_self

/-- The pairs after an insertion are the new one and some of those before. -/
theorem mem_insert {key : String} {value : α} {pairs : List (String × α)} {pair : String × α}
    (h : pair ∈ insert key value pairs) : pair = (key, value) ∨ pair ∈ pairs := by
  induction pairs with
  | nil => exact Or.inl (List.mem_singleton.1 h)
  | cons first rest ih =>
    simp only [insert] at h
    split at h
    · exact List.mem_cons.1 h
    · split at h
      · exact (List.mem_cons.1 h).imp_right (List.mem_cons_of_mem first)
      · rcases List.mem_cons.1 h with rfl | h
        · exact Or.inr List.mem_cons_self
        · exact (ih h).imp_right (List.mem_cons_of_mem first)

/-- An insertion under a key that is not there adds one pair. -/
theorem length_insert {key : String} (value : α) {pairs : List (String × α)} (h : pairs.lookup key = none) :
    (insert key value pairs).length = pairs.length + 1 := by
  induction pairs with
  | nil => rfl
  | cons first rest ih =>
    rw [List.lookup_cons] at h
    cases hkey : key == first.1 with
    | true =>
      rw [hkey] at h
      cases h
    | false =>
      rw [hkey] at h
      simp only [insert]
      rw [if_neg (beq_eq_false_iff_ne.1 hkey)]
      split
      · rfl
      · rw [List.length_cons, List.length_cons, ih h]

/-- An insertion under a key that is not there leaves the pairs as they are, in order. -/
theorem sublist_insert {key : String} (value : α) {pairs : List (String × α)} (h : pairs.lookup key = none) :
    pairs.Sublist (insert key value pairs) := by
  induction pairs with
  | nil => exact List.nil_sublist _
  | cons first rest ih =>
    rw [List.lookup_cons] at h
    cases hkey : key == first.1 with
    | true =>
      rw [hkey] at h
      cases h
    | false =>
      rw [hkey] at h
      simp only [insert]
      rw [if_neg (beq_eq_false_iff_ne.1 hkey)]
      split
      · exact List.sublist_cons_self _ _
      · exact (ih h).cons_cons first

/-- Insertions under other keys leave a key as it is. -/
theorem lookup_foldl_insert_of_notMem {pairs : List (String × α)} {key : String} (h : key ∉ pairs.map (·.1))
    (sorted : List (String × α)) :
    (pairs.foldl (fun sorted pair => insert pair.1 pair.2 sorted) sorted).lookup key = sorted.lookup key := by
  induction pairs generalizing sorted with
  | nil => rfl
  | cons pair rest ih =>
    simp only [List.map_cons, List.mem_cons, not_or] at h
    rw [List.foldl_cons, ih h.2, lookup_insert, if_neg h.1]

/-- Related values under one key, inserted into lists with related values under the same keys, leave such lists. -/
theorem forall₂_insert {R : α → α → Prop} (key : String) {value other : α} (hvalue : R value other)
    {pairs others : List (String × α)} (h : List.Forall₂ (fun first second => second.1 = first.1 ∧ R first.2 second.2)
      pairs others) :
    List.Forall₂ (fun first second => second.1 = first.1 ∧ R first.2 second.2) (insert key value pairs)
      (insert key other others) := by
  induction h with
  | nil => exact .cons ⟨rfl, hvalue⟩ .nil
  | @cons first second rest rest' hpair hrest ih =>
    obtain ⟨k, v⟩ := first
    obtain ⟨k', v'⟩ := second
    obtain ⟨hkey, hr⟩ := hpair
    cases (hkey : k' = k)
    simp only [insert]
    split
    · exact .cons ⟨rfl, hvalue⟩ (.cons ⟨rfl, hr⟩ hrest)
    · split
      · exact .cons ⟨rfl, hvalue⟩ hrest
      · exact .cons ⟨rfl, hr⟩ ih

/-- Lists made from pairs of the same keys with related values have related values under the same keys. -/
theorem forall₂_ofList {R : α → α → Prop} {pairs others : List (String × α)}
    (h : List.Forall₂ (fun first second => second.1 = first.1 ∧ R first.2 second.2) pairs others) :
    List.Forall₂ (fun first second => second.1 = first.1 ∧ R first.2 second.2) (ofList pairs) (ofList others) := by
  have general : ∀ {sorted sorted' : List (String × α)},
      List.Forall₂ (fun first second => second.1 = first.1 ∧ R first.2 second.2) sorted sorted' →
      List.Forall₂ (fun first second => second.1 = first.1 ∧ R first.2 second.2)
        (pairs.foldl (fun sorted pair => insert pair.1 pair.2 sorted) sorted)
        (others.foldl (fun sorted pair => insert pair.1 pair.2 sorted) sorted') := by
    induction h with
    | nil => exact fun hsorted => hsorted
    | @cons first second _ _ hpair _ ih =>
      intro sorted sorted' hsorted
      rw [List.foldl_cons, List.foldl_cons, hpair.1]
      exact ih (forall₂_insert first.1 hpair.2 hsorted)
  exact general .nil

/-- The pairs of a list made from pairs are among them. -/
theorem mem_of_mem_ofList {pairs : List (String × α)} {pair : String × α} (h : pair ∈ ofList pairs) : pair ∈ pairs := by
  have general : ∀ (more sorted : List (String × α)),
      pair ∈ more.foldl (fun sorted pair => insert pair.1 pair.2 sorted) sorted → pair ∈ sorted ∨ pair ∈ more := by
    intro more
    induction more with
    | nil => exact fun sorted h => Or.inl h
    | cons first rest ih =>
      intro sorted h
      rcases ih _ h with h | h
      · rcases mem_insert h with rfl | h
        · exact Or.inr List.mem_cons_self
        · exact Or.inl h
      · exact Or.inr (List.mem_cons_of_mem first h)
  exact (general pairs [] h).resolve_left List.not_mem_nil

/-- A list made from pairs has nothing under a key that no pair has. -/
theorem lookup_ofList_of_notMem {pairs : List (String × α)} {key : String} (h : key ∉ pairs.map (·.1)) :
    (ofList pairs).lookup key = none :=
  lookup_foldl_insert_of_notMem h []

/-- A list made from pairs of distinct keys has the value of each under its key. -/
theorem lookup_ofList_of_mem {pairs : List (String × α)} (hkeys : (pairs.map (·.1)).Nodup) {key : String} {value : α}
    (h : (key, value) ∈ pairs) : (ofList pairs).lookup key = some value := by
  have general : ∀ sorted : List (String × α),
      (pairs.foldl (fun sorted pair => insert pair.1 pair.2 sorted) sorted).lookup key = some value := by
    induction pairs with
    | nil => exact absurd h List.not_mem_nil
    | cons pair rest ih =>
      intro sorted
      obtain ⟨hfirst, hrest⟩ := List.nodup_cons.1 hkeys
      rcases List.mem_cons.1 h with rfl | h
      · rw [List.foldl_cons, lookup_foldl_insert_of_notMem hfirst, lookup_insert, if_pos rfl]
      · exact ih hrest h _
  exact general []

/-- Of entries with distinct names, some with a value, a list by name has under each name what its entry has. -/
theorem lookup_ofList_filterMap {β : Type} {entries : List β} {name : β → String} {value : β → Option α}
    (hnames : (entries.map name).Nodup) {entry : β} (h : entry ∈ entries) :
    (ofList (entries.filterMap fun entry => (value entry).map (name entry, ·))).lookup (name entry) = value entry := by
  cases hvalue : value entry with
  | none =>
    apply lookup_ofList_of_notMem
    intro hmem
    obtain ⟨pair, hpair, hkey⟩ := List.mem_map.1 hmem
    obtain ⟨other, hother, hother'⟩ := List.mem_filterMap.1 hpair
    obtain ⟨held, hheld, rfl⟩ := Option.map_eq_some_iff.1 hother'
    rw [List.inj_on_of_nodup_map hnames hother h hkey, hvalue] at hheld
    cases hheld
  | some held =>
    refine lookup_ofList_of_mem ?_ (List.mem_filterMap.2 ⟨entry, h, by rw [hvalue]; rfl⟩)
    rw [List.Nodup, List.pairwise_map] at hnames ⊢
    refine hnames.filterMap _ fun a a' hne b hb b' hb' => ?_
    obtain ⟨_, -, rfl⟩ := Option.map_eq_some_iff.1 hb
    obtain ⟨_, -, rfl⟩ := Option.map_eq_some_iff.1 hb'
    exact hne

/-! ## Ascending keys -/

/-- A key finds nothing when no pair has it. -/
theorem lookup_eq_none_iff {pairs : List (String × α)} {key : String} :
    pairs.lookup key = none ↔ key ∉ pairs.map (·.1) := by
  rw [List.lookup_eq_none_iff, List.mem_map]
  constructor
  · rintro h ⟨pair, hpair, rfl⟩
    simpa using h pair hpair
  · intro h pair hpair
    exact bne_iff_ne.2 fun hkey => h ⟨pair, hpair, hkey.symm⟩

@[simp]
theorem ascending_singleton (pair : String × α) : Ascending [pair] :=
  List.pairwise_singleton _ pair

/-- In a list whose keys ascend no key comes twice. -/
theorem Ascending.notMem {pair : String × α} {rest : List (String × α)} (h : Ascending (pair :: rest)) :
    pair.1 ∉ rest.map (·.1) := by
  intro hmem
  obtain ⟨other, hother, hsame⟩ := List.mem_map.1 hmem
  exact absurd (hsame ▸ (List.pairwise_cons.1 h).1 other hother) (String.lt_irrefl pair.1)

/-- In a list whose keys ascend a key finds every pair that has it. -/
theorem Ascending.lookup_eq_some_iff {pairs : List (String × α)} (h : Ascending pairs) {key : String} {value : α} :
    pairs.lookup key = some value ↔ (key, value) ∈ pairs := by
  refine ⟨mem_of_lookup, fun hmem => ?_⟩
  induction pairs with
  | nil => cases hmem
  | cons pair rest ih =>
    rcases List.mem_cons.1 hmem with rfl | hmem
    · exact List.lookup_cons_self
    · have hne : key ≠ pair.1 := fun hsame => h.notMem (hsame ▸ List.mem_map_of_mem hmem)
      rw [List.lookup_cons, beq_eq_false_iff_ne.2 hne]
      exact ih (List.pairwise_cons.1 h).2 hmem

/-- Lists whose keys ascend are equal when they have the same under every key. -/
theorem Ascending.ext {pairs others : List (String × α)} (h : Ascending pairs) (h' : Ascending others)
    (hlookup : ∀ key, pairs.lookup key = others.lookup key) : pairs = others := by
  have hirrefl : Std.Irrefl fun first second : String × α => first.1 < second.1 := ⟨fun pair => String.lt_irrefl pair.1⟩
  have hantisymm : Std.Antisymm fun first second : String × α => first.1 < second.1 :=
    ⟨fun first second hlt hlt' => absurd (String.lt_trans hlt hlt') (String.lt_irrefl first.1)⟩
  refine List.Pairwise.eq_of_mem_iff h h' fun ⟨key, value⟩ => ?_
  rw [← h.lookup_eq_some_iff, hlookup, h'.lookup_eq_some_iff]

/-! ## Lists combined -/

/-- The pairs after others have been combined in one by one, each with what stands under its key, or else with a
start. -/
def combine (f : α → α → α) (start : α) (pairs more : List (String × α)) : List (String × α) :=
  more.foldl (fun sorted pair => insert pair.1 (f ((sorted.lookup pair.1).getD start) pair.2) sorted) pairs

section Combine

variable {f : α → α → α} {start : α}

/-- Nothing changes under a key that the others do not have. -/
theorem lookup_combine_of_lookup_eq_none {more : List (String × α)} {key : String} (h : more.lookup key = none)
    (pairs : List (String × α)) : (combine f start pairs more).lookup key = pairs.lookup key := by
  rw [lookup_eq_none_iff] at h
  induction more generalizing pairs with
  | nil => rfl
  | cons pair rest ih =>
    simp only [List.map_cons, List.mem_cons, not_or] at h
    rw [combine, List.foldl_cons]
    exact (ih h.2 _).trans (by rw [lookup_insert, if_neg h.1])

/-- Under a key of the others stands what was there, combined with theirs. -/
theorem lookup_combine_of_lookup {more : List (String × α)} (hmore : Ascending more) {key : String} {value : α}
    (h : more.lookup key = some value) (pairs : List (String × α)) :
    (combine f start pairs more).lookup key = some (f ((pairs.lookup key).getD start) value) := by
  induction more generalizing pairs with
  | nil => cases h
  | cons pair rest ih =>
    rw [combine, List.foldl_cons]
    by_cases hkey : key = pair.1
    · subst hkey
      rw [List.lookup_cons_self] at h
      cases h
      exact (lookup_combine_of_lookup_eq_none (lookup_eq_none_iff.2 hmore.notMem) _).trans
        (by rw [lookup_insert, if_pos rfl])
    · rw [List.lookup_cons, beq_eq_false_iff_ne.2 hkey] at h
      exact (ih (List.pairwise_cons.1 hmore).2 h _).trans (by rw [lookup_insert, if_neg hkey])

/-- When the start changes nothing that is combined with it, what stands under a key afterwards is what stands there in
either list, combined where both have the key. -/
theorem lookup_combine (hstart : ∀ value, f start value = value) {more : List (String × α)} (hmore : Ascending more)
    (pairs : List (String × α)) (key : String) :
    (combine f start pairs more).lookup key = Option.merge f (pairs.lookup key) (more.lookup key) := by
  cases hkey : more.lookup key with
  | none => rw [lookup_combine_of_lookup_eq_none hkey, Option.merge_none_right]
  | some value =>
    rw [lookup_combine_of_lookup hmore hkey]
    cases pairs.lookup key with
    | none => rw [Option.getD_none, hstart, Option.merge_none_left]
    | some old => rfl

/-- The keys stay in ascending order. -/
theorem ascending_combine (more : List (String × α)) {pairs : List (String × α)} (h : Ascending pairs) :
    Ascending (combine f start pairs more) := by
  induction more generalizing pairs with
  | nil => exact h
  | cons pair rest ih => exact ih (ascending_insert _ _ h)

end Combine

end Keyed

end ClusterQuery
