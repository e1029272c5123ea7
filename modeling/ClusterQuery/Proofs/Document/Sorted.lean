import ClusterQuery.Json.Basic
import ClusterQuery.Proofs.Keys

/-!
# Documents with their keys in order

The keys of every object ascend in a document that is read from a text (`sorted_of_read?`).
-/

namespace ClusterQuery

namespace Document

/-- The item of an array at a position. -/
def itemAt? (document : Document) (position : Nat) : Option Document :=
  document.items?.bind (·[position]?)

theorem get?_eq_some_iff {document value : Document} {key : String} :
    document.get? key = some value ↔ ∃ fields, document = .object fields ∧ fields.lookup key = some value := by
  cases document <;> simp [get?]

theorem get?_singleton (key : String) (value : Document) : (singleton key value).get? key = some value :=
  List.lookup_cons_self

theorem items?_eq_some_iff {document : Document} {items : List Document} :
    document.items? = some items ↔ document = .array items := by
  cases document <;> simp [items?]

/-- In every object of the document, at any depth, the keys ascend, each once. -/
inductive Sorted : Document → Prop where
  | null : Sorted .null
  | bool (value : Bool) : Sorted (.bool value)
  | number (value : Number) : Sorted (.number value)
  | string (value : String) : Sorted (.string value)
  | array {items : List Document} (h : ∀ item ∈ items, Sorted item) : Sorted (.array items)
  | object {fields : Fields} (hkeys : Keyed.Ascending fields) (h : ∀ field ∈ fields, Sorted field.2) :
    Sorted (.object fields)

attribute [simp] Sorted.null Sorted.bool Sorted.number Sorted.string

@[simp]
theorem sorted_array {items : List Document} : (Document.array items).Sorted ↔ ∀ item ∈ items, item.Sorted :=
  ⟨fun h => by cases h; assumption, .array⟩

@[simp]
theorem sorted_object {fields : Fields} :
    (Document.object fields).Sorted ↔ Keyed.Ascending fields ∧ ∀ field ∈ fields, field.2.Sorted :=
  ⟨fun h => by cases h; constructor <;> assumption, fun h => .object h.1 h.2⟩

/-- The value of a field of a sorted document is sorted. -/
theorem Sorted.of_get? {document value : Document} (h : document.Sorted) {key : String}
    (hkey : document.get? key = some value) : value.Sorted := by
  obtain ⟨fields, rfl, hvalue⟩ := get?_eq_some_iff.1 hkey
  exact (sorted_object.1 h).2 (key, value) (Keyed.mem_of_lookup hvalue)

/-- The items of a sorted document are sorted. -/
theorem Sorted.of_mem_items {document : Document} (h : document.Sorted) {items : List Document}
    (hitems : document.items? = some items) {item : Document} (hmem : item ∈ items) : item.Sorted := by
  obtain rfl := items?_eq_some_iff.1 hitems
  exact sorted_array.1 h item hmem

theorem Sorted.of_itemAt? {document item : Document} (h : document.Sorted) {position : Nat}
    (hitem : document.itemAt? position = some item) : item.Sorted := by
  obtain ⟨items, hitems, hitem⟩ := Option.bind_eq_some_iff.1 hitem
  exact h.of_mem_items hitems (List.mem_of_getElem? hitem)

/-! ## Documents that are read -/

mutual

/-- The document of a tree is sorted. -/
theorem sorted_toDocument? (room : Nat) (tree : Json) (document : Document)
    (h : tree.toDocument? room = some document) : document.Sorted := by
  cases tree with
  | null =>
    cases h
    exact .null
  | bool value =>
    cases h
    exact .bool value
  | number value =>
    obtain ⟨value, -, rfl⟩ := Option.map_eq_some_iff.1 h
    exact .number value
  | string value =>
    obtain ⟨value, -, rfl⟩ := Option.map_eq_some_iff.1 h
    exact .string value
  | array items =>
    rw [Json.toDocument?, Option.ite_none_left_eq_some] at h
    obtain ⟨read, hread, rfl⟩ := Option.map_eq_some_iff.1 h.2
    exact .array (sorted_toItems? _ items read hread)
  | object members =>
    rw [Json.toDocument?, Option.ite_none_left_eq_some] at h
    obtain ⟨read, hread, rfl⟩ := Option.map_eq_some_iff.1 h.2
    exact .object (Keyed.ascending_ofList read) fun field hfield =>
      sorted_toFields? _ members read hread field (Keyed.mem_of_mem_ofList hfield)

/-- The documents of items are sorted. -/
theorem sorted_toItems? (room : Nat) (items : List Json) (read : List Document)
    (h : Json.toItems? room items = some read) : ∀ item ∈ read, item.Sorted := by
  cases items with
  | nil =>
    cases h
    exact nofun
  | cons item rest =>
    simp only [Json.toItems?] at h
    split at h
    · rename_i first others hfirst hothers
      cases h
      exact List.forall_mem_cons.2 ⟨sorted_toDocument? room item first hfirst, sorted_toItems? room rest others hothers⟩
    · cases h

/-- The documents of members are sorted. -/
theorem sorted_toFields? (room : Nat) (members : Json.Members) (read : Fields)
    (h : Json.toFields? room members = some read) : ∀ field ∈ read, field.2.Sorted := by
  cases members with
  | nil =>
    cases h
    exact nofun
  | cons member rest =>
    obtain ⟨key, value⟩ := member
    simp only [Json.toFields?] at h
    split at h
    · rename_i name first others hfirst hothers
      cases h
      exact List.forall_mem_cons.2
        ⟨sorted_toDocument? room value first hfirst, sorted_toFields? room rest others hothers⟩
    · cases h

end

/-- A document that is read from a text is sorted. -/
theorem sorted_of_read? {text : String} {document : Document} (h : read? text = some document) : document.Sorted := by
  obtain ⟨tree, -, htree⟩ := Option.bind_eq_some_iff.1 h
  exact sorted_toDocument? Json.maxDepth tree document htree

end Document

end ClusterQuery
