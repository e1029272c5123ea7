import Mathlib.Data.List.Infix
import ClusterQuery.Document.Merge
import ClusterQuery.Proofs.Keys

/-!
# What a patch changes

A patch merges into a document key by key (`get?_merge_of_lookup_eq_some`, `get?_merge_of_lookup_eq_none`). Where it has
a scalar the document has it afterwards (`at?_merge_of_scalar`), and a path that it spares leads where it led before
(`at?_merge_of_spares`). A patch grows by values nested at paths, and goes on to spare what is neither above nor below
them (`spares_merge_nested`).
-/

namespace ClusterQuery

/-- One of two paths leads on from the other. -/
def Comparable (path other : List String) : Prop :=
  path <+: other ∨ other <+: path

instance (path other : List String) : Decidable (Comparable path other) :=
  inferInstanceAs (Decidable (_ ∨ _))

/-- Paths that start with one key are comparable when their rests are. -/
theorem comparable_cons {key : String} {path other : List String} :
    Comparable (key :: path) (key :: other) ↔ Comparable path other := by
  rw [Comparable, Comparable, List.prefix_cons_inj, List.prefix_cons_inj]

theorem Comparable.symm {path other : List String} (h : Comparable path other) : Comparable other path :=
  Or.symm h

namespace Document

/-- The document is neither an array nor an object. -/
def isScalar : Document → Bool
  | .array _ | .object _ => false
  | _ => true

/-- The object that holds a value at a chain of fields and nothing else. -/
def nested (path : List String) (value : Document) : Document :=
  path.foldr singleton value

/-- Every object in the document has its keys in order. -/
def Orderly (document : Document) : Prop :=
  ∀ path fields, document.at? path = some (.object fields) → Keyed.Ascending fields

/-- The patch spares the path: it parts from it at a key that it does not have. -/
def Spares : Document → List String → Prop
  | _, [] => False
  | .object fields, key :: rest => ∀ value, fields.lookup key = some value → value.Spares rest
  | _, _ :: _ => False

/-! ## One key at a time -/

/-- A patch of a null is the patch. -/
theorem null_merge (patch : Document) : Document.null.merge patch = patch := by
  cases patch <;> simp [merge]

/-- A scalar replaces every document. -/
theorem merge_scalar {value : Document} (h : value.isScalar = true) (document : Document) :
    document.merge value = value := by
  cases value <;> simp_all [merge, isScalar]

/-- The fields after one field of a patch and the others. -/
theorem mergeFields_cons (fields : Fields) (key : String) (value : Document) (rest : Fields) :
    mergeFields fields ((key, value) :: rest) =
      mergeFields (Keyed.insert key (((fields.lookup key).getD .null).merge value) fields) rest := by
  rw [mergeFields]
  cases fields.lookup key with
  | none => rw [Option.getD_none, null_merge]
  | some old => rfl

/-- The fields of a patch are combined into others by merging. -/
theorem mergeFields_eq_combine (fields patch : Fields) :
    mergeFields fields patch = Keyed.combine merge .null fields patch := by
  induction patch generalizing fields with
  | nil =>
    rw [mergeFields]
    rfl
  | cons field rest ih =>
    rw [mergeFields_cons, ih]
    rfl

/-- A document that takes a patch keeps its fields under the keys that the patch does not have. -/
theorem get?_merge_of_lookup_eq_none {patch : Fields} {key : String} (h : patch.lookup key = none)
    (document : Document) : (document.merge (.object patch)).get? key = document.get? key := by
  cases document with
  | object fields =>
    rw [merge, mergeFields_eq_combine]
    exact Keyed.lookup_combine_of_lookup_eq_none h fields
  | _ =>
    rw [merge]
    · exact h
    · nofun

/-- A document that takes a patch merges into each field what the patch has under its key. -/
theorem get?_merge_of_lookup_eq_some {patch : Fields} (hpatch : Keyed.Ascending patch) {key : String}
    {value : Document} (h : patch.lookup key = some value) (document : Document) :
    (document.merge (.object patch)).get? key = some (((document.get? key).getD .null).merge value) := by
  cases document with
  | object fields =>
    rw [merge, mergeFields_eq_combine]
    exact Keyed.lookup_combine_of_lookup hpatch h fields
  | _ =>
    rw [merge]
    · exact h.trans (congrArg some (null_merge value).symm)
    · nofun

/-! ## Along a path -/

theorem at?_cons (document : Document) (key : String) (rest : List String) :
    document.at? (key :: rest) = (document.get? key).bind (·.at? rest) :=
  rfl

/-- What stands in an orderly document is orderly. -/
theorem Orderly.of_get? {document value : Document} (h : document.Orderly) {key : String}
    (hkey : document.get? key = some value) : value.Orderly :=
  fun path fields hpath => h (key :: path) fields (by rw [at?_cons, hkey]; exact hpath)

/-- Where a patch has a scalar, the document that takes it has the scalar. -/
theorem at?_merge_of_scalar {patch value : Document} {path : List String} (hpatch : patch.Orderly)
    (h : patch.at? path = some value) (hvalue : value.isScalar = true) (document : Document) :
    (document.merge patch).at? path = some value := by
  induction path generalizing patch document with
  | nil =>
    cases h
    rw [merge_scalar hvalue]
    rfl
  | cons key rest ih =>
    obtain ⟨inner, hinner, hrest⟩ := Option.bind_eq_some_iff.1 (at?_cons patch key rest ▸ h)
    cases patch with
    | object fields =>
      rw [at?_cons, get?_merge_of_lookup_eq_some (hpatch [] fields rfl) hinner]
      exact ih (hpatch.of_get? hinner) hrest _
    | _ => cases hinner

/-- A path that a patch spares leads where it led before. -/
theorem at?_merge_of_spares {patch : Document} {path : List String} (hpatch : patch.Orderly) (h : patch.Spares path)
    (document : Document) : (document.merge patch).at? path = document.at? path := by
  induction path generalizing patch document with
  | nil => exact absurd h (by simp [Spares])
  | cons key rest ih =>
    cases patch with
    | object fields =>
      rw [at?_cons, at?_cons]
      cases hkey : fields.lookup key with
      | none => rw [get?_merge_of_lookup_eq_none hkey]
      | some value =>
        have hspares : value.Spares rest := h value hkey
        rw [get?_merge_of_lookup_eq_some (hpatch [] fields rfl) hkey, Option.bind_some,
          ih (hpatch.of_get? hkey) hspares]
        cases document.get? key with
        | some old => rfl
        | none =>
          -- the path goes on, and from nothing it leads nowhere
          cases rest with
          | nil => exact absurd hspares (by simp [Spares])
          | cons next others => rfl
    | _ => exact absurd h (by simp [Spares])

/-- A patch has no scalar on the way along a path that it spares. -/
theorem Spares.not_isPrefixOf {patch value : Document} {path other : List String} (h : patch.Spares other)
    (hpath : patch.at? path = some value) (hvalue : value.isScalar = true) : ¬path <+: other := by
  induction path generalizing patch other with
  | nil =>
    cases hpath
    cases other with
    | nil => exact fun _ => by simp [Spares] at h
    | cons key rest =>
      cases value with
      | object fields => cases hvalue
      | _ => exact fun _ => by simp [Spares] at h
  | cons key rest ih =>
    rintro ⟨more, rfl⟩
    obtain ⟨inner, hinner, hrest⟩ := Option.bind_eq_some_iff.1 (at?_cons patch key rest ▸ hpath)
    cases patch with
    | object fields => exact ih (h inner hinner) hrest (List.prefix_append rest more)
    | _ => cases hinner

/-! ## Patches of nested values -/

/-- A value nested below a key is merged in below that key. -/
theorem merge_nested_cons (document : Document) (key : String) (rest : List String) (value : Document) :
    document.merge (nested (key :: rest) value) =
      .object (Keyed.insert key (((document.get? key).getD .null).merge (nested rest value))
        ((document.fields?).getD [])) := by
  cases document with
  | object fields =>
    show (Document.object fields).merge (.object [(key, nested rest value)]) = _
    rw [merge, mergeFields_cons, mergeFields]
    rfl
  | _ =>
    rw [nested, List.foldr_cons, singleton, merge]
    · exact congrArg (fun inner => Document.object [(key, inner)]) (null_merge _).symm
    · nofun

/-- What stands below a key after a value is nested below one. -/
theorem get?_merge_nested_cons (document : Document) (key : String) (rest : List String) (value : Document)
    (other : String) : (document.merge (nested (key :: rest) value)).get? other =
      if other = key then some (((document.get? key).getD .null).merge (nested rest value))
        else document.get? other := by
  rw [merge_nested_cons]
  show List.lookup other (Keyed.insert _ _ _) = _
  rw [Keyed.lookup_insert]
  cases document <;> rfl

theorem orderly_null : Document.null.Orderly := by
  intro path fields hpath
  cases path <;> cases hpath

/-- What may stand below a key of an orderly document is orderly. -/
theorem Orderly.getD_get? {document : Document} (h : document.Orderly) (key : String) :
    ((document.get? key).getD .null).Orderly := by
  cases hkey : document.get? key with
  | none => exact orderly_null
  | some value => exact h.of_get? hkey

/-- An orderly document stays so when a scalar is merged in at a path. -/
theorem Orderly.merge_nested {document value : Document} (h : document.Orderly) (path : List String)
    (hvalue : value.isScalar = true) : (document.merge (nested path value)).Orderly := by
  induction path generalizing document with
  | nil =>
    intro way fields hway
    rw [nested, List.foldr_nil, merge_scalar hvalue] at hway
    cases way with
    | nil =>
      cases hway
      cases hvalue
    | cons key rest => cases value <;> cases hvalue <;> cases hway
  | cons key rest ih =>
    intro way fields hway
    cases way with
    | nil =>
      rw [merge_nested_cons] at hway
      cases hway
      refine Keyed.ascending_insert _ _ ?_
      cases document with
      | object fields => exact h [] fields rfl
      | _ => exact List.Pairwise.nil
    | cons first others =>
      rw [at?_cons, get?_merge_nested_cons] at hway
      split at hway
      · exact ih (h.getD_get? key) others fields hway
      · exact h (first :: others) fields hway

/-- A patch goes on to spare a path when a value is merged into it at a path that is neither above nor below. -/
theorem Spares.merge_nested {patch value : Document} {path other : List String}
    (h : ∀ fields, patch = .object fields → patch.Spares other) (hother : ¬Comparable path other) :
    (patch.merge (nested path value)).Spares other := by
  induction path generalizing patch other with
  | nil => exact absurd (Or.inl List.nil_prefix) hother
  | cons key rest ih =>
    cases other with
    | nil => exact absurd (Or.inr List.nil_prefix) hother
    | cons first others =>
      rw [merge_nested_cons]
      intro inner hinner
      rw [Keyed.lookup_insert] at hinner
      have hfields : ∀ held, ((patch.fields?).getD []).lookup first = some held → held.Spares others := by
        cases patch with
        | object fields => exact h fields rfl
        | _ => nofun
      split at hinner
      · rename_i hkey
        subst hkey
        cases hinner
        refine ih (fun fields hheld => ?_) fun hc => hother (comparable_cons.2 hc)
        cases hget : patch.get? first with
        | none =>
          rw [hget] at hheld
          cases hheld
        | some held =>
          refine hfields held ?_
          cases patch with
          | object fields => exact hget
          | _ => cases hget
      · exact hfields inner hinner

/-- A value nested at a path stands there. -/
theorem at?_nested (path : List String) (value : Document) : (nested path value).at? path = some value := by
  induction path with
  | nil => rfl
  | cons key rest ih =>
    show (List.lookup key [(key, nested rest value)]).bind _ = _
    rw [List.lookup_cons_self]
    exact ih

/-- A document that takes a scalar at a path has it there. -/
theorem at?_merge_nested {value : Document} (hvalue : value.isScalar = true) (document : Document)
    (path : List String) : (document.merge (nested path value)).at? path = some value := by
  refine at?_merge_of_scalar ?_ (at?_nested path value) hvalue document
  rw [← null_merge (nested path value)]
  exact orderly_null.merge_nested path hvalue

/-- A document that takes a scalar at a path keeps what is neither above nor below. -/
theorem at?_merge_nested_of_not_comparable {value : Document} (hvalue : value.isScalar = true) (document : Document)
    {path other : List String} (h : ¬Comparable path other) :
    (document.merge (nested path value)).at? other = document.at? other := by
  rw [← null_merge (nested path value)]
  exact at?_merge_of_spares (orderly_null.merge_nested path hvalue) (Spares.merge_nested nofun h) document

end Document

end ClusterQuery
