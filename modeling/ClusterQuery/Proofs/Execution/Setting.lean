import Mathlib.Data.List.Infix
import ClusterQuery.Proofs.Document.Remerging
import ClusterQuery.Proofs.Execution.Describing

/-!
# Assignments change what they assign

The patch of assignments has each value nested at its path, later ones merged into earlier ones (`patchOf?`); it is what
a query that assigns makes for each of its targets (`mem_zip_patchesOf`). A document that takes the patch has at a path
the value assigned there, when nothing is assigned later above or below it, has elsewhere what it had before, and takes
the same patch again without a change (`exists_patch_setting`). Paths that are comparable with a later one are left out:
what stands there depends on how the later values come to lie over the earlier ones.
-/

namespace ClusterQuery

namespace FieldPath

/-- The path through fields of the given names. -/
def ofNames (names : List String) : FieldPath :=
  ⟨names.map Segment.field⟩

/-- One of two paths leads on from the other, or they are equal. -/
def Comparable (path other : FieldPath) : Prop :=
  path.segments <+: other.segments ∨ other.segments <+: path.segments

instance (path other : FieldPath) : Decidable (path.Comparable other) :=
  inferInstanceAs (Decidable (_ ∨ _))

/-- A plain path has names. -/
theorem exists_eq_ofNames {path : FieldPath} (h : path.isPlain = true) : ∃ names, path = ofNames names := by
  obtain ⟨segments⟩ := path
  induction segments with
  | nil => exact ⟨[], rfl⟩
  | cons segment rest ih =>
    obtain ⟨hfield, hrest⟩ := Bool.and_eq_true_iff.1 h
    obtain ⟨names, hnames⟩ := ih hrest
    obtain rfl : rest = names.map Segment.field := congrArg FieldPath.segments hnames
    cases segment with
    | field name => exact ⟨name :: names, rfl⟩
    | index | wildcard => cases hfield

theorem fieldNames?_ofNames (names : List String) : SelectorKey.fieldNames? (ofNames names).segments = some names := by
  induction names with
  | nil => rfl
  | cons name rest ih =>
    show (SelectorKey.fieldNames? (ofNames rest).segments).map (name :: ·) = _
    rw [ih]
    rfl

/-- Paths through fields are comparable when their names are. -/
theorem comparable_ofNames {names others : List String} :
    (ofNames names).Comparable (ofNames others) ↔ ClusterQuery.Comparable names others := by
  have hinj : Function.Injective Segment.field := fun _ _ h => Segment.field.inj h
  simp only [Comparable, ofNames, List.prefix_map_iff_of_injective hinj, ClusterQuery.Comparable]

/-- A value is nested at the names of a path through fields. -/
theorem nest_ofNames (names : List String) (value : Document) :
    (ofNames names).nest value = some (Document.nested names value) := by
  rw [nest, nestFrom_eq, fieldNames?_ofNames]
  rfl

/-- A path through fields reaches what stands at its names. -/
theorem resolve_ofNames (names : List String) (document : Document) :
    (ofNames names).resolve document = (document.at? names).toList :=
  resolveFrom_eq (fieldNames?_ofNames names) document

end FieldPath

/-! ## The patch of assignments -/

/-- The patch of values for paths: each is nested at its path, and they are merged in order into the object without
fields. There is none when one of the paths is not plain. -/
def patchOf? (settings : List (FieldPath × Literal)) : Option Document :=
  settings.foldlM (fun patch setting => (setting.1.nest setting.2.toDocument).map patch.merge) Document.empty

/-- What assignments set below a binding: paths with their values, in order. -/
def settingsFor (bindings : List String) (assignments : List Property) (binding : String) :
    List (FieldPath × Literal) :=
  (assignedTo bindings assignments binding).map fun assigned => (FieldPath.ofNames assigned.1, assigned.2)

/-- Values for plain paths are assigned at the names of the paths. -/
theorem exists_assigned {settings : List (FieldPath × Literal)}
    (hplain : ∀ setting ∈ settings, setting.1.isPlain = true) :
    ∃ assigned : List (List String × Literal),
      settings = assigned.map fun assigned => (FieldPath.ofNames assigned.1, assigned.2) := by
  induction settings with
  | nil => exact ⟨[], rfl⟩
  | cons setting rest ih =>
    obtain ⟨path, value⟩ := setting
    obtain ⟨hpath, hrest⟩ := List.forall_mem_cons.1 hplain
    obtain ⟨names, rfl⟩ := FieldPath.exists_eq_ofNames hpath
    obtain ⟨assigned, rfl⟩ := ih hrest
    exact ⟨(names, value) :: assigned, rfl⟩

/-- The patch of values for paths through fields is that of what is assigned at their names. -/
theorem patchOf?_map (assigned : List (List String × Literal)) :
    patchOf? (assigned.map fun assigned => (FieldPath.ofNames assigned.1, assigned.2)) =
      some (mergedPatch assigned) := by
  rw [patchOf?, mergedPatch]
  generalize Document.empty = start
  induction assigned generalizing start with
  | nil => rfl
  | cons entry rest ih =>
    rw [List.map_cons, List.foldlM_cons, FieldPath.nest_ofNames]
    exact ih _

/-- The patch that assignments make for a target is that of what they set below its binding. -/
theorem mem_zip_patchesOf {targets : List Target} (hnames : (targets.map (·.node.name)).Nodup)
    {assignments : List Property} {patches : List Document} (h : patchesOf targets assignments = .ok patches)
    {target : Target} (htarget : target ∈ targets) {patch : Document}
    (hpatch : patchOf? (settingsFor (targets.map (·.node.name)) assignments target.node.name) = some patch) :
    (target, patch) ∈ targets.zip patches := by
  rw [settingsFor, patchOf?_map] at hpatch
  obtain rfl := Option.some.inj hpatch
  rw [patchesOf_eq hnames h, ← List.map_prod_left_eq_zip]
  exact List.mem_map_of_mem htarget

/-! ## What the patch changes -/

/-- The patch of assignments is sorted. -/
theorem sorted_mergedPatch (assigned : List (List String × Literal)) : (mergedPatch assigned).Sorted := by
  have hvalue : ∀ literal : Literal, literal.toDocument.Sorted := by
    intro literal
    cases literal <;> simp [Literal.toDocument, Document.int]
  have hempty : Document.empty.Sorted := by simp [Document.empty, Keyed.Ascending]
  rw [mergedPatch]
  refine List.foldlRecOn assigned assignInto hempty ?_
  intro patch hpatch entry _
  exact hpatch.merge ((hvalue entry.2).nested entry.1)

/-- A document that takes the patch of assignments has a value that they assign at its path, when none of the later
ones is above or below it. -/
theorem at?_merge_mergedPatch {before after : List (List String × Literal)} {entry : List String × Literal}
    (hafter : ∀ later ∈ after, ¬Comparable later.1 entry.1) (document : Document) :
    (document.merge (mergedPatch (before ++ entry :: after))).at? entry.1 = some entry.2.toDocument := by
  have hpatch : (mergedPatch (before ++ entry :: after)).at? entry.1 = some entry.2.toDocument := by
    rw [mergedPatch, List.foldl_append, List.foldl_cons, at?_foldl_assignInto_of_not_comparable hafter]
    exact Document.at?_merge_nested entry.2.isScalar_toDocument _ entry.1
  exact Document.at?_merge_of_scalar (orderly_mergedPatch _) hpatch entry.2.isScalar_toDocument document

/-- A document that takes the patch of assignments keeps what is neither above nor below any of them. -/
theorem at?_merge_mergedPatch_of_not_comparable {assigned : List (List String × Literal)} (hne : assigned ≠ [])
    {path : List String} (h : ∀ entry ∈ assigned, ¬Comparable entry.1 path) (document : Document) :
    (document.merge (mergedPatch assigned)).at? path = document.at? path := by
  -- the document itself is above every path, so something has to be assigned
  have hpath : path ≠ [] := by
    rintro rfl
    obtain ⟨entry, hentry⟩ := List.exists_mem_of_ne_nil assigned hne
    exact h entry hentry (Or.inr List.nil_prefix)
  exact Document.at?_merge_of_spares (orderly_mergedPatch assigned) (spares_mergedPatch hpath h) document

/-- Assignments change what they assign and nothing else. Values for plain paths, at least one of them, have a patch;
it is the one that a query makes of assignments for a target, when these are what they set below its binding. Whatever
document takes the patch: a path reaches the value assigned there and nothing more, when it is not comparable with the
path of a later assignment; a plain path that is comparable with none of the assigned ones reaches what it reached
before; and the same patch changes nothing when it is merged in again. -/
theorem exists_patch_setting {settings : List (FieldPath × Literal)} (hne : settings ≠ [])
    (hplain : ∀ setting ∈ settings, setting.1.isPlain = true) :
    ∃ patch, patchOf? settings = some patch ∧
      (∀ (targets : List Target) (assignments : List Property) (patches : List Document) (target : Target),
        (targets.map (·.node.name)).Nodup → patchesOf targets assignments = .ok patches → target ∈ targets →
        settingsFor (targets.map (·.node.name)) assignments target.node.name = settings →
        (target, patch) ∈ targets.zip patches) ∧
      ∀ document : Document,
        (∀ before path value after, settings = before ++ (path, value) :: after →
          (∀ later ∈ after, ¬path.Comparable later.1) →
          path.resolve (document.merge patch) = [value.toDocument]) ∧
        (∀ path : FieldPath, path.isPlain = true → (∀ setting ∈ settings, ¬path.Comparable setting.1) →
          path.resolve (document.merge patch) = path.resolve document) ∧
        (document.merge patch).merge patch = document.merge patch := by
  obtain ⟨assigned, rfl⟩ := exists_assigned hplain
  refine ⟨mergedPatch assigned, patchOf?_map assigned, ?_, ?_⟩
  · intro targets assignments patches target hnames hpatches htarget hsettings
    exact mem_zip_patchesOf hnames hpatches htarget (hsettings ▸ patchOf?_map assigned)
  intro document
  refine ⟨?_, ?_, Document.merge_merge (sorted_mergedPatch assigned) document⟩
  · intro before path value after hsplit hafter
    obtain ⟨first, others, rfl, rfl, hothers⟩ := List.map_eq_append_iff.1 hsplit
    obtain ⟨entry, rest, rfl, hentry, rfl⟩ := List.map_eq_cons_iff.1 hothers
    obtain ⟨rfl, rfl⟩ := Prod.mk.inj hentry
    rw [FieldPath.resolve_ofNames, at?_merge_mergedPatch]
    · rfl
    · intro later hlater hcomparable
      exact hafter _ (List.mem_map_of_mem hlater) (FieldPath.comparable_ofNames.2 hcomparable.symm)
  · intro path hpath hapart
    obtain ⟨names, rfl⟩ := FieldPath.exists_eq_ofNames hpath
    have hassigned : assigned ≠ [] := fun hnil => hne (by rw [hnil]; rfl)
    rw [FieldPath.resolve_ofNames, FieldPath.resolve_ofNames, at?_merge_mergedPatch_of_not_comparable hassigned]
    intro entry hentry hcomparable
    exact hapart _ (List.mem_map_of_mem hentry) (FieldPath.comparable_ofNames.2 hcomparable.symm)

namespace Sample

/-- All pods. -/
def everyPod : Target :=
  ⟨Node.ofBinding "p" "Pod" [], ⟨⟨"", "v1", "pods"⟩, "Pod", true⟩, .everything, []⟩

/-- A number of replicas that a text replaces, which gives way to a flag; and a label. -/
def layeredAssignments : List Property :=
  [⟨"spec.replicas", .integer 1⟩, ⟨"p.spec", .string "x"⟩, ⟨"p.spec.paused", .boolean true⟩,
    ⟨"metadata.labels.app", .string "web"⟩]

/-- What they set for the pods. -/
def layeredSettings : List (FieldPath × Literal) :=
  [(.ofNames ["spec", "replicas"], .integer 1), (.ofNames ["spec"], .string "x"),
    (.ofNames ["spec", "paused"], .boolean true), (.ofNames ["metadata", "labels", "app"], .string "web")]

/-- A pod with an array in the way of the flag. -/
def listedPod : Document :=
  .object [("metadata", .object [("name", .string "web")]), ("spec", .array [.int 1])]

end Sample

/-- The flag stands in the object that took the place of the text and of the array, the name is as it was, and a second
time the patch changes nothing. -/
theorem exists_patch_setting_layered :
    Sample.layeredSettings ≠ [] ∧ (∀ setting ∈ Sample.layeredSettings, setting.1.isPlain = true) ∧
      ∃ patch patches, patchOf? Sample.layeredSettings = some patch ∧
        patchesOf [Sample.everyPod] Sample.layeredAssignments = .ok patches ∧
        (Sample.everyPod, patch) ∈ [Sample.everyPod].zip patches ∧
        (FieldPath.ofNames ["spec", "paused"]).resolve (Sample.listedPod.merge patch) = [.bool true] ∧
        (FieldPath.ofNames ["metadata", "name"]).resolve (Sample.listedPod.merge patch) = [.string "web"] ∧
        (Sample.listedPod.merge patch).merge patch = Sample.listedPod.merge patch := by
  have hne : Sample.layeredSettings ≠ [] := List.cons_ne_nil _ _
  have hplain : ∀ setting ∈ Sample.layeredSettings, setting.1.isPlain = true := by decide
  have hsettings : settingsFor ["p"] Sample.layeredAssignments "p" = Sample.layeredSettings := by decide +kernel
  have hok : (patchesOf [Sample.everyPod] Sample.layeredAssignments).toOption.isSome = true := by decide +kernel
  obtain ⟨patch, hpatch, hmade, hchange⟩ := exists_patch_setting hne hplain
  obtain ⟨hset, hkept, hagain⟩ := hchange Sample.listedPod
  cases hpatches : patchesOf [Sample.everyPod] Sample.layeredAssignments with
  | error cause =>
    rw [hpatches] at hok
    cases hok
  | ok patches =>
    refine ⟨hne, hplain, patch, patches, hpatch, rfl, ?_, ?_, ?_, hagain⟩
    · exact hmade _ _ _ _ (List.nodup_singleton _) hpatches List.mem_cons_self hsettings
    · exact hset (Sample.layeredSettings.take 2) _ _ [(.ofNames ["metadata", "labels", "app"], .string "web")] rfl
        (by decide)
    · exact hkept _ rfl (by decide)

end ClusterQuery
