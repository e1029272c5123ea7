import ClusterQuery.FieldPath.Reach
import ClusterQuery.Proofs.Document.Overlaying

/-!
# Projections to fields and wildcards

A path without indexes cuts a part out of a document (`partOf_of_extractFrom`), and it finds the same in every part
that its cut is part of (`extractFrom_eq_of_between`, `resolveFrom_eq_of_between`). A projection to such paths is the
least part of the document that all their cuts are parts of (`project_between`). So the paths reach in it what they
reach in the document, however they are ordered and repeated, a projection of the projection is the projection, and
nothing but nulls stands in it that does not stand in the document. What no path leads to is left out of it
(`resolve_project_eq_nil`).
-/

namespace ClusterQuery

/-- The segment is an index. -/
def Segment.isIndex : Segment → Bool
  | .index _ => true
  | _ => false

/-- The segment leads where another one does; a wildcard leads to every index. -/
def Segment.covers : Segment → Segment → Bool
  | .wildcard, .index _ => true
  | segment, other => segment == other

namespace FieldPath

/-- The path has no index. -/
def indexFree (path : FieldPath) : Bool :=
  path.segments.all (!·.isIndex)

/-- The path has no wildcard, so it reaches one value at most. -/
def singular (path : FieldPath) : Bool :=
  path.segments.all (· != .wildcard)

/-- The segments and those of a position lead the same way as far as both go. -/
def meets : List Segment → List Segment → Bool
  | segment :: rest, other :: more => segment.covers other && meets rest more
  | _, _ => true

variable {segments : List Segment} {document : Document}

/-! ## Cuts -/

/-- Segments that cut nothing out of a document reach nothing in it. -/
theorem resolveFrom_eq_nil (h : extractFrom segments document = none) : resolveFrom segments document = [] := by
  induction segments generalizing document with
  | nil => cases h
  | cons segment rest ih =>
    refine List.flatMap_eq_nil_iff.2 fun value hvalue => ?_
    cases segment with
    | field name =>
      rw [extractFrom, Option.map_eq_none_iff] at h
      exact ih (Option.bind_eq_none_iff.1 h value (Option.mem_toList.1 hvalue))
    | index position =>
      rw [extractFrom, Option.map_eq_none_iff] at h
      exact ih (Option.bind_eq_none_iff.1 h value (Option.mem_toList.1 hvalue))
    | wildcard =>
      rw [extractFrom, Option.map_eq_none_iff] at h
      rw [Segment.step, h] at hvalue
      cases hvalue

/-- Segments without indexes cut a part out of a document. -/
theorem partOf_of_extractFrom (hfree : segments.all (!·.isIndex) = true) (hsorted : document.Sorted) {cut : Document}
    (h : extractFrom segments document = some cut) : cut.PartOf document := by
  induction segments generalizing document cut with
  | nil =>
    cases h
    exact hsorted.partOf_self
  | cons segment rest ih =>
    obtain ⟨hsegment, hrest⟩ := Bool.and_eq_true_iff.1 hfree
    cases segment with
    | index => cases hsegment
    | field name =>
      obtain ⟨inner, hinner, rfl⟩ := Option.map_eq_some_iff.1 h
      obtain ⟨value, hvalue, hinner⟩ := Option.bind_eq_some_iff.1 hinner
      exact hsorted.singleton_partOf hvalue (ih hrest (hsorted.of_get? hvalue) hinner)
    | wildcard =>
      obtain ⟨items, hitems, rfl⟩ := Option.map_eq_some_iff.1 h
      obtain rfl := Document.items?_eq_some_iff.1 hitems
      refine .array (List.length_map _) fun position item whole hitem hwhole => ?_
      rw [List.getElem?_map, hwhole, Option.map_some] at hitem
      obtain rfl := Option.some.inj hitem
      cases hinner : extractFrom rest whole with
      | none => exact .null whole
      | some inner => exact ih hrest (hsorted.of_mem_items rfl (List.mem_of_getElem? hwhole)) hinner

/-- A function that agrees at every position maps lists of one length to one list. -/
theorem map_eq_map_of_getElem? {α β : Type} {f : α → β} {items others : List α} (hlength : items.length = others.length)
    (h : ∀ (position : Nat) (item other : α), items[position]? = some item → others[position]? = some other →
      f item = f other) : items.map f = others.map f := by
  refine List.ext_getElem (by rw [List.length_map, List.length_map, hlength]) fun position hitem hother => ?_
  rw [List.getElem_map, List.getElem_map]
  exact h position _ _ (List.getElem?_eq_getElem _) (List.getElem?_eq_getElem _)

/-- Arrays whose items agree on what some segments cut out and reach agree on it below a wildcard. -/
theorem extractFrom_and_resolveFrom_wildcard {held items : List Document} (hlength : held.length = items.length)
    (h : ∀ (position : Nat) (item whole : Document), held[position]? = some item → items[position]? = some whole →
      extractFrom segments item = extractFrom segments whole ∧ resolveFrom segments item = resolveFrom segments whole) :
    extractFrom (.wildcard :: segments) (.array held) = extractFrom (.wildcard :: segments) (.array items) ∧
      resolveFrom (.wildcard :: segments) (.array held) = resolveFrom (.wildcard :: segments) (.array items) := by
  have hcuts : held.map (fun item => (extractFrom segments item).getD .null) =
      items.map fun item => (extractFrom segments item).getD .null :=
    map_eq_map_of_getElem? hlength fun position item whole hitem hwhole => by
      rw [(h position item whole hitem hwhole).1]
  have hreached : held.map (resolveFrom segments) = items.map (resolveFrom segments) :=
    map_eq_map_of_getElem? hlength fun position item whole hitem hwhole => (h position item whole hitem hwhole).2
  constructor
  · rw [extractFrom, extractFrom, Document.items?, Document.items?, Option.map_some, Option.map_some, hcuts]
  · show held.flatMap (resolveFrom segments) = items.flatMap (resolveFrom segments)
    rw [List.flatMap_def, List.flatMap_def, hreached]

/-- Between its cut and the document, a path without indexes cuts out the same and reaches the same. -/
theorem extractFrom_and_resolveFrom_of_between (hfree : segments.all (!·.isIndex) = true) {between : Document}
    (hcut : ∀ cut, extractFrom segments document = some cut → cut.PartOf between) (h : between.PartOf document) :
    extractFrom segments between = extractFrom segments document ∧
      resolveFrom segments between = resolveFrom segments document := by
  induction segments generalizing document between with
  | nil =>
    obtain rfl := h.antisymm (hcut document rfl)
    exact ⟨rfl, rfl⟩
  | cons segment rest ih =>
    obtain ⟨hsegment, hrest⟩ := Bool.and_eq_true_iff.1 hfree
    cases segment with
    | index => cases hsegment
    | field name =>
      -- what is cut out below the field is part of what stands there in between
      have hbelow : ∀ value inner, document.get? name = some value → extractFrom rest value = some inner →
          ∃ held, between.get? name = some held ∧ inner.PartOf held := by
        intro value inner hvalue hinner
        have hpart := hcut (.singleton name inner) (by rw [extractFrom, hvalue, Option.bind_some, hinner]; rfl)
        exact hpart.of_get? (Document.get?_singleton name inner)
      simp only [extractFrom, resolveFrom, Segment.step]
      cases hheld : between.get? name with
      | none =>
        cases hvalue : document.get? name with
        | none => exact ⟨rfl, rfl⟩
        | some value =>
          cases hinner : extractFrom rest value with
          | none => simp [hinner, resolveFrom_eq_nil hinner]
          | some inner =>
            obtain ⟨held, hheld', -⟩ := hbelow value inner hvalue hinner
            cases hheld.symm.trans hheld'
      | some held =>
        obtain ⟨value, hvalue, hpart⟩ := h.of_get? hheld
        have hinner := ih hrest (fun inner hinner => ?_) hpart
        · simp [hvalue, hinner]
        · obtain ⟨held', hheld', hpart⟩ := hbelow value inner hvalue hinner
          cases hheld.symm.trans hheld'
          exact hpart
    | wildcard =>
      cases hitems : document.items? with
      | none =>
        cases hheld : between.items? with
        | none => simp [extractFrom, resolveFrom, Segment.step, hitems, hheld]
        | some held =>
          obtain ⟨items, hitems', -⟩ := h.of_items hheld
          cases hitems.symm.trans hitems'
      | some items =>
        have hpart := hcut (.array (items.map fun item => (extractFrom rest item).getD .null))
          (by rw [extractFrom, hitems]; rfl)
        obtain ⟨held, hheld, -, hcuts⟩ := hpart.of_items rfl
        obtain ⟨items', hitems', hlength, hparts⟩ := h.of_items hheld
        cases hitems.symm.trans hitems'
        obtain rfl := Document.items?_eq_some_iff.1 hitems
        obtain rfl := Document.items?_eq_some_iff.1 hheld
        refine extractFrom_and_resolveFrom_wildcard hlength fun position item whole hitem hwhole => ?_
        refine ih hrest (fun inner hinner => ?_) (hparts position item whole hitem hwhole)
        exact hcuts position inner item (by rw [List.getElem?_map, hwhole, Option.map_some, hinner]; rfl) hitem

/-- In a part of a document a path without wildcards reaches a part of what it reaches in the document. -/
theorem resolveFrom_partOf (hsingular : segments.all (· != .wildcard) = true) {part value : Document}
    (h : part.PartOf document) (hvalue : value ∈ resolveFrom segments part) :
    ∃ whole, resolveFrom segments document = [whole] ∧ value.PartOf whole := by
  induction segments generalizing document part with
  | nil => exact ⟨document, rfl, List.mem_singleton.1 hvalue ▸ h⟩
  | cons segment rest ih =>
    obtain ⟨hsegment, hrest⟩ := Bool.and_eq_true_iff.1 hsingular
    obtain ⟨held, hheld, hreached⟩ := List.mem_flatMap.1 hvalue
    cases segment with
    | wildcard => cases hsegment
    | field name =>
      obtain ⟨whole, hwhole, hpart⟩ := h.of_get? (Option.mem_toList.1 hheld)
      simpa [resolveFrom, Segment.step, hwhole] using ih hrest hpart hreached
    | index position =>
      obtain ⟨items, hitems, hheld⟩ := Option.bind_eq_some_iff.1 (Option.mem_toList.1 hheld)
      obtain ⟨wholes, hwholes, hlength, hparts⟩ := h.of_items hitems
      have hposition := hlength ▸ (List.getElem?_eq_some_iff.1 hheld).1
      have hwhole := List.getElem?_eq_getElem hposition
      simpa [resolveFrom, Segment.step, hwholes, hwhole] using
        ih hrest (hparts position held _ hheld hwhole) hreached

/-! ## What cuts and overlays leave out -/

variable {position : List Segment}

theorem resolveFrom_field_ne_nil {key : String} {rest : List Segment} :
    resolveFrom (.field key :: rest) document ≠ [] ↔
      ∃ value, document.get? key = some value ∧ resolveFrom rest value ≠ [] := by
  rw [resolveFrom, Segment.step]
  cases document.get? key <;> simp

theorem resolveFrom_index_ne_nil {place : Nat} {rest : List Segment} :
    resolveFrom (.index place :: rest) document ≠ [] ↔
      ∃ value, document.itemAt? place = some value ∧ resolveFrom rest value ≠ [] := by
  rw [resolveFrom, Segment.step, ← Document.itemAt?]
  cases document.itemAt? place <;> simp

/-- A position that leads somewhere in what segments without indexes cut out is met by them. -/
theorem meets_of_extractFrom (hfree : segments.all (!·.isIndex) = true)
    (hsingular : position.all (· != .wildcard) = true) {cut : Document}
    (hcut : extractFrom segments document = some cut) (hreached : resolveFrom position cut ≠ []) :
    meets segments position = true := by
  induction segments generalizing position document cut with
  | nil => rw [meets.eq_def]
  | cons segment rest ih =>
    obtain ⟨hsegment, hrest⟩ := Bool.and_eq_true_iff.1 hfree
    cases position with
    | nil => rfl
    | cons other more =>
      obtain ⟨hother, hmore⟩ := Bool.and_eq_true_iff.1 hsingular
      cases segment with
      | index => cases hsegment
      | field name =>
        obtain ⟨inner, hinner, rfl⟩ := Option.map_eq_some_iff.1 hcut
        obtain ⟨below, -, hbelow⟩ := Option.bind_eq_some_iff.1 hinner
        cases other with
        | wildcard => cases hother
        | index => exact absurd rfl hreached
        | field key =>
          obtain ⟨held, hheld, hfound⟩ := resolveFrom_field_ne_nil.1 hreached
          obtain ⟨rfl, rfl⟩ : key = name ∧ held = inner := by simpa using Keyed.mem_of_lookup hheld
          rw [meets, ih hrest hmore hbelow hfound, Bool.and_true]
          exact beq_self_eq_true (Segment.field key)
      | wildcard =>
        obtain ⟨items, -, rfl⟩ := Option.map_eq_some_iff.1 hcut
        cases other with
        | wildcard => cases hother
        | field => exact absurd rfl hreached
        | index place =>
          obtain ⟨held, hheld, hfound⟩ := resolveFrom_index_ne_nil.1 hreached
          obtain ⟨item, -, rfl⟩ : ∃ item, items[place]? = some item ∧ (extractFrom rest item).getD .null = held := by
            simpa [Document.itemAt?, Document.items?] using hheld
          rw [meets, Segment.covers, Bool.true_and]
          cases hitem : extractFrom rest item with
          | some inner => exact ih hrest hmore hitem (by rwa [hitem] at hfound)
          | none =>
            -- a null stands in the place of the item, and nothing below it
            rw [hitem] at hfound
            cases more with
            | nil => cases rest <;> rfl
            | cons next _ => cases next <;> exact absurd rfl hfound

/-- A position that leads somewhere in one part of a document laid over another leads somewhere in one of the two. -/
theorem resolveFrom_overlay {other whole : Document} (h : document.PartOf whole) (h' : other.PartOf whole)
    (hsingular : position.all (· != .wildcard) = true) (hreached : resolveFrom position (document.overlay other) ≠ []) :
    resolveFrom position document ≠ [] ∨ resolveFrom position other ≠ [] := by
  refine Document.PartOf.induction_both (motive := fun document other _ => ∀ position : List Segment,
      position.all (· != .wildcard) = true → resolveFrom position (document.overlay other) ≠ [] →
        resolveFrom position document ≠ [] ∨ resolveFrom position other ≠ [])
    (fun _ position _ hreached => ?_) (fun _ position _ hreached => ?_) (fun h position _ hreached => ?_)
    (fun hlength hlength' ih position hsingular hreached => ?_) (fun h h' ih position hsingular hreached => ?_) h h'
    position hsingular hreached
  · exact Or.inr (by rwa [Document.null_overlay] at hreached)
  · exact Or.inl (by rwa [Document.overlay_null] at hreached)
  · exact Or.inl (by rwa [Document.overlay_self_of_scalar h] at hreached)
  · -- arrays of one length: an item comes from the items in its place
    rw [Document.overlay_array (hlength.trans hlength'.symm)] at hreached
    match position, hsingular with
    | [], _ => exact Or.inl (List.cons_ne_nil _ _)
    | .wildcard :: _, hsingular => cases hsingular
    | .field _ :: _, _ => exact absurd rfl hreached
    | .index place :: rest, hsingular =>
      simp only [resolveFrom_index_ne_nil] at hreached ⊢
      obtain ⟨_, hheld, hfound⟩ := hreached
      obtain ⟨first, second, hfirst, hsecond, rfl⟩ := List.getElem?_zipWith_eq_some.1 hheld
      have hplace := hlength ▸ (List.getElem?_eq_some_iff.1 hfirst).1
      exact (ih place first second _ hfirst hsecond (List.getElem?_eq_getElem hplace) rest
        (Bool.and_eq_true_iff.1 hsingular).2 hfound).imp (fun hfound => ⟨first, hfirst, hfound⟩)
        fun hfound => ⟨second, hsecond, hfound⟩
  · -- objects: a value comes from one that stands alone under its key, or from both
    obtain ⟨-, -, hkeys, -⟩ := Document.partOf_object_iff.1 h
    obtain ⟨hpatch, -, -, -⟩ := Document.partOf_object_iff.1 h'
    rw [Document.overlay_object] at hreached
    match position, hsingular with
    | [], _ => exact Or.inl (List.cons_ne_nil _ _)
    | .wildcard :: _, hsingular => cases hsingular
    | .index _ :: _, _ => exact absurd rfl hreached
    | .field key :: rest, hsingular =>
      simp only [resolveFrom_field_ne_nil] at hreached ⊢
      obtain ⟨held, hheld, hfound⟩ := hreached
      rw [Document.get?, Keyed.lookup_combine Document.null_overlay hpatch, Option.merge_eq_some_iff] at hheld
      rcases hheld with ⟨hfirst, -⟩ | ⟨-, hsecond⟩ | ⟨first, second, hfirst, hsecond, rfl⟩
      · exact Or.inl ⟨held, hfirst, hfound⟩
      · exact Or.inr ⟨held, hsecond, hfound⟩
      · obtain ⟨whole, hwhole⟩ := hkeys key first hfirst
        exact (ih key first second whole hfirst hsecond hwhole rest (Bool.and_eq_true_iff.1 hsingular).2 hfound).imp
          (fun hfound => ⟨first, hfirst, hfound⟩) fun hfound => ⟨second, hsecond, hfound⟩

/-- A position that leads somewhere in parts of a document laid over each other leads somewhere in one of them. -/
theorem exists_resolveFrom_of_stack {layers : List Document} {whole laid : Document}
    (h : ∀ layer ∈ layers, layer.PartOf whole) (hlaid : Document.stack layers = some laid)
    (hsingular : position.all (· != .wildcard) = true) (hreached : resolveFrom position laid ≠ []) :
    ∃ layer ∈ layers, resolveFrom position layer ≠ [] := by
  induction layers using List.reverseRecOn generalizing laid with
  | nil => cases hlaid
  | append_singleton layers top ih =>
    simp only [List.mem_append, List.mem_singleton, or_imp, forall_and, forall_eq] at h
    simp only [List.mem_append, List.mem_singleton, or_and_right, exists_or, exists_eq_left]
    rw [Document.stack_concat] at hlaid
    cases hbelow : Document.stack layers with
    | none =>
      rw [hbelow, Option.merge_none_left] at hlaid
      cases hlaid
      exact Or.inr hreached
    | some below =>
      rw [hbelow] at hlaid
      cases hlaid
      have hpart : below.PartOf whole := (Document.stack_spec h.1 hbelow).2 whole h.1
      exact (resolveFrom_overlay hpart h.2 hsingular hreached).imp_left (ih h.1 hbelow)

end FieldPath

/-! ## The projection -/

namespace Document

open FieldPath

/-- A cut below segments is laid over the object without fields as it is. -/
theorem empty_overlay_of_extractFrom {segments : List Segment} (hsegments : segments ≠ []) {document cut : Document}
    (h : extractFrom segments document = some cut) : Document.empty.overlay cut = cut := by
  cases segments with
  | nil => exact absurd rfl hsegments
  | cons segment rest =>
    cases segment with
    | field name =>
      obtain ⟨inner, -, rfl⟩ := Option.map_eq_some_iff.1 h
      rw [empty, singleton, overlay_object]
      simp [Keyed.combine, Keyed.insert, null_overlay]
    | index | wildcard =>
      obtain ⟨items, -, rfl⟩ := Option.map_eq_some_iff.1 h
      simp [overlay, empty]

/-- Nothing is cut out of the object without fields. -/
theorem extractFrom_empty {segments : List Segment} (hsegments : segments ≠ []) :
    extractFrom segments Document.empty = none := by
  cases segments with
  | nil => exact absurd rfl hsegments
  | cons segment rest => cases segment <;> simp [extractFrom, empty, get?, items?]

variable {paths : List FieldPath} {document : Document}

/-- A projection to paths with segments is the cuts laid over each other, or the object without fields when there are
none. -/
theorem project_eq_stack (hpaths : ∀ path ∈ paths, path.segments ≠ []) (document : Document) :
    document.project paths = (stack (paths.filterMap (·.extract document))).getD .empty := by
  have hempty : paths.any FieldPath.isEmpty = false := by
    rw [List.any_eq_false]
    intro path hpath hnil
    exact hpaths path hpath (List.isEmpty_iff.1 hnil)
  rw [project, if_neg (by rw [hempty]; exact Bool.false_ne_true)]
  cases hcuts : paths.filterMap (·.extract document) with
  | nil => rfl
  | cons cut rest =>
    obtain ⟨path, hpath, hcut⟩ := List.mem_filterMap.1 (hcuts ▸ List.mem_cons_self : cut ∈ paths.filterMap _)
    rw [List.foldl_cons, empty_overlay_of_extractFrom (hpaths path hpath) hcut]
    rfl

/-- Paths without indexes cut parts out of a document. -/
theorem partOf_of_mem_cuts (hfree : ∀ path ∈ paths, path.indexFree = true) (hsorted : document.Sorted) :
    ∀ cut ∈ paths.filterMap (·.extract document), cut.PartOf document := by
  intro cut hcut
  obtain ⟨path, hpath, hcut⟩ := List.mem_filterMap.1 hcut
  exact partOf_of_extractFrom (hfree path hpath) hsorted hcut

/-- A projection to paths without indexes either has nothing to show, or is a part of the document that every cut is
part of. -/
theorem project_between (hpaths : ∀ path ∈ paths, path.segments ≠ []) (hfree : ∀ path ∈ paths, path.indexFree = true)
    (hsorted : document.Sorted) :
    (document.project paths = .empty ∧ ∀ path ∈ paths, path.extract document = none) ∨
      ((document.project paths).PartOf document ∧
        ∀ path ∈ paths, ∀ cut, path.extract document = some cut → cut.PartOf (document.project paths)) := by
  have hpart := partOf_of_mem_cuts hfree hsorted
  rw [project_eq_stack hpaths]
  cases hlaid : stack (paths.filterMap (·.extract document)) with
  | none => exact Or.inl ⟨rfl, List.filterMap_eq_nil_iff.1 (stack_eq_none_iff.1 hlaid)⟩
  | some laid =>
    obtain ⟨hupper, hleast⟩ := stack_spec hpart hlaid
    exact Or.inr ⟨hleast document hpart,
      fun path hpath cut hcut => hupper cut (List.mem_filterMap.2 ⟨path, hpath, hcut⟩)⟩

/-- A path cuts the same out of the projection as out of the document and reaches the same in both. -/
theorem extract_and_resolve_project (hpaths : ∀ path ∈ paths, path.segments ≠ [])
    (hfree : ∀ path ∈ paths, path.indexFree = true) (hsorted : document.Sorted) {path : FieldPath}
    (hpath : path ∈ paths) : path.extract (document.project paths) = path.extract document ∧
      path.resolve (document.project paths) = path.resolve document := by
  rcases project_between hpaths hfree hsorted with ⟨hproject, hnone⟩ | ⟨hpart, hcuts⟩
  · have hempty : extractFrom path.segments Document.empty = none := extractFrom_empty (hpaths path hpath)
    rw [hproject]
    exact ⟨hempty.trans (hnone path hpath).symm,
      (resolveFrom_eq_nil hempty).trans (resolveFrom_eq_nil (hnone path hpath)).symm⟩
  · exact extractFrom_and_resolveFrom_of_between (hfree path hpath) (hcuts path hpath) hpart

/-- Neither the order of the paths nor how often each comes matters. -/
theorem project_congr_mem (hpaths : ∀ path ∈ paths, path.segments ≠ []) (hfree : ∀ path ∈ paths, path.indexFree = true)
    (hsorted : document.Sorted) {others : List FieldPath} (hmem : ∀ path, path ∈ others ↔ path ∈ paths) :
    document.project others = document.project paths := by
  rw [project_eq_stack hpaths, project_eq_stack fun path hpath => hpaths path ((hmem path).1 hpath)]
  congr 1
  have hpart := partOf_of_mem_cuts (fun path hpath => hfree path ((hmem path).1 hpath)) hsorted
  exact stack_congr hpart fun cut => by simp only [List.mem_filterMap, hmem]

/-- A projection of the projection is the projection. -/
theorem project_project (hpaths : ∀ path ∈ paths, path.segments ≠ []) (hfree : ∀ path ∈ paths, path.indexFree = true)
    (hsorted : document.Sorted) : (document.project paths).project paths = document.project paths := by
  rw [project_eq_stack hpaths, project_eq_stack hpaths document]
  congr 2
  refine List.filterMap_congr fun path hpath => ?_
  rw [← project_eq_stack hpaths]
  exact (extract_and_resolve_project hpaths hfree hsorted hpath).1

/-- A scalar of the projection, if it is not null, stands at its position in the document. -/
theorem resolve_of_mem_resolve_project (hpaths : ∀ path ∈ paths, path.segments ≠ [])
    (hfree : ∀ path ∈ paths, path.indexFree = true) (hsorted : document.Sorted) {position : FieldPath}
    (hposition : position.singular = true) {value : Document}
    (hvalue : value ∈ position.resolve (document.project paths)) (hscalar : value.isScalar = true)
    (hnull : value ≠ .null) : position.resolve document = [value] := by
  rcases project_between hpaths hfree hsorted with ⟨hproject, -⟩ | ⟨hpart, -⟩
  · rw [hproject, resolve] at hvalue
    cases hsegments : position.segments with
    | nil =>
      rw [hsegments] at hvalue
      cases List.mem_singleton.1 hvalue
      cases hscalar
    | cons segment rest =>
      rw [resolveFrom_eq_nil (extractFrom_empty (by rw [hsegments]; exact List.cons_ne_nil _ _))] at hvalue
      cases hvalue
  · obtain ⟨whole, hwhole, hpart⟩ := resolveFrom_partOf hposition hpart hvalue
    cases hpart with
    | null => exact absurd rfl hnull
    | scalar => exact hwhole
    | array | object => cases hscalar

/-- What no path leads to is left out: a position that none of the paths meets leads nowhere in the projection. -/
theorem resolve_project_eq_nil (hpaths : ∀ path ∈ paths, path.segments ≠ [])
    (hfree : ∀ path ∈ paths, path.indexFree = true) (hsorted : document.Sorted) {position : FieldPath}
    (hsegments : position.segments ≠ []) (hsingular : position.singular = true)
    (hleft : ∀ path ∈ paths, meets path.segments position.segments = false) :
    position.resolve (document.project paths) = [] := by
  by_contra hreached
  rw [project_eq_stack hpaths] at hreached
  cases hlaid : stack (paths.filterMap (·.extract document)) with
  | none =>
    rw [hlaid] at hreached
    exact hreached (resolveFrom_eq_nil (extractFrom_empty hsegments))
  | some laid =>
    rw [hlaid] at hreached
    obtain ⟨cut, hcut, hfound⟩ :=
      exists_resolveFrom_of_stack (partOf_of_mem_cuts hfree hsorted) hlaid hsingular hreached
    obtain ⟨path, hpath, hcut⟩ := List.mem_filterMap.1 hcut
    have hmeets := meets_of_extractFrom (hfree path hpath) hsingular hcut hfound
    exact Bool.false_ne_true ((hleft path hpath).symm.trans hmeets)

/-- Projection by fields and wildcards is exact and free of order. To paths with segments, none of them an index:
every path reaches in the projection, in order, what it reaches in the document; the same paths in another order, or
some of them repeated, give the same projection; a projection of the projection is the projection; and a scalar of the
projection, if it is not null, stands at the same position in the document. -/
theorem projection_exact (hpaths : ∀ path ∈ paths, path.segments ≠ []) (hfree : ∀ path ∈ paths, path.indexFree = true)
    (hsorted : document.Sorted) :
    (∀ path ∈ paths, path.resolve (document.project paths) = path.resolve document) ∧
      (∀ others : List FieldPath, (∀ path, path ∈ others ↔ path ∈ paths) →
        document.project others = document.project paths) ∧
      (document.project paths).project paths = document.project paths ∧
      ∀ (position : FieldPath) (value : Document), position.singular = true →
        value ∈ position.resolve (document.project paths) → value.isScalar = true → value ≠ .null →
        position.resolve document = [value] :=
  ⟨fun _ hpath => (extract_and_resolve_project hpaths hfree hsorted hpath).2,
    fun _ hmem => project_congr_mem hpaths hfree hsorted hmem,
    project_project hpaths hfree hsorted,
    fun _ _ hposition hvalue hscalar hnull =>
      resolve_of_mem_resolve_project hpaths hfree hsorted hposition hvalue hscalar hnull⟩

namespace Sample

/-- A pod of three containers on a machine; one container has a null for its image and one has none. -/
def imagedPod : Document :=
  .object [("spec", .object [
    ("containers", .array [
      .object [("image", .string "x"), ("name", .string "web")],
      .object [("image", .null), ("name", .string "proxy")],
      .object [("name", .string "log")]]),
    ("nodeName", .string "one")])]

/-- The names and the images of the containers. -/
def columns : List FieldPath :=
  [⟨[.field "spec", .field "containers", .wildcard, .field "name"]⟩,
    ⟨[.field "spec", .field "containers", .wildcard, .field "image"]⟩]

theorem ascending_imaged (image name : Document) : Keyed.Ascending [("image", image), ("name", name)] :=
  List.pairwise_pair.2 (show "image" < "name" by decide)

theorem ascending_placed (containers node : Document) :
    Keyed.Ascending [("containers", containers), ("nodeName", node)] :=
  List.pairwise_pair.2 (show "containers" < "nodeName" by decide)

theorem sorted_imagedPod : imagedPod.Sorted := by
  simp [imagedPod, ascending_imaged, ascending_placed]

end Sample

/-- The images stand beside the names, in either order, and the name of the second container stands in its place. The
machine, which the pod has, is left out. -/
theorem projection_exact_columns :
    Sample.imagedPod.Sorted ∧ (∀ path ∈ Sample.columns, path.segments ≠ []) ∧
      (∀ path ∈ Sample.columns, path.indexFree = true) ∧
      (∀ path ∈ Sample.columns,
        path.resolve (Sample.imagedPod.project Sample.columns) = path.resolve Sample.imagedPod) ∧
      Sample.imagedPod.project (Sample.columns.reverse ++ Sample.columns) = Sample.imagedPod.project Sample.columns ∧
      (Sample.imagedPod.project Sample.columns).project Sample.columns = Sample.imagedPod.project Sample.columns ∧
      FieldPath.resolve ⟨[.field "spec", .field "containers", .index 1, .field "name"]⟩ Sample.imagedPod =
        [.string "proxy"] ∧
      FieldPath.resolve ⟨[.field "spec", .field "nodeName"]⟩ Sample.imagedPod = [.string "one"] ∧
      FieldPath.resolve ⟨[.field "spec", .field "nodeName"]⟩ (Sample.imagedPod.project Sample.columns) = [] := by
  have hpaths : ∀ path ∈ Sample.columns, path.segments ≠ [] := by decide
  have hfree : ∀ path ∈ Sample.columns, path.indexFree = true := by decide
  obtain ⟨hresolve, hmem, htwice, hscalar⟩ := projection_exact hpaths hfree Sample.sorted_imagedPod
  refine ⟨Sample.sorted_imagedPod, hpaths, hfree, hresolve, hmem _ fun path => ?_, htwice,
    hscalar _ _ rfl (List.mem_singleton.2 rfl) rfl nofun, rfl,
    resolve_project_eq_nil hpaths hfree Sample.sorted_imagedPod (List.cons_ne_nil _ _) rfl (by decide)⟩
  rw [List.mem_append, List.mem_reverse, or_self]

end Document

end ClusterQuery
