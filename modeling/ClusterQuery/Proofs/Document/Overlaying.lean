import ClusterQuery.Proofs.Document.Merging
import ClusterQuery.Proofs.Document.Sorted

/-!
# Overlays of one document

A document is part of another when it is the other with some of it left out (`PartOf`). Of two parts of one document
the overlay is the least part that both are parts of (`PartOf.overlay`, `PartOf.overlay_left`, `PartOf.overlay_right`),
so parts of one document can be laid over each other in any order and any number of times (`stack_congr`).
-/

namespace ClusterQuery.Document

/-- The first document is the second with some of it left out: of an array every item stands, a null in the place of
one that is left out; of an object fields may be missing. -/
inductive PartOf : Document → Document → Prop where
  | null (whole : Document) : PartOf .null whole
  | scalar {whole : Document} (h : whole.isScalar = true) : PartOf whole whole
  | array {items wholes : List Document} (hlength : items.length = wholes.length)
    (h : ∀ (position : Nat) (item whole : Document),
      items[position]? = some item → wholes[position]? = some whole → PartOf item whole) :
    PartOf (.array items) (.array wholes)
  | object {fields wholes : Fields} (hfields : Keyed.Ascending fields) (hwholes : Keyed.Ascending wholes)
    (hkeys : ∀ key value, fields.lookup key = some value → ∃ whole, wholes.lookup key = some whole)
    (h : ∀ (key : String) (value whole : Document),
      fields.lookup key = some value → wholes.lookup key = some whole → PartOf value whole) :
    PartOf (.object fields) (.object wholes)

/-! ## Overlays key by key and item by item -/

/-- An overlay of a null is the overlay. -/
theorem null_overlay (other : Document) : Document.null.overlay other = other := by
  cases other <;> simp [overlay]

/-- A null leaves what it is laid over. -/
theorem overlay_null (document : Document) : document.overlay .null = document := by
  simp [overlay]

/-- A scalar laid over itself leaves it. -/
theorem overlay_self_of_scalar {value : Document} (h : value.isScalar = true) : value.overlay value = value := by
  cases value <;> simp_all [overlay, isScalar]

/-- Fields are combined into others by overlaying. -/
theorem overlayFields_eq_combine (fields patch : Fields) :
    overlayFields fields patch = Keyed.combine overlay .null fields patch := by
  induction patch generalizing fields with
  | nil =>
    rw [overlayFields]
    rfl
  | cons field rest ih =>
    rw [overlayFields, ih]
    show _ = Keyed.combine overlay .null (Keyed.insert field.1 _ fields) rest
    cases fields.lookup field.1 with
    | none => rw [Option.getD_none, null_overlay]
    | some old => rfl

/-- Items are laid over those at their positions. -/
theorem overlayItems_eq_zipWith {items values : List Document} (h : items.length = values.length) :
    overlayItems items values = List.zipWith overlay items values := by
  induction items generalizing values with
  | nil =>
    obtain rfl := List.length_eq_zero_iff.1 h.symm
    rw [overlayItems, List.zipWith_nil_left]
  | cons item rest ih =>
    cases values with
    | nil => cases h
    | cons value more => rw [overlayItems, ih (Nat.succ.inj h), List.zipWith_cons_cons]

/-- Arrays of one length are overlaid item by item. -/
theorem overlay_array {items values : List Document} (h : items.length = values.length) :
    (Document.array items).overlay (.array values) = .array (List.zipWith overlay items values) := by
  rw [overlay]
  simp only [h, if_true, overlayItems_eq_zipWith h]

/-- Objects are overlaid key by key. -/
theorem overlay_object (fields patch : Fields) :
    (Document.object fields).overlay (.object patch) = .object (Keyed.combine overlay .null fields patch) := by
  rw [overlay]
  simp only [overlayFields_eq_combine]

/-! ## Parts of one document -/

/-- A sorted document is part of itself. -/
theorem Sorted.partOf_self {document : Document} (h : document.Sorted) : document.PartOf document := by
  induction h with
  | null | bool | number | string => exact .scalar rfl
  | @array items _ ih =>
    refine .array rfl fun position item whole hitem hwhole => ?_
    cases hitem.symm.trans hwhole
    exact ih item (List.mem_of_getElem? hitem)
  | @object fields hkeys _ ih =>
    refine .object hkeys hkeys (fun key value hvalue => ⟨value, hvalue⟩) fun key value whole hvalue hwhole => ?_
    cases hvalue.symm.trans hwhole
    exact ih (key, value) (Keyed.mem_of_lookup hvalue)

/-- What it is for an object to be part of one. -/
theorem partOf_object_iff {fields wholes : Fields} : (Document.object fields).PartOf (.object wholes) ↔
    Keyed.Ascending fields ∧ Keyed.Ascending wholes ∧
      (∀ (key : String) (value : Document), fields.lookup key = some value → ∃ whole, wholes.lookup key = some whole) ∧
      ∀ (key : String) (value whole : Document),
        fields.lookup key = some value → wholes.lookup key = some whole → PartOf value whole := by
  refine ⟨fun h => ?_, fun ⟨hfields, hwholes, hkeys, hvalues⟩ => .object hfields hwholes hkeys hvalues⟩
  cases h with
  | scalar h => cases h
  | object hfields hwholes hkeys hvalues => exact ⟨hfields, hwholes, hkeys, hvalues⟩

/-- Documents that are part of each other are equal. -/
theorem PartOf.antisymm {document other : Document} (h : document.PartOf other) (h' : other.PartOf document) :
    document = other := by
  induction h with
  | null whole =>
    cases h' with
    | null => rfl
    | scalar => rfl
  | scalar => rfl
  | @array items wholes hlength _ ih =>
    cases h' with
    | scalar h => cases h
    | array _ h =>
      congr 1
      refine List.ext_getElem hlength fun position hitem hwhole => ?_
      have hitem := List.getElem?_eq_getElem hitem
      have hwhole := List.getElem?_eq_getElem hwhole
      exact ih position _ _ hitem hwhole (h position _ _ hwhole hitem)
  | @object fields wholes hfields hwholes hkeys _ ih =>
    cases h' with
    | scalar h => cases h
    | object _ _ hkeys' h =>
      congr 1
      refine hfields.ext hwholes fun key => ?_
      cases hvalue : fields.lookup key with
      | none =>
        cases hwhole : wholes.lookup key with
        | none => rfl
        | some whole =>
          obtain ⟨value, hvalue'⟩ := hkeys' key whole hwhole
          cases hvalue.symm.trans hvalue'
      | some value =>
        obtain ⟨whole, hwhole⟩ := hkeys key value hvalue
        rw [hwhole, ih key value whole hvalue hwhole (h key whole value hwhole hvalue)]

/-- A part of a document is part of itself. -/
theorem PartOf.refl {document whole : Document} (h : document.PartOf whole) : document.PartOf document := by
  induction h with
  | null => exact .null .null
  | scalar h => exact .scalar h
  | @array items wholes hlength _ ih =>
    refine .array rfl fun position item item' hitem hitem' => ?_
    cases hitem.symm.trans hitem'
    have hposition := hlength ▸ (List.getElem?_eq_some_iff.1 hitem).1
    exact ih position item _ hitem (List.getElem?_eq_getElem hposition)
  | @object fields wholes hfields _ hkeys _ ih =>
    refine .object hfields hfields (fun key value hvalue => ⟨value, hvalue⟩) fun key value value' hvalue hvalue' => ?_
    cases hvalue.symm.trans hvalue'
    obtain ⟨whole, hwhole⟩ := hkeys key value hvalue
    exact ih key value whole hvalue hwhole

/-- A part of a part of a document is part of the document. -/
theorem PartOf.trans {document part whole : Document} (h : document.PartOf part) (h' : part.PartOf whole) :
    document.PartOf whole := by
  induction h generalizing whole with
  | null => exact .null whole
  | scalar h =>
    cases h' with
    | null => exact .null whole
    | scalar => exact .scalar h
    | array | object => cases h
  | @array items parts hlength _ ih =>
    cases h' with
    | scalar h => cases h
    | @array _ wholes hlength' hparts =>
      refine .array (hlength.trans hlength') fun position item whole hitem hwhole => ?_
      have hposition := hlength ▸ (List.getElem?_eq_some_iff.1 hitem).1
      have hpart := List.getElem?_eq_getElem hposition
      exact ih position item _ hitem hpart (hparts position _ whole hpart hwhole)
  | @object fields parts hfields _ hkeys _ ih =>
    cases h' with
    | scalar h => cases h
    | @object _ wholes _ hwholes hkeys' hparts =>
      refine .object hfields hwholes (fun key value hvalue => ?_) fun key value whole hvalue hwhole => ?_
      · obtain ⟨part, hpart⟩ := hkeys key value hvalue
        exact hkeys' key part hpart
      · obtain ⟨part, hpart⟩ := hkeys key value hvalue
        exact ih key value part hvalue hpart (hparts key part whole hpart hwhole)

/-- What holds of two parts of a document when it holds of their items and of the values that they have in common. -/
theorem PartOf.induction_both {motive : Document → Document → Document → Prop}
    (null_left : ∀ {other whole : Document}, other.PartOf whole → motive .null other whole)
    (null_right : ∀ {document whole : Document}, document.PartOf whole → motive document .null whole)
    (scalar : ∀ {value : Document}, value.isScalar = true → motive value value value)
    (array : ∀ {items values wholes : List Document}, items.length = wholes.length → values.length = wholes.length →
      (∀ (position : Nat) (item value whole : Document), items[position]? = some item →
        values[position]? = some value → wholes[position]? = some whole → motive item value whole) →
      motive (.array items) (.array values) (.array wholes))
    (object : ∀ {fields patch wholes : Fields}, (Document.object fields).PartOf (.object wholes) →
      (Document.object patch).PartOf (.object wholes) →
      (∀ (key : String) (value other whole : Document), fields.lookup key = some value →
        patch.lookup key = some other → wholes.lookup key = some whole → motive value other whole) →
      motive (.object fields) (.object patch) (.object wholes))
    {document other whole : Document} (h : document.PartOf whole) (h' : other.PartOf whole) :
    motive document other whole := by
  induction h generalizing other with
  | null => exact null_left h'
  | scalar h =>
    cases h' with
    | null => exact null_right (.scalar h)
    | scalar => exact scalar h
    | array | object => cases h
  | array hlength hitems ih =>
    cases h' with
    | null => exact null_right (.array hlength hitems)
    | scalar h => cases h
    | array hlength' hvalues =>
      refine array hlength hlength' fun position item value whole hitem hvalue hwhole => ?_
      exact ih position item whole hitem hwhole (hvalues position value whole hvalue hwhole)
  | object hfields hwholes hkeys hvalues ih =>
    cases h' with
    | null => exact null_right (.object hfields hwholes hkeys hvalues)
    | scalar h => cases h
    | object hpatch hwholes' hkeys' hvalues' =>
      refine object (.object hfields hwholes hkeys hvalues) (.object hpatch hwholes' hkeys' hvalues')
        fun key value other whole hvalue hother hwhole => ?_
      exact ih key value whole hvalue hwhole (hvalues' key other whole hother hwhole)

/-- The overlay of two parts of a document is part of it. -/
theorem PartOf.overlay {document other whole : Document} (h : document.PartOf whole) (h' : other.PartOf whole) :
    (document.overlay other).PartOf whole := by
  refine induction_both (motive := fun document other whole => (document.overlay other).PartOf whole)
    (fun h => ?_) (fun h => ?_) (fun h => ?_) (fun hlength hlength' ih => ?_) (fun h h' ih => ?_) h h'
  · rwa [null_overlay]
  · rwa [overlay_null]
  · rw [overlay_self_of_scalar h]
    exact .scalar h
  · rw [overlay_array (hlength.trans hlength'.symm)]
    refine .array (by rw [List.length_zipWith, hlength, hlength', Nat.min_self])
      fun position item whole hitem hwhole => ?_
    obtain ⟨first, second, hfirst, hsecond, rfl⟩ := List.getElem?_zipWith_eq_some.1 hitem
    exact ih position first second whole hfirst hsecond hwhole
  · obtain ⟨hfields, hwholes, hkeys, hvalues⟩ := partOf_object_iff.1 h
    obtain ⟨hpatch, -, hkeys', hvalues'⟩ := partOf_object_iff.1 h'
    rw [overlay_object]
    refine .object (Keyed.ascending_combine _ hfields) hwholes (fun key value hvalue => ?_)
      fun key value whole hvalue hwhole => ?_
    all_goals
      rw [Keyed.lookup_combine null_overlay hpatch, Option.merge_eq_some_iff] at hvalue
      rcases hvalue with ⟨hfirst, -⟩ | ⟨-, hsecond⟩ | ⟨first, second, hfirst, hsecond, rfl⟩
    · exact hkeys key value hfirst
    · exact hkeys' key value hsecond
    · exact hkeys key first hfirst
    · exact hvalues key value whole hfirst hwhole
    · exact hvalues' key value whole hsecond hwhole
    · exact ih key first second whole hfirst hsecond hwhole

/-- Of two parts of a document the first is part of the overlay. -/
theorem PartOf.overlay_left {document other whole : Document} (h : document.PartOf whole) (h' : other.PartOf whole) :
    document.PartOf (document.overlay other) := by
  refine induction_both (motive := fun document other _ => document.PartOf (document.overlay other))
    (fun _ => .null _) (fun h => ?_) (fun h => ?_) (fun hlength hlength' ih => ?_) (fun {_ patch _} h h' ih => ?_) h h'
  · rw [overlay_null]
    exact h.refl
  · rw [overlay_self_of_scalar h]
    exact .scalar h
  · rw [overlay_array (hlength.trans hlength'.symm)]
    refine .array (by rw [List.length_zipWith, hlength, hlength', Nat.min_self])
      fun position item laid hitem hlaid => ?_
    obtain ⟨first, second, hfirst, hsecond, rfl⟩ := List.getElem?_zipWith_eq_some.1 hlaid
    cases hitem.symm.trans hfirst
    have hwhole := List.getElem?_eq_getElem (hlength ▸ (List.getElem?_eq_some_iff.1 hitem).1)
    exact ih position item second _ hitem hsecond hwhole
  · obtain ⟨hfields, -, hkeys, hvalues⟩ := partOf_object_iff.1 h
    obtain ⟨hpatch, -, -, -⟩ := partOf_object_iff.1 h'
    rw [overlay_object]
    refine .object hfields (Keyed.ascending_combine _ hfields) (fun key value hvalue => ?_)
      fun key value laid hvalue hlaid => ?_
    · rw [Keyed.lookup_combine null_overlay hpatch, hvalue]
      cases patch.lookup key <;> exact ⟨_, rfl⟩
    · obtain ⟨whole, hwhole⟩ := hkeys key value hvalue
      rw [Keyed.lookup_combine null_overlay hpatch, hvalue, Option.merge_eq_some_iff] at hlaid
      rcases hlaid with ⟨hfirst, -⟩ | ⟨hfirst, -⟩ | ⟨first, second, hfirst, hsecond, rfl⟩
      all_goals cases hfirst
      · exact (hvalues key value whole hvalue hwhole).refl
      · exact ih key value second whole hvalue hsecond hwhole

/-- Two parts of a document may be laid over each other in either order. -/
theorem PartOf.overlay_comm {document other whole : Document} (h : document.PartOf whole) (h' : other.PartOf whole) :
    document.overlay other = other.overlay document := by
  refine induction_both (motive := fun document other _ => document.overlay other = other.overlay document)
    (fun _ => ?_) (fun _ => ?_) (fun _ => rfl) (fun hlength hlength' ih => ?_) (fun {fields patch _} h h' ih => ?_) h h'
  · rw [null_overlay, overlay_null]
  · rw [null_overlay, overlay_null]
  · rw [overlay_array (hlength.trans hlength'.symm), overlay_array (hlength'.trans hlength.symm)]
    congr 1
    refine List.ext_getElem (by simp only [List.length_zipWith, Nat.min_comm]) fun position hbound hbound' => ?_
    rw [List.getElem_zipWith, List.getElem_zipWith]
    rw [List.length_zipWith, Nat.lt_min] at hbound
    exact ih position _ _ _ (List.getElem?_eq_getElem _) (List.getElem?_eq_getElem _)
      (List.getElem?_eq_getElem (hlength ▸ hbound.1))
  · obtain ⟨hfields, -, hkeys, -⟩ := partOf_object_iff.1 h
    obtain ⟨hpatch, -, -, -⟩ := partOf_object_iff.1 h'
    rw [overlay_object, overlay_object]
    congr 1
    refine (Keyed.ascending_combine _ hfields).ext (Keyed.ascending_combine _ hpatch) fun key => ?_
    rw [Keyed.lookup_combine null_overlay hpatch, Keyed.lookup_combine null_overlay hfields]
    cases hfirst : fields.lookup key with
    | none => rw [Option.merge_none_left, Option.merge_none_right]
    | some first =>
      cases hsecond : patch.lookup key with
      | none => rfl
      | some second =>
        obtain ⟨whole, hwhole⟩ := hkeys key first hfirst
        exact congrArg some (ih key first second whole hfirst hsecond hwhole)

/-- Of two parts of a document the second is part of the overlay. -/
theorem PartOf.overlay_right {document other whole : Document} (h : document.PartOf whole) (h' : other.PartOf whole) :
    other.PartOf (document.overlay other) :=
  h.overlay_comm h' ▸ h'.overlay_left h

/-! ## Into fields and items -/

/-- What stands in a field of a part is part of what stands in that field of the document. -/
theorem PartOf.of_get? {document whole value : Document} (h : document.PartOf whole) {key : String}
    (hkey : document.get? key = some value) : ∃ held, whole.get? key = some held ∧ value.PartOf held := by
  obtain ⟨fields, rfl, hvalue⟩ := get?_eq_some_iff.1 hkey
  cases h with
  | scalar h => cases h
  | object _ _ hkeys h =>
    obtain ⟨held, hheld⟩ := hkeys key value hvalue
    exact ⟨held, hheld, h key value held hvalue hheld⟩

/-- A part of a document that is an array has as many items, each part of the one in its place. -/
theorem PartOf.of_items {document whole : Document} (h : document.PartOf whole) {items : List Document}
    (hitems : document.items? = some items) : ∃ wholes, whole.items? = some wholes ∧
      items.length = wholes.length ∧ ∀ (position : Nat) (item held : Document),
        items[position]? = some item → wholes[position]? = some held → item.PartOf held := by
  obtain rfl := items?_eq_some_iff.1 hitems
  cases h with
  | scalar h => cases h
  | array hlength h => exact ⟨_, rfl, hlength, h⟩

/-- One field of a sorted document with a part of its value is part of the document. -/
theorem Sorted.singleton_partOf {document : Document} (h : document.Sorted) {key : String} {value held : Document}
    (hkey : document.get? key = some held) (hvalue : value.PartOf held) :
    (Document.singleton key value).PartOf document := by
  obtain ⟨fields, rfl, hheld⟩ := get?_eq_some_iff.1 hkey
  have hlookup : ∀ {other : String} {found : Document}, [(key, value)].lookup other = some found →
      other = key ∧ found = value := by
    intro other found hfound
    simpa using Keyed.mem_of_lookup hfound
  refine .object (Keyed.ascending_singleton _) (sorted_object.1 h).1 (fun other found hfound => ?_)
    fun other found whole hfound hwhole => ?_
  · obtain ⟨rfl, -⟩ := hlookup hfound
    exact ⟨held, hheld⟩
  · obtain ⟨rfl, rfl⟩ := hlookup hfound
    cases hheld.symm.trans hwhole
    exact hvalue

/-! ## Documents laid over each other -/

/-- The documents laid over each other in order; of no documents there is no overlay. -/
def stack : List Document → Option Document
  | [] => none
  | first :: rest => some (rest.foldl Document.overlay first)

@[simp]
theorem stack_eq_none_iff {layers : List Document} : stack layers = none ↔ layers = [] := by
  cases layers <;> simp [stack]

/-- One more document is laid over the others. -/
theorem stack_concat (layers : List Document) (top : Document) :
    stack (layers ++ [top]) = Option.merge Document.overlay (stack layers) (some top) := by
  cases layers with
  | nil => rfl
  | cons first rest => simp [stack, List.foldl_append]

/-- Parts of a document laid over each other are the least part of it that each of them is part of. -/
theorem stack_spec {layers : List Document} {whole : Document} (h : ∀ layer ∈ layers, layer.PartOf whole)
    {laid : Document} (hlaid : stack layers = some laid) :
    (∀ layer ∈ layers, layer.PartOf laid) ∧
      ∀ other : Document, (∀ layer ∈ layers, layer.PartOf other) → laid.PartOf other := by
  induction layers using List.reverseRecOn generalizing laid with
  | nil => cases hlaid
  | append_singleton layers top ih =>
    simp only [List.mem_append, List.mem_singleton, or_imp, forall_and, forall_eq] at h ⊢
    rw [stack_concat] at hlaid
    cases hbelow : stack layers with
    | none =>
      rw [hbelow, Option.merge_none_left] at hlaid
      cases hlaid
      obtain rfl := stack_eq_none_iff.1 hbelow
      exact ⟨⟨List.forall_mem_nil _, h.2.refl⟩, fun other hother => hother.2⟩
    | some below =>
      rw [hbelow] at hlaid
      cases hlaid
      obtain ⟨hupper, hleast⟩ := ih h.1 hbelow
      have hpart : below.PartOf whole := hleast whole h.1
      exact ⟨⟨fun layer hlayer => (hupper layer hlayer).trans (hpart.overlay_left h.2), hpart.overlay_right h.2⟩,
        fun other hother => (hleast other hother.1).overlay hother.2⟩

/-- Neither the order of parts of a document nor how often each comes matters when they are laid over each other. -/
theorem stack_congr {layers others : List Document} {whole : Document} (h : ∀ layer ∈ layers, layer.PartOf whole)
    (hmem : ∀ layer, layer ∈ layers ↔ layer ∈ others) : stack layers = stack others := by
  have h' : ∀ layer ∈ others, layer.PartOf whole := fun layer hlayer => h layer ((hmem layer).2 hlayer)
  cases hlaid : stack layers with
  | none =>
    obtain rfl := stack_eq_none_iff.1 hlaid
    rw [List.eq_nil_iff_forall_not_mem.2 fun layer hlayer => List.not_mem_nil ((hmem layer).2 hlayer)]
    rfl
  | some laid =>
    cases hlaid' : stack others with
    | none =>
      obtain rfl := stack_eq_none_iff.1 hlaid'
      rw [List.eq_nil_iff_forall_not_mem.2 fun layer hlayer => List.not_mem_nil ((hmem layer).1 hlayer)] at hlaid
      cases hlaid
    | some laid' =>
      obtain ⟨hupper, hleast⟩ := stack_spec h hlaid
      obtain ⟨hupper', hleast'⟩ := stack_spec h' hlaid'
      congr 1
      exact (hleast laid' fun layer hlayer => hupper' layer ((hmem layer).1 hlayer)).antisymm
        (hleast' laid fun layer hlayer => hupper layer ((hmem layer).2 hlayer))

/-! ### Seen at a key or a position -/

/-- Where a view of an overlay is the overlay of the views, the view of documents laid over each other is their views
laid over each other. -/
theorem stack_bind_of_view (Shape : Document → Prop) (view : Document → Option Document)
    (hshape : ∀ document other : Document, Shape document → Shape other → Shape (document.overlay other) ∧
      view (document.overlay other) = Option.merge Document.overlay (view document) (view other))
    {layers : List Document} (h : ∀ layer ∈ layers, Shape layer) :
    (∀ laid, stack layers = some laid → Shape laid) ∧ (stack layers).bind view = stack (layers.filterMap view) := by
  induction layers using List.reverseRecOn with
  | nil => exact ⟨nofun, rfl⟩
  | append_singleton layers top ih =>
    simp only [List.mem_append, List.mem_singleton, or_imp, forall_and, forall_eq] at h
    obtain ⟨hbelow, hview⟩ := ih h.1
    have htop : stack (layers.filterMap view ++ [top].filterMap view) =
        Option.merge Document.overlay (stack (layers.filterMap view)) (view top) := by
      cases hv : view top with
      | none => simp [hv, Option.merge_none_right]
      | some seen => rw [List.filterMap_cons_some hv, List.filterMap_nil, stack_concat]
    rw [stack_concat, List.filterMap_append, htop, ← hview]
    cases hlaid : stack layers with
    | none =>
      refine ⟨?_, by rw [Option.merge_none_left, Option.bind_none, Option.merge_none_left, Option.bind_some]⟩
      rintro _ ⟨⟩
      exact h.2
    | some below =>
      obtain ⟨hboth, hviews⟩ := hshape below top (hbelow below hlaid) h.2
      refine ⟨?_, hviews⟩
      rintro _ ⟨⟩
      exact hboth

/-- Under a key of objects laid over each other stands what they have there, laid over each other. -/
theorem stack_bind_get? {layers : List Document}
    (h : ∀ layer ∈ layers, ∃ fields, layer = .object fields ∧ Keyed.Ascending fields) (key : String) :
    (stack layers).bind (·.get? key) = stack (layers.filterMap (·.get? key)) := by
  refine (stack_bind_of_view (fun layer => ∃ fields, layer = .object fields ∧ Keyed.Ascending fields) (·.get? key)
    ?_ h).2
  rintro _ _ ⟨fields, rfl, hfields⟩ ⟨patch, rfl, hpatch⟩
  rw [overlay_object]
  exact ⟨⟨_, rfl, Keyed.ascending_combine patch hfields⟩, Keyed.lookup_combine null_overlay hpatch fields key⟩

/-- At a position of arrays of one length laid over each other stands what they have there, laid over each other. -/
theorem stack_bind_itemAt? {layers : List Document} {length : Nat}
    (h : ∀ layer ∈ layers, ∃ items, layer = .array items ∧ items.length = length) :
    (∀ laid, stack layers = some laid → ∃ items, laid = .array items ∧ items.length = length) ∧
      ∀ position, (stack layers).bind (·.itemAt? position) = stack (layers.filterMap (·.itemAt? position)) := by
  have hshape : ∀ (position : Nat) (document other : Document),
      (∃ items, document = .array items ∧ items.length = length) →
      (∃ items, other = .array items ∧ items.length = length) →
      (∃ items, document.overlay other = .array items ∧ items.length = length) ∧
        (document.overlay other).itemAt? position =
          Option.merge Document.overlay (document.itemAt? position) (other.itemAt? position) := by
    rintro position _ _ ⟨items, rfl, hitems⟩ ⟨values, rfl, hvalues⟩
    rw [overlay_array (hitems.trans hvalues.symm)]
    refine ⟨⟨_, rfl, by rw [List.length_zipWith, hitems, hvalues, Nat.min_self]⟩, ?_⟩
    show (List.zipWith _ _ _)[position]? = Option.merge _ items[position]? values[position]?
    rw [List.getElem?_zipWith]
    by_cases hposition : position < length
    · rw [List.getElem?_eq_getElem (hitems ▸ hposition), List.getElem?_eq_getElem (hvalues ▸ hposition)]
      rfl
    · rw [List.getElem?_eq_none (by omega), List.getElem?_eq_none (by omega)]
      rfl
  exact ⟨(stack_bind_of_view _ (·.itemAt? 0) (hshape 0) h).1,
    fun position => (stack_bind_of_view _ (·.itemAt? position) (hshape position) h).2⟩

/-- Nothing counts as a null among documents that are laid over each other. -/
theorem stack_map_getD_null {layers : List (Option Document)} (h : layers ≠ []) :
    stack (layers.map (·.getD .null)) = some ((stack (layers.filterMap id)).getD .null) := by
  induction layers using List.reverseRecOn with
  | nil => exact absurd rfl h
  | append_singleton layers top ih =>
    rw [List.map_append, List.filterMap_append, List.map_singleton, stack_concat]
    cases layers with
    | nil => cases top <;> rfl
    | cons first rest =>
      rw [ih (List.cons_ne_nil _ _)]
      cases top with
      | none => simp [Option.merge, overlay_null]
      | some top =>
        rw [show [some top].filterMap id = [top] from rfl, stack_concat]
        cases stack ((first :: rest).filterMap id) with
        | none => exact congrArg some (null_overlay top)
        | some below => rfl

end ClusterQuery.Document
