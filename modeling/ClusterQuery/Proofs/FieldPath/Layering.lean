import ClusterQuery.Proofs.FieldPath.Projecting

/-!
# Paths that are projected together

A cut has each indexed item alone in an array, so in a cut its path leads on with zeros for the indexes
(`FieldPath.zeroed`). Cuts of several paths are laid over each other, and one replaces what the other has where arrays
of different lengths or items of different positions meet. That cannot happen to compatible paths
(`FieldPath.compatible`): whatever one of them reaches in a document, it still reaches when their cuts are laid over
each other (`mem_resolveFrom_laid`). The argument goes down the paths; below two indexes the cuts come from different
values, so a layer is a path with the value that it is to be applied to.
-/

namespace ClusterQuery

/-- The segment as it leads on in a cut, where an indexed item stands alone. -/
def Segment.zeroed : Segment → Segment
  | .index _ => .index 0
  | segment => segment

namespace FieldPath

/-- The path with zeros for its indexes. -/
def zeroed (path : FieldPath) : FieldPath :=
  ⟨path.segments.map Segment.zeroed⟩

/-- The segments part at a field name, before one of them ends or fans out, so that their cuts can be laid over each
other whichever values they come from. -/
def parting : List Segment → List Segment → Bool
  | .field name :: rest, .field other :: rest' => name != other || parting rest rest'
  | .index _ :: rest, .index _ :: rest' => parting rest rest'
  | _, _ => false

/-- The cuts at the segments can be laid over each other when they come from one value: no index leads on where one of
them ends or fans out, and below different indexes they part. -/
def compatible : List Segment → List Segment → Bool
  | [], rest => rest.all (!·.isIndex)
  | rest, [] => rest.all (!·.isIndex)
  | .field name :: rest, .field other :: rest' => name != other || compatible rest rest'
  | .wildcard :: rest, .wildcard :: rest' => compatible rest rest'
  | .index position :: rest, .index other :: rest' =>
    if position = other then compatible rest rest' else parting rest rest'
  | .index _ :: _, .wildcard :: _ => false
  | .wildcard :: _, .index _ :: _ => false
  | _, _ => true

/-- Segments without indexes lead on in a cut as they are. -/
theorem map_zeroed_of_indexFree {segments : List Segment} (h : segments.all (!·.isIndex) = true) :
    segments.map Segment.zeroed = segments := by
  refine List.map_congr_left (fun segment hsegment => ?_) |>.trans (List.map_id segments)
  have hindex := List.all_eq_true.1 h segment hsegment
  cases segment with
  | index => cases hindex
  | field | wildcard => rfl

end FieldPath

/-! ## Layers -/

/-- Segments and the value that they are applied to. -/
structure Layer where
  segments : List Segment
  document : Document

namespace Layer

open FieldPath

/-- What the segments cut out of the value. -/
def cut (layer : Layer) : Option Document :=
  extractFrom layer.segments layer.document

/-- The cuts of the layers laid over each other. -/
def laid (layers : List Layer) : Option Document :=
  Document.stack (layers.filterMap cut)

/-- Neither layer takes away what the other reaches when their cuts are laid over each other. -/
def Fits (layer other : Layer) : Prop :=
  (layer.document = other.document ∧ compatible layer.segments other.segments = true) ∨
    parting layer.segments other.segments = true

/-- What is left of a layer inside a field of its cut. -/
def atField? (name : String) : Layer → Option Layer
  | ⟨.field other :: rest, document⟩ => if other = name then (document.get? name).map (Layer.mk rest) else none
  | _ => none

/-- What is left of a layer inside the only item of its cut. -/
def atIndex? : Layer → Option Layer
  | ⟨.index position :: rest, document⟩ => (document.itemAt? position).map (Layer.mk rest)
  | _ => none

/-- What is left of a layer inside one of all items. -/
def atItem? (position : Nat) : Layer → Option Layer
  | ⟨.wildcard :: rest, document⟩ => (document.itemAt? position).map (Layer.mk rest)
  | _ => none

variable {layers : List Layer}

theorem atField?_eq_some_iff {name : String} {layer inner : Layer} : layer.atField? name = some inner ↔
    layer.segments = .field name :: inner.segments ∧ layer.document.get? name = some inner.document := by
  obtain ⟨segments, document⟩ := layer
  obtain ⟨rest, value⟩ := inner
  match segments with
  | [] | .index _ :: _ | .wildcard :: _ => simp [atField?]
  | .field other :: segments => by_cases hname : other = name <;> simp [atField?, hname, and_comm]

theorem atIndex?_eq_some_iff {layer inner : Layer} : layer.atIndex? = some inner ↔
    ∃ position, layer.segments = .index position :: inner.segments ∧
      layer.document.itemAt? position = some inner.document := by
  obtain ⟨segments, document⟩ := layer
  obtain ⟨rest, value⟩ := inner
  match segments with
  | [] | .field _ :: _ | .wildcard :: _ => simp [atIndex?]
  | .index position :: segments => simp [atIndex?, and_comm]

theorem atItem?_eq_some_iff {position : Nat} {layer inner : Layer} : layer.atItem? position = some inner ↔
    layer.segments = .wildcard :: inner.segments ∧ layer.document.itemAt? position = some inner.document := by
  obtain ⟨segments, document⟩ := layer
  obtain ⟨rest, value⟩ := inner
  match segments with
  | [] | .field _ :: _ | .index _ :: _ => simp [atItem?]
  | .wildcard :: segments => simp [atItem?, and_comm]

/-! ### One step into the cuts -/

/-- Under a key of the cut of a layer at a field stands the cut of what is left of the layer there. -/
theorem cut_bind_get? {layer : Layer} (h : layer.cut ≠ none → ∃ name rest, layer.segments = .field name :: rest)
    (name : String) : layer.cut.bind (·.get? name) = (layer.atField? name).bind cut := by
  obtain ⟨segments, document⟩ := layer
  have hdead : (∀ name rest, segments ≠ .field name :: rest) → cut ⟨segments, document⟩ = none := by
    refine fun hsegments => Classical.byContradiction fun hlive => ?_
    obtain ⟨other, rest, hfield⟩ := h hlive
    exact hsegments other rest hfield
  match segments, hdead with
  | [], hdead | .index _ :: _, hdead | .wildcard :: _, hdead =>
    rw [hdead nofun]
    rfl
  | .field other :: rest, _ =>
    simp only [cut, extractFrom, atField?]
    by_cases hname : other = name
    · subst hname
      cases document.get? other with
      | none => simp
      | some value => cases hcut : extractFrom rest value <;> simp [cut, hcut, Document.get?_singleton]
    · have hother : ∀ inner, (Document.singleton other inner).get? name = none := fun inner => by
        show [(other, inner)].lookup name = none
        rw [List.lookup_cons, beq_eq_false_iff_ne.2 (Ne.symm hname)]
        rfl
      rw [if_neg hname, Option.bind_map, Option.bind_none]
      exact Option.bind_eq_none_iff.2 fun inner _ => hother inner

/-- The one item of the cut of a layer at an index is the cut of what is left of the layer there. -/
theorem cut_bind_itemAt?_zero {layer : Layer}
    (h : layer.cut ≠ none → ∃ position rest, layer.segments = .index position :: rest) :
    layer.cut.bind (·.itemAt? 0) = layer.atIndex?.bind cut := by
  obtain ⟨segments, document⟩ := layer
  have hdead : (∀ position rest, segments ≠ .index position :: rest) → cut ⟨segments, document⟩ = none := by
    refine fun hsegments => Classical.byContradiction fun hlive => ?_
    obtain ⟨position, rest, hindex⟩ := h hlive
    exact hsegments position rest hindex
  match segments, hdead with
  | [], hdead | .field _ :: _, hdead | .wildcard :: _, hdead =>
    rw [hdead nofun]
    rfl
  | .index position :: rest, _ =>
    simp only [cut, extractFrom, atIndex?, Document.itemAt?]
    cases document.items?.bind (·[position]?) with
    | none => rfl
    | some value => cases hcut : extractFrom rest value <;> simp [cut, hcut, Document.items?]

/-- An item of the cut of a layer that fans out over items is the cut of what is left of the layer there, or a null. -/
theorem cut_bind_itemAt? {layer : Layer} {items : List Document}
    (h : layer.cut ≠ none → ∃ rest, layer = ⟨.wildcard :: rest, .array items⟩) (position : Nat) :
    layer.cut.bind (·.itemAt? position) = (layer.atItem? position).map fun inner => inner.cut.getD .null := by
  obtain ⟨segments, document⟩ := layer
  have hdead : (∀ rest, segments ≠ .wildcard :: rest) → cut ⟨segments, document⟩ = none := by
    refine fun hsegments => Classical.byContradiction fun hlive => ?_
    obtain ⟨rest, hfan⟩ := h hlive
    exact hsegments rest (congrArg Layer.segments hfan)
  match segments, hdead with
  | [], hdead | .field _ :: _, hdead | .index _ :: _, hdead =>
    rw [hdead nofun]
    rfl
  | .wildcard :: rest, _ =>
    simp only [cut, extractFrom, atItem?, Document.itemAt?]
    cases document.items? with
    | none => rfl
    | some held => simp [Document.items?]; rfl

/-- Where only layers at fields cut something out, under a key of their cuts laid over each other stands what is left of
them there. -/
theorem laid_bind_get? (h : ∀ layer ∈ layers, layer.cut ≠ none → ∃ name rest, layer.segments = .field name :: rest)
    (name : String) : (laid layers).bind (·.get? name) = laid (layers.filterMap (·.atField? name)) := by
  have hobjects : ∀ cut ∈ layers.filterMap Layer.cut, ∃ fields, cut = .object fields ∧ Keyed.Ascending fields := by
    intro cut hcut
    obtain ⟨layer, hlayer, hcut⟩ := List.mem_filterMap.1 hcut
    obtain ⟨other, rest, hsegments⟩ := h layer hlayer (hcut ▸ Option.some_ne_none cut)
    rw [Layer.cut, hsegments] at hcut
    obtain ⟨inner, -, rfl⟩ := Option.map_eq_some_iff.1 hcut
    exact ⟨_, rfl, List.pairwise_singleton _ _⟩
  rw [laid, Document.stack_bind_get? hobjects, List.filterMap_filterMap, laid, List.filterMap_filterMap]
  exact congrArg Document.stack (List.filterMap_congr fun layer hlayer => cut_bind_get? (h layer hlayer) name)

/-- Where only layers at indexes cut something out, the one item of their cuts laid over each other is what is left of
them there. -/
theorem laid_bind_itemAt?_zero
    (h : ∀ layer ∈ layers, layer.cut ≠ none → ∃ position rest, layer.segments = .index position :: rest) :
    (laid layers).bind (·.itemAt? 0) = laid (layers.filterMap atIndex?) := by
  have harrays : ∀ cut ∈ layers.filterMap Layer.cut, ∃ items, cut = .array items ∧ items.length = 1 := by
    intro cut hcut
    obtain ⟨layer, hlayer, hcut⟩ := List.mem_filterMap.1 hcut
    obtain ⟨position, rest, hsegments⟩ := h layer hlayer (hcut ▸ Option.some_ne_none cut)
    rw [Layer.cut, hsegments] at hcut
    obtain ⟨inner, -, rfl⟩ := Option.map_eq_some_iff.1 hcut
    exact ⟨_, rfl, rfl⟩
  rw [laid, (Document.stack_bind_itemAt? harrays).2, List.filterMap_filterMap, laid, List.filterMap_filterMap]
  exact congrArg Document.stack (List.filterMap_congr fun layer hlayer => cut_bind_itemAt?_zero (h layer hlayer))

/-- Where only layers that fan out over the same items cut something out, and one of them does, their cuts laid over
each other have as many items, each of them what is left of the layers there, or a null. -/
theorem laid_eq_array {items : List Document}
    (h : ∀ layer ∈ layers, layer.cut ≠ none → ∃ rest, layer = ⟨.wildcard :: rest, .array items⟩)
    {rest : List Segment} (hmem : ⟨.wildcard :: rest, .array items⟩ ∈ layers) :
    ∃ laidItems : List Document, laid layers = some (.array laidItems) ∧ laidItems.length = items.length ∧
      ∀ position < items.length,
        laidItems[position]? = some ((laid (layers.filterMap (·.atItem? position))).getD .null) := by
  have harrays : ∀ cut ∈ layers.filterMap Layer.cut, ∃ cuts, cut = .array cuts ∧ cuts.length = items.length := by
    intro cut hcut
    obtain ⟨layer, hlayer, hcut⟩ := List.mem_filterMap.1 hcut
    obtain ⟨rest, rfl⟩ := h layer hlayer (hcut ▸ Option.some_ne_none cut)
    cases hcut
    exact ⟨_, rfl, List.length_map _⟩
  obtain ⟨hshape, hviews⟩ := Document.stack_bind_itemAt? harrays
  have hlive : laid layers ≠ none := by
    intro hnone
    have hcuts := Document.stack_eq_none_iff.1 hnone
    have hcut := List.filterMap_eq_nil_iff.1 hcuts _ hmem
    cases hcut
  obtain ⟨whole, hwhole⟩ := Option.ne_none_iff_exists'.1 hlive
  obtain ⟨laidItems, rfl, hlength⟩ := hshape whole hwhole
  refine ⟨laidItems, hwhole, hlength, fun position hposition => ?_⟩
  have hview := hviews position
  rw [← laid, hwhole, Option.bind_some] at hview
  refine hview.trans ?_
  have hitem : (⟨rest, items[position]⟩ : Layer) ∈ layers.filterMap (·.atItem? position) :=
    List.mem_filterMap.2 ⟨_, hmem, atItem?_eq_some_iff.2 ⟨rfl, List.getElem?_eq_getElem hposition⟩⟩
  have hbelow := List.ne_nil_of_mem hitem
  rw [List.filterMap_filterMap, List.filterMap_congr fun layer hlayer => cut_bind_itemAt? (h layer hlayer) position,
    ← List.map_filterMap]
  refine (congrArg Document.stack (List.map_map (f := cut) (g := (Option.getD · Document.null))).symm).trans ?_
  rw [Document.stack_map_getD_null (fun hnil => hbelow (List.map_eq_nil_iff.1 hnil)), List.filterMap_map]
  rfl

/-! ### Layers that fit -/

/-- Beside a layer at the root all layers are without indexes and come from its value. -/
theorem Fits.of_root {root : Document} {other : Layer} (h : Fits ⟨[], root⟩ other) :
    other.document = root ∧ other.segments.all (!·.isIndex) = true := by
  rcases h with ⟨hdocument, hcompatible⟩ | hparting
  · refine ⟨hdocument.symm, ?_⟩
    rwa [compatible] at hcompatible
  · cases hparting

/-- Beside a layer inside an object only layers at the root and at fields cut something out. -/
theorem Fits.of_field {name : String} {rest : List Segment} {document value : Document} {other : Layer}
    (h : Fits ⟨.field name :: rest, document⟩ other) (hvalue : document.get? name = some value)
    (hroot : other.segments ≠ []) (hlive : other.cut ≠ none) :
    ∃ name' rest', other.segments = .field name' :: rest' := by
  obtain ⟨segments, document'⟩ := other
  obtain ⟨fields, rfl, -⟩ := Document.get?_eq_some_iff.1 hvalue
  match segments with
  | [] => exact absurd rfl hroot
  | .field name' :: rest' => exact ⟨name', rest', rfl⟩
  | .index _ :: _ | .wildcard :: _ =>
    rcases h with ⟨rfl, -⟩ | hparting
    · exact absurd rfl hlive
    · cases hparting

/-- Beside a layer inside an item only layers at indexes cut something out. -/
theorem Fits.of_index {position : Nat} {rest : List Segment} {document value : Document} {other : Layer}
    (h : Fits ⟨.index position :: rest, document⟩ other) (hvalue : document.itemAt? position = some value)
    (hlive : other.cut ≠ none) : ∃ position' rest', other.segments = .index position' :: rest' := by
  obtain ⟨segments, document'⟩ := other
  obtain ⟨items, hitems, -⟩ := Option.bind_eq_some_iff.1 hvalue
  obtain rfl := Document.items?_eq_some_iff.1 hitems
  match segments with
  | .index position' :: rest' => exact ⟨position', rest', rfl⟩
  | [] | .wildcard :: _ => rcases h with ⟨-, hcompatible⟩ | hparting <;> contradiction
  | .field _ :: _ =>
    rcases h with ⟨rfl, -⟩ | hparting
    · exact absurd rfl hlive
    · cases hparting

/-- Beside a layer that fans out over items, only layers at the root and others that fan out over them cut something
out. -/
theorem Fits.of_wildcard {rest : List Segment} {items : List Document} {other : Layer}
    (h : Fits ⟨.wildcard :: rest, .array items⟩ other) (hroot : other.segments ≠ []) (hlive : other.cut ≠ none) :
    ∃ rest', other = ⟨.wildcard :: rest', .array items⟩ := by
  obtain ⟨segments, document'⟩ := other
  match segments with
  | [] => exact absurd rfl hroot
  | .wildcard :: rest' =>
    rcases h with ⟨rfl, -⟩ | hparting
    · exact ⟨rest', rfl⟩
    · cases hparting
  | .index _ :: _ => rcases h with ⟨-, hcompatible⟩ | hparting <;> contradiction
  | .field _ :: _ =>
    rcases h with ⟨rfl, -⟩ | hparting
    · exact absurd rfl hlive
    · cases hparting

/-- Layers that fit go on to fit inside a field. -/
theorem Fits.atField? {layer other inner inner' : Layer} (h : layer.Fits other) {name : String}
    (hinner : layer.atField? name = some inner) (hinner' : other.atField? name = some inner') : inner.Fits inner' := by
  obtain ⟨hsegments, hvalue⟩ := atField?_eq_some_iff.1 hinner
  obtain ⟨hsegments', hvalue'⟩ := atField?_eq_some_iff.1 hinner'
  rw [Fits, hsegments, hsegments', compatible, parting, bne_self_eq_false, Bool.false_or, Bool.false_or] at h
  refine h.imp_left fun ⟨hdocument, hcompatible⟩ => ⟨?_, hcompatible⟩
  rw [hdocument] at hvalue
  exact Option.some.inj (hvalue.symm.trans hvalue')

/-- Layers that fit go on to fit inside the only item of their cuts. -/
theorem Fits.atIndex? {layer other inner inner' : Layer} (h : layer.Fits other) (hinner : layer.atIndex? = some inner)
    (hinner' : other.atIndex? = some inner') : inner.Fits inner' := by
  obtain ⟨position, hsegments, hvalue⟩ := atIndex?_eq_some_iff.1 hinner
  obtain ⟨position', hsegments', hvalue'⟩ := atIndex?_eq_some_iff.1 hinner'
  rw [Fits, hsegments, hsegments', compatible, parting] at h
  rcases h with ⟨hdocument, hcompatible⟩ | hparting
  · by_cases hposition : position = position'
    · subst hposition
      rw [hdocument] at hvalue
      rw [if_pos rfl] at hcompatible
      exact Or.inl ⟨Option.some.inj (hvalue.symm.trans hvalue'), hcompatible⟩
    · rw [if_neg hposition] at hcompatible
      exact Or.inr hcompatible
  · exact Or.inr hparting

/-- Layers that fit go on to fit inside an item. -/
theorem Fits.atItem? {layer other inner inner' : Layer} (h : layer.Fits other) {position : Nat}
    (hinner : layer.atItem? position = some inner) (hinner' : other.atItem? position = some inner') :
    inner.Fits inner' := by
  obtain ⟨hsegments, hvalue⟩ := atItem?_eq_some_iff.1 hinner
  obtain ⟨hsegments', hvalue'⟩ := atItem?_eq_some_iff.1 hinner'
  rw [Fits, hsegments, hsegments', compatible] at h
  rcases h with ⟨hdocument, hcompatible⟩ | hparting
  · rw [hdocument] at hvalue
    exact Or.inl ⟨Option.some.inj (hvalue.symm.trans hvalue'), hcompatible⟩
  · cases hparting

/-- The layers of a list fit, each with each, and their values are sorted. -/
structure Fit (layers : List Layer) : Prop where
  fits : ∀ layer ∈ layers, ∀ other ∈ layers, layer.Fits other
  sorted : ∀ layer ∈ layers, layer.document.Sorted

/-- Layers go on to fit inside their cuts. -/
theorem Fit.filterMap (h : Fit layers) {below : Layer → Option Layer}
    (hfits : ∀ layer other inner inner' : Layer, layer.Fits other → below layer = some inner →
      below other = some inner' → inner.Fits inner')
    (hsorted : ∀ layer inner : Layer, layer.document.Sorted → below layer = some inner → inner.document.Sorted) :
    Fit (layers.filterMap below) := by
  refine ⟨fun inner hinner inner' hinner' => ?_, fun inner hinner => ?_⟩
  · obtain ⟨layer, hlayer, hinner⟩ := List.mem_filterMap.1 hinner
    obtain ⟨other, hother, hinner'⟩ := List.mem_filterMap.1 hinner'
    exact hfits layer other inner inner' (h.fits layer hlayer other hother) hinner hinner'
  · obtain ⟨layer, hlayer, hinner⟩ := List.mem_filterMap.1 hinner
    exact hsorted layer inner (h.sorted layer hlayer) hinner

theorem Fit.atField? (h : Fit layers) (name : String) : Fit (layers.filterMap (·.atField? name)) :=
  h.filterMap (fun _ _ _ _ hfits => hfits.atField?)
    fun _ _ hsorted hinner => hsorted.of_get? (atField?_eq_some_iff.1 hinner).2

theorem Fit.atIndex? (h : Fit layers) : Fit (layers.filterMap Layer.atIndex?) :=
  h.filterMap (fun _ _ _ _ hfits => hfits.atIndex?) fun _ _ hsorted hinner =>
    have ⟨_, _, hitem⟩ := atIndex?_eq_some_iff.1 hinner
    hsorted.of_itemAt? hitem

theorem Fit.atItem? (h : Fit layers) (position : Nat) : Fit (layers.filterMap (·.atItem? position)) :=
  h.filterMap (fun _ _ _ _ hfits => hfits.atItem?)
    fun _ _ hsorted hinner => hsorted.of_itemAt? (atItem?_eq_some_iff.1 hinner).2

/-- With a layer at the root, the cuts laid over each other are its value. -/
theorem Fit.laid_of_root (h : Fit layers) {root : Document} (hroot : ⟨[], root⟩ ∈ layers) :
    laid layers = some root := by
  have hpart : ∀ cut ∈ layers.filterMap Layer.cut, cut.PartOf root := by
    intro cut hcut
    obtain ⟨layer, hlayer, hcut⟩ := List.mem_filterMap.1 hcut
    obtain ⟨hdocument, hfree⟩ := (h.fits _ hroot layer hlayer).of_root
    rw [← hdocument]
    exact partOf_of_extractFrom hfree (h.sorted layer hlayer) hcut
  have hmem : root ∈ layers.filterMap Layer.cut := List.mem_filterMap.2 ⟨_, hroot, rfl⟩
  cases hlaid : laid layers with
  | none => exact absurd (Document.stack_eq_none_iff.1 hlaid) (List.ne_nil_of_mem hmem)
  | some whole =>
    obtain ⟨hupper, hleast⟩ := Document.stack_spec hpart hlaid
    rw [(hleast root hpart).antisymm (hupper root hmem)]

/-- What a layer reaches in its value is reached, with zeros for the indexes, when the cuts of layers that fit are laid
over each other. -/
theorem Fit.mem_resolveFrom_laid (h : Fit layers) {segments : List Segment} {document value : Document}
    (hmem : ⟨segments, document⟩ ∈ layers) (hvalue : value ∈ resolveFrom segments document) :
    ∃ whole, laid layers = some whole ∧ value ∈ resolveFrom (segments.map Segment.zeroed) whole := by
  induction segments generalizing layers document with
  | nil =>
    obtain rfl := List.mem_singleton.1 hvalue
    exact ⟨value, h.laid_of_root hmem, List.mem_singleton_self value⟩
  | cons segment rest ih =>
    by_cases hroot : ∃ root, ⟨[], root⟩ ∈ layers
    · obtain ⟨root, hroot⟩ := hroot
      obtain ⟨hdocument, hfree⟩ := (h.fits _ hroot _ hmem).of_root
      obtain rfl : document = root := hdocument
      exact ⟨document, h.laid_of_root hroot, by rwa [map_zeroed_of_indexFree hfree]⟩
    · have hne : ∀ layer ∈ layers, layer.segments ≠ [] := by
        rintro ⟨_, root⟩ hlayer rfl
        exact hroot ⟨root, hlayer⟩
      obtain ⟨held, hheld, hreached⟩ := List.mem_flatMap.1 hvalue
      cases segment with
      | field name =>
        have hget := Option.mem_toList.1 hheld
        obtain ⟨inner, hinner, hreached⟩ := ih (h.atField? name)
          (List.mem_filterMap.2 ⟨_, hmem, atField?_eq_some_iff.2 ⟨rfl, hget⟩⟩) hreached
        rw [← laid_bind_get? fun layer hlayer hlive =>
          (h.fits _ hmem layer hlayer).of_field hget (hne layer hlayer) hlive] at hinner
        obtain ⟨whole, hwhole, hinner⟩ := Option.bind_eq_some_iff.1 hinner
        exact ⟨whole, hwhole, List.mem_flatMap.2 ⟨inner, Option.mem_toList.2 hinner, hreached⟩⟩
      | index position =>
        have hitem := Option.mem_toList.1 hheld
        obtain ⟨inner, hinner, hreached⟩ := ih h.atIndex?
          (List.mem_filterMap.2 ⟨_, hmem, atIndex?_eq_some_iff.2 ⟨position, rfl, hitem⟩⟩) hreached
        rw [← laid_bind_itemAt?_zero fun layer hlayer hlive =>
          (h.fits _ hmem layer hlayer).of_index hitem hlive] at hinner
        obtain ⟨whole, hwhole, hinner⟩ := Option.bind_eq_some_iff.1 hinner
        exact ⟨whole, hwhole, List.mem_flatMap.2 ⟨inner, Option.mem_toList.2 hinner, hreached⟩⟩
      | wildcard =>
        cases hitems : document.items? with
        | none =>
          rw [Segment.step, hitems] at hheld
          cases hheld
        | some items =>
          obtain rfl := Document.items?_eq_some_iff.1 hitems
          obtain ⟨position, hposition⟩ := List.mem_iff_getElem?.1 hheld
          obtain ⟨inner, hinner, hreached⟩ := ih (h.atItem? position)
            (List.mem_filterMap.2 ⟨_, hmem, atItem?_eq_some_iff.2 ⟨rfl, hposition⟩⟩) hreached
          obtain ⟨laidItems, hlaid, -, hlaidItems⟩ := laid_eq_array (fun layer hlayer hlive =>
            (h.fits _ hmem layer hlayer).of_wildcard (hne layer hlayer) hlive) hmem
          have hlaidItem := hlaidItems position (List.getElem?_eq_some_iff.1 hposition).1
          rw [hinner] at hlaidItem
          exact ⟨_, hlaid, List.mem_flatMap.2 ⟨inner, List.mem_of_getElem? hlaidItem, hreached⟩⟩

end Layer

namespace Document

/-- The projection keeps every requested value: what a path reaches in the document it reaches in the projection, with
zeros for its indexes. -/
def Keeps (document : Document) (paths : List FieldPath) : Prop :=
  ∀ path ∈ paths, ∀ value ∈ path.resolve document, value ∈ path.zeroed.resolve (document.project paths)

/-- A projection to paths with segments is the layers of the paths laid over each other. -/
theorem project_eq_laid {paths : List FieldPath} (hpaths : ∀ path ∈ paths, path.segments ≠ []) (document : Document) :
    document.project paths = (Layer.laid (paths.map fun path => ⟨path.segments, document⟩)).getD .empty := by
  rw [project_eq_stack hpaths, Layer.laid, List.filterMap_map]
  rfl

/-- A projection to compatible paths keeps every requested value. -/
theorem keeps_of_compatible {paths : List FieldPath} (hpaths : ∀ path ∈ paths, path.segments ≠ [])
    (h : ∀ path ∈ paths, ∀ other ∈ paths, FieldPath.compatible path.segments other.segments = true)
    {document : Document} (hsorted : document.Sorted) : document.Keeps paths := by
  intro path hpath value hvalue
  have hfit : Layer.Fit (paths.map fun path => ⟨path.segments, document⟩) := by
    constructor
    · simp only [List.forall_mem_map]
      exact fun path hpath other hother => Or.inl ⟨rfl, h path hpath other hother⟩
    · simp only [List.forall_mem_map]
      exact fun _ _ => hsorted
  obtain ⟨whole, hwhole, hreached⟩ := hfit.mem_resolveFrom_laid (List.mem_map_of_mem hpath) hvalue
  rw [project_eq_laid hpaths, hwhole]
  exact hreached

end Document

end ClusterQuery
