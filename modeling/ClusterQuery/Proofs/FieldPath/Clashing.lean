import ClusterQuery.FieldPath.Text
import ClusterQuery.Proofs.FieldPath.Layering

/-!
# Paths that lose each other's values

Of two paths that are not compatible, one loses a value in some document when the cut of the other is laid over its own
(`exists_clash_of_not_compatible`); the document is built from a path that bears a value (`FieldPath.bearing`), along
the steps that the paths have in common. So a projection keeps every requested value, whichever of some paths are
requested of whichever document, just when the paths are compatible (`project_keeps_iff`).
-/

namespace ClusterQuery

namespace FieldPath

/-- The array with a value at a position, with nulls before it and others after it. -/
def padded (position : Nat) (value : Document) (others : List Document) : Document :=
  .array (List.replicate position .null ++ value :: others)

/-- A document in which segments reach a value and nothing else. -/
def bearing (value : Document) : List Segment → Document
  | [] => value
  | .field name :: rest => .singleton name (bearing value rest)
  | .index position :: rest => padded position (bearing value rest) []
  | .wildcard :: rest => .array [bearing value rest]

/-! ## Documents that bear a value -/

theorem itemAt?_padded (position : Nat) (value : Document) (others : List Document) :
    (padded position value others).itemAt? position = some value := by
  simp [padded, Document.itemAt?, Document.items?]

theorem sorted_padded {position : Nat} {value : Document} {others : List Document} (hvalue : value.Sorted)
    (hothers : ∀ other ∈ others, other.Sorted) : (padded position value others).Sorted := by
  refine .array fun item hitem => ?_
  rcases List.mem_append.1 hitem with hitem | hitem
  · rw [List.eq_of_mem_replicate hitem]
    exact .null
  · rcases List.mem_cons.1 hitem with rfl | hitem
    · exact hvalue
    · exact hothers item hitem

theorem sorted_singleton {name : String} {value : Document} (h : value.Sorted) :
    (Document.singleton name value).Sorted :=
  .object (Keyed.ascending_singleton _) (List.forall_mem_singleton.2 h)

theorem sorted_bearing {value : Document} (h : value.Sorted) (segments : List Segment) :
    (bearing value segments).Sorted := by
  induction segments with
  | nil => exact h
  | cons segment rest ih =>
    cases segment with
    | field => exact sorted_singleton ih
    | index => exact sorted_padded ih (List.forall_mem_nil _)
    | wildcard => exact .array (List.forall_mem_singleton.2 ih)

/-- Segments reach the value in the document that bears it. -/
theorem resolveFrom_bearing (value : Document) (segments : List Segment) :
    resolveFrom segments (bearing value segments) = [value] := by
  induction segments with
  | nil => rfl
  | cons segment rest ih =>
    cases segment with
    | field name => simp [resolveFrom, Segment.step, bearing, Document.get?_singleton, ih]
    | index position => simp [resolveFrom, Segment.step, bearing, padded, Document.items?, ih]
    | wildcard => simp [resolveFrom, Segment.step, bearing, Document.items?, ih]

theorem mem_resolveFrom_bearing (value : Document) (segments : List Segment) :
    value ∈ resolveFrom segments (bearing value segments) := by
  rw [resolveFrom_bearing]
  exact List.mem_singleton_self value

/-- What segments cut out of the document that bears a value bears it too, with zeros for the indexes. -/
theorem extractFrom_bearing (value : Document) (segments : List Segment) :
    extractFrom segments (bearing value segments) = some (bearing value (segments.map Segment.zeroed)) := by
  induction segments with
  | nil => rfl
  | cons segment rest ih =>
    cases segment with
    | field name => simp [extractFrom, bearing, Segment.zeroed, Document.get?_singleton, ih]
    | index position => simp [extractFrom, bearing, Segment.zeroed, padded, Document.items?, ih]
    | wildcard => simp [extractFrom, bearing, Segment.zeroed, Document.items?, ih]

/-- What segments reach in a document is no larger than the document. -/
theorem sizeOf_le_of_mem_resolveFrom {segments : List Segment} {document value : Document}
    (h : value ∈ resolveFrom segments document) : sizeOf value ≤ sizeOf document := by
  induction segments generalizing document with
  | nil => rw [List.mem_singleton.1 h]
  | cons segment rest ih =>
    obtain ⟨held, hheld, hreached⟩ := List.mem_flatMap.1 h
    refine (ih hreached).trans ?_
    have hitem : ∀ items : List Document, document.items? = some items → held ∈ items →
        sizeOf held ≤ sizeOf document := by
      intro items hitems hmem
      rw [Document.items?_eq_some_iff.1 hitems]
      have hlt := List.sizeOf_lt_of_mem hmem
      simp only [Document.array.sizeOf_spec]
      omega
    cases segment with
    | field name =>
      obtain ⟨fields, rfl, hvalue⟩ := Document.get?_eq_some_iff.1 (Option.mem_toList.1 hheld)
      have hlt := List.sizeOf_lt_of_mem (Keyed.mem_of_lookup hvalue)
      simp only [Prod.mk.sizeOf_spec] at hlt
      simp only [Document.object.sizeOf_spec]
      omega
    | index position =>
      obtain ⟨items, hitems, hposition⟩ := Option.bind_eq_some_iff.1 (Option.mem_toList.1 hheld)
      exact hitem items hitems (List.mem_of_getElem? hposition)
    | wildcard =>
      rw [Segment.step] at hheld
      cases hitems : document.items? with
      | none =>
        rw [hitems] at hheld
        cases hheld
      | some items =>
        rw [hitems] at hheld
        exact hitem items hitems hheld

/-- A null reaches nothing but itself. -/
theorem eq_null_of_mem_resolveFrom {segments : List Segment} {value : Document}
    (h : value ∈ resolveFrom segments .null) : value = .null := by
  cases segments with
  | nil => exact List.mem_singleton.1 h
  | cons segment rest => cases segment <;> cases h

/-- What is cut out of a null is a null, if anything. -/
theorem getD_extractFrom_null (segments : List Segment) : (extractFrom segments .null).getD .null = .null := by
  cases segments with
  | nil => rfl
  | cons segment rest => cases segment <;> rfl

end FieldPath

namespace Layer

open FieldPath

variable {layers : List Layer}

/-! ## Losing a value -/

/-- When the cuts of the layers are laid over each other, something that one of them reaches in its value is no longer
reached. -/
def Loses (layers : List Layer) : Prop :=
  ∃ whole, laid layers = some whole ∧ ∃ layer ∈ layers, ∃ value ∈ resolveFrom layer.segments layer.document,
    value ∉ resolveFrom (layer.segments.map Segment.zeroed) whole

/-- Layers at fields lose what is lost under a key. -/
theorem Loses.of_atField? (hlive : ∀ layer ∈ layers, ∃ name rest, layer.segments = .field name :: rest) {name : String}
    (h : Loses (layers.filterMap (·.atField? name))) : Loses layers := by
  obtain ⟨inner, hinner, below, hbelow, value, hvalue, hlost⟩ := h
  rw [← laid_bind_get? fun layer hlayer _ => hlive layer hlayer] at hinner
  obtain ⟨whole, hwhole, hinner⟩ := Option.bind_eq_some_iff.1 hinner
  obtain ⟨layer, hlayer, hfield⟩ := List.mem_filterMap.1 hbelow
  obtain ⟨hsegments, hheld⟩ := atField?_eq_some_iff.1 hfield
  refine ⟨whole, hwhole, layer, hlayer, value, ?_, ?_⟩
  · rw [hsegments]
    exact List.mem_flatMap.2 ⟨_, Option.mem_toList.2 hheld, hvalue⟩
  · rw [hsegments]
    show value ∉ ((whole.get? name).toList.flatMap _)
    rw [hinner]
    simpa using hlost

/-- Layers at indexes lose what is lost in the item that stands alone. -/
theorem Loses.of_atIndex? (hlive : ∀ layer ∈ layers, ∃ position rest, layer.segments = .index position :: rest)
    (h : Loses (layers.filterMap atIndex?)) : Loses layers := by
  obtain ⟨inner, hinner, below, hbelow, value, hvalue, hlost⟩ := h
  rw [← laid_bind_itemAt?_zero fun layer hlayer _ => hlive layer hlayer] at hinner
  obtain ⟨whole, hwhole, hinner⟩ := Option.bind_eq_some_iff.1 hinner
  obtain ⟨layer, hlayer, hindex⟩ := List.mem_filterMap.1 hbelow
  obtain ⟨position, hsegments, hheld⟩ := atIndex?_eq_some_iff.1 hindex
  refine ⟨whole, hwhole, layer, hlayer, value, ?_, ?_⟩
  · rw [hsegments]
    exact List.mem_flatMap.2 ⟨_, Option.mem_toList.2 hheld, hvalue⟩
  · rw [hsegments]
    show value ∉ ((whole.itemAt? 0).toList.flatMap _)
    rw [hinner]
    simpa using hlost

/-- Layers that fan out over one item lose what is lost in it. -/
theorem Loses.of_atItem? {item : Document}
    (hlive : ∀ layer ∈ layers, ∃ rest, layer = ⟨.wildcard :: rest, .array [item]⟩)
    (h : Loses (layers.filterMap (·.atItem? 0))) : Loses layers := by
  obtain ⟨inner, hinner, below, hbelow, value, hvalue, hlost⟩ := h
  obtain ⟨layer, hlayer, hitem⟩ := List.mem_filterMap.1 hbelow
  obtain ⟨rest, rfl⟩ := hlive layer hlayer
  obtain ⟨hsegments, hheld⟩ := atItem?_eq_some_iff.1 hitem
  obtain rfl : rest = below.segments := List.tail_eq_of_cons_eq hsegments
  obtain rfl : item = below.document := Option.some.inj hheld
  obtain ⟨laidItems, hlaid, hlength, hlaidItems⟩ := laid_eq_array (fun layer hlayer _ => hlive layer hlayer) hlayer
  obtain ⟨laidItem, rfl⟩ := List.length_eq_one_iff.1 hlength
  have hlaidItem := hlaidItems 0 Nat.one_pos
  rw [hinner] at hlaidItem
  obtain rfl : laidItem = inner := Option.some.inj hlaidItem
  refine ⟨_, hlaid, _, hlayer, value, ?_, ?_⟩
  · exact List.mem_flatMap.2 ⟨_, List.mem_singleton_self _, hvalue⟩
  · show value ∉ [laidItem].flatMap _
    simpa using hlost

/-- One of two layers loses a value when it is laid under or over the other. -/
def Clash (layer other : Layer) : Prop :=
  Loses [layer, other] ∨ Loses [other, layer]

variable {layer other inner inner' : Layer}

theorem Clash.symm (h : layer.Clash other) : other.Clash layer :=
  Or.symm h

/-- Layers clash when they lose what is lost below them, and there they clash. -/
theorem Clash.of_below {Class : Layer → Prop} {below : Layer → Option Layer}
    (hloses : ∀ layers : List Layer, (∀ layer ∈ layers, Class layer) → Loses (layers.filterMap below) → Loses layers)
    (hlayer : Class layer) (hother : Class other) (hinner : below layer = some inner)
    (hinner' : below other = some inner') (h : inner.Clash inner') : layer.Clash other := by
  refine h.imp (fun h => hloses _ ?_ ?_) fun h => hloses _ ?_ ?_
  · simp [hlayer, hother]
  · simpa [hinner, hinner'] using h
  · simp [hlayer, hother]
  · simpa [hinner, hinner'] using h

/-- Layers that clash do so inside a field. -/
theorem Clash.field {rest rest' : List Segment} {value value' : Document} (h : Clash ⟨rest, value⟩ ⟨rest', value'⟩)
    (name : String) :
    Clash ⟨.field name :: rest, .singleton name value⟩ ⟨.field name :: rest', .singleton name value'⟩ :=
  h.of_below (fun _ hlive => Loses.of_atField? hlive) ⟨name, rest, rfl⟩ ⟨name, rest', rfl⟩
    (atField?_eq_some_iff.2 ⟨rfl, Document.get?_singleton name value⟩)
    (atField?_eq_some_iff.2 ⟨rfl, Document.get?_singleton name value'⟩)

/-- Layers that clash do so inside items that are each alone in their cuts. -/
theorem Clash.index {rest rest' : List Segment} {item item' : Document} (h : Clash ⟨rest, item⟩ ⟨rest', item'⟩)
    {document document' : Document} {position position' : Nat} (hitem : document.itemAt? position = some item)
    (hitem' : document'.itemAt? position' = some item') :
    Clash ⟨.index position :: rest, document⟩ ⟨.index position' :: rest', document'⟩ :=
  h.of_below (fun _ hlive => Loses.of_atIndex? hlive) ⟨position, rest, rfl⟩ ⟨position', rest', rfl⟩
    (atIndex?_eq_some_iff.2 ⟨position, rfl, hitem⟩) (atIndex?_eq_some_iff.2 ⟨position', rfl, hitem'⟩)

/-- Layers that clash do so inside the only item that both fan out over. -/
theorem Clash.wildcard {rest rest' : List Segment} {item : Document} (h : Clash ⟨rest, item⟩ ⟨rest', item⟩) :
    Clash ⟨.wildcard :: rest, .array [item]⟩ ⟨.wildcard :: rest', .array [item]⟩ :=
  h.of_below (fun _ hlive => Loses.of_atItem? hlive) ⟨rest, rfl⟩ ⟨rest', rfl⟩
    (atItem?_eq_some_iff.2 ⟨rfl, rfl⟩) (atItem?_eq_some_iff.2 ⟨rfl, rfl⟩)

/-! ## Where the paths part company -/

theorem laid_pair {cut cut' : Document} (hcut : layer.cut = some cut) (hcut' : other.cut = some cut') :
    laid [layer, other] = some (cut.overlay cut') := by
  rw [laid, List.filterMap_cons_some hcut, List.filterMap_cons_some hcut', List.filterMap_nil]
  rfl

/-- A layer is lost whose cut is replaced by another in which it does not reach something. -/
theorem Clash.of_overlay_eq {cut cut' value : Document} (hcut : layer.cut = some cut) (hcut' : other.cut = some cut')
    (hoverlay : cut.overlay cut' = cut') (hvalue : value ∈ resolveFrom layer.segments layer.document)
    (hlost : value ∉ resolveFrom (layer.segments.map Segment.zeroed) cut') : layer.Clash other := by
  have hlaid := laid_pair hcut hcut'
  rw [hoverlay] at hlaid
  exact Or.inl ⟨cut', hlaid, layer, List.mem_cons_self, value, hvalue, hlost⟩

/-- A whole scalar is replaced by every cut from elsewhere. -/
theorem clash_root (segments : List Segment) :
    Clash ⟨[], .bool true⟩ ⟨segments, bearing (.bool false) segments⟩ := by
  refine Clash.of_overlay_eq rfl (extractFrom_bearing _ segments) ?_ (List.mem_singleton_self _) ?_
  · match segments with
    | [] | .field _ :: _ | .index _ :: _ | .wildcard :: _ =>
      simp [bearing, Document.singleton, padded, Segment.zeroed, Document.overlay]
  · match segments with
    | [] | .field _ :: _ | .index _ :: _ | .wildcard :: _ =>
      simp [resolveFrom, bearing, Document.singleton, padded, Segment.zeroed]

/-- An object is replaced by an array. -/
theorem clash_field (name : String) (rest : List Segment) {segment : Segment} (h : segment.isField = false)
    (rest' : List Segment) :
    Clash ⟨.field name :: rest, bearing .null (.field name :: rest)⟩
      ⟨segment :: rest', bearing .null (segment :: rest')⟩ := by
  refine Clash.of_overlay_eq (extractFrom_bearing _ _) (extractFrom_bearing _ _) ?_ (mem_resolveFrom_bearing _ _) ?_
  · cases segment with
    | field => cases h
    | index | wildcard => simp [bearing, Document.singleton, padded, Segment.zeroed, Document.overlay]
  · cases segment with
    | field => cases h
    | index | wildcard =>
      simp [bearing, padded, Segment.zeroed, resolveFrom, Segment.step, Document.get?]

/-- An array of one item is replaced by an array of two nulls. -/
theorem clash_array {segment : Segment} (h : segment.isField = false) (rest rest' : List Segment) :
    Clash ⟨segment :: rest, bearing (.bool true) (segment :: rest)⟩ ⟨.wildcard :: rest', .array [.null, .null]⟩ := by
  have hcut' : cut ⟨.wildcard :: rest', .array [.null, .null]⟩ = some (.array [.null, .null]) := by
    simp [cut, extractFrom, Document.items?, getD_extractFrom_null]
  refine Clash.of_overlay_eq (extractFrom_bearing _ _) hcut' ?_ (mem_resolveFrom_bearing _ _) ?_
  · cases segment with
    | field => cases h
    | index | wildcard => simp [bearing, padded, Segment.zeroed, Document.overlay]
  · have hnull : Document.bool true ∉ resolveFrom (rest.map Segment.zeroed) .null :=
      fun hmem => Document.noConfusion (eq_null_of_mem_resolveFrom hmem)
    cases segment with
    | field => cases h
    | index | wildcard => simp [Segment.zeroed, resolveFrom, Segment.step, Document.items?, hnull]

/-- Segments that do not part clash somewhere. -/
theorem exists_clash_of_not_parting {segments other : List Segment} (h : parting segments other = false) :
    ∃ document document' : Document, document.Sorted ∧ document'.Sorted ∧
      Clash ⟨segments, document⟩ ⟨other, document'⟩ := by
  fun_induction parting segments other with
  | case1 name rest other rest' ih =>
    obtain ⟨hname, hrest⟩ := Bool.or_eq_false_iff.1 h
    obtain rfl : name = other := by simpa using hname
    obtain ⟨value, value', hvalue, hvalue', hclash⟩ := ih hrest
    exact ⟨_, _, sorted_singleton hvalue, sorted_singleton hvalue', hclash.field name⟩
  | case2 position rest position' rest' ih =>
    obtain ⟨item, item', hitem, hitem', hclash⟩ := ih h
    exact ⟨padded position item [], padded position' item' [], sorted_padded hitem (List.forall_mem_nil _),
      sorted_padded hitem' (List.forall_mem_nil _), hclash.index (itemAt?_padded _ _ _) (itemAt?_padded _ _ _)⟩
  | case3 segments other hfield hindex =>
    match segments, other with
    | [], other => exact ⟨_, _, .bool _, sorted_bearing (.bool _) other, clash_root other⟩
    | segments, [] => exact ⟨_, _, sorted_bearing (.bool _) segments, .bool _, (clash_root segments).symm⟩
    | .field name :: rest, .field name' :: rest' => exact absurd rfl (hfield name rest name' rest' rfl)
    | .index position :: rest, .index position' :: rest' => exact absurd rfl (hindex position rest position' rest' rfl)
    | .field name :: rest, .index _ :: rest' | .field name :: rest, .wildcard :: rest' =>
      exact ⟨_, _, sorted_bearing .null _, sorted_bearing .null _, clash_field name rest rfl rest'⟩
    | .index _ :: rest, .field name :: rest' | .wildcard :: rest, .field name :: rest' =>
      exact ⟨_, _, sorted_bearing .null _, sorted_bearing .null _, (clash_field name rest' rfl rest).symm⟩
    | .index _ :: rest, .wildcard :: rest' | .wildcard :: rest, .wildcard :: rest' =>
      exact ⟨_, _, sorted_bearing (.bool _) _, .array (by simp), clash_array rfl rest rest'⟩
    | .wildcard :: rest, .index _ :: rest' =>
      exact ⟨_, _, .array (by simp), sorted_bearing (.bool _) _, (clash_array rfl rest' rest).symm⟩

/-! ## In one document -/

/-- Arrays of different lengths are not overlaid item by item. -/
theorem overlay_array_of_length_ne {items values : List Document} (h : items.length ≠ values.length) :
    (Document.array items).overlay (.array values) = .array values := by
  simp [Document.overlay, h]

/-- Some document changes when what segments with an index cut out of it is laid over it. -/
theorem exists_overlay_ne {segments : List Segment} (h : segments.all (!·.isIndex) = false) :
    ∃ document cut : Document, document.Sorted ∧ extractFrom segments document = some cut ∧
      document.overlay cut ≠ document := by
  induction segments with
  | nil => cases h
  | cons segment rest ih =>
    cases segment with
    | field name =>
      obtain ⟨value, cut, hsorted, hcut, hne⟩ := ih h
      refine ⟨.singleton name value, .singleton name cut, sorted_singleton hsorted, ?_, ?_⟩
      · simp [extractFrom, Document.get?_singleton, hcut]
      · simpa [Document.singleton, Document.overlay, Document.overlayFields, Keyed.insert] using hne
    | wildcard =>
      obtain ⟨item, cut, hsorted, hcut, hne⟩ := ih h
      refine ⟨.array [item], .array [cut], .array (List.forall_mem_singleton.2 hsorted), ?_, ?_⟩
      · simp [extractFrom, Document.items?, hcut]
      · simpa [Document.overlay, Document.overlayItems] using hne
    | index position =>
      refine ⟨padded position (bearing .null rest) [.null], .array [bearing .null (rest.map Segment.zeroed)],
        sorted_padded (sorted_bearing .null rest) (List.forall_mem_singleton.2 .null), ?_, ?_⟩
      · have hitem := itemAt?_padded position (bearing .null rest) [.null]
        rw [Document.itemAt?] at hitem
        rw [extractFrom, hitem, Option.bind_some, extractFrom_bearing]
        rfl
      · have hlength : (List.replicate position Document.null ++ [bearing .null rest, .null]).length ≠
            [bearing .null (rest.map Segment.zeroed)].length := by
          simp
        rw [padded, overlay_array_of_length_ne hlength]
        exact fun heq => hlength (congrArg List.length (Document.array.inj heq)).symm

/-- A whole document is changed by segments with an index. -/
theorem exists_clash_root {segments : List Segment} (h : segments.all (!·.isIndex) = false) :
    ∃ document : Document, document.Sorted ∧ Clash ⟨[], document⟩ ⟨segments, document⟩ := by
  obtain ⟨document, cut, hsorted, hcut, hne⟩ := exists_overlay_ne h
  exact ⟨document, hsorted, Or.inl ⟨document.overlay cut, laid_pair rfl hcut, _, List.mem_cons_self, document,
    List.mem_singleton_self _, fun hmem => hne (List.mem_singleton.1 hmem).symm⟩⟩

/-- An item that stands alone replaces all the items. -/
theorem exists_clash_items (position : Nat) (rest rest' : List Segment) :
    ∃ document : Document, document.Sorted ∧
      Clash ⟨.index position :: rest, document⟩ ⟨.wildcard :: rest', document⟩ := by
  -- the item after the indexed one bears what is larger than the cut of the indexed one, so no path reaches it there
  let small := bearing (.bool false) (rest.map Segment.zeroed)
  have hsmall : small.Sorted := sorted_bearing (.bool false) _
  let items := List.replicate position Document.null ++ [bearing (.bool false) rest, bearing (.array [small]) rest']
  refine ⟨.array items, sorted_padded (sorted_bearing (.bool false) rest) (List.forall_mem_singleton.2 <|
    sorted_bearing (.array (List.forall_mem_singleton.2 hsmall)) rest'), Clash.symm ?_⟩
  have hindex : cut ⟨.index position :: rest, .array items⟩ = some (.array [small]) := by
    simp [cut, extractFrom, Document.items?, items, extractFrom_bearing, small]
  have hlast : bearing (.array [small]) rest' ∈ items := by simp [items]
  refine Clash.of_overlay_eq rfl hindex (overlay_array_of_length_ne (by simp [items]))
    (List.mem_flatMap.2 ⟨_, hlast, mem_resolveFrom_bearing _ _⟩) fun hmem => ?_
  obtain ⟨held, hheld, hreached⟩ := List.mem_flatMap.1 hmem
  obtain rfl : held = small := List.mem_singleton.1 hheld
  have hsize := sizeOf_le_of_mem_resolveFrom hreached
  simp only [Document.array.sizeOf_spec, List.cons.sizeOf_spec] at hsize
  omega

/-- Different values can stand at different positions of one array. -/
theorem exists_itemAt? {position other : Nat} (hne : position ≠ other) {item value : Document} (hitem : item.Sorted)
    (hvalue : value.Sorted) : ∃ document : Document, document.Sorted ∧ document.itemAt? position = some item ∧
      document.itemAt? other = some value := by
  refine ⟨.array (((List.replicate (position + other + 1) .null).set position item).set other value),
    .array fun held hheld => ?_, ?_, ?_⟩
  · rcases List.mem_or_eq_of_mem_set hheld with hheld | rfl
    · rcases List.mem_or_eq_of_mem_set hheld with hheld | rfl
      · rw [List.eq_of_mem_replicate hheld]
        exact .null
      · exact hitem
    · exact hvalue
  · have hposition : position < position + other + 1 := by omega
    simp [Document.itemAt?, Document.items?, hne.symm, hposition]
  · have hother : other < position + other + 1 := by omega
    simp [Document.itemAt?, Document.items?, hother]

/-- Segments that are not compatible clash in some document. -/
theorem exists_clash_of_not_compatible {segments other : List Segment} (h : compatible segments other = false) :
    ∃ document : Document, document.Sorted ∧ Clash ⟨segments, document⟩ ⟨other, document⟩ := by
  fun_induction compatible segments other with
  | case1 other => exact exists_clash_root h
  | case2 segments =>
    obtain ⟨document, hsorted, hclash⟩ := exists_clash_root h
    exact ⟨document, hsorted, hclash.symm⟩
  | case3 name rest name' rest' ih =>
    obtain ⟨hname, hrest⟩ := Bool.or_eq_false_iff.1 h
    obtain rfl : name = name' := by simpa using hname
    obtain ⟨value, hvalue, hclash⟩ := ih hrest
    exact ⟨_, sorted_singleton hvalue, hclash.field name⟩
  | case4 rest rest' ih =>
    obtain ⟨item, hitem, hclash⟩ := ih h
    exact ⟨_, .array (List.forall_mem_singleton.2 hitem), hclash.wildcard⟩
  | case5 rest position rest' ih =>
    obtain ⟨item, hitem, hclash⟩ := ih h
    exact ⟨padded position item [], sorted_padded hitem (List.forall_mem_nil _),
      hclash.index (itemAt?_padded _ _ _) (itemAt?_padded _ _ _)⟩
  | case6 position rest position' rest' hne =>
    obtain ⟨item, item', hitem, hitem', hclash⟩ := exists_clash_of_not_parting h
    obtain ⟨document, hsorted, hat, hat'⟩ := exists_itemAt? hne hitem hitem'
    exact ⟨document, hsorted, hclash.index hat hat'⟩
  | case7 position rest rest' => exact exists_clash_items position rest rest'
  | case8 rest position rest' =>
    obtain ⟨document, hsorted, hclash⟩ := exists_clash_items position rest' rest
    exact ⟨document, hsorted, hclash.symm⟩
  | case9 => cases h

end Layer

/-! ## Projections that keep every requested value -/

namespace Document

/-- A projection keeps not every requested value when the layers of its paths lose one. -/
theorem not_keeps_of_loses {paths : List FieldPath} (hpaths : ∀ path ∈ paths, path.segments ≠ []) {document : Document}
    (h : Layer.Loses (paths.map fun path => ⟨path.segments, document⟩)) : ¬document.Keeps paths := by
  intro hkeeps
  obtain ⟨whole, hwhole, layer, hlayer, value, hvalue, hlost⟩ := h
  obtain ⟨path, hpath, rfl⟩ := List.mem_map.1 hlayer
  have hreached := hkeeps path hpath value hvalue
  rw [project_eq_laid hpaths, hwhole] at hreached
  exact hlost hreached

/-- Whichever of some paths are requested, each with segments, and of whichever document, the projection keeps every
requested value, just when every two of the paths are compatible. -/
theorem project_keeps_iff {paths : List FieldPath} (hpaths : ∀ path ∈ paths, path.segments ≠ []) :
    (∀ requested ⊆ paths, ∀ document : Document, document.Sorted → document.Keeps requested) ↔
      ∀ path ∈ paths, ∀ other ∈ paths, FieldPath.compatible path.segments other.segments = true := by
  constructor
  · intro h path hpath other hother
    by_contra hne
    obtain ⟨document, hsorted, hclash⟩ := Layer.exists_clash_of_not_compatible (Bool.eq_false_iff.2 hne)
    have hkeeps : ∀ first ∈ paths, ∀ second ∈ paths,
        ¬Layer.Loses [⟨first.segments, document⟩, ⟨second.segments, document⟩] := by
      intro first hfirst second hsecond hloses
      have hrequested : [first, second] ⊆ paths :=
        List.cons_subset.2 ⟨hfirst, List.cons_subset.2 ⟨hsecond, List.nil_subset paths⟩⟩
      exact not_keeps_of_loses (fun path hpath => hpaths path (hrequested hpath)) hloses
        (h _ hrequested document hsorted)
    exact hclash.elim (hkeeps path hpath other hother) (hkeeps other hother path hpath)
  · intro h requested hrequested document hsorted
    exact keeps_of_compatible (fun path hpath => hpaths path (hrequested hpath))
      (fun path hpath other hother => h path (hrequested hpath) other (hrequested hother)) hsorted

namespace Sample

/-- A pod of two containers. -/
def pairedPod : Document :=
  .object [("spec", .object [("containers", .array [
    .object [("image", .string "x"), ("name", .string "web")],
    .object [("image", .string "y"), ("name", .string "proxy")]])])]

/-- The names of all containers. -/
def names : FieldPath :=
  ⟨[.field "spec", .field "containers", .wildcard, .field "name"]⟩

/-- The image of the first container. -/
def firstImage : FieldPath :=
  ⟨[.field "spec", .field "containers", .index 0, .field "image"]⟩

/-- The name of the first container. -/
def firstName : FieldPath :=
  ⟨[.field "spec", .field "containers", .index 0, .field "name"]⟩

end Sample

/-- The name and the image of one container are both kept, whatever the pod. -/
theorem project_keeps_iff_firstImage :
    (∀ path ∈ [Sample.firstName, Sample.firstImage], path.segments ≠ []) ∧
      ∀ requested ⊆ [Sample.firstName, Sample.firstImage], ∀ document : Document, document.Sorted →
        document.Keeps requested :=
  have hpaths : ∀ path ∈ [Sample.firstName, Sample.firstImage], path.segments ≠ [] := by decide
  ⟨hpaths, (project_keeps_iff hpaths).2 (by decide)⟩

/-- The image of the first container replaces the names of all. -/
theorem project_loses_names :
    FieldPath.parse "spec.containers[*].name" = .ok Sample.names ∧
      FieldPath.parse "spec.containers[0].image" = .ok Sample.firstImage ∧ Sample.pairedPod.Sorted ∧
      Document.string "web" ∈ Sample.names.resolve Sample.pairedPod ∧
      Sample.names.zeroed.resolve (Sample.pairedPod.project [Sample.names, Sample.firstImage]) = [] ∧
      ¬Sample.pairedPod.Keeps [Sample.names, Sample.firstImage] := by
  have hsorted : Sample.pairedPod.Sorted := by simp [Sample.pairedPod, Sample.ascending_imaged]
  have hvalue : Document.string "web" ∈ Sample.names.resolve Sample.pairedPod := List.mem_cons_self
  have hlost : Sample.names.zeroed.resolve (Sample.pairedPod.project [Sample.names, Sample.firstImage]) = [] := by
    rfl
  refine ⟨by decide +kernel, by decide +kernel, hsorted, hvalue, hlost, fun hkeeps => ?_⟩
  have hkept := hkeeps Sample.names List.mem_cons_self _ hvalue
  rw [hlost] at hkept
  cases hkept

end Document

end ClusterQuery
