import ClusterQuery.Proofs.FieldPath.Layering

/-!
# A cut has what its path reaches

What a path reaches can be read off value by value, each followed to its end, or segment by segment over all the values
reached so far (`resolve_eq_foldl`). What it cuts out of a document has the same values at the same places: the path
reaches them there in the same order, with zeros for its indexes, and the nulls that stand for what is not reached lead
nowhere (`resolveFrom_of_extractFrom`). So nothing is cut out only where nothing is reached; without wildcards the
converse holds too (`extractFrom_eq_none_iff`), while a wildcard cuts out an array even when none of its items goes on.
-/

namespace ClusterQuery.FieldPath

variable {segments : List Segment} {document : Document}

/-- From several values segments reach what they reach one by one, each from all the values before it. -/
theorem flatMap_resolveFrom (segments : List Segment) (values : List Document) :
    values.flatMap (resolveFrom segments) =
      segments.foldl (fun reached segment => reached.flatMap segment.step) values := by
  induction segments generalizing values with
  | nil => simp [resolveFrom]
  | cons segment rest ih =>
    rw [List.foldl_cons, ← ih, List.flatMap_assoc]
    rfl

/-- A path reaches what its segments reach one by one, each from all the values before it. -/
theorem resolve_eq_foldl (path : FieldPath) (document : Document) :
    path.resolve document =
      path.segments.foldl (fun reached segment => reached.flatMap segment.step) [document] := by
  rw [← flatMap_resolveFrom, List.flatMap_singleton]
  rfl

/-- A null leads nowhere. -/
theorem resolveFrom_null (h : segments ≠ []) : resolveFrom segments .null = [] := by
  cases segments with
  | nil => exact absurd rfl h
  | cons segment rest => cases segment <;> rfl

/-- What is cut out at segments has what they reach, where the cut is led through by the same segments with zeros for
their indexes. -/
theorem resolveFrom_of_extractFrom {cut : Document} (h : extractFrom segments document = some cut) :
    resolveFrom (segments.map Segment.zeroed) cut = resolveFrom segments document := by
  induction segments generalizing document cut with
  | nil =>
    cases h
    rfl
  | cons segment rest ih =>
    cases segment with
    | field name =>
      obtain ⟨inner, hcut, rfl⟩ := Option.map_eq_some_iff.1 h
      obtain ⟨value, hvalue, hinner⟩ := Option.bind_eq_some_iff.1 hcut
      simp [resolveFrom, Segment.step, Segment.zeroed, Document.get?_singleton, hvalue, ih hinner]
    | index position =>
      obtain ⟨inner, hcut, rfl⟩ := Option.map_eq_some_iff.1 h
      obtain ⟨value, hitem, hinner⟩ := Option.bind_eq_some_iff.1 hcut
      obtain ⟨items, hitems, hvalue⟩ := Option.bind_eq_some_iff.1 hitem
      obtain rfl := Document.items?_eq_some_iff.1 hitems
      simp [resolveFrom, Segment.step, Segment.zeroed, Document.items?, hvalue, ih hinner]
    | wildcard =>
      obtain ⟨items, hitems, rfl⟩ := Option.map_eq_some_iff.1 h
      obtain rfl := Document.items?_eq_some_iff.1 hitems
      -- item by item: what is not reached stands as a null, and segments that end cut out every item
      have hitem : ∀ item, resolveFrom (rest.map Segment.zeroed) ((extractFrom rest item).getD .null) =
          resolveFrom rest item := by
        intro item
        cases hinner : extractFrom rest item with
        | some inner => exact ih hinner
        | none =>
          have hrest : rest.map Segment.zeroed ≠ [] := by
            intro hnil
            obtain rfl := List.map_eq_nil_iff.1 hnil
            cases hinner
          rw [Option.getD_none, resolveFrom_null hrest, resolveFrom_eq_nil hinner]
      simp [resolveFrom, Segment.step, Segment.zeroed, Document.items?, List.flatMap_map, hitem]

/-- Segments without wildcards cut nothing out of a document just when they reach nothing in it. -/
theorem extractFrom_eq_none_iff (hsingular : segments.all (· != .wildcard) = true) :
    extractFrom segments document = none ↔ resolveFrom segments document = [] := by
  refine ⟨resolveFrom_eq_nil, ?_⟩
  intro h
  induction segments generalizing document with
  | nil => cases h
  | cons segment rest ih =>
    obtain ⟨hsegment, hrest⟩ := Bool.and_eq_true_iff.1 hsingular
    have hbelow := List.flatMap_eq_nil_iff.1 h
    cases segment with
    | wildcard => cases hsegment
    | field name | index position =>
      rw [extractFrom, Option.map_eq_none_iff, Option.bind_eq_none_iff]
      intro value hvalue
      exact ih hrest (hbelow value (Option.mem_toList.2 hvalue))

/-- What a path cuts out of a document and what it reaches there agree. In the cut the path with zeros for its indexes
reaches the same values in the same order; where nothing is cut out nothing is reached; and a path without wildcards
cuts nothing out just when it reaches nothing. -/
theorem resolve_zeroed_extract (path : FieldPath) (document : Document) :
    (∀ cut, path.extract document = some cut → path.zeroed.resolve cut = path.resolve document) ∧
      (path.extract document = none → path.resolve document = []) ∧
      (path.singular = true → (path.extract document = none ↔ path.resolve document = [])) := by
  refine ⟨?_, resolveFrom_eq_nil, extractFrom_eq_none_iff⟩
  intro cut hcut
  exact resolveFrom_of_extractFrom hcut

namespace Sample

/-- Rows of several lengths, one with a null in it, and a text among them. -/
def rows : Document :=
  .object [("rows", .array [.array [.int 1, .null], .array [.int 2], .string "none", .array [.int 3, .int 4]])]

/-- The second item of every row. -/
def secondColumn : FieldPath :=
  ⟨[.field "rows", .wildcard, .index 1]⟩

end Sample

/-- The null of the first row is reached in the cut, and the nulls that fill in for the short row and the text are not;
a row that is not there is neither cut out nor reached. -/
theorem resolve_zeroed_extract_rows :
    Sample.secondColumn.extract Sample.rows =
        some (.object [("rows", .array [.array [.null], .null, .null, .array [.int 4]])]) ∧
      Sample.secondColumn.zeroed.resolve
        (.object [("rows", .array [.array [.null], .null, .null, .array [.int 4]])]) =
        Sample.secondColumn.resolve Sample.rows ∧
      Sample.secondColumn.resolve Sample.rows = [.null, .int 4] ∧
      FieldPath.singular ⟨[.field "rows", .index 7]⟩ = true ∧
      FieldPath.extract ⟨[.field "rows", .index 7]⟩ Sample.rows = none := by
  have hcut : Sample.secondColumn.extract Sample.rows =
      some (.object [("rows", .array [.array [.null], .null, .null, .array [.int 4]])]) := rfl
  refine ⟨hcut, (resolve_zeroed_extract _ _).1 _ hcut, rfl, by decide, ?_⟩
  exact ((resolve_zeroed_extract ⟨[.field "rows", .index 7]⟩ Sample.rows).2.2 (by decide)).2 rfl

end ClusterQuery.FieldPath
