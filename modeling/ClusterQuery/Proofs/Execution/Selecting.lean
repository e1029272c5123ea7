import ClusterQuery.Proofs.Execution.Describing
import ClusterQuery.Proofs.Execution.Placing
import ClusterQuery.Proofs.FieldPath.Plain
import ClusterQuery.Proofs.Selector.Keys

/-!
# Selectors select what predicates select

A selector compares texts, and a missing value counts as no text; a predicate compares typed values, any of those that
its path reaches. For a literal with a text both say the same of a scalar (`Literal.agrees_eq`), since no two scalars of
different types that a literal may equal have one text: an integer is written with digits alone, a real never is
(`Number.text_real_ne_toString`).
-/

namespace ClusterQuery

/-! ## The texts of scalars -/

namespace Number

/-- A natural number is written with digits. -/
theorem isDigit_of_mem_repr {c : Char} {n : Nat} (h : c ∈ n.repr.toList) : c.isDigit = true := by
  rw [Nat.toList_repr] at h
  exact Nat.isDigit_of_mem_toDigits (by decide) (by decide) h

/-- Natural numbers of one text are one. -/
theorem repr_inj {m n : Nat} (h : m.repr = n.repr) : m = n := by
  have hdigits := congrArg (fun text : String => Nat.ofDigitChars 10 text.toList 0) h
  simpa only [Nat.toList_repr, Nat.ofDigitChars_ten_toDigits] using hdigits

/-- An integer is written as a natural number, or as one after a minus sign. -/
theorem toString_eq (value : Int) :
    toString value = if 0 ≤ value then value.toNat.repr else "-" ++ (-value).toNat.repr :=
  Int.repr_eq_if

/-- Integers of one text are one. -/
theorem toString_inj {a b : Int} : toString a = toString b ↔ a = b := by
  refine ⟨fun h => ?_, congrArg toString⟩
  have hminus : ∀ m n : Nat, m.repr ≠ "-" ++ n.repr := by
    intro m n heq
    have hmem : '-' ∈ m.repr.toList := by simp [heq, String.toList_append]
    exact absurd (isDigit_of_mem_repr hmem) (by decide)
  rw [toString_eq, toString_eq] at h
  split at h <;> split at h
  · have hnat := repr_inj h
    omega
  · exact absurd h (hminus _ _)
  · exact absurd h.symm (hminus _ _)
  · have hnat := repr_inj (String.append_right_inj "-" |>.1 h)
    omega

/-- An integer is written without a point and without an exponent. -/
theorem notMem_toString {c : Char} (hc : c = '.' ∨ c = 'e') (value : Int) : c ∉ (toString value).toList := by
  have hdigits : ∀ n : Nat, c ∉ n.repr.toList := by
    intro n hmem
    rcases hc with rfl | rfl <;> exact absurd (isDigit_of_mem_repr hmem) (by decide)
  rw [toString_eq]
  split
  · exact hdigits _
  · rw [String.toList_append, List.mem_append]
    rintro (hmem | hmem)
    · rcases hc with rfl | rfl <;> exact absurd hmem (by decide)
    · exact hdigits _ hmem

/-- A positive real is written with a point or an exponent. -/
theorem mem_decimalText (d : Decimal.Numeral) :
    '.' ∈ (decimalText layout d).toList ∨ 'e' ∈ (decimalText layout d).toList := by
  have hpoint : '.' ∈ layout.point.toList := by decide
  have hmark : 'e' ∈ layout.exponentMark.toList := by decide
  unfold decimalText
  simp only
  split
  · exact Or.inl (by simp [String.toList_append, hpoint])
  · split
    · exact Or.inl (by simp [String.toList_append, hpoint])
    · split
      · exact Or.inl (by simp [String.toList_append, hpoint])
      · exact Or.inr (by simp [String.toList_append, hmark])

/-- A real is never written as an integer is. -/
theorem text_real_ne_toString (negative : Bool) (magnitude : Decimal.Magnitude) (value : Int) :
    (Number.real negative magnitude).text ≠ toString value := by
  intro heq
  have hmagnitude : '.' ∈ (magnitudeText magnitude).toList ∨ 'e' ∈ (magnitudeText magnitude).toList := by
    unfold magnitudeText
    split
    · exact Or.inl (by decide)
    · exact mem_decimalText _
  have hlist := congrArg String.toList heq
  rw [text, String.toList_append] at hlist
  rcases hmagnitude with hmem | hmem
  · exact notMem_toString (Or.inl rfl) value (hlist ▸ List.mem_append_right _ hmem)
  · exact notMem_toString (Or.inr rfl) value (hlist ▸ List.mem_append_right _ hmem)

end Number

theorem boolText_inj {a b : Bool} : boolText a = boolText b ↔ a = b := by
  cases a <;> cases b <;> decide

theorem Document.scalarText_bool (value : Bool) : (Document.bool value).scalarText = boolText value := by
  cases value <;> rfl

namespace Literal

/-- A literal equals a scalar by value, or loosely by text, just when its text is that of the scalar, which is not
null. -/
theorem agrees_eq_of_ne_null (literal : Literal) {value : Document} (hvalue : value.isScalar = true)
    (hnull : value ≠ .null) : literal.agrees value = (value.scalarText == literal.selectorText) := by
  rw [Bool.eq_iff_iff, beq_iff_eq]
  cases value with
  | array | object => cases hvalue
  | null => exact absurd rfl hnull
  | bool b =>
    rw [Document.scalarText_bool]
    cases literal with
    | string a => exact beq_iff_eq.trans eq_comm
    | integer a => exact beq_iff_eq.trans eq_comm
    | boolean a => exact beq_iff_eq.trans (eq_comm.trans boolText_inj.symm)
  | string b => cases literal <;> exact beq_iff_eq.trans eq_comm
  | number b =>
    cases literal with
    | string a => exact beq_iff_eq.trans eq_comm
    | boolean a => exact beq_iff_eq.trans eq_comm
    | integer a =>
      cases b with
      | integer b => exact beq_iff_eq.trans (eq_comm.trans Number.toString_inj.symm)
      | real negative magnitude => exact ⟨nofun, fun h => absurd h (Number.text_real_ne_toString negative magnitude a)⟩

theorem agrees_null (literal : Literal) : literal.agrees .null = false := by
  cases literal <;> rfl

/-- A literal with a text equals a scalar by value, or loosely by text, just when its text is that of the scalar. -/
theorem agrees_eq {literal : Literal} (hliteral : literal.selectorText ≠ "") {value : Document}
    (hvalue : value.isScalar = true) : literal.agrees value = (value.scalarText == literal.selectorText) := by
  by_cases hnull : value = .null
  · rw [hnull, agrees_null, eq_comm, beq_eq_false_iff_ne]
    exact hliteral.symm
  · exact agrees_eq_of_ne_null literal hvalue hnull

/-- Loose equality of a literal and a value is equality of texts: a text, a number or a truth value equals the literals
that have its text, and all else equals none. Values of different types have different texts where it matters: whole
numbers differ in theirs whatever their size, and no real has the text of a whole number. -/
theorem agrees_iff (literal : Literal) (value : Document) : literal.agrees value = true ↔
    ((∃ text, value = .string text) ∨ (∃ number, value = .number number) ∨ ∃ truth, value = .bool truth) ∧
      value.scalarText = literal.selectorText := by
  have hscalar : value.isScalar = true → value ≠ .null →
      (literal.agrees value = true ↔ value.scalarText = literal.selectorText) := fun hvalue hnull => by
    rw [agrees_eq_of_ne_null literal hvalue hnull, beq_iff_eq]
  cases value with
  | null | array | object =>
    refine ⟨fun h => ?_, by rintro ⟨⟨_, h⟩ | ⟨_, h⟩ | ⟨_, h⟩, -⟩ <;> cases h⟩
    cases literal <;> cases h
  | string text => exact (hscalar rfl nofun).trans (and_iff_right (Or.inl ⟨text, rfl⟩)).symm
  | number number => exact (hscalar rfl nofun).trans (and_iff_right (Or.inr (Or.inl ⟨number, rfl⟩))).symm
  | bool truth => exact (hscalar rfl nofun).trans (and_iff_right (Or.inr (Or.inr ⟨truth, rfl⟩))).symm

/-- A text of digits equals the largest unsigned number, and the least signed one has its text; a zero before the digits
makes another text, and so does a fraction after them. -/
example :
    let two : Document := .number (.real false (1024 * 2 ^ 52))
    (string "18446744073709551615").agrees (.number (.integer 18446744073709551615)) = true ∧
      (integer (-9223372036854775808)).agrees (.string "-9223372036854775808") = true ∧
      (integer 7).agrees (.string "007") = false ∧
      two.scalarText = "2.0" ∧ (string "2.0").agrees two = true ∧ (integer 2).agrees two = false := by
  decide +kernel

end Literal

/-! ## Labels -/

/-- A document has no labels, or an object of texts. -/
def Document.HasTextLabels (document : Document) : Prop :=
  ∀ labels, document.at? ["metadata", "labels"] = some labels →
    ∃ fields, labels = .object fields ∧ ∀ field ∈ fields, ∃ text, field.2 = .string text

/-- The path of a label. -/
def FieldPath.ofLabel (key : String) : FieldPath :=
  ⟨[.field "metadata", .field "labels", .field key]⟩

variable {literal : Literal} {comparison : Comparison} {document : Document}

/-- A condition on a label selects what the predicate at its path does. -/
theorem Requirement.acceptsLabels_eq (hliteral : literal.selectorText ≠ "") (h : document.HasTextLabels)
    (key : String) :
    (⟨key, comparison, literal.selectorText⟩ : Requirement).acceptsLabels document =
      (⟨.ofLabel key, comparison, literal⟩ : Predicate).accepts document := by
  have hresolve : (FieldPath.ofLabel key).resolve document =
      ((document.at? ["metadata", "labels"]).bind (·.get? key)).toList := by
    rw [FieldPath.resolve, FieldPath.resolveFrom_eq rfl]
    simp [Document.at?, Option.bind_assoc]
  rw [Requirement.acceptsLabels, Predicate.accepts, hresolve]
  congr 1
  cases hlabels : document.at? ["metadata", "labels"] with
  | none => rfl
  | some labels =>
    obtain ⟨fields, rfl, htexts⟩ := h labels hlabels
    cases hvalue : (Document.object fields).get? key with
    | none => rw [Option.bind_some, hvalue]; rfl
    | some value =>
      obtain ⟨text, rfl⟩ := htexts (key, value) (Keyed.mem_of_lookup hvalue)
      rw [Option.bind_some, hvalue, Option.toList_some, List.any_cons, List.any_nil, Bool.or_false,
        Literal.agrees_eq hliteral rfl]
      rfl

/-- The fields below the labels are joined to the key of a label. -/
theorem SelectorKey.ofFilter?_of_labels {names : List String} (h : names ≠ []) :
    ofFilter? ⟨.field "metadata" :: .field "labels" :: names.map Segment.field⟩ =
      some (.label (".".intercalate names)) := by
  have hnames : ∀ names : List String, fieldNames? (names.map Segment.field) = some names := by
    intro names
    induction names with
    | nil => rfl
    | cons name rest ih => rw [List.map_cons, fieldNames?, ih]; rfl
  obtain ⟨first, rest, rfl⟩ := List.exists_cons_of_ne_nil h
  simp only [ofFilter?, fieldNames?, hnames, Option.map_some]

namespace Selector

/-- The characters of a label key have no meaning in paths, but for the dot. -/
theorem isLabelKey_plain {key : String} (h : isLabelKey key.toList = true) :
    ∀ c ∈ key.toList, c ≠ '"' ∧ c ≠ '[' := by
  intro c hc
  have hclass := (isLabelKey_iff.1 h).isNameChar c hc
  constructor <;> rintro rfl <;> exact absurd hclass (by decide)

end Selector

/-- The text of a path below the labels is read so that the condition goes to the label whose key follows, unless a word
between the dots of the key is missing. -/
theorem SelectorKey.parse_label {key : String} (h : Selector.isLabelKey key.toList = true) :
    (∃ path, FieldPath.parse (labelStart ++ key) = .ok path ∧ ofFilter? path = some (.label key)) ∨
      ([] ∈ Selector.pieces '.' key.toList ∧
        FieldPath.parse (labelStart ++ key) = .error (.emptySegment (labelStart ++ key))) := by
  have htext : (labelStart ++ key).toList = "metadata".toList ++ '.' :: ("labels".toList ++ '.' :: key.toList) := by
    rw [String.toList_append]
    rfl
  have hpieces : Selector.pieces '.' (labelStart ++ key).toList =
      "metadata".toList :: "labels".toList :: Selector.pieces '.' key.toList := by
    rw [htext, Selector.pieces_append_cons (by decide), Selector.pieces_append_cons (by decide)]
  have hplain : ∀ c ∈ (labelStart ++ key).toList, c ≠ '"' ∧ c ≠ '[' := by
    have hstart : (labelStart.toList.all fun c => c != '"' && c != '[') = true := by decide
    rw [String.toList_append]
    refine List.forall_mem_append.2 ⟨fun c hc => ?_, Selector.isLabelKey_plain h⟩
    simpa using List.all_eq_true.1 hstart c hc
  have hne : labelStart ++ key ≠ "" := by
    intro hnil
    rw [hnil] at htext
    cases htext
  rw [FieldPath.parse_of_plain hne hplain, hpieces]
  by_cases hempty : [] ∈ Selector.pieces '.' key.toList
  · exact Or.inr ⟨hempty, if_pos (List.mem_cons_of_mem _ (List.mem_cons_of_mem _ hempty))⟩
  · left
    rw [if_neg (by simpa using hempty)]
    refine ⟨_, rfl, ?_⟩
    have hnames : (Selector.pieces '.' key.toList).map String.ofList ≠ [] :=
      fun hnil => Selector.pieces_ne_nil '.' key.toList (List.map_eq_nil_iff.1 hnil)
    have hfilter := ofFilter?_of_labels hnames
    rw [Selector.intercalate_map_pieces, List.map_map] at hfilter
    simpa [Function.comp_def] using hfilter

/-! ## Fields -/

/-- A condition on a field selects what the predicate at its path does, where nothing or a scalar stands. -/
theorem Requirement.acceptsFields_eq (hliteral : literal.selectorText ≠ "") {key : String} {path : FieldPath}
    (hpath : FieldPath.parse key = .ok path) {names : List String}
    (hnames : SelectorKey.fieldNames? path.segments = some names)
    (hscalar : ∀ value ∈ path.resolve document, value.isScalar = true) :
    (⟨key, comparison, literal.selectorText⟩ : Requirement).acceptsFields document =
      (⟨path, comparison, literal⟩ : Predicate).accepts document := by
  have hresolve : path.resolve document = (document.at? names).toList := FieldPath.resolveFrom_eq hnames document
  rw [hresolve] at hscalar
  simp only [Requirement.acceptsFields, Predicate.accepts, hpath, FieldPath.first?, hresolve]
  congr 1
  cases hvalue : document.at? names with
  | none => exact beq_eq_false_iff_ne.2 (Ne.symm hliteral)
  | some value =>
    rw [hvalue] at hscalar
    rw [Option.toList_some, List.any_cons, List.any_nil, Bool.or_false,
      Literal.agrees_eq hliteral (hscalar value (List.mem_singleton_self value))]
    rfl

/-- The names of the fields that a key leads through are the words between its dots. -/
theorem SelectorKey.fieldNames?_of_isFieldKey {key : String} (h : Selector.isFieldKey key.toList = true) :
    ∃ path, FieldPath.parse key = .ok path ∧
      fieldNames? path.segments = some ((Selector.pieces '.' key.toList).map String.ofList) :=
  ⟨_, FieldPath.parse_of_isFieldKey h, FieldPath.fieldNames?_map_field _⟩

/-! ## Properties and filters -/

/-- Where the condition of a property belongs: its name, or a label or field; the namespace is no condition. -/
def Property.selectorKey? (property : Property) : Option SelectorKey :=
  if property.key = "name" then some (.field "metadata.name")
  else if property.key = "namespace" then none
  else some (.ofProperty property.key)

/-- A path leads to what the condition of a property is on: it belongs to the same label, or it is the path of the
field. -/
def Property.SpeaksOf (property : Property) (path : FieldPath) : Prop :=
  match property.selectorKey? with
  | some (.label key) => SelectorKey.ofFilter? path = some (.label key)
  | some (.field key) => FieldPath.parse key = .ok path
  | none => False

theorem Search.addProperty_eq {property : Property} {key : SelectorKey} (h : property.selectorKey? = some key)
    (search : Search) : search.addProperty property = search.constrain key .equal property.value.selectorText := by
  unfold Property.selectorKey? at h
  unfold Search.addProperty
  split at h
  · cases h
    rename_i hname
    rw [if_pos hname]
  · split at h
    · cases h
    · cases h
      rename_i hname hnamespace
      rw [if_neg hname, if_neg hnamespace]

/-- The key of a field does not lie below the labels. -/
theorem Property.not_labelStart_isPrefix {property : Property} {key : String}
    (h : property.selectorKey? = some (.field key)) : ¬SelectorKey.labelStart.toList <+: key.toList := by
  rintro ⟨rest, hrest⟩
  have hlabel : SelectorKey.labelStart.toList.isPrefixOf? key.toList = some rest :=
    List.isPrefixOf?_eq_some_iff_append_eq.2 hrest
  unfold selectorKey? at h
  split at h
  · cases h
    cases hrest
  · split at h
    · cases h
    · rw [SelectorKey.ofProperty] at h
      split at h
      · cases h
      · rename_i hnone
        split at h
        · cases h
        · cases h
          cases hnone.symm.trans hlabel

/-- A filter at the path of a field belongs to that field, or to none. -/
theorem Property.ofFilter?_of_field {property : Property} {key : String} {path : FieldPath}
    (h : property.selectorKey? = some (.field key))
    (hnames : SelectorKey.fieldNames? path.segments = some ((Selector.pieces '.' key.toList).map String.ofList)) :
    SelectorKey.ofFilter? path = none ∨ SelectorKey.ofFilter? path = some (.field key) := by
  have hkey := Selector.intercalate_map_pieces key
  unfold SelectorKey.ofFilter?
  rw [hnames]
  split
  · rename_i first rest heq
    -- the path of a label would begin as its key does
    rw [Option.some.inj heq] at hkey
    refine absurd ?_ (not_labelStart_isPrefix h)
    rw [← hkey, String.toList_intercalate]
    simp only [List.map_cons, List.intercalate_cons_cons]
    exact ⟨_, by simp [SelectorKey.labelStart]; rfl⟩
  · rename_i heq
    rw [Option.some.inj heq] at hkey
    exact Or.inr (congrArg (some ∘ SelectorKey.field) hkey)
  · rename_i heq
    rw [Option.some.inj heq] at hkey
    exact Or.inr (congrArg (some ∘ SelectorKey.field) hkey)
  · exact Or.inl rfl

/-- A search that takes a condition on a field has been given the key of one. -/
theorem Search.isFieldKey_of_constrain {search next : Search} {key value : String}
    (h : search.constrain (.field key) comparison value = .ok next) : Selector.isFieldKey key.toList = true := by
  obtain ⟨fields, hfields, -⟩ := map_eq_ok.1 h
  rw [Selector.addField] at hfields
  split at hfields
  · assumption
  · cases hfields

/-- The condition of a property selects what the equal filter does where it leads. -/
theorem Filter.accepts_eq {property : Property} (hliteral : property.value.selectorText ≠ "") {path : FieldPath}
    (hspeaks : property.SpeaksOf path) {search next : Search} (h : search.addProperty property = .ok next)
    (hscalar : ∀ value ∈ path.resolve document, value.isScalar = true) (text : String) :
    (∀ key, SelectorKey.ofFilter? path = some key → property.selectorKey? = some key) ∧
      next.accepts document =
        (search.accepts document && (⟨text, .equal, property.value⟩ : Filter).accepts path document) := by
  unfold Property.SpeaksOf at hspeaks
  cases hkey : property.selectorKey? with
  | none =>
    rw [hkey] at hspeaks
    cases hspeaks
  | some key =>
    rw [hkey] at hspeaks
    rw [Search.addProperty_eq hkey] at h
    rw [(Search.constrain_accepts h).2, Filter.accepts]
    cases key with
    | label key =>
      rw [hspeaks]
      exact ⟨fun _ hother => hother, rfl⟩
    | field key =>
      obtain ⟨parsed, hparsed, hnames⟩ := SelectorKey.fieldNames?_of_isFieldKey (Search.isFieldKey_of_constrain h)
      obtain rfl : path = parsed := Except.ok.inj (hspeaks.symm.trans hparsed)
      rcases Property.ofFilter?_of_field hkey hnames with hnone | hfield
      · rw [hnone]
        refine ⟨nofun, ?_⟩
        show (search.accepts document && Requirement.acceptsFields ⟨key, .equal, _⟩ document) = _
        rw [Requirement.acceptsFields_eq hliteral hparsed hnames hscalar]
      · rw [hfield]
        exact ⟨fun _ hother => hother, rfl⟩

/-- Where a node takes a property, its target takes the equal filter, and both select the same. -/
theorem Target.exists_addFilter_eq {property : Property} (hliteral : property.value.selectorText ≠ "")
    {path : FieldPath} (hspeaks : property.SpeaksOf path) {target : Target} {next : Search}
    (h : target.search.addProperty property = .ok next)
    (hscalar : ∀ value ∈ path.resolve document, value.isScalar = true) (text : String) :
    ∃ filtered, target.addFilter ⟨text, .equal, property.value⟩ path = .ok filtered ∧
      (filtered.search.accepts document && filtered.accepts document) =
        (next.accepts document && target.accepts document) := by
  obtain ⟨hsame, haccepts⟩ := Filter.accepts_eq hliteral hspeaks h hscalar text
  obtain ⟨filtered, hfiltered⟩ := (exists_addFilter_iff target ⟨text, .equal, property.value⟩ path).2 fun key hkey =>
    (exists_constrain_iff target.search _ key _ _).1 ⟨next, (Search.addProperty_eq (hsame key hkey) _).symm.trans h⟩
  refine ⟨filtered, hfiltered, ?_⟩
  rw [(addFilter_accepts hfiltered).2.2, haccepts, Bool.and_right_comm]

namespace Selector

/-- The selector of one requirement that was taken. -/
theorem eq_of_addLabel {key value : String} {selector : Selector}
    (h : empty.addLabel key comparison value = .ok selector) :
    selector = ⟨[⟨key, comparison, value⟩]⟩ ∧ isLabelKey key.toList = true := by
  unfold addLabel at h
  split at h
  · cases h
  · rename_i hkey
    split at h
    · cases h
    · cases h
      exact ⟨rfl, by simpa using hkey⟩

theorem eq_of_addField {key value : String} {selector : Selector}
    (h : empty.addField key comparison value = .ok selector) :
    selector = ⟨[⟨key, comparison, value⟩]⟩ ∧ isFieldKey key.toList = true := by
  unfold addField at h
  split at h
  · rename_i hkey
    cases h
    exact ⟨rfl, hkey⟩
  · cases h

/-- Conditions select the same in selectors as in predicates. For every literal with a text, both comparisons and every
document: a label selector accepts what the predicate at the path of the label does, if the document has no labels or an
object of texts; the label is the one that a filter below the labels is on, whose key is joined from the fields there,
and that a text below the labels is read as, unless two dots of the key meet; a field selector accepts what the
predicate at the parsed key does, if nothing or a scalar stands there; and where a node takes a property, its target
takes the equal filter on what the property speaks of, and both select the same. -/
theorem matches_eq_accepts (hliteral : literal.selectorText ≠ "") (comparison : Comparison) (document : Document) :
    (∀ (key : String) (selector : Selector), empty.addLabel key comparison literal.selectorText = .ok selector →
        (document.HasTextLabels →
          selector.matchesLabels document = (⟨.ofLabel key, comparison, literal⟩ : Predicate).accepts document) ∧
        ((∃ path, FieldPath.parse (SelectorKey.labelStart ++ key) = .ok path ∧
            SelectorKey.ofFilter? path = some (.label key)) ∨
          ([] ∈ pieces '.' key.toList ∧ FieldPath.parse (SelectorKey.labelStart ++ key) =
            .error (.emptySegment (SelectorKey.labelStart ++ key))))) ∧
      (∀ names : List String, names ≠ [] →
        SelectorKey.ofFilter? ⟨.field "metadata" :: .field "labels" :: names.map Segment.field⟩ =
          some (.label (".".intercalate names))) ∧
      (∀ (key : String) (selector : Selector), empty.addField key comparison literal.selectorText = .ok selector →
        ∃ path, FieldPath.parse key = .ok path ∧ ((∀ value ∈ path.resolve document, value.isScalar = true) →
          selector.matchesFields document = (⟨path, comparison, literal⟩ : Predicate).accepts document)) ∧
      ∀ (target : Target) (property : Property) (path : FieldPath) (next : Search) (text : String),
        property.value = literal → property.SpeaksOf path → target.search.addProperty property = .ok next →
        (∀ value ∈ path.resolve document, value.isScalar = true) →
        ∃ filtered, target.addFilter ⟨text, .equal, literal⟩ path = .ok filtered ∧
          (filtered.search.accepts document && filtered.accepts document) =
            (next.accepts document && target.accepts document) := by
  refine ⟨fun key selector hadd => ?_, fun names hnames => SelectorKey.ofFilter?_of_labels hnames,
    fun key selector hadd => ?_, ?_⟩
  · obtain ⟨rfl, hkey⟩ := eq_of_addLabel hadd
    refine ⟨fun hlabels => ?_, SelectorKey.parse_label hkey⟩
    rw [matchesLabels, List.all_cons, List.all_nil, Bool.and_true, Requirement.acceptsLabels_eq hliteral hlabels]
  · obtain ⟨rfl, hkey⟩ := eq_of_addField hadd
    obtain ⟨path, hpath, hnames⟩ := SelectorKey.fieldNames?_of_isFieldKey hkey
    refine ⟨path, hpath, fun hscalar => ?_⟩
    rw [matchesFields, List.all_cons, List.all_nil, Bool.and_true,
      Requirement.acceptsFields_eq hliteral hpath hnames hscalar]
  · rintro target property path next text rfl hspeaks hadd hscalar
    exact Target.exists_addFilter_eq hliteral hspeaks hadd hscalar text

namespace Sample

/-- A pod of three replicas with a label whose key has a domain. -/
def labelledPod : Document :=
  .object [("metadata", .object [("labels", .object [("app.kubernetes.io/name", .string "3")]),
    ("name", .string "web-1")]), ("spec", .object [("replicas", .int 3)])]

/-- A node of pods without conditions. -/
def anyPod : Target :=
  ⟨Node.ofBinding "p" "Pod" [], ⟨⟨"", "v1", "pods"⟩, "Pod", true⟩, Search.everything, []⟩

theorem hasTextLabels_labelledPod : labelledPod.HasTextLabels := by
  intro labels hlabels
  cases hlabels
  exact ⟨_, rfl, List.forall_mem_singleton.2 ⟨"3", rfl⟩⟩

end Sample

/-- The number three selects the pod by its label, by its replicas, and as a property or as a filter on them. -/
theorem matches_eq_accepts_labelledPod :
    (Literal.integer 3).selectorText ≠ "" ∧ Sample.labelledPod.HasTextLabels ∧
      boundPath? "p.metadata.labels.app.kubernetes.io/name" = some ("p", ⟨[.field "metadata", .field "labels",
        .field "app", .field "kubernetes", .field "io/name"]⟩) ∧
      SelectorKey.ofFilter? ⟨[.field "metadata", .field "labels", .field "app", .field "kubernetes",
        .field "io/name"]⟩ = some (.label "app.kubernetes.io/name") ∧
      (∃ selector, empty.addLabel "app.kubernetes.io/name" .equal (Literal.integer 3).selectorText = .ok selector ∧
        selector.matchesLabels Sample.labelledPod =
          (⟨.ofLabel "app.kubernetes.io/name", .equal, .integer 3⟩ : Predicate).accepts Sample.labelledPod) ∧
      (∃ selector path, empty.addField "spec.replicas" .equal (Literal.integer 3).selectorText = .ok selector ∧
        FieldPath.parse "spec.replicas" = .ok path ∧ selector.matchesFields Sample.labelledPod =
          (⟨path, .equal, .integer 3⟩ : Predicate).accepts Sample.labelledPod) ∧
      ∃ next filtered, Sample.anyPod.search.addProperty ⟨"spec.replicas", .integer 3⟩ = .ok next ∧
        Sample.anyPod.addFilter ⟨"p.spec.replicas", .equal, .integer 3⟩ ⟨[.field "spec", .field "replicas"]⟩ =
          .ok filtered ∧ (filtered.search.accepts Sample.labelledPod && filtered.accepts Sample.labelledPod) =
            (next.accepts Sample.labelledPod && Sample.anyPod.accepts Sample.labelledPod) := by
  have hliteral : (Literal.integer 3).selectorText ≠ "" := by decide
  obtain ⟨hlabel, hjoined, hfield, hproperty⟩ := matches_eq_accepts hliteral .equal Sample.labelledPod
  have hadd : empty.addLabel "app.kubernetes.io/name" .equal (Literal.integer 3).selectorText =
      .ok ⟨[⟨"app.kubernetes.io/name", .equal, (Literal.integer 3).selectorText⟩]⟩ := by decide +kernel
  have hadd' : empty.addField "spec.replicas" .equal (Literal.integer 3).selectorText =
      .ok ⟨[⟨"spec.replicas", .equal, (Literal.integer 3).selectorText⟩]⟩ := by decide +kernel
  have hparse : FieldPath.parse "spec.replicas" = .ok ⟨[.field "spec", .field "replicas"]⟩ := by decide +kernel
  have hscalar : ∀ value ∈ FieldPath.resolve ⟨[.field "spec", .field "replicas"]⟩ Sample.labelledPod,
      value.isScalar = true := List.forall_mem_singleton.2 rfl
  have hspeaks : Property.SpeaksOf ⟨"spec.replicas", .integer 3⟩ ⟨[.field "spec", .field "replicas"]⟩ := hparse
  have hnext : Sample.anyPod.search.addProperty ⟨"spec.replicas", .integer 3⟩ =
      .ok ⟨none, ⟨[⟨"spec.replicas", .equal, (Literal.integer 3).selectorText⟩]⟩, .empty⟩ := by decide +kernel
  obtain ⟨path, hpath, hfields⟩ := hfield _ _ hadd'
  obtain rfl : path = _ := Except.ok.inj (hpath.symm.trans hparse)
  obtain ⟨filtered, hfiltered, hselects⟩ := hproperty Sample.anyPod _ _ _ "p.spec.replicas" rfl hspeaks hnext hscalar
  exact ⟨hliteral, Sample.hasTextLabels_labelledPod, by decide +kernel,
    (hjoined ["app", "kubernetes", "io/name"] nofun).trans (by decide +kernel),
    ⟨_, hadd, (hlabel _ _ hadd).1 Sample.hasTextLabels_labelledPod⟩, ⟨_, _, hadd', hpath, hfields hscalar⟩,
    _, filtered, hnext, hfiltered, hselects⟩

end Selector

end ClusterQuery
