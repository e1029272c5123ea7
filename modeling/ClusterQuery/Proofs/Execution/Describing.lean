import Mathlib.Data.List.Pairwise
import ClusterQuery.Proofs.Execution.Patches
import ClusterQuery.Proofs.Execution.Planning
import ClusterQuery.Proofs.Keys

/-!
# What new documents say

A property of a node is read in two ways: as a condition on documents (`Property.accepts`) and as a part of the document
that the node describes when it is created. Both speak of one place in a document (`Property.place?`). Where the places
of a node are apart (`Node.Apart`) the document described has what each property says at its place
(`Target.describes_newDocument`), and a document that has it meets the conditions of the node
(`Target.Describes.accepts`).
-/

namespace ClusterQuery

/-- The names of the fields that a text leads through, when it is a path of fields only. -/
def FieldPath.names? (text : String) : Option (List String) :=
  match FieldPath.parse text with
  | .ok path => SelectorKey.fieldNames? path.segments
  | .error _ => none

namespace Property

/-- The path of the field that a property names, if it names one by a path. -/
def field? (property : Property) : Option (List String) :=
  match SelectorKey.ofProperty property.key with
  | .label _ => none
  | .field key => FieldPath.names? key

/-- The place in a document that a property speaks of; the namespace is said to the store. -/
def place? (property : Property) : Option (List String) :=
  if property.key = "name" then some ["metadata", "name"]
  else if property.key = "namespace" then none
  else
    match SelectorKey.ofProperty property.key with
    | .label key => some ["metadata", "labels", key]
    | .field key => FieldPath.names? key

/-- What a property says of its place: the value of a field, and of all else the text. -/
def written (property : Property) : Document :=
  match SelectorKey.ofProperty property.key with
  | .label _ => .string property.value.selectorText
  | .field _ => property.value.toDocument

/-- Two properties speak of places of which neither leads on from the other. -/
def Apart (property other : Property) : Prop :=
  ∀ place ∈ property.place?, ∀ place' ∈ other.place?, ¬Comparable place place'

instance : DecidableRel Apart := fun property other =>
  inferInstanceAs (Decidable (∀ place ∈ property.place?, ∀ place' ∈ other.place?, ¬Comparable place place'))

instance : Std.Symm Apart where
  symm _ _ h place hplace place' hplace' hc := h place' hplace' place hplace hc.symm

end Property

/-- The paths of the identity of a document. -/
def identityPaths : List (List String) :=
  [["apiVersion"], ["kind"], ["metadata", "name"], ["metadata", "namespace"]]

/-- The properties of a node speak of places apart from each other, and the fields among them lie apart from the
identity. -/
structure Node.Apart (node : Node) : Prop where
  places : node.properties.Pairwise Property.Apart
  fields : ∀ property ∈ node.properties, ∀ place ∈ property.field?, ∀ path ∈ identityPaths, ¬Comparable place path

instance (node : Node) : Decidable node.Apart :=
  decidable_of_iff (node.properties.Pairwise Property.Apart ∧ ∀ property ∈ node.properties,
      ∀ place ∈ property.field?, ∀ path ∈ identityPaths, ¬Comparable place path)
    ⟨fun h => ⟨h.1, h.2⟩, fun h => ⟨h.places, h.fields⟩⟩

/-- The fields that the properties of a node set, by their paths. -/
def Node.fields (node : Node) : List (List String × Literal) :=
  node.properties.filterMap fun property => property.field?.map (·, property.value)

namespace Target

/-- A new document before its fields are set. -/
def blank (target : Target) : Document :=
  .ofFields [("apiVersion", .string target.kind.coordinate.apiVersion), ("kind", .string target.kind.kind),
    ("metadata", .object target.newMetadata)]

/-- A document is of the kind of a target and has what each property of its node says at its place. -/
structure Describes (target : Target) (document : Document) : Prop where
  apiVersion_eq : document.at? ["apiVersion"] = some (.string target.kind.coordinate.apiVersion)
  kind_eq : document.at? ["kind"] = some (.string target.kind.kind)
  written : ∀ property ∈ target.node.properties, property.key ≠ "namespace" →
    ∃ place, property.place? = some place ∧ document.at? place = some property.written

end Target

/-! ## Places as conditions -/

/-- What segments reach that are all fields is what stands there. -/
theorem FieldPath.resolveFrom_eq {segments : List Segment} {names : List String}
    (h : SelectorKey.fieldNames? segments = some names) (document : Document) :
    resolveFrom segments document = (document.at? names).toList := by
  induction segments generalizing names document with
  | nil =>
    cases h
    rfl
  | cons segment rest ih =>
    cases segment with
    | field name =>
      obtain ⟨others, hothers, rfl⟩ := Option.map_eq_some_iff.1 h
      rw [resolveFrom, Segment.step, Document.at?_cons]
      cases document.get? name with
      | none => rfl
      | some value => simp [ih hothers]
    | _ => cases h

namespace Requirement

/-- What stands at the path of a field meets the condition on its text. -/
theorem acceptsFields_of_at? {key : String} {path : List String} (hpath : FieldPath.names? key = some path)
    {document value : Document} (h : document.at? path = some value) :
    (⟨key, .equal, value.scalarText⟩ : Requirement).acceptsFields document = true := by
  unfold FieldPath.names? at hpath
  split at hpath
  · rename_i parsed hparsed
    simp only [acceptsFields, hparsed, FieldPath.first?, FieldPath.resolve, FieldPath.resolveFrom_eq hpath, h]
    exact beq_self_eq_true _
  · cases hpath

/-- A label of a text meets the condition on it. -/
theorem acceptsLabels_of_at? {key text : String} {document : Document}
    (h : document.at? ["metadata", "labels", key] = some (.string text)) :
    (⟨key, .equal, text⟩ : Requirement).acceptsLabels document = true := by
  have hlabel : (document.at? ["metadata", "labels"]).bind (·.get? key) = some (.string text) := by
    simpa [Document.at?_cons, Document.at?, Option.bind_assoc] using h
  simp only [acceptsLabels, hlabel]
  exact beq_self_eq_true _

end Requirement

/-- The value of a literal has the text of the literal. -/
theorem Literal.scalarText_toDocument (literal : Literal) : literal.toDocument.scalarText = literal.selectorText := by
  cases literal with
  | boolean value => cases value <;> rfl
  | _ => rfl

namespace Property

variable {property : Property}

/-- The name and the namespace are named by no path. -/
theorem ne_of_ofProperty_eq_field {key : String} (h : SelectorKey.ofProperty property.key = .field key) :
    property.key ≠ "name" ∧ property.key ≠ "namespace" := by
  have hname : SelectorKey.ofProperty "name" = .label "name" := by decide
  have hnamespace : SelectorKey.ofProperty "namespace" = .label "namespace" := by decide
  constructor
  · intro hkey
    rw [hkey, hname] at h
    cases h
  · intro hkey
    rw [hkey, hnamespace] at h
    cases h

/-- A property that names a field has a key for it. -/
theorem ofProperty_eq_field_of_field? {path : List String} (h : property.field? = some path) :
    ∃ key, SelectorKey.ofProperty property.key = .field key ∧ FieldPath.names? key = some path := by
  unfold field? at h
  split at h
  · cases h
  · rename_i key hkey
    exact ⟨key, hkey, h⟩

/-- A property that names a field speaks of it. -/
theorem place?_of_field? {path : List String} (h : property.field? = some path) : property.place? = some path := by
  obtain ⟨key, hkey, hpath⟩ := ofProperty_eq_field_of_field? h
  obtain ⟨hname, hnamespace⟩ := ne_of_ofProperty_eq_field hkey
  rw [place?, if_neg hname, if_neg hnamespace, hkey]
  exact hpath

/-- A property other than the name and the namespace whose key is for a label speaks of the label. -/
theorem place?_of_label {key : String} (h : SelectorKey.ofProperty property.key = .label key)
    (hname : property.key ≠ "name") (hnamespace : property.key ≠ "namespace") :
    property.place? = some ["metadata", "labels", key] := by
  rw [place?, if_neg hname, if_neg hnamespace, h]

/-- A document that has what a property says at its place meets the condition of the property. -/
theorem accepts_of_at? {place : List String} (hplace : property.place? = some place) {document : Document}
    (h : document.at? place = some property.written) : property.accepts document = true := by
  unfold place? at hplace
  unfold accepts
  by_cases hname : property.key = "name"
  · rw [if_pos hname] at hplace ⊢
    cases hplace
    have hwritten : property.written = .string property.value.selectorText := by
      rw [written, hname]
      rfl
    have hnames : FieldPath.names? "metadata.name" = some ["metadata", "name"] := by decide
    rw [hwritten] at h
    exact Requirement.acceptsFields_of_at? hnames h
  · by_cases hnamespace : property.key = "namespace"
    · rw [if_neg hname, if_pos hnamespace]
    · rw [if_neg hname, if_neg hnamespace] at hplace ⊢
      unfold written at h
      cases hkey : SelectorKey.ofProperty property.key with
      | label key =>
        rw [hkey] at hplace h
        cases hplace
        exact Requirement.acceptsLabels_of_at? h
      | field key =>
        rw [hkey] at hplace h
        rw [← property.value.scalarText_toDocument]
        exact Requirement.acceptsFields_of_at? hplace h

end Property

/-- A document that has what every property says meets all conditions of the node. -/
theorem Target.Describes.accepts {target : Target} {document : Document} (h : target.Describes document) :
    MeetsConditions [] target.node document := by
  refine ⟨fun property hproperty => ?_, nofun⟩
  by_cases hnamespace : property.key = "namespace"
  · rw [Property.accepts, if_neg (by rw [hnamespace]; decide), if_pos hnamespace]
  · obtain ⟨place, hplace, hwritten⟩ := h.written property hproperty hnamespace
    exact Property.accepts_of_at? hplace hwritten

/-! ## The document of a target -/

namespace Node.Apart

variable {node : Node} (h : node.Apart)

include h

/-- A property that names the name is the one that is looked up. -/
theorem property?_name {property : Property} (hproperty : property ∈ node.properties) (hname : property.key = "name") :
    node.property? "name" = some property.value := by
  cases hfound : node.properties.find? (·.key == "name") with
  | none => exact absurd (beq_iff_eq.2 hname) (List.find?_eq_none.1 hfound property hproperty)
  | some found =>
    rw [Node.property?, propertyValue?, hfound]
    have hkey : found.key = "name" := by simpa using List.find?_some hfound
    by_cases hsame : found = property
    · rw [hsame]
      rfl
    · -- two properties would speak of the name
      have hapart := h.places.forall (List.mem_of_find?_eq_some hfound) hproperty hsame
      exact absurd (Or.inl (List.prefix_refl ["metadata", "name"]))
        (hapart _ (by simp [Property.place?, hkey]) _ (by simp [Property.place?, hname]))

/-- The fields of a node are apart from each other. -/
theorem pairwise_fields : node.fields.Pairwise fun entry other => ¬Comparable entry.1 other.1 := by
  refine h.places.filterMap _ fun property other hapart entry hentry entry' hentry' => ?_
  obtain ⟨path, hpath, rfl⟩ := Option.map_eq_some_iff.1 hentry
  obtain ⟨path', hpath', rfl⟩ := Option.map_eq_some_iff.1 hentry'
  exact hapart path (Property.place?_of_field? hpath) path' (Property.place?_of_field? hpath')

/-- The fields of a node are apart from its name and its labels. -/
theorem fields_not_comparable {property : Property} {place : List String} (hproperty : property ∈ node.properties)
    (hplace : property.place? = some place) (hfield : property.field? = none) :
    ∀ entry ∈ node.fields, ¬Comparable entry.1 place := by
  intro entry hentry
  obtain ⟨other, hother, hmade⟩ := List.mem_filterMap.1 hentry
  obtain ⟨path, hpath, rfl⟩ := Option.map_eq_some_iff.1 hmade
  refine h.places.forall hother hproperty ?_ path (Property.place?_of_field? hpath) place hplace
  rintro rfl
  rw [hfield] at hpath
  cases hpath

/-- The fields of a node are apart from the identity. -/
theorem identity_not_comparable {path : List String} (hpath : path ∈ identityPaths) :
    ∀ entry ∈ node.fields, ¬Comparable entry.1 path := by
  intro entry hentry
  obtain ⟨property, hproperty, hfield⟩ := List.mem_filterMap.1 hentry
  obtain ⟨place, hplace, rfl⟩ := Option.map_eq_some_iff.1 hfield
  exact h.fields property hproperty place hplace path hpath

end Node.Apart

namespace Target

variable {target : Target}

/-- A property other than the name and the namespace is a detail. -/
theorem mem_details {property : Property} : property ∈ target.details ↔
    property ∈ target.node.properties ∧ property.key ≠ "name" ∧ property.key ≠ "namespace" := by
  simp [details]

/-- What is made of the fields among the properties is made of those among the details. -/
theorem filterMap_details {β : Type} (f : Property → List String → β) :
    target.details.filterMap (fun property => property.field?.map (f property)) =
      target.node.properties.filterMap fun property => property.field?.map (f property) := by
  rw [details, List.filterMap_filter]
  refine List.filterMap_congr fun property _ => ?_
  split
  · rfl
  · rename_i hdetail
    cases hfield : property.field? with
    | none => rfl
    | some path =>
      obtain ⟨key, hkey, -⟩ := Property.ofProperty_eq_field_of_field? hfield
      exact absurd (by simpa using Property.ne_of_ofProperty_eq_field hkey) hdetail

/-- The patch of a detail nests its value below a path of fields, if it names a field. -/
theorem newPatches_eq {patches : List Document} (h : target.newPatches = .ok patches) :
    patches = target.node.fields.map (fun entry => Document.nested entry.1 entry.2.toDocument) ∧
      ∀ property ∈ target.details, ∀ key, SelectorKey.ofProperty property.key = .field key →
        ∃ path, property.field? = some path := by
  obtain ⟨patch?, hsteps, rfl⟩ := exists_filterMap_of_filterMapM h
  have hstep : ∀ property ∈ target.details,
      patch? property = property.field?.map (Document.nested · property.value.toDocument) ∧
        ∀ key, SelectorKey.ofProperty property.key = .field key → ∃ path, property.field? = some path := by
    intro property hproperty
    have hran := hsteps property hproperty
    cases hkey : SelectorKey.ofProperty property.key with
    | label key =>
      simp only [hkey] at hran
      rw [Property.field?, hkey]
      exact ⟨(Except.ok.inj hran).symm, nofun⟩
    | field key =>
      simp only [hkey] at hran
      obtain ⟨path, hpath, hran⟩ := bind_eq_ok.1 hran
      rw [FieldPath.nest, FieldPath.nestFrom_eq] at hran
      have hfield : property.field? = SelectorKey.fieldNames? path.segments := by
        rw [Property.field?, hkey]
        dsimp only
        rw [FieldPath.names?, mapError_eq_ok.1 hpath]
      rw [hfield]
      cases hnames : SelectorKey.fieldNames? path.segments with
      | none =>
        rw [hnames] at hran
        cases hran
      | some names =>
        rw [hnames] at hran
        exact ⟨(Except.ok.inj hran).symm, fun _ _ => ⟨names, rfl⟩⟩
  refine ⟨?_, fun property hproperty => (hstep property hproperty).2⟩
  rw [List.filterMap_congr fun property hproperty => (hstep property hproperty).1, filterMap_details, Node.fields,
    List.map_filterMap]
  simp only [Option.map_map]
  rfl

/-- A new document is the blank one with the fields of the node, of which each has a path. -/
theorem newDocument_eq {document : Document} (h : target.newDocument = .ok document) :
    document = target.node.fields.foldl assignInto target.blank ∧
      ∀ property ∈ target.details, ∀ key, SelectorKey.ofProperty property.key = .field key →
        ∃ path, property.field? = some path := by
  obtain ⟨patches, hpatches, h⟩ := bind_eq_ok.1 h
  cases h
  obtain ⟨rfl, hfields⟩ := newPatches_eq hpatches
  exact ⟨List.foldl_map, hfields⟩

/-! ### Before the fields are set -/

/-- What a blank document has below its metadata. -/
theorem blank_at?_metadata (rest : List String) :
    target.blank.at? ("metadata" :: rest) = (Document.object target.newMetadata).at? rest := by
  have hmetadata : target.blank.get? "metadata" = some (.object target.newMetadata) :=
    Keyed.lookup_ofList_of_mem (by simp) (by simp)
  rw [Document.at?_cons, hmetadata, Option.bind_some]

theorem blank_at?_apiVersion :
    target.blank.at? ["apiVersion"] = some (.string target.kind.coordinate.apiVersion) := by
  have hversion : target.blank.get? "apiVersion" = some (.string target.kind.coordinate.apiVersion) :=
    Keyed.lookup_ofList_of_mem (by simp) (by simp)
  rw [Document.at?_cons, hversion]
  rfl

theorem blank_at?_kind : target.blank.at? ["kind"] = some (.string target.kind.kind) := by
  have hkind : target.blank.get? "kind" = some (.string target.kind.kind) :=
    Keyed.lookup_ofList_of_mem (by simp) (by simp)
  rw [Document.at?_cons, hkind]
  rfl

/-- New metadata has one value for each of its fields. -/
theorem lookup_newMetadata {key : String} {value : Document}
    (h : (key, value) ∈ ("name", Document.string target.newName) ::
      (target.newNamespace.toList.map fun name => ("namespace", .string name)) ++
        if target.newLabels.isEmpty then [] else [("labels", .object target.newLabels)]) :
    target.newMetadata.lookup key = some value := by
  refine Keyed.lookup_ofList_of_mem ?_ h
  cases target.newNamespace <;> cases target.newLabels.isEmpty <;> simp

/-- A blank document has the name. -/
theorem blank_at?_name : target.blank.at? ["metadata", "name"] = some (.string target.newName) := by
  rw [blank_at?_metadata, Document.at?_cons, Document.get?, lookup_newMetadata List.mem_cons_self]
  rfl

/-- Where the places of a node are apart, its labels are distinct. -/
theorem nodup_labels (hapart : target.node.Apart) : ((target.details.filterMap fun property =>
    match SelectorKey.ofProperty property.key with
    | .label key => some (key, Document.string property.value.selectorText)
    | .field _ => none).map (·.1)).Nodup := by
  rw [List.Nodup, List.pairwise_map, List.pairwise_filterMap]
  refine List.Pairwise.imp_of_mem (fun {property other} hproperty hother hap entry hentry entry' hentry' hsame => ?_)
    (hapart.places.filter _)
  obtain ⟨-, hname, hnamespace⟩ := mem_details.1 hproperty
  obtain ⟨-, hname', hnamespace'⟩ := mem_details.1 hother
  split at hentry
  · rename_i key hkey
    split at hentry'
    · rename_i key' hkey'
      cases hentry
      cases hentry'
      refine hap _ (Property.place?_of_label hkey hname hnamespace) _
        (Property.place?_of_label hkey' hname' hnamespace') ?_
      obtain rfl : key = key' := hsame
      exact Or.inl (List.prefix_refl _)
    · cases hentry'
  · cases hentry

/-- Where the places of a node are apart, a blank document has its labels. -/
theorem blank_at?_label (hapart : target.node.Apart) {property : Property} (hproperty : property ∈ target.details)
    {key : String} (hkey : SelectorKey.ofProperty property.key = .label key) :
    target.blank.at? ["metadata", "labels", key] = some (.string property.value.selectorText) := by
  have hlabel : target.newLabels.lookup key = some (.string property.value.selectorText) := by
    refine Keyed.lookup_ofList_of_mem (nodup_labels hapart) (List.mem_filterMap.2 ⟨property, hproperty, ?_⟩)
    rw [hkey]
  have hne : target.newLabels.isEmpty = false := by
    cases hlabels : target.newLabels with
    | nil =>
      rw [hlabels] at hlabel
      cases hlabel
    | cons label rest => rfl
  have hlabels : target.newMetadata.lookup "labels" = some (.object target.newLabels) := by
    refine lookup_newMetadata (List.mem_append_right _ ?_)
    rw [hne]
    exact List.mem_singleton_self _
  rw [blank_at?_metadata, Document.at?_cons, Document.get?, hlabels, Option.bind_some, Document.at?_cons, Document.get?,
    hlabel]
  rfl

/-! ### With its fields -/

/-- Where the places of a node are apart, its new document has what each property says. -/
theorem describes_newDocument (hapart : target.node.Apart) {document : Document}
    (h : target.newDocument = .ok document) : target.Describes document := by
  obtain ⟨rfl, hfields⟩ := newDocument_eq h
  refine ⟨?_, ?_, fun property hproperty hnamespace => ?_⟩
  · rw [at?_foldl_assignInto_of_not_comparable (hapart.identity_not_comparable (by decide)), blank_at?_apiVersion]
  · rw [at?_foldl_assignInto_of_not_comparable (hapart.identity_not_comparable (by decide)), blank_at?_kind]
  · by_cases hname : property.key = "name"
    · refine ⟨["metadata", "name"], by rw [Property.place?, if_pos hname], ?_⟩
      rw [at?_foldl_assignInto_of_not_comparable (hapart.identity_not_comparable (by decide)), blank_at?_name, newName,
        hapart.property?_name hproperty hname, Property.written, hname]
      rfl
    · have hdetail := mem_details.2 ⟨hproperty, hname, hnamespace⟩
      cases hkey : SelectorKey.ofProperty property.key with
      | label key =>
        have hplace := Property.place?_of_label hkey hname hnamespace
        have hfield : property.field? = none := by rw [Property.field?, hkey]
        refine ⟨_, hplace, ?_⟩
        rw [at?_foldl_assignInto_of_not_comparable (hapart.fields_not_comparable hproperty hplace hfield),
          blank_at?_label hapart hdetail hkey, Property.written, hkey]
      | field key =>
        obtain ⟨path, hpath⟩ := hfields property hdetail key hkey
        refine ⟨path, Property.place?_of_field? hpath, ?_⟩
        have hentry : (path, property.value) ∈ target.node.fields :=
          List.mem_filterMap.2 ⟨property, hproperty, by rw [hpath]; rfl⟩
        rw [at?_foldl_assignInto_of_mem hapart.pairwise_fields hentry, Property.written, hkey]

end Target

end ClusterQuery
