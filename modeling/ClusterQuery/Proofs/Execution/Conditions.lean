import ClusterQuery.Proofs.Execution.Steps

/-!
# What a query asks of documents

The meaning of the conditions of a query, said of one document at a time: of a property of a node, of a filter and of
all of them (`Asked`). A condition that is put into a search is met by what passes the search
(`Search.constrain_accepts`, `Search.foldlM_addProperty`).
-/

namespace ClusterQuery

/-- A document meets a condition on a label or a field. -/
def SelectorKey.accepts (key : SelectorKey) (comparison : Comparison) (value : String) (document : Document) : Bool :=
  match key with
  | .label key => (⟨key, comparison, value⟩ : Requirement).acceptsLabels document
  | .field key => (⟨key, comparison, value⟩ : Requirement).acceptsFields document

/-- A document meets the condition of a property; the namespace is none, it says where to look. -/
def Property.accepts (property : Property) (document : Document) : Bool :=
  if property.key = "name" then
    (SelectorKey.field "metadata.name").accepts .equal property.value.selectorText document
  else if property.key = "namespace" then true
  else (SelectorKey.ofProperty property.key).accepts .equal property.value.selectorText document

/-- The last namespace that properties give. -/
def lastNamespace? (properties : List Property) : Option String :=
  (properties.filter (·.key = "namespace")).getLast?.map (·.value.selectorText)

/-- The binding that a path starts with, and the path below it. -/
def boundPath? (text : String) : Option (String × FieldPath) :=
  match FieldPath.parse text with
  | .ok path => path.head?.map fun binding => (binding, path.tail)
  | .error _ => none

/-- The binding and the rest of a path that can be read. -/
theorem boundPath?_eq {text : String} {path : FieldPath} (h : FieldPath.parse text = .ok path) :
    boundPath? text = path.head?.map fun binding => (binding, path.tail) := by
  rw [boundPath?, h]

/-- A document meets the condition of a filter at a path, by a label or a field or by the values found there. -/
def Filter.accepts (filter : Filter) (path : FieldPath) (document : Document) : Bool :=
  match SelectorKey.ofFilter? path with
  | some key => key.accepts filter.comparison filter.value.selectorText document
  | none => (⟨path, filter.comparison, filter.value⟩ : Predicate).accepts document

/-- A document meets every property of a node and every filter on its binding. -/
def MeetsConditions (filters : List Filter) (node : Node) (document : Document) : Prop :=
  (∀ property ∈ node.properties, property.accepts document = true) ∧
    ∀ filter ∈ filters, ∀ path, boundPath? filter.path = some (node.name, path) → filter.accepts path document = true

/-- A document is one that a query asks for under a node of a kind, as far as no edge is concerned: of the kind, in the
last namespace of the node or else that of the context, and meeting all conditions. -/
structure Asked (context : Context) (filters : List Filter) (subject : Node × Kind) (document : Document) : Prop where
  apiVersion_eq : document.stringAt? ["apiVersion"] = some subject.2.coordinate.apiVersion
  kind_eq : document.stringAt? ["kind"] = some subject.2.kind
  namespace_eq : subject.2.namespaced = true →
    ∀ name, (lastNamespace? subject.1.properties <|> context.scope?) = some name → document.namespace? = some name
  conditions : MeetsConditions filters subject.1 document

/-- What a target is for: the node with its kind. -/
def Target.subject (target : Target) : Node × Kind :=
  (target.node, target.kind)

/-! ## Searches -/

/-- What all requirements of a selector with one more accept. -/
theorem Selector.all_insert (selector : Selector) (requirement : Requirement) (p : Requirement → Bool) :
    (selector.insert requirement).requirements.all p = (selector.requirements.all p && p requirement) := by
  unfold Selector.insert
  split
  · rename_i hmem
    rw [Bool.eq_iff_iff, Bool.and_eq_true, List.all_eq_true]
    exact ⟨fun h => ⟨h, h requirement hmem⟩, fun h => h.1⟩
  · simp

namespace Search

/-- A document passes both selectors of a search. -/
def accepts (search : Search) (document : Document) : Bool :=
  search.fields.matchesFields document && search.labels.matchesLabels document

/-- The search for everything accepts every document. -/
theorem accepts_everything (document : Document) : everything.accepts document = true :=
  rfl

/-- A search with one more condition looks in the same namespace and accepts what meets the condition too. -/
theorem constrain_accepts {search next : Search} {key : SelectorKey} {comparison : Comparison} {value : String}
    (h : search.constrain key comparison value = .ok next) :
    next.inNamespace = search.inNamespace ∧
      ∀ document, next.accepts document = (search.accepts document && key.accepts comparison value document) := by
  cases key with
  | label key =>
    simp only [constrain, Selector.addLabel] at h
    split at h
    · cases h
    · split at h
      · cases h
      · cases h
        refine ⟨rfl, fun document => ?_⟩
        simp only [accepts, Selector.matchesLabels, Selector.all_insert, SelectorKey.accepts, Bool.and_assoc]
  | field key =>
    simp only [constrain, Selector.addField] at h
    split at h
    · cases h
      refine ⟨rfl, fun document => ?_⟩
      simp only [accepts, Selector.matchesFields, Selector.all_insert, SelectorKey.accepts]
      rw [Bool.and_right_comm]
    · cases h

/-- The namespace that the first of properties gives counts unless a later one gives another. -/
theorem lastNamespace?_cons (property : Property) (rest : List Property) (start : Option String) :
    (lastNamespace? (property :: rest) <|> start) = (lastNamespace? rest <|>
      if property.key = "namespace" then some property.value.selectorText else start) := by
  unfold lastNamespace?
  by_cases h : property.key = "namespace"
  · cases hlast : (rest.filter (·.key = "namespace")).getLast? <;> simp [h, List.getLast?_cons, hlast]
  · simp [h]

/-- A search with the condition of a property. -/
theorem addProperty_accepts {search next : Search} {property : Property} (h : search.addProperty property = .ok next) :
    (next.inNamespace = if property.key = "namespace" then some property.value.selectorText else search.inNamespace) ∧
      ∀ document, next.accepts document = (search.accepts document && property.accepts document) := by
  unfold addProperty at h
  unfold Property.accepts
  by_cases hname : property.key = "name"
  · simp only [hname, if_true] at h ⊢
    obtain ⟨hplace, haccepts⟩ := constrain_accepts h
    exact ⟨by simpa using hplace, haccepts⟩
  · by_cases hplace : property.key = "namespace"
    · simp only [hplace] at h ⊢
      cases h
      exact ⟨rfl, fun document => by simp [accepts]⟩
    · simp only [hname, hplace, if_false] at h ⊢
      exact constrain_accepts h

/-- A search with the conditions of properties. -/
theorem foldlM_addProperty {properties : List Property} {start search : Search}
    (h : properties.foldlM addProperty start = .ok search) :
    search.inNamespace = (lastNamespace? properties <|> start.inNamespace) ∧
      ∀ document, search.accepts document = (start.accepts document && properties.all (·.accepts document)) := by
  induction properties generalizing start with
  | nil =>
    cases h
    exact ⟨rfl, fun document => by simp⟩
  | cons property rest ih =>
    rw [List.foldlM_cons] at h
    obtain ⟨next, hnext, h⟩ := bind_eq_ok.1 h
    obtain ⟨hplace, haccepts⟩ := addProperty_accepts hnext
    obtain ⟨hplace', haccepts'⟩ := ih h
    refine ⟨by rw [hplace', hplace, lastNamespace?_cons], fun document => ?_⟩
    rw [haccepts', haccepts, List.all_cons, Bool.and_assoc]

end Search

end ClusterQuery
