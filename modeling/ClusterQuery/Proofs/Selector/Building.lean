import ClusterQuery.Proofs.Selector.Keys

/-!
# Selectors that calls build

A selector is built from nothing by calls for labels and fields; a refused call leaves it as it is. It then has the
requirements of the accepted calls, each once and in the order of its first call (`requirements_addAll`), and accepts
what each of these accepts on its own (`all_requirements_addAll`).
-/

namespace ClusterQuery.Selector

/-- What a call asks of a selector: a requirement on a label or on a field. -/
inductive Addition where
  | label (requirement : Requirement)
  | field (requirement : Requirement)

namespace Addition

/-- The requirement that the call asks for. -/
def requirement : Addition → Requirement
  | label requirement => requirement
  | field requirement => requirement

/-- The key is one of its kind, and so is the value of a label. -/
def Accepted : Addition → Prop
  | label requirement => LabelKey requirement.key ∧ LabelValue requirement.value
  | field requirement => FieldKey requirement.key

instance : DecidablePred Accepted
  | label requirement => inferInstanceAs (Decidable (LabelKey requirement.key ∧ LabelValue requirement.value))
  | field requirement => inferInstanceAs (Decidable (FieldKey requirement.key))

end Addition

/-- The answer to a call. -/
def request (selector : Selector) : Addition → Except SelectorError Selector
  | .label requirement => selector.addLabel requirement.key requirement.comparison requirement.value
  | .field requirement => selector.addField requirement.key requirement.comparison requirement.value

/-- The selector after a call. -/
def add (selector : Selector) (addition : Addition) : Selector :=
  match selector.request addition with
  | .ok next => next
  | .error _ => selector

/-- The selector after some calls. -/
def addAll (selector : Selector) (additions : List Addition) : Selector :=
  additions.foldl add selector

/-! ## One call -/

/-- A label is refused for its key or else for its value. -/
theorem addLabel_eq (selector : Selector) (key : String) (comparison : Comparison) (value : String) :
    selector.addLabel key comparison value =
      if LabelKey key then
        if LabelValue value then .ok (selector.insert ⟨key, comparison, value⟩)
        else .error (.invalidLabelValue key value)
      else .error (.invalidLabelKey key) := by
  simp only [addLabel, Bool.not_eq_true', ← Bool.not_eq_true, isLabelKey_iff, isLabelValue_iff, ite_not]

/-- A field is refused for its key. -/
theorem addField_eq (selector : Selector) (path : String) (comparison : Comparison) (value : String) :
    selector.addField path comparison value =
      if FieldKey path then .ok (selector.insert ⟨path, comparison, value⟩) else .error (.invalidFieldPath path) := by
  simp only [addField, isFieldKey_iff]

/-- An accepted call inserts its requirement, and a refused one leaves the selector as it is. -/
theorem add_eq (selector : Selector) (addition : Addition) :
    selector.add addition = if addition.Accepted then selector.insert addition.requirement else selector := by
  cases addition with
  | label requirement =>
    rw [add, request, addLabel_eq]
    by_cases hkey : LabelKey requirement.key
    · by_cases hvalue : LabelValue requirement.value
      · rw [if_pos hkey, if_pos hvalue, if_pos (show (Addition.label requirement).Accepted from ⟨hkey, hvalue⟩)]
        rfl
      · rw [if_pos hkey, if_neg hvalue, if_neg fun h : (Addition.label requirement).Accepted => hvalue h.2]
    · rw [if_neg hkey, if_neg fun h : (Addition.label requirement).Accepted => hkey h.1]
  | field requirement =>
    rw [add, request, addField_eq]
    by_cases hkey : FieldKey requirement.key
    · rw [if_pos hkey, if_pos (show (Addition.field requirement).Accepted from hkey)]
      rfl
    · rw [if_neg hkey, if_neg (show ¬(Addition.field requirement).Accepted from hkey)]

theorem requirements_insert (selector : Selector) (requirement : Requirement) :
    (selector.insert requirement).requirements =
      if requirement ∈ selector.requirements then selector.requirements
      else selector.requirements ++ [requirement] := by
  rw [insert]
  split <;> rfl

/-! ## Some calls -/

/-- The requirements of the accepted calls, in order. -/
def accepted (additions : List Addition) : List Requirement :=
  (additions.filter (·.Accepted)).map Addition.requirement

theorem mem_accepted {additions : List Addition} {requirement : Requirement} : requirement ∈ accepted additions ↔
    ∃ addition ∈ additions, addition.Accepted ∧ addition.requirement = requirement := by
  simp [accepted, and_assoc]

theorem accepted_concat (additions : List Addition) (addition : Addition) : accepted (additions ++ [addition]) =
    if addition.Accepted then accepted additions ++ [addition.requirement] else accepted additions := by
  by_cases h : addition.Accepted <;> simp [accepted, h]

theorem addAll_concat (selector : Selector) (additions : List Addition) (addition : Addition) :
    selector.addAll (additions ++ [addition]) = (selector.addAll additions).add addition := by
  rw [addAll, List.foldl_append]
  rfl

/-- The requirements are those of the accepted calls, each once and in the order of its first call. -/
theorem requirements_addAll (additions : List Addition) :
    (empty.addAll additions).requirements = (accepted additions).eraseDups := by
  induction additions using List.reverseRecOn with
  | nil => rfl
  | append_singleton rest addition ih =>
    rw [addAll_concat, add_eq, accepted_concat]
    by_cases h : addition.Accepted
    · rw [if_pos h, if_pos h, requirements_insert, ih, eraseDups_concat]
      simp only [List.mem_eraseDups]
    · rw [if_neg h, if_neg h, ih]

theorem mem_requirements_addAll {additions : List Addition} {requirement : Requirement} :
    requirement ∈ (empty.addAll additions).requirements ↔
      ∃ addition ∈ additions, addition.Accepted ∧ addition.requirement = requirement := by
  rw [requirements_addAll, List.mem_eraseDups, mem_accepted]

/-- The selector of one accepted call has its requirement only. -/
theorem addAll_singleton {addition : Addition} (h : addition.Accepted) :
    empty.addAll [addition] = ⟨[addition.requirement]⟩ := by
  show empty.add addition = _
  rw [add_eq, if_pos h]
  rfl

/-- What holds of all requirements holds of the one of each accepted call. -/
theorem all_requirements_addAll (accepts : Requirement → Bool) (additions : List Addition) :
    (empty.addAll additions).requirements.all accepts = true ↔ ∀ addition ∈ additions, addition.Accepted →
      (empty.addAll [addition]).requirements.all accepts = true := by
  rw [List.all_eq_true]
  constructor
  · intro h addition hmem haccepted
    rw [addAll_singleton haccepted, List.all_cons, List.all_nil, Bool.and_true]
    exact h _ (mem_requirements_addAll.2 ⟨addition, hmem, haccepted, rfl⟩)
  · intro h requirement hrequirement
    obtain ⟨addition, hmem, haccepted, rfl⟩ := mem_requirements_addAll.1 hrequirement
    have hone := h addition hmem haccepted
    rwa [addAll_singleton haccepted, List.all_cons, List.all_nil, Bool.and_true] at hone

/-- Calls of which the same are accepted give the same answer about all requirements. -/
theorem all_requirements_congr (accepts : Requirement → Bool) {additions others : List Addition}
    (h : ∀ addition : Addition, addition.Accepted → (addition ∈ additions ↔ addition ∈ others)) :
    (empty.addAll additions).requirements.all accepts = (empty.addAll others).requirements.all accepts := by
  rw [Bool.eq_iff_iff, all_requirements_addAll, all_requirements_addAll]
  exact ⟨fun hall addition hmem haccepted => hall addition ((h addition haccepted).2 hmem) haccepted,
    fun hall addition hmem haccepted => hall addition ((h addition haccepted).1 hmem) haccepted⟩

/-- A selector holds the valid requirements that were asked for. Whatever calls have built it: the next call is refused
for a key that is none, or else for a label value that is none, and a refused call leaves the selector as it is; what
passes is what the regular expressions and limits of length describe. The requirements are those of the accepted calls,
each once and in the order of its first call. A document is accepted when the requirement of each accepted call accepts
it on its own, so the order of the calls and how often each is made do not matter to that. -/
theorem addAll_spec (additions : List Addition) :
    let selector := empty.addAll additions
    (∀ key comparison value, selector.addLabel key comparison value =
      if LabelKey key then
        if LabelValue value then .ok (selector.insert ⟨key, comparison, value⟩)
        else .error (.invalidLabelValue key value)
      else .error (.invalidLabelKey key)) ∧
    (∀ path comparison value, selector.addField path comparison value =
      if FieldKey path then .ok (selector.insert ⟨path, comparison, value⟩) else .error (.invalidFieldPath path)) ∧
    (∀ text : String, (LabelName text ↔ text.utf8ByteSize ≤ 63 ∧ text.toList ∈ Pattern.labelName) ∧
      (Domain text ↔ text.utf8ByteSize ≤ 253 ∧ text.toList ∈ Pattern.domain) ∧
      (FieldKey text ↔ text.toList ∈ Pattern.fieldPath)) ∧
    (∀ addition : Addition, ¬addition.Accepted → selector.add addition = selector) ∧
    selector.requirements.Nodup ∧
    selector.requirements = ((additions.filter (·.Accepted)).map (·.requirement)).eraseDups ∧
    (∀ document, (selector.matchesLabels document = true ↔ ∀ addition ∈ additions, addition.Accepted →
        (empty.addAll [addition]).matchesLabels document = true) ∧
      (selector.matchesFields document = true ↔ ∀ addition ∈ additions, addition.Accepted →
        (empty.addAll [addition]).matchesFields document = true)) ∧
    ∀ others, (∀ addition : Addition, addition.Accepted → (addition ∈ additions ↔ addition ∈ others)) →
      ∀ document, selector.matchesLabels document = (empty.addAll others).matchesLabels document ∧
        selector.matchesFields document = (empty.addAll others).matchesFields document := by
  intro selector
  refine ⟨addLabel_eq selector, addField_eq selector, fun text => ⟨labelName_iff_mem, domain_iff_mem, fieldKey_iff_mem⟩,
    fun addition hrefused => ?_, ?_, requirements_addAll additions, fun document => ?_, fun others h document => ?_⟩
  · rw [add_eq, if_neg hrefused]
  · rw [requirements_addAll]
    exact nodup_eraseDups _
  · exact ⟨all_requirements_addAll _ additions, all_requirements_addAll _ additions⟩
  · exact ⟨all_requirements_congr _ h, all_requirements_congr _ h⟩

/-- A condition that is asked for twice is held once, and a name with a dash before it is refused. -/
example :
    let web : Requirement := ⟨"app.kubernetes.io/name", .equal, "web"⟩
    let dashed : Requirement := ⟨"-name", .equal, "web"⟩
    (empty.addAll [.label web, .label dashed, .field ⟨"status.phase", .notEqual, ""⟩, .label web]).requirements =
      [web, ⟨"status.phase", .notEqual, ""⟩] := by
  decide

end ClusterQuery.Selector
