import Mathlib.Data.List.Basic
import ClusterQuery.Proofs.Selector.Building

/-!
# The text of a selector

The text of a selector tells its requirements apart (`text_addAll_eq_iff`): a key ends where the sign begins, since
accepted keys hold neither of its characters, and a value ends at the first comma that no backslash stands before.
-/

namespace ClusterQuery

namespace Requirement

/-- The key holds no character of a sign. -/
def Signless (requirement : Requirement) : Prop :=
  '=' ∉ requirement.key.toList ∧ '!' ∉ requirement.key.toList

/-- A character is known from its escaped text, and so is what follows. -/
theorem escapeChar_append_inj {c d : Char} {rest more : List Char} (h : escapeChar c ++ rest = escapeChar d ++ more) :
    c = d ∧ rest = more := by
  unfold escapeChar at h
  split at h
  · split at h
    · simpa using h
    · rename_i hd
      -- the backslash before the one is not the other, which would have one too
      exact absurd (Or.inl (List.cons.inj h).1.symm) hd
  · rename_i hc
    split at h
    · exact absurd (Or.inl (List.cons.inj h).1) hc
    · simpa using h

/-- The text of an escaped character begins, and not with a comma. -/
theorem exists_escapeChar_eq (c : Char) : ∃ first rest, escapeChar c = first :: rest ∧ first ≠ ',' := by
  unfold escapeChar
  split
  · exact ⟨_, _, rfl, by decide⟩
  · rename_i hc
    exact ⟨c, [], rfl, fun hcomma => hc (Or.inr (Or.inl hcomma))⟩

/-- An escaped value up to the end or a comma is known from its text, and so is what follows. -/
theorem escape_append_inj {value other rest more : List Char} (hrest : ∀ c ∈ rest.head?, c = ',')
    (hmore : ∀ c ∈ more.head?, c = ',') (h : value.flatMap escapeChar ++ rest = other.flatMap escapeChar ++ more) :
    value = other ∧ rest = more := by
  -- a value goes on with a character that is no comma, where the other one has ended
  have hends : ∀ (c : Char) (cs following ending : List Char), (∀ d ∈ ending.head?, d = ',') →
      ending ≠ (c :: cs).flatMap escapeChar ++ following := by
    rintro c cs following _ hending rfl
    obtain ⟨first, others, hescape, hcomma⟩ := exists_escapeChar_eq c
    rw [List.flatMap_cons, hescape] at hending
    exact hcomma (hending first rfl)
  induction value generalizing other with
  | nil =>
    cases other with
    | nil => exact ⟨rfl, h⟩
    | cons d ds => exact absurd h (hends d ds more rest hrest)
  | cons c cs ih =>
    cases other with
    | nil => exact absurd h.symm (hends c cs rest more hmore)
    | cons d ds =>
      rw [List.flatMap_cons, List.flatMap_cons, List.append_assoc, List.append_assoc] at h
      obtain ⟨rfl, hcs⟩ := escapeChar_append_inj h
      obtain ⟨rfl, hrest'⟩ := ih hcs
      exact ⟨rfl, hrest'⟩

/-- What stands before a character that it does not hold is known from the text, and so is what follows. -/
theorem append_cons_inj {front other rest more : List Char} {c d : Char} (hfront : d ∉ front) (hother : c ∉ other)
    (h : front ++ c :: rest = other ++ d :: more) : front = other ∧ c = d ∧ rest = more := by
  rcases List.append_eq_append_iff.1 h with ⟨between, rfl, hrest⟩ | ⟨between, rfl, hrest⟩
  · cases between with
    | nil =>
      obtain ⟨rfl, rfl⟩ := List.cons.inj hrest
      exact ⟨(List.append_nil _).symm, rfl, rfl⟩
    | cons e es =>
      obtain ⟨rfl, -⟩ := List.cons.inj hrest
      exact absurd (List.mem_append_right front List.mem_cons_self) hother
  · cases between with
    | nil =>
      obtain ⟨rfl, rfl⟩ := List.cons.inj hrest
      exact ⟨List.append_nil _, rfl, rfl⟩
    | cons e es =>
      obtain ⟨rfl, -⟩ := List.cons.inj hrest
      exact absurd (List.mem_append_right other List.mem_cons_self) hfront

/-- A condition is known from its text up to the end or a comma, and so is what follows. -/
theorem text_append_inj {first second : Requirement} (hfirst : first.Signless) (hsecond : second.Signless)
    {rest more : List Char} (hrest : ∀ c ∈ rest.head?, c = ',') (hmore : ∀ c ∈ more.head?, c = ',')
    (h : first.text.toList ++ rest = second.text.toList ++ more) : first = second ∧ rest = more := by
  obtain ⟨key, comparison, value⟩ := first
  obtain ⟨key', comparison', value'⟩ := second
  simp only [text, String.toList_append, String.toList_ofList, List.append_assoc] at h
  have hvalues : ∀ {key key' : String}, key.toList = key'.toList →
      value.toList.flatMap escapeChar ++ rest = value'.toList.flatMap escapeChar ++ more →
      (⟨key, comparison, value⟩ : Requirement) = ⟨key', comparison, value'⟩ ∧ rest = more := by
    intro key key' hkey hvalue
    obtain ⟨hvalue, hrest⟩ := escape_append_inj hrest hmore hvalue
    rw [String.toList_inj.1 hkey, String.toList_inj.1 hvalue]
    exact ⟨rfl, hrest⟩
  cases comparison <;> cases comparison'
  · obtain ⟨hkey, -, hvalue⟩ := append_cons_inj hfirst.1 hsecond.1 h
    exact hvalues hkey hvalue
  · obtain ⟨-, hsign, -⟩ := append_cons_inj hfirst.2 hsecond.1 h
    exact absurd hsign (by decide)
  · obtain ⟨-, hsign, -⟩ := append_cons_inj hfirst.1 hsecond.2 h
    exact absurd hsign (by decide)
  · obtain ⟨hkey, -, hvalue⟩ := append_cons_inj hfirst.2 hsecond.2 h
    exact hvalues hkey (List.cons.inj hvalue).2

/-- A condition has a text: its sign at least. -/
theorem text_ne_empty (requirement : Requirement) : requirement.text ≠ "" := by
  have hsign : requirement.comparison.text.toList ≠ [] := by
    cases requirement.comparison <;> decide
  rw [Ne, ← String.toList_eq_nil_iff, text, String.toList_append, String.toList_append, List.append_eq_nil_iff,
    List.append_eq_nil_iff]
  exact fun h => hsign h.1.2

/-- Conditions with a comma before each begin with one, if there are any. -/
theorem head?_flatMap_text (requirements : List Requirement) :
    ∀ c ∈ (requirements.flatMap (',' :: ·.text.toList)).head?, c = ',' := by
  cases requirements with
  | nil => exact nofun
  | cons requirement rest => exact fun c hc => (Option.some.inj hc).symm

/-- Conditions are known from their texts with a comma before each. -/
theorem flatMap_text_inj {first second : List Requirement} (hfirst : ∀ requirement ∈ first, requirement.Signless)
    (hsecond : ∀ requirement ∈ second, requirement.Signless)
    (h : first.flatMap (',' :: ·.text.toList) = second.flatMap (',' :: ·.text.toList)) : first = second := by
  induction first generalizing second with
  | nil =>
    cases second with
    | nil => rfl
    | cons other others => cases h
  | cons requirement rest ih =>
    cases second with
    | nil => cases h
    | cons other others =>
      rw [List.flatMap_cons, List.flatMap_cons] at h
      obtain ⟨hrequirement, hrest⟩ := List.forall_mem_cons.1 hfirst
      obtain ⟨hother, hothers⟩ := List.forall_mem_cons.1 hsecond
      obtain ⟨rfl, htail⟩ := text_append_inj hrequirement hother (head?_flatMap_text rest) (head?_flatMap_text others)
        (List.cons.inj h).2
      rw [ih hrest hothers htail]

/-- The key of an accepted requirement holds no character of a sign. -/
theorem signless_of_accepted {addition : Selector.Addition} (h : addition.Accepted) :
    addition.requirement.Signless := by
  have hkey : ∀ c ∈ addition.requirement.key.toList, Selector.IsNameChar c ∨ c = '/' := by
    cases addition with
    | label requirement => exact h.1.isNameChar
    | field requirement => exact fun c hc => Or.inl (Selector.FieldKey.isNameChar h c hc)
  exact ⟨fun hmem => absurd (hkey _ hmem) (by decide), fun hmem => absurd (hkey _ hmem) (by decide)⟩

end Requirement

namespace Selector

/-- The text of a selector with a comma before it is that of its conditions with a comma before each. -/
theorem cons_text {selector : Selector} (h : selector.requirements ≠ []) :
    ',' :: selector.text.toList = selector.requirements.flatMap (',' :: ·.text.toList) := by
  obtain ⟨first, more, hcons⟩ := List.exists_cons_of_ne_nil h
  rw [text, hcons, String.toList_intercalate, List.map_cons, List.map_cons, intercalate_cons, List.map_map,
    List.flatMap_map, List.flatMap_cons]
  rfl

/-- Only the selector without requirements has no text. -/
theorem text_eq_empty_iff {selector : Selector} : selector.text = "" ↔ selector.requirements = [] := by
  constructor
  · intro h
    by_contra hne
    obtain ⟨first, more, hcons⟩ := List.exists_cons_of_ne_nil hne
    have htext := cons_text hne
    rw [h, hcons, List.flatMap_cons] at htext
    have hfirst := (List.append_eq_nil_iff.1 (List.cons.inj htext).2.symm).1
    exact first.text_ne_empty (String.toList_eq_nil_iff.1 hfirst)
  · intro h
    rw [text, h]
    rfl

/-- The text of a selector tells its requirements apart, whatever calls have built it and whatever their values: two
such selectors have one text just when they have the same requirements in the same order. Only the one without
requirements has no text. -/
theorem text_addAll_eq_iff (additions others : List Addition) :
    ((empty.addAll additions).text = (empty.addAll others).text ↔
      (empty.addAll additions).requirements = (empty.addAll others).requirements) ∧
    ((empty.addAll additions).text = "" ↔ (empty.addAll additions).requirements = []) := by
  have hsignless : ∀ additions, ∀ requirement ∈ (empty.addAll additions).requirements, requirement.Signless := by
    intro additions requirement hrequirement
    obtain ⟨addition, -, haccepted, rfl⟩ := mem_requirements_addAll.1 hrequirement
    exact Requirement.signless_of_accepted haccepted
  refine ⟨⟨fun h => ?_, fun h => by rw [text, h, ← text]⟩, text_eq_empty_iff⟩
  by_cases hnone : (empty.addAll additions).requirements = []
  · rw [hnone, text_eq_empty_iff.1 (h ▸ text_eq_empty_iff.2 hnone)]
  · have hsome : (empty.addAll others).requirements ≠ [] := fun hnone' =>
      hnone (text_eq_empty_iff.1 (h.trans (text_eq_empty_iff.2 hnone')))
    refine Requirement.flatMap_text_inj (hsignless additions) (hsignless others) ?_
    rw [← cons_text hnone, ← cons_text hsome, h]

/-- A value with the characters of another condition is not read as one. -/
example :
    (empty.addAll [.field ⟨"spec.note", .equal, "a,tier!=db\\"⟩]).text = "spec.note=a\\,tier!\\=db\\\\" ∧
      (empty.addAll [.field ⟨"spec.note", .equal, "a"⟩, .field ⟨"tier", .notEqual, "db\\"⟩]).text =
        "spec.note=a,tier!=db\\\\" := by
  decide

end Selector

end ClusterQuery
