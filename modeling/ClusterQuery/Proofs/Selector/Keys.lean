import Mathlib.Data.List.TakeWhile
import Mathlib.Data.String.Basic
import ClusterQuery.Proofs.FieldPath.Plain
import ClusterQuery.Proofs.Query.Lexing
import ClusterQuery.Proofs.Selector.Patterns

/-!
# The keys and values that selectors accept

What a label name, a domain, a label key, a label value and a field key are, in words; that the selectors test just this
(`isLabelKey_iff`, `isLabelValue_iff`, `isFieldKey_iff`); and that the regular expressions for names, domains and field
keys describe the same texts (`labelName_iff_mem`, `domain_iff_mem`, `fieldKey_iff_mem`).
-/

namespace ClusterQuery.Selector

/-- An ASCII letter, a digit, a dash, an underscore or a dot. -/
def IsNameChar (c : Char) : Prop :=
  c.isAlphanum = true ∨ c = '-' ∨ c = '_' ∨ c = '.'

/-- A lower-case ASCII letter or a digit. -/
def IsDomainEnd (c : Char) : Prop :=
  c.isLower = true ∨ c.isDigit = true

/-- A lower-case ASCII letter, a digit or a dash. -/
def IsDomainChar (c : Char) : Prop :=
  IsDomainEnd c ∨ c = '-'

/-- An ASCII letter or an underscore. -/
def IsFieldStart (c : Char) : Prop :=
  c.isAlpha = true ∨ c = '_'

/-- An ASCII letter, a digit or an underscore. -/
def IsFieldChar (c : Char) : Prop :=
  c.isAlphanum = true ∨ c = '_'

instance : DecidablePred IsNameChar :=
  fun c => inferInstanceAs (Decidable (c.isAlphanum = true ∨ c = '-' ∨ c = '_' ∨ c = '.'))

instance : DecidablePred IsDomainEnd :=
  fun c => inferInstanceAs (Decidable (c.isLower = true ∨ c.isDigit = true))

instance : DecidablePred IsDomainChar :=
  fun c => inferInstanceAs (Decidable (IsDomainEnd c ∨ c = '-'))

instance : DecidablePred IsFieldChar :=
  fun c => inferInstanceAs (Decidable (c.isAlphanum = true ∨ c = '_'))

/-- A label name: up to 63 characters, with a letter or a digit at both ends. -/
def LabelName (text : String) : Prop :=
  text.length ≤ 63 ∧ Enclosed (·.isAlphanum = true) IsNameChar text.toList

/-- One label of a domain, with a letter or a digit at both ends. -/
def DomainLabel (text : String) : Prop :=
  Enclosed IsDomainEnd IsDomainChar text.toList

/-- A word of a field key, with no digit first. -/
structure FieldWord (text : String) : Prop where
  all : ∀ c ∈ text.toList, IsFieldChar c
  first : ∃ c ∈ text.toList.head?, IsFieldStart c

/-- Texts of a kind with dots between them, at least one. -/
def Dotted (word : String → Prop) (text : String) : Prop :=
  ∃ words, words ≠ [] ∧ (∀ entry ∈ words, word entry) ∧ text = ".".intercalate words

/-- A domain: up to 253 bytes of labels with dots between them. -/
def Domain (text : String) : Prop :=
  text.utf8ByteSize ≤ 253 ∧ Dotted DomainLabel text

/-- A label key: a label name, with or without a domain and a slash before it. -/
def LabelKey (key : String) : Prop :=
  LabelName key ∨ ∃ domain name, key = domain ++ "/" ++ name ∧ Domain domain ∧ LabelName name

/-- A label value: no text or a label name. -/
def LabelValue (value : String) : Prop :=
  value = "" ∨ LabelName value

/-- A field key: words with dots between them. -/
def FieldKey (path : String) : Prop :=
  Dotted FieldWord path

namespace Pattern

open scoped Computability

/-- The pattern `([A-Za-z0-9][-A-Za-z0-9_.]*)?[A-Za-z0-9]`. -/
def labelName : Language Char :=
  (1 + one (·.isAlphanum = true) * (one IsNameChar)∗) * one (·.isAlphanum = true)

/-- The pattern `[a-z0-9]([-a-z0-9]*[a-z0-9])?`. -/
def domainLabel : Language Char :=
  one IsDomainEnd * (1 + (one IsDomainChar)∗ * one IsDomainEnd)

/-- The labels of a domain with dots between them. -/
def domain : Language Char :=
  separated '.' domainLabel

/-- The pattern `[A-Za-z_][A-Za-z0-9_]*`. -/
def fieldWord : Language Char :=
  one IsFieldStart * (one IsFieldChar)∗

/-- The words of a field key with dots between them. -/
def fieldPath : Language Char :=
  separated '.' fieldWord

end Pattern

/-! ## What is tested -/

theorem isAlnum_eq (c : Char) : isAlnum c = c.isAlphanum := by
  have hupper : c.isUpper = (decide ('A' ≤ c) && decide (c ≤ 'Z')) := Bool.decide_and _ _
  show (c.isLower || c.isDigit || (decide ('A' ≤ c) && decide (c ≤ 'Z'))) = (c.isUpper || c.isLower || c.isDigit)
  rw [hupper, Bool.or_assoc (_ && _), Bool.or_comm]

variable {cs : List Char} {text : String}

/-- Both ends of a text and its characters are tested one by one. -/
theorem enclosed_iff_bounded {ends inner : Char → Bool} {Ends Inner : Char → Prop} (hends : ∀ c, ends c = true ↔ Ends c)
    (hinner : ∀ c, inner c = true ↔ Inner c) :
    (cs.all inner && bounded ends cs) = true ↔ Enclosed Ends Inner cs := by
  simp only [bounded, Bool.and_eq_true, List.all_eq_true, Option.any_eq_true, hends, hinner]
  exact ⟨fun ⟨hall, ⟨c, hc, hfirst⟩, d, hd, hlast⟩ => ⟨hall, ⟨c, hc, hfirst⟩, d, hd, hlast⟩,
    fun ⟨hall, ⟨c, hc, hfirst⟩, d, hd, hlast⟩ => ⟨hall, ⟨c, hc, hfirst⟩, d, hd, hlast⟩⟩

theorem isLabelName_iff : isLabelName text.toList = true ↔ LabelName text := by
  have hinner : ∀ c, (isAlnum c || c = '-' || c = '_' || c = '.') = true ↔ IsNameChar c := fun c => by
    simp only [isAlnum_eq, Bool.or_eq_true, decide_eq_true_eq, IsNameChar, or_assoc]
  have hends : ∀ c, isAlnum c = true ↔ c.isAlphanum = true := fun c => by rw [isAlnum_eq]
  rw [isLabelName, Bool.and_assoc, Bool.and_eq_true, enclosed_iff_bounded hends hinner, decide_eq_true_eq,
    String.length_toList]
  rfl

theorem isDomainLabel_iff : isDomainLabel text.toList = true ↔ DomainLabel text := by
  have hends : ∀ c, isLowerAlnum c = true ↔ IsDomainEnd c := fun c => Bool.or_eq_true_iff
  refine enclosed_iff_bounded hends fun c => ?_
  rw [Bool.or_eq_true, hends, decide_eq_true_eq]
  rfl

/-- A character that a word of a field key may have is one that it may have first, or a digit. -/
theorem isFieldStart_iff {c : Char} : IsFieldStart c ↔ IsFieldChar c ∧ c.isDigit = false := by
  have hdigit : c.isAlpha = true ∨ c = '_' → c.isDigit = false := fun h =>
    Query.not_isDigit_of_isWordStart (by simpa [Query.isWordStart] using h)
  simp only [IsFieldStart, IsFieldChar, Char.isAlphanum, Bool.or_eq_true]
  constructor
  · intro h
    exact ⟨h.imp_left Or.inl, hdigit h⟩
  · rintro ⟨(halpha | hdigit') | hscore, hnot⟩
    · exact Or.inl halpha
    · rw [hdigit'] at hnot
      cases hnot
    · exact Or.inr hscore

theorem isFieldWord_iff : isFieldWord text.toList = true ↔ FieldWord text := by
  have hchar : ∀ c, (isAlnum c || c = '_') = true ↔ IsFieldChar c := fun c => by
    rw [isAlnum_eq, Bool.or_eq_true, decide_eq_true_eq, IsFieldChar]
  have hdigit : ∀ c : Char, (!('0' ≤ c && c ≤ '9')) = true ↔ c.isDigit = false := fun c => by
    rw [Bool.not_eq_true']
    rfl
  simp only [isFieldWord, Bool.and_eq_true, List.all_eq_true, Option.any_eq_true, hchar, hdigit]
  constructor
  · rintro ⟨hall, c, hc, hnot⟩
    exact ⟨hall, c, hc, isFieldStart_iff.2 ⟨hall c (List.mem_of_mem_head? hc), hnot⟩⟩
  · rintro ⟨hall, c, hc, hfirst⟩
    exact ⟨hall, c, hc, (isFieldStart_iff.1 hfirst).2⟩

/-- A text without separators is one piece. -/
theorem pieces_of_notMem {separator : Char} (h : separator ∉ cs) : pieces separator cs = [cs] := by
  induction cs with
  | nil => rfl
  | cons c rest ih =>
    rw [List.mem_cons, not_or] at h
    exact pieces_cons_of_ne (Ne.symm h.1) (ih h.2)

/-- Words without separators are the pieces of the text that has separators between them. -/
theorem pieces_intercalate {separator : Char} {words : List (List Char)} (hne : words ≠ [])
    (hwords : ∀ word ∈ words, separator ∉ word) : pieces separator ([separator].intercalate words) = words := by
  induction words with
  | nil => exact absurd rfl hne
  | cons first more ih =>
    obtain ⟨hfirst, hmore⟩ := List.forall_mem_cons.1 hwords
    cases more with
    | nil =>
      rw [List.intercalate_singleton]
      exact pieces_of_notMem hfirst
    | cons second rest =>
      rw [List.intercalate_cons_cons, List.append_assoc, List.singleton_append, pieces_append_cons hfirst,
        ih (List.cons_ne_nil _ _) hmore]

/-- The pieces of a text between its dots are tested one by one. -/
theorem all_pieces_iff {test : List Char → Bool} {word : String → Prop}
    (htest : ∀ text : String, test text.toList = true ↔ word text) (hdot : ∀ text, word text → '.' ∉ text.toList) :
    (pieces '.' text.toList).all test = true ↔ Dotted word text := by
  constructor
  · intro h
    refine ⟨(pieces '.' text.toList).map String.ofList, ?_, ?_, (intercalate_map_pieces text).symm⟩
    · rw [Ne, List.map_eq_nil_iff]
      exact pieces_ne_nil '.' text.toList
    · intro entry hentry
      obtain ⟨piece, hpiece, rfl⟩ := List.mem_map.1 hentry
      have hpiece := List.all_eq_true.1 h piece hpiece
      rwa [← htest, String.toList_ofList]
  · rintro ⟨words, hne, hwords, rfl⟩
    have hpieces : pieces '.' (".".intercalate words).toList = words.map String.toList := by
      rw [String.toList_intercalate]
      refine pieces_intercalate (by rwa [Ne, List.map_eq_nil_iff]) fun piece hpiece => ?_
      obtain ⟨entry, hentry, rfl⟩ := List.mem_map.1 hpiece
      exact hdot entry (hwords entry hentry)
    rw [hpieces, List.all_map, List.all_eq_true]
    exact fun entry hentry => (htest entry).2 (hwords entry hentry)

/-! ## Characters of keys -/

/-- The characters of names, domains and field keys are ASCII. -/
theorem utf8Size_of_isNameChar {c : Char} (h : IsNameChar c) : c.utf8Size = 1 := by
  rcases h with h | rfl | rfl | rfl
  · exact Query.utf8Size_of_lt (Nat.lt_of_le_of_lt (Query.isAlphanum_range h).2 (by decide))
  all_goals decide

/-- A text of such characters has as many bytes as characters. -/
theorem utf8ByteSize_eq_length (h : ∀ c ∈ text.toList, IsNameChar c) : text.utf8ByteSize = text.length := by
  have hsize : ∀ cs : List Char, (∀ c ∈ cs, IsNameChar c) → String.utf8Len cs = cs.length := by
    intro cs hcs
    induction cs with
    | nil => rfl
    | cons c rest ih =>
      obtain ⟨hc, hrest⟩ := List.forall_mem_cons.1 hcs
      rw [String.utf8Len_cons, ih hrest, utf8Size_of_isNameChar hc, List.length_cons]
  rw [← String.ofList_toList (s := text), String.utf8ByteSize_ofList, hsize _ h, String.length_ofList]

theorem isNameChar_of_isDomainChar {c : Char} (h : IsDomainChar c) : IsNameChar c := by
  rcases h with (hlower | hdigit) | rfl
  · refine Or.inl (?_ : (c.isUpper || c.isLower || c.isDigit) = true)
    rw [hlower, Bool.or_true, Bool.true_or]
  · refine Or.inl (?_ : (c.isAlpha || c.isDigit) = true)
    rw [hdigit, Bool.or_true]
  · exact Or.inr (Or.inl rfl)

theorem isNameChar_of_isFieldChar {c : Char} (h : IsFieldChar c) : IsNameChar c :=
  h.imp id fun hscore => Or.inr (Or.inl hscore)

/-- The characters between dots are those of the words. -/
theorem Dotted.forall_mem {word : String → Prop} (h : Dotted word text)
    (hword : ∀ entry, word entry → ∀ c ∈ entry.toList, IsNameChar c) : ∀ c ∈ text.toList, IsNameChar c := by
  obtain ⟨words, hne, hwords, rfl⟩ := h
  obtain ⟨first, more, rfl⟩ := List.exists_cons_of_ne_nil hne
  obtain ⟨hfirst, hmore⟩ := List.forall_mem_cons.1 hwords
  rw [String.toList_intercalate, List.map_cons, intercalate_cons, List.forall_mem_append]
  refine ⟨hword first hfirst, fun c hc => ?_⟩
  rw [List.flatMap_map, List.mem_flatMap] at hc
  obtain ⟨entry, hentry, hc⟩ := hc
  rcases List.mem_append.1 hc with hdot | hc
  · exact Or.inr (Or.inr (Or.inr (List.mem_singleton.1 hdot)))
  · exact hword entry (hmore entry hentry) c hc

theorem DomainLabel.isNameChar (h : DomainLabel text) : ∀ c ∈ text.toList, IsNameChar c :=
  fun c hc => isNameChar_of_isDomainChar (h.all c hc)

theorem Domain.isNameChar (h : Domain text) : ∀ c ∈ text.toList, IsNameChar c :=
  h.2.forall_mem fun _ hlabel => hlabel.isNameChar

theorem FieldKey.isNameChar (h : FieldKey text) : ∀ c ∈ text.toList, IsNameChar c :=
  Dotted.forall_mem h fun _ hword c hc => isNameChar_of_isFieldChar (hword.all c hc)

/-- The characters of a label key are those of names, and slashes. -/
theorem LabelKey.isNameChar (h : LabelKey text) : ∀ c ∈ text.toList, IsNameChar c ∨ c = '/' := by
  rcases h with hname | ⟨domain, name, rfl, hdomain, hname⟩
  · exact fun c hc => Or.inl (hname.2.all c hc)
  · simp only [String.toList_append, List.forall_mem_append]
    exact ⟨⟨fun c hc => Or.inl (hdomain.isNameChar c hc), fun c hc => Or.inr (List.mem_singleton.1 hc)⟩,
      fun c hc => Or.inl (hname.2.all c hc)⟩

/-! ## Keys and values that pass -/

theorem isDomain_iff : isDomain text.toList = true ↔ Domain text := by
  have hdot : ∀ label, DomainLabel label → '.' ∉ label.toList := fun label hlabel hmem =>
    absurd (hlabel.all '.' hmem) (by decide)
  have hpieces : (pieces '.' text.toList).all isDomainLabel = true ↔ Dotted DomainLabel text :=
    all_pieces_iff (fun label => isDomainLabel_iff) hdot
  rw [isDomain, Bool.and_eq_true, decide_eq_true_eq, hpieces, String.length_toList, Domain]
  refine and_congr_left fun hdotted => ?_
  rw [utf8ByteSize_eq_length (Dotted.forall_mem hdotted fun _ hlabel => hlabel.isNameChar)]
  rfl

theorem isFieldKey_iff : isFieldKey text.toList = true ↔ FieldKey text :=
  all_pieces_iff (fun word => isFieldWord_iff) fun word hword hmem =>
    absurd (hword.all '.' hmem) (by decide)

theorem isLabelValue_iff : isLabelValue text.toList = true ↔ LabelValue text := by
  rw [isLabelValue, Bool.or_eq_true, isLabelName_iff, List.isEmpty_iff, String.toList_eq_nil_iff]
  rfl

/-- A key without a slash is tested as a name. -/
theorem isLabelKey_of_notMem (h : '/' ∉ cs) : isLabelKey cs = isLabelName cs := by
  have hall : ∀ c ∈ cs, decide (c ≠ '/') = true := fun c hc => decide_eq_true (ne_of_mem_of_not_mem hc h)
  rw [isLabelKey, List.span_eq_takeWhile_dropWhile, List.takeWhile_eq_self_iff.2 hall, List.dropWhile_eq_nil_iff.2 hall]

/-- Before the first slash of a key there must be a domain, and after it a name. -/
theorem isLabelKey_append {domain : List Char} (h : '/' ∉ domain) (name : List Char) :
    isLabelKey (domain ++ '/' :: name) = (isDomain domain && isLabelName name) := by
  have hall : ∀ c ∈ domain, decide (c ≠ '/') = true := fun c hc => decide_eq_true (ne_of_mem_of_not_mem hc h)
  rw [isLabelKey, List.span_eq_takeWhile_dropWhile, List.takeWhile_append_of_pos hall,
    List.dropWhile_append_of_pos hall]
  simp

theorem isLabelKey_iff : isLabelKey text.toList = true ↔ LabelKey text := by
  have hslash : ¬IsNameChar '/' := by decide
  constructor
  · intro h
    by_cases hmem : '/' ∈ text.toList
    · obtain ⟨domain, name, htext, hdomain⟩ := List.eq_append_cons_of_mem hmem
      rw [htext, isLabelKey_append hdomain, Bool.and_eq_true] at h
      refine Or.inr ⟨String.ofList domain, String.ofList name, ?_, ?_, ?_⟩
      · rw [← String.toList_inj, htext]
        simp
      · rw [← isDomain_iff, String.toList_ofList]
        exact h.1
      · rw [← isLabelName_iff, String.toList_ofList]
        exact h.2
    · rw [isLabelKey_of_notMem hmem] at h
      exact Or.inl (isLabelName_iff.1 h)
  · rintro (hname | ⟨domain, name, rfl, hdomain, hname⟩)
    · rw [isLabelKey_of_notMem fun hmem => hslash (hname.2.all _ hmem)]
      exact isLabelName_iff.2 hname
    · rw [String.toList_append, String.toList_append, List.append_assoc]
      show isLabelKey (domain.toList ++ '/' :: name.toList) = true
      rw [isLabelKey_append fun hmem => hslash (hdomain.isNameChar _ hmem), Bool.and_eq_true]
      exact ⟨isDomain_iff.2 hdomain, isLabelName_iff.2 hname⟩

instance (key : String) : Decidable (LabelKey key) :=
  decidable_of_iff _ isLabelKey_iff

instance (value : String) : Decidable (LabelValue value) :=
  decidable_of_iff _ isLabelValue_iff

instance (path : String) : Decidable (FieldKey path) :=
  decidable_of_iff _ isFieldKey_iff

/-! ## Patterns -/

theorem labelName_iff_mem : LabelName text ↔ text.utf8ByteSize ≤ 63 ∧ text.toList ∈ Pattern.labelName := by
  have hpattern : text.toList ∈ Pattern.labelName ↔ Enclosed (·.isAlphanum = true) IsNameChar text.toList :=
    Pattern.mem_optional_mul_one fun c hc => Or.inl hc
  rw [hpattern, LabelName]
  refine and_congr_left fun h => ?_
  rw [utf8ByteSize_eq_length h.all]

/-- The texts of a pattern with dots between them are dotted texts. -/
theorem Pattern.mem_separated_iff {language : Language Char} {word : String → Prop}
    (h : ∀ text : String, text.toList ∈ language ↔ word text) :
    text.toList ∈ separated '.' language ↔ Dotted word text := by
  rw [mem_separated]
  constructor
  · rintro ⟨words, hne, hwords, htext⟩
    have hlist : (words.map String.ofList).map String.toList = words := by
      rw [List.map_map]
      exact (List.map_congr_left fun word _ => String.toList_ofList).trans (List.map_id words)
    refine ⟨words.map String.ofList, by rwa [Ne, List.map_eq_nil_iff], fun entry hentry => ?_, ?_⟩
    · obtain ⟨word, hword, rfl⟩ := List.mem_map.1 hentry
      rw [← h, String.toList_ofList]
      exact hwords word hword
    · rw [← String.toList_inj, htext, String.toList_intercalate, hlist]
      rfl
  · rintro ⟨words, hne, hwords, rfl⟩
    refine ⟨words.map String.toList, by rwa [Ne, List.map_eq_nil_iff], fun word hword => ?_, String.toList_intercalate⟩
    obtain ⟨entry, hentry, rfl⟩ := List.mem_map.1 hword
    exact (h entry).2 (hwords entry hentry)

theorem domain_iff_mem : Domain text ↔ text.utf8ByteSize ≤ 253 ∧ text.toList ∈ Pattern.domain := by
  have hlabel : ∀ label : String, label.toList ∈ Pattern.domainLabel ↔ DomainLabel label := fun label =>
    Pattern.mem_one_mul_optional fun c hc => Or.inl hc
  rw [Pattern.domain, Pattern.mem_separated_iff hlabel]
  rfl

theorem fieldKey_iff_mem : FieldKey text ↔ text.toList ∈ Pattern.fieldPath := by
  have hword : ∀ word : String, word.toList ∈ Pattern.fieldWord ↔ FieldWord word := fun word => by
    rw [Pattern.fieldWord, Pattern.mem_one_mul]
    constructor
    · rintro ⟨c, rest, hc, hrest, hcons⟩
      have hstart : ∃ c ∈ word.toList.head?, IsFieldStart c := ⟨c, by rw [hcons]; rfl, hc⟩
      refine ⟨?_, hstart⟩
      rw [hcons, List.forall_mem_cons]
      exact ⟨(isFieldStart_iff.1 hc).1, Pattern.mem_kstar_one.1 hrest⟩
    · rintro ⟨hall, c, hc, hfirst⟩
      obtain ⟨rest, hcons⟩ := List.head?_eq_some_iff.1 hc
      rw [hcons, List.forall_mem_cons] at hall
      exact ⟨c, rest, hfirst, Pattern.mem_kstar_one.2 hall.2, hcons⟩
  exact (Pattern.mem_separated_iff hword).symm

end ClusterQuery.Selector
