import ClusterQuery.Execution.Plan

/-!
# Field keys are plain paths

What a selector takes as the key of a field is read as a path that names fields only: the words between its dots, in
order (`FieldPath.parse_of_isFieldKey`). So a value can be nested at every such key (`FieldPath.exists_nest_eq`).
-/

namespace ClusterQuery

namespace Selector

/-- There is at least one piece. -/
theorem pieces_ne_nil (separator : Char) (cs : List Char) : pieces separator cs ≠ [] := by
  cases cs with
  | nil => exact List.cons_ne_nil _ _
  | cons c rest =>
    rw [pieces]
    split
    · exact List.cons_ne_nil _ _
    · split <;> exact List.cons_ne_nil _ _

/-- A character that is no separator belongs to the first piece. -/
theorem pieces_cons_of_ne {separator c : Char} (h : c ≠ separator) {rest first : List Char} {others : List (List Char)}
    (hrest : pieces separator rest = first :: others) : pieces separator (c :: rest) = (c :: first) :: others := by
  rw [pieces, if_neg h, hrest]

/-- A separator makes two pieces at least. -/
theorem two_le_length_pieces {separator : Char} {cs : List Char} (h : separator ∈ cs) :
    2 ≤ (pieces separator cs).length := by
  induction cs with
  | nil => cases h
  | cons c rest ih =>
    by_cases hc : c = separator
    · have hrest := List.length_pos_iff.2 (pieces_ne_nil separator rest)
      rw [pieces, if_pos hc, List.length_cons]
      omega
    · obtain ⟨first, others, hpieces⟩ := List.exists_cons_of_ne_nil (pieces_ne_nil separator rest)
      have hlength := ih ((List.mem_cons.1 h).resolve_left (Ne.symm hc))
      rw [hpieces] at hlength
      rw [pieces_cons_of_ne hc hpieces]
      exact hlength

/-- The pieces with separators between them are the text. -/
theorem intercalate_pieces (separator : Char) (cs : List Char) :
    [separator].intercalate (pieces separator cs) = cs := by
  induction cs with
  | nil => rfl
  | cons c rest ih =>
    obtain ⟨first, others, hpieces⟩ := List.exists_cons_of_ne_nil (pieces_ne_nil separator rest)
    rw [hpieces] at ih
    by_cases hc : c = separator
    · rw [pieces, if_pos hc, hpieces, List.intercalate_cons_cons, ih, hc]
      rfl
    · rw [pieces_cons_of_ne hc hpieces]
      cases others with
      | nil =>
        rw [List.intercalate_singleton] at ih ⊢
        rw [ih]
      | cons second more =>
        rw [List.intercalate_cons_cons] at ih ⊢
        rw [← ih]
        simp

/-- The words between the dots of a text, with dots between them, are the text. -/
theorem intercalate_map_pieces (text : String) :
    ".".intercalate ((pieces '.' text.toList).map String.ofList) = text := by
  rw [← String.toList_inj, String.toList_intercalate, List.map_map]
  have hid : String.toList ∘ String.ofList = id := by
    funext cs
    simp
  rw [hid, List.map_id]
  exact intercalate_pieces '.' text.toList

/-- What stands before a separator, without one of its own, is the first piece. -/
theorem pieces_append_cons {separator : Char} {word : List Char} (h : separator ∉ word) (rest : List Char) :
    pieces separator (word ++ separator :: rest) = word :: pieces separator rest := by
  induction word with
  | nil => rw [List.nil_append, pieces, if_pos rfl]
  | cons c word ih =>
    rw [List.mem_cons, not_or] at h
    exact pieces_cons_of_ne (Ne.symm h.1) (ih h.2)

/-- The characters of a text are those of its pieces and separators. -/
theorem mem_iff_mem_pieces {separator c : Char} (hc : c ≠ separator) {cs : List Char} :
    c ∈ cs ↔ ∃ word ∈ pieces separator cs, c ∈ word := by
  induction cs with
  | nil => simp [pieces]
  | cons d rest ih =>
    obtain ⟨first, others, hpieces⟩ := List.exists_cons_of_ne_nil (pieces_ne_nil separator rest)
    by_cases hd : d = separator
    · rw [pieces, if_pos hd, List.mem_cons, ih]
      simp [hd, hc]
    · rw [pieces_cons_of_ne hd hpieces, List.mem_cons, ih, hpieces]
      simp [or_assoc]

/-- A word of a field key has at least one character, and none that has a meaning in paths. -/
theorem isFieldWord_plain {word : List Char} (h : isFieldWord word = true) :
    word ≠ [] ∧ ∀ c ∈ word, c ≠ '"' ∧ c ≠ '[' := by
  obtain ⟨hall, hhead⟩ := Bool.and_eq_true_iff.1 h
  refine ⟨?_, fun c hc => ?_⟩
  · rintro rfl
    cases hhead
  · have hclass := List.all_eq_true.1 hall c hc
    constructor
    · rintro rfl
      exact absurd hclass (by decide)
    · rintro rfl
      exact absurd hclass (by decide)

end Selector

namespace FieldPath

open Selector

/-- Words with dots between them are read as fields, the first of them from where the reader stands in it. -/
theorem readFrom_pieces (path : String) {cs : List Char} {first : List Char} {others : List (List Char)}
    (hpieces : pieces '.' cs = first :: others) (passed : List Char) (pending : Bool)
    (hfirst : passed.reverse ++ first ≠ []) (hothers : ∀ word ∈ others, word ≠ [])
    (hplain : ∀ word ∈ first :: others, ∀ c ∈ word, c ≠ '"' ∧ c ≠ '[') :
    readFrom path (.plain pending passed) cs =
      .ok (((passed.reverse ++ first) :: others).map fun word => Segment.field (String.ofList word)) := by
  induction cs generalizing passed pending first others with
  | nil =>
    cases hpieces
    rw [List.append_nil] at hfirst ⊢
    rw [readFrom, if_pos (by simpa using hfirst)]
    rfl
  | cons c rest ih =>
    obtain ⟨next, more, hrest⟩ := List.exists_cons_of_ne_nil (pieces_ne_nil '.' rest)
    by_cases hdot : c = '.'
    · -- the word ends here, and the next one starts afresh
      rw [pieces, if_pos hdot, hrest] at hpieces
      cases hpieces
      rw [List.append_nil] at hfirst ⊢
      obtain ⟨hnext, hmore⟩ := List.forall_mem_cons.1 hothers
      have htail := ih hrest [] true hnext hmore fun word hword => hplain word (List.mem_cons_of_mem _ hword)
      rw [readFrom, if_pos hdot, if_pos (by simpa using hfirst), htail]
      rfl
    · rw [pieces_cons_of_ne hdot hrest] at hpieces
      cases hpieces
      obtain ⟨hquote, hbracket⟩ := hplain _ List.mem_cons_self c List.mem_cons_self
      have hword := ih hrest (c :: passed) false (by simp) hothers (by
        refine List.forall_mem_cons.2 ⟨fun d hd => ?_, fun word hword => hplain word (List.mem_cons_of_mem _ hword)⟩
        exact hplain _ List.mem_cons_self d (List.mem_cons_of_mem c hd))
      rw [readFrom, if_neg hdot, if_neg fun h => hquote h.1, if_neg hbracket, hword]
      simp

/-- Without a word before, after or between dots, a text of words is refused. -/
theorem readFrom_pieces_eq_error (path : String) {cs : List Char} {first : List Char} {others : List (List Char)}
    (hpieces : pieces '.' cs = first :: others) (passed : List Char) (pending : Bool)
    (hpending : passed = [] → pending = true) (hempty : passed.reverse ++ first = [] ∨ [] ∈ others)
    (hplain : ∀ word ∈ first :: others, ∀ c ∈ word, c ≠ '"' ∧ c ≠ '[') :
    readFrom path (.plain pending passed) cs = .error (.emptySegment path) := by
  induction cs generalizing passed pending first others with
  | nil =>
    cases hpieces
    have hpassed : passed = [] := by simpa using hempty
    rw [readFrom, if_neg (fun hne => hne hpassed), if_pos (hpending hpassed)]
  | cons c rest ih =>
    obtain ⟨next, more, hrest⟩ := List.exists_cons_of_ne_nil (pieces_ne_nil '.' rest)
    by_cases hdot : c = '.'
    · rw [pieces, if_pos hdot, hrest] at hpieces
      cases hpieces
      rw [readFrom, if_pos hdot]
      by_cases hpassed : passed = []
      · rw [if_neg (fun hne => hne hpassed), if_pos (hpending hpassed)]
      · -- a word ends here, so one is missing later
        have hlater : [].reverse ++ next = [] ∨ [] ∈ more := by
          rcases hempty with hempty | hempty
          · exact absurd (by simpa using hempty) hpassed
          · exact (List.mem_cons.1 hempty).imp_left Eq.symm
        rw [if_pos hpassed, ih hrest [] true (fun _ => rfl) hlater fun word hword =>
          hplain word (List.mem_cons_of_mem _ hword)]
        rfl
    · rw [pieces_cons_of_ne hdot hrest] at hpieces
      cases hpieces
      obtain ⟨hquote, hbracket⟩ := hplain _ List.mem_cons_self c List.mem_cons_self
      have hlater : [] ∈ others := hempty.resolve_left (by simp)
      rw [readFrom, if_neg hdot, if_neg fun h => hquote h.1, if_neg hbracket]
      refine ih hrest (c :: passed) false nofun (Or.inr hlater) ?_
      refine List.forall_mem_cons.2 ⟨fun d hd => ?_, fun word hword => hplain word (List.mem_cons_of_mem _ hword)⟩
      exact hplain _ List.mem_cons_self d (List.mem_cons_of_mem c hd)

/-- A text without quotes and brackets is read as the words between its dots, and refused when one is missing. -/
theorem parse_of_plain {text : String} (hne : text ≠ "") (hplain : ∀ c ∈ text.toList, c ≠ '"' ∧ c ≠ '[') :
    parse text = if [] ∈ pieces '.' text.toList then .error (.emptySegment text)
      else .ok ⟨(pieces '.' text.toList).map fun word => Segment.field (String.ofList word)⟩ := by
  obtain ⟨first, others, hpieces⟩ := List.exists_cons_of_ne_nil (pieces_ne_nil '.' text.toList)
  have hwords : ∀ word ∈ first :: others, ∀ c ∈ word, c ≠ '"' ∧ c ≠ '[' := by
    intro word hword c hc
    by_cases hdot : c = '.'
    · subst hdot
      decide
    · exact hplain c ((mem_iff_mem_pieces hdot).2 ⟨word, hpieces ▸ hword, hc⟩)
  have hchars : text.toList ≠ [] := fun hnil => hne (String.toList_eq_nil_iff.1 hnil)
  rw [parse, if_neg hchars, hpieces]
  split
  · rename_i hempty
    rw [readFrom_pieces_eq_error text hpieces [] true (fun _ => rfl) ((List.mem_cons.1 hempty).imp_left Eq.symm) hwords]
    rfl
  · rename_i hempty
    rw [List.mem_cons, not_or] at hempty
    rw [readFrom_pieces text hpieces [] true (Ne.symm hempty.1) (fun word hword hnil => hempty.2 (hnil ▸ hword)) hwords]
    rfl

/-- The key of a field is read as the words between its dots. -/
theorem parse_of_isFieldKey {key : String} (h : isFieldKey key.toList = true) :
    parse key = .ok ⟨(pieces '.' key.toList).map fun word => Segment.field (String.ofList word)⟩ := by
  have hwords : ∀ word ∈ pieces '.' key.toList, word ≠ [] ∧ ∀ c ∈ word, c ≠ '"' ∧ c ≠ '[' :=
    fun word hword => isFieldWord_plain (List.all_eq_true.1 h word hword)
  have hempty : [] ∉ pieces '.' key.toList := fun hmem => (hwords [] hmem).1 rfl
  have hplain : ∀ c ∈ key.toList, c ≠ '"' ∧ c ≠ '[' := by
    intro c hc
    by_cases hdot : c = '.'
    · subst hdot
      decide
    · obtain ⟨word, hword, hc⟩ := (mem_iff_mem_pieces hdot).1 hc
      exact (hwords word hword).2 c hc
  have hne : key ≠ "" := by
    rintro rfl
    exact hempty (List.mem_singleton_self [])
  rw [parse_of_plain hne hplain, if_neg hempty]

/-- Fields have their names. -/
theorem fieldNames?_map_field (words : List (List Char)) :
    SelectorKey.fieldNames? (words.map fun word => Segment.field (String.ofList word)) =
      some (words.map String.ofList) := by
  induction words with
  | nil => rfl
  | cons word rest ih =>
    rw [List.map_cons, SelectorKey.fieldNames?, ih]
    rfl

/-- A value can be nested below fields. -/
theorem exists_nestFrom_eq (value : Document) (words : List (List Char)) :
    ∃ nested, nestFrom value (words.map fun word => Segment.field (String.ofList word)) = some nested := by
  induction words with
  | nil => exact ⟨value, rfl⟩
  | cons word rest ih =>
    obtain ⟨nested, hnested⟩ := ih
    exact ⟨_, by rw [List.map_cons, nestFrom, hnested]; rfl⟩

/-- The key of a field is read as a path at which a value can be nested. -/
theorem exists_nest_eq {key : String} (h : isFieldKey key.toList = true) (value : Document) :
    ∃ path nested, parse key = .ok path ∧ path.nest value = some nested := by
  obtain ⟨nested, hnested⟩ := exists_nestFrom_eq value (pieces '.' key.toList)
  exact ⟨_, nested, parse_of_isFieldKey h, hnested⟩

end FieldPath

end ClusterQuery
