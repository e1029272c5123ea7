import ClusterQuery.Proofs.FieldPath.Printing

/-!
# Paths that are read a second time

A text makes the reader go from one state to another; what it has passed of a segment is in the state that it is in
(`ReadMode.passed`). A step of it either goes on with the segment or ends it (`readFrom_cons_cases`), so a path that is
read has segments, its indexes are machine words, and its names are made of characters of the text (`of_parse`). It is
read back from its own text just when its segments are legible (`reparse_eq_ok_iff`). Not all of them need be: quotes
within an unquoted name, or within a name between brackets, stand for themselves (`reparse_ne_quotedLabel`).
-/

namespace ClusterQuery

namespace Text

/-- What is left of a text that is trimmed was in it. -/
theorem trim_subset (cs : List Char) : trim cs ⊆ cs := by
  intro c hc
  have hright : c ∈ (trimLeft cs).reverse := (List.dropWhile_sublist _).subset (List.mem_reverse.1 hc)
  exact (List.dropWhile_sublist _).subset (List.mem_reverse.1 hright)

end Text

namespace FieldPath

variable {path : String} {rest : List Char}

/-! ## What the reader answers -/

/-- The characters that the reader has passed of the segment that it is in, in reverse. -/
def ReadMode.passed : ReadMode → List Char
  | .plain _ name => name
  | .quoted name => name
  | .bracketed inside => inside

/-- The characters spell the segment: they are its name, or what stands for it between brackets. -/
inductive Spells (path : String) (chars : List Char) : Segment → Prop where
  | name : Spells path chars (.field (String.ofList chars))
  | bracketed {segment : Segment} (h : bracketSegment path chars = .ok segment) : Spells path chars segment

/-- At the end of the text the reader answers nothing, or the segment of the characters that it has passed. -/
theorem readFrom_nil_cases {mode : ReadMode} {segments : List Segment} (h : readFrom path mode [] = .ok segments) :
    mode = .plain false [] ∧ segments = [] ∨
      ∃ segment, Spells path mode.passed.reverse segment ∧ segments = [segment] := by
  cases mode with
  | quoted | bracketed => cases h
  | plain pending name =>
    rw [readFrom] at h
    split at h
    · cases h
      exact Or.inr ⟨_, Spells.name, rfl⟩
    · rename_i hname
      split at h
      · cases h
      · rename_i hpending
        cases h
        rw [Bool.not_eq_true] at hpending
        rw [not_not.1 hname, hpending]
        exact Or.inl ⟨rfl, rfl⟩

/-- Past a character the reader still has a segment to come, of no other characters than it has passed; or the
characters that it had passed spell one, and the others are read after it. -/
theorem readFrom_cons_cases {mode : ReadMode} {c : Char} {segments : List Segment}
    (h : readFrom path mode (c :: rest) = .ok segments) :
    (∃ next, next ≠ .plain false [] ∧ next.passed ⊆ c :: mode.passed ∧ readFrom path next rest = .ok segments) ∨
    ∃ segment next following, Spells path mode.passed.reverse segment ∧ next.passed = [] ∧
      readFrom path next rest = .ok following ∧ segments = segment :: following := by
  cases mode with
  | plain pending name =>
    -- a name that is held ends at a dot and at a bracket
    rw [readFrom] at h
    split at h
    · split at h
      · obtain ⟨following, hfollowing, h⟩ := bind_eq_ok.1 h
        cases h
        exact Or.inr ⟨_, _, following, Spells.name, rfl, hfollowing, rfl⟩
      · split at h
        · cases h
        · exact Or.inl ⟨.plain true [], by simp, List.nil_subset _, h⟩
    · split at h
      · exact Or.inl ⟨.quoted [], by simp, List.nil_subset _, h⟩
      · split at h
        · split at h
          · obtain ⟨following, hfollowing, h⟩ := bind_eq_ok.1 h
            cases h
            exact Or.inr ⟨_, _, following, Spells.name, rfl, hfollowing, rfl⟩
          · exact Or.inl ⟨.bracketed [], by simp, List.nil_subset _, h⟩
        · exact Or.inl ⟨.plain false (c :: name), by simp, List.Subset.refl _, h⟩
  | quoted name =>
    rw [readFrom] at h
    split at h
    · obtain ⟨following, hfollowing, h⟩ := bind_eq_ok.1 h
      cases h
      exact Or.inr ⟨_, _, following, Spells.name, rfl, hfollowing, rfl⟩
    · exact Or.inl ⟨.quoted (c :: name), by simp, List.Subset.refl _, h⟩
  | bracketed inside =>
    rw [readFrom] at h
    split at h
    · obtain ⟨segment, hsegment, h⟩ := bind_eq_ok.1 h
      obtain ⟨following, hfollowing, h⟩ := bind_eq_ok.1 h
      cases h
      exact Or.inr ⟨segment, _, following, Spells.bracketed hsegment, rfl, hfollowing, rfl⟩
    · exact Or.inl ⟨.bracketed (c :: inside), by simp, List.Subset.refl _, h⟩

/-- While a segment is to come, one is read. -/
theorem ne_nil_of_readFrom {mode : ReadMode} {cs : List Char} {segments : List Segment}
    (h : readFrom path mode cs = .ok segments) (hmode : mode ≠ .plain false []) : segments ≠ [] := by
  induction cs generalizing mode with
  | nil =>
    rcases readFrom_nil_cases h with ⟨he, -⟩ | ⟨segment, -, rfl⟩
    · exact absurd he hmode
    · exact List.cons_ne_nil segment []
  | cons c rest ih =>
    rcases readFrom_cons_cases h with ⟨next, hnext, -, hrest⟩ | ⟨segment, -, following, -, -, -, rfl⟩
    · exact ih hrest hnext
    · exact List.cons_ne_nil segment following

/-- Every segment that is read is spelled by characters of the text or of what was passed of it. -/
theorem exists_spells_of_mem {mode : ReadMode} {cs : List Char} {segments : List Segment}
    (h : readFrom path mode cs = .ok segments) {segment : Segment} (hmem : segment ∈ segments) :
    ∃ chars, chars ⊆ mode.passed ++ cs ∧ Spells path chars segment := by
  have hpassed : ∀ (passed cs : List Char), passed.reverse ⊆ passed ++ cs := by
    intro passed cs c hc
    exact List.mem_append_left cs (List.mem_reverse.1 hc)
  induction cs generalizing mode segments with
  | nil =>
    rcases readFrom_nil_cases h with ⟨-, rfl⟩ | ⟨first, hfirst, rfl⟩
    · cases hmem
    · cases List.mem_singleton.1 hmem
      exact ⟨_, hpassed mode.passed [], hfirst⟩
  | cons c rest ih =>
    rcases readFrom_cons_cases h with ⟨next, -, hnext, hrest⟩ | ⟨first, next, following, hfirst, hnext, hrest, rfl⟩
    · obtain ⟨chars, hchars, hspells⟩ := ih hrest hmem
      refine ⟨chars, ?_, hspells⟩
      intro d hd
      have hd := hchars hd
      have hsubset := @hnext d
      simp only [List.mem_append, List.mem_cons] at hd hsubset ⊢
      tauto
    · rcases List.mem_cons.1 hmem with rfl | hmem
      · exact ⟨_, hpassed mode.passed (c :: rest), hfirst⟩
      · obtain ⟨chars, hchars, hspells⟩ := ih hrest hmem
        rw [hnext, List.nil_append] at hchars
        exact ⟨chars, fun d hd => List.mem_append_right _ (List.mem_cons_of_mem c (hchars hd)), hspells⟩

/-! ## Paths that were read -/

/-- The name within quotes has their characters. -/
theorem subset_of_unquoted? {cs name : List Char} (h : unquoted? cs = some name) : name ⊆ cs := by
  rw [unquoted?.eq_def] at h
  split at h
  · rename_i rest
    split at h
    · rename_i word hreverse
      cases h
      intro c hc
      have hrest : c ∈ rest.reverse := hreverse ▸ List.mem_cons_of_mem _ (List.mem_reverse.1 hc)
      exact List.mem_cons_of_mem _ (List.mem_reverse.1 hrest)
    · cases h
  · cases h

/-- An index is a machine word. -/
theorem lt_of_indexOf? {cs : List Char} {position : Nat} (h : indexOf? cs = some position) :
    position < Nat.pow 2 64 := by
  simp only [indexOf?, Option.ite_none_right_eq_some, Option.some.injEq] at h
  obtain ⟨-, hlt, rfl⟩ := h
  exact hlt

/-- A segment that characters spell is a name of theirs, an index that is a machine word, or a wildcard. -/
theorem Spells.cases {chars : List Char} {segment : Segment} (h : Spells path chars segment) :
    (∃ name, segment = .field name ∧ name.toList ⊆ chars) ∨
      (∃ position, segment = .index position ∧ position < Nat.pow 2 64) ∨ segment = .wildcard := by
  cases h with
  | name =>
    refine Or.inl ⟨_, rfl, ?_⟩
    rw [String.toList_ofList]
    exact List.Subset.refl chars
  | bracketed h =>
    simp only [bracketSegment] at h
    split at h
    · cases h
      exact Or.inr (Or.inr rfl)
    · split at h
      · rename_i name hname
        cases h
        refine Or.inl ⟨_, rfl, ?_⟩
        rw [String.toList_ofList]
        exact List.Subset.trans (subset_of_unquoted? hname) (Text.trim_subset chars)
      · split at h
        · rename_i position hposition
          cases h
          exact Or.inr (Or.inl ⟨position, rfl, lt_of_indexOf? hposition⟩)
        · cases h

/-- A path that is read has segments, its indexes are machine words, and the characters of its names are in the text. -/
theorem of_parse {text : String} {path : FieldPath} (h : parse text = .ok path) :
    path.segments ≠ [] ∧ (∀ position, .index position ∈ path.segments → position < Nat.pow 2 64) ∧
      ∀ name, .field name ∈ path.segments → name.toList ⊆ text.toList := by
  rw [parse] at h
  split at h
  · cases h
  · obtain ⟨segments, hread, rfl⟩ := map_eq_ok.1 h
    refine ⟨ne_nil_of_readFrom hread (by simp), ?_, ?_⟩
    · intro position hmem
      obtain ⟨chars, -, hspells⟩ := exists_spells_of_mem hread hmem
      rcases hspells.cases with ⟨_, he, -⟩ | ⟨_, he, hlt⟩ | he
      · cases he
      · cases he
        exact hlt
      · cases he
    · intro name hmem
      obtain ⟨chars, hchars, hspells⟩ := exists_spells_of_mem hread hmem
      rcases hspells.cases with ⟨_, he, hname⟩ | ⟨_, he, -⟩ | he
      · cases he
        exact List.Subset.trans hname hchars
      · cases he
      · cases he

/-- A path that was read is read back from its own text just when all its segments are legible; so always when the text
that it was read from has no double quote. -/
theorem reparse_eq_ok_iff {text : String} {path : FieldPath} (h : parse text = .ok path) :
    (parse path.text = .ok path ↔ ∀ segment ∈ path.segments, segment.Legible) ∧
      ('"' ∉ text.toList → parse path.text = .ok path) := by
  obtain ⟨hne, hindex, hnames⟩ := of_parse h
  have hiff := parse_text_iff_legible hne hindex
  refine ⟨hiff, ?_⟩
  intro hquote
  rw [hiff]
  intro segment hmem
  cases segment with
  | index | wildcard => trivial
  | field name =>
    have hname : '"' ∉ name.toList := fun hc => hquote (hnames name hmem hc)
    exact ⟨fun hhead => hname (List.mem_of_mem_head? hhead), fun hboth => hname hboth.1⟩

namespace Sample

/-- The path of a label and an item below it, with a quote within the last name. -/
def shopLabel : FieldPath :=
  ⟨[.field "metadata", .field "labels", .field "app.kubernetes.io/name", .index 0, .field "q\"q"]⟩

/-- The path of a label that has both a quote and a dot. -/
def quotedLabel : FieldPath :=
  ⟨[.field "labels", .field "a\"b.c"]⟩

end Sample

/-- The label in brackets is read back from its other spelling, in quotes only. -/
theorem reparse_eq_ok_iff_shopLabel :
    parse "metadata.labels[ \"app.kubernetes.io/name\" ][+00]q\"q" = .ok Sample.shopLabel ∧
      parse Sample.shopLabel.text = .ok Sample.shopLabel := by
  have hread : parse "metadata.labels[ \"app.kubernetes.io/name\" ][+00]q\"q" = .ok Sample.shopLabel := by rfl
  exact ⟨hread, (reparse_eq_ok_iff hread).1.2 (by decide)⟩

/-- Between brackets a name may have both a quote and a dot; in the text of the path the quote ends the name, and
another path is read. -/
theorem reparse_ne_quotedLabel :
    parse "labels[\"a\"b.c\"]" = .ok Sample.quotedLabel ∧
      parse Sample.quotedLabel.text = .ok ⟨[.field "labels", .field "a", .field "b", .field "c\""]⟩ ∧
      parse Sample.quotedLabel.text ≠ .ok Sample.quotedLabel := by
  have hread : parse Sample.quotedLabel.text = .ok ⟨[.field "labels", .field "a", .field "b", .field "c\""]⟩ := by rfl
  refine ⟨by rfl, hread, ?_⟩
  rw [hread]
  simp [Sample.quotedLabel]

end FieldPath
end ClusterQuery
