import Mathlib.Data.List.TakeWhile
import ClusterQuery.FieldPath.Text
import ClusterQuery.Proofs.Answers

/-!
# Paths that are read back from their text

The reader of a path goes through its text a segment at a time; what it holds of an unquoted name becomes a segment when
something else begins (`held`). A segment is legible when its name, if it has one, neither begins with a double quote
nor has one together with a character for which it is put in quotes; the reader comes past its text with this segment
and nothing else (`exists_readFrom_text`). In front of a name that is not legible it stops at the quote within
(`ne_of_readFrom_text`), so a path is read back from its text just when it has segments and all of them are legible
(`parse_text_eq_ok_iff`).
-/

namespace ClusterQuery

/-- The segment can be read back: its name, if it has one, does not begin with a double quote, and has none if it has a
dot, a slash or a bracket. -/
def Segment.Legible : Segment → Prop
  | .field name => name.toList.head? ≠ some '"' ∧
      ¬('"' ∈ name.toList ∧ ∃ c ∈ name.toList, c = '.' ∨ c = '/' ∨ c = '[' ∨ c = ']')
  | _ => True

instance (segment : Segment) : Decidable segment.Legible :=
  match segment with
  | .field name =>
    -- a search through the name, not through all characters there are
    letI := List.decidableBEx (fun c => c = '.' ∨ c = '/' ∨ c = '[' ∨ c = ']') name.toList
    inferInstanceAs (Decidable (name.toList.head? ≠ some '"' ∧
      ¬('"' ∈ name.toList ∧ ∃ c ∈ name.toList, c = '.' ∨ c = '/' ∨ c = '[' ∨ c = ']')))
  | .index _ => isTrue trivial
  | .wildcard => isTrue trivial

namespace Text

/-- A digit is not blank. -/
theorem isBlank_of_isDigit {c : Char} (h : c.isDigit = true) : isBlank c = false := by
  simp only [Char.isDigit, Bool.and_eq_true, decide_eq_true_eq, ge_iff_le, UInt32.le_iff_toNat_le] at h
  have hlow : 48 ≤ c.toNat := h.1
  have hhigh : c.toNat ≤ 57 := h.2
  simp only [isBlank, inRanges, blankRanges, List.any_cons, List.any_nil, Bool.or_false, Bool.or_eq_false_iff,
    Bool.and_eq_false_iff, decide_eq_false_iff_not]
  omega

/-- A text without blanks stays as it is when it is trimmed. -/
theorem trim_eq_self {cs : List Char} (h : ∀ c ∈ cs, isBlank c = false) : trim cs = cs := by
  have hleft : ∀ {ds : List Char}, (∀ c ∈ ds, isBlank c = false) → trimLeft ds = ds := by
    intro ds hds
    cases ds with
    | nil => rfl
    | cons c rest => exact List.dropWhile_cons_of_neg (by simp [hds c List.mem_cons_self])
  have hreverse : ∀ c ∈ cs.reverse, isBlank c = false := by
    intro c hc
    exact h c (List.mem_reverse.1 hc)
  rw [trim, hleft h, hleft hreverse, List.reverse_reverse]

end Text

namespace FieldPath

variable {path : String} {pending : Bool} {rest : List Char}

/-! ## Steps of the reader -/

/-- The segment of the characters that the reader holds, in reverse, if it holds some. -/
def held : List Char → List Segment
  | [] => []
  | c :: name => [.field (String.ofList (c :: name).reverse)]

/-- At the end of the text what is held is the last segment. -/
theorem readFrom_nil (name : List Char) : readFrom path (.plain false name) [] = .ok (held name) := by
  cases name with
  | nil => rfl
  | cons c name => rw [readFrom, if_pos (List.cons_ne_nil c name), held]

/-- At a dot what is held is a segment, and another must follow. -/
theorem readFrom_dot (name : List Char) : readFrom path (.plain false name) ('.' :: rest) =
    (held name ++ ·) <$> readFrom path (.plain true []) rest := by
  cases name with
  | nil =>
    rw [readFrom, if_pos rfl, if_neg (not_not_intro rfl), if_neg Bool.false_ne_true]
    exact (id_map _).symm
  | cons c name =>
    rw [readFrom, if_pos rfl, if_pos (List.cons_ne_nil c name)]
    exact bind_pure_comp _ _

/-- At a bracket what is held is a segment, and another is read between brackets. -/
theorem readFrom_openBracket (name : List Char) : readFrom path (.plain pending name) ('[' :: rest) =
    (held name ++ ·) <$> readFrom path (.bracketed []) rest := by
  have hdot : '[' ≠ '.' := by decide
  have hquote : ¬('[' = '"' ∧ name = []) := by simp
  rw [readFrom, if_neg hdot, if_neg hquote, if_pos rfl]
  cases name with
  | nil =>
    rw [if_neg (not_not_intro rfl)]
    exact (id_map _).symm
  | cons c name =>
    rw [if_pos (List.cons_ne_nil c name)]
    exact bind_pure_comp _ _

/-- A quote in front of a segment begins a name in quotes. -/
theorem readFrom_quote : readFrom path (.plain pending []) ('"' :: rest) = readFrom path (.quoted []) rest := by
  have hdot : '"' ≠ '.' := by decide
  rw [readFrom, if_neg hdot, if_pos ⟨rfl, rfl⟩]

/-- A name in quotes ends at the next quote. -/
theorem readFrom_quoted {cs : List Char} (h : '"' ∉ cs) (name : List Char) :
    readFrom path (.quoted name) (cs ++ '"' :: rest) =
      (.field (String.ofList (name.reverse ++ cs)) :: ·) <$> readFrom path (.plain false []) rest := by
  induction cs generalizing name with
  | nil =>
    rw [List.nil_append, readFrom, if_pos rfl, List.append_nil]
    exact bind_pure_comp _ _
  | cons c more ih =>
    simp only [List.mem_cons, not_or] at h
    rw [List.cons_append, readFrom, if_neg (Ne.symm h.1), ih h.2, List.reverse_cons, List.append_assoc]
    rfl

/-- A segment between brackets ends at the next closing bracket. -/
theorem readFrom_bracketed {cs : List Char} (h : ']' ∉ cs) (inside : List Char) {segment : Segment}
    (hsegment : bracketSegment path (inside.reverse ++ cs) = .ok segment) :
    readFrom path (.bracketed inside) (cs ++ ']' :: rest) =
      (segment :: ·) <$> readFrom path (.plain false []) rest := by
  induction cs generalizing inside with
  | nil =>
    rw [List.append_nil] at hsegment
    rw [List.nil_append, readFrom, if_pos rfl, hsegment]
    exact bind_pure_comp (m := Except PathError) _ _
  | cons c more ih =>
    simp only [List.mem_cons, not_or] at h
    rw [List.cons_append, readFrom, if_neg (Ne.symm h.1)]
    exact ih h.2 (c :: inside) (by rwa [List.reverse_cons, List.append_assoc])

/-- A character with no meaning where it stands is one more of the name that is held. -/
theorem readFrom_cons {c : Char} {name : List Char} (hdot : c ≠ '.') (hbracket : c ≠ '[')
    (hquote : name = [] → c ≠ '"') :
    readFrom path (.plain pending name) (c :: rest) = readFrom path (.plain false (c :: name)) rest := by
  rw [readFrom, if_neg hdot, if_neg, if_neg hbracket]
  rintro ⟨rfl, hname⟩
  exact hquote hname rfl

/-- Characters without a meaning go on with a name. -/
theorem readFrom_append {cs : List Char} (h : ∀ c ∈ cs, c ≠ '.' ∧ c ≠ '[') {name : List Char} (hname : name ≠ []) :
    readFrom path (.plain false name) (cs ++ rest) = readFrom path (.plain false (cs.reverse ++ name)) rest := by
  induction cs generalizing name with
  | nil => rfl
  | cons c more ih =>
    obtain ⟨⟨hdot, hbracket⟩, hmore⟩ := List.forall_mem_cons.1 h
    rw [List.cons_append, readFrom_cons hdot hbracket (absurd · hname), ih hmore (List.cons_ne_nil c name),
      List.reverse_cons, List.append_assoc]
    rfl

/-! ## Segments between brackets -/

/-- A number is written in digits. -/
theorem isDigit_of_mem_toDigits {position : Nat} {c : Char} (h : c ∈ Nat.toDigits 10 position) : c.isDigit = true :=
  Nat.isDigit_of_mem_toDigits (by decide) (by decide) h

/-- The digits of a machine word are read as its number. -/
theorem indexOf?_toDigits {position : Nat} (h : position < Nat.pow 2 64) :
    indexOf? (Nat.toDigits 10 position) = some position := by
  have hvalue : (Nat.toDigits 10 position).foldl (fun n c => 10 * n + (c.toNat - 48)) 0 = position :=
    Nat.ofDigitChars_ten_toDigits
  have hall : (Nat.toDigits 10 position).all (fun c => '0' ≤ c && c ≤ '9') = true :=
    List.all_eq_true.2 fun c hc => isDigit_of_mem_toDigits hc
  cases hcs : Nat.toDigits 10 position with
  | nil => exact absurd hcs Nat.toDigits_ne_nil
  | cons c more =>
    have hplus : c ≠ '+' := by
      rintro rfl
      exact absurd (isDigit_of_mem_toDigits (hcs ▸ List.mem_cons_self)) (by decide)
    rw [hcs] at hvalue hall
    simp only [indexOf?]
    rw [if_pos ⟨by simp [hplus], by simpa [hplus] using hall⟩]
    simpa [hplus, hvalue] using h

/-- Between brackets a machine word is an index. -/
theorem bracketSegment_toDigits {position : Nat} (h : position < Nat.pow 2 64) :
    bracketSegment path (Nat.toDigits 10 position) = .ok (.index position) := by
  have htrim : Text.trim (Nat.toDigits 10 position) = Nat.toDigits 10 position :=
    Text.trim_eq_self fun c hc => Text.isBlank_of_isDigit (isDigit_of_mem_toDigits hc)
  have hindex := indexOf?_toDigits h
  cases hcs : Nat.toDigits 10 position with
  | nil => exact absurd hcs Nat.toDigits_ne_nil
  | cons c more =>
    have hc : c.isDigit = true := isDigit_of_mem_toDigits (hcs ▸ List.mem_cons_self)
    have hstar : ¬(c :: more = [] ∨ c :: more = ['*']) := by
      rintro (hnil | hstar)
      · cases hnil
      · cases hstar
        cases hc
    have hquote : unquoted? (c :: more) = none := by
      rw [unquoted?]
      rintro name hname
      cases hname
      cases hc
    rw [hcs] at htrim hindex
    simp only [bracketSegment, htrim, if_neg hstar, hquote, hindex]

/-- A segment in brackets is read, and what was held before it. -/
theorem readFrom_brackets {cs : List Char} (h : ']' ∉ cs) {segment : Segment}
    (hsegment : bracketSegment path cs = .ok segment) (name : List Char) :
    readFrom path (.plain pending name) ('[' :: cs ++ ']' :: rest) =
      (held name ++ segment :: ·) <$> readFrom path (.plain false []) rest := by
  rw [List.cons_append, readFrom_openBracket, readFrom_bracketed h [] hsegment, Functor.map_map]

/-! ## Legible segments -/

/-- A name is put in quotes when it is empty or has a dot, a slash or a bracket. -/
theorem needsQuotes_iff {name : String} : Segment.needsQuotes name = true ↔
    name.toList = [] ∨ ∃ c ∈ name.toList, c = '.' ∨ c = '/' ∨ c = '[' ∨ c = ']' := by
  simp [Segment.needsQuotes, or_assoc]

theorem toList_text_index (position : Nat) :
    (Segment.index position).text.toList = '[' :: Nat.toDigits 10 position ++ [']'] := by
  show ("[" ++ position.repr ++ "]").toList = _
  rw [String.toList_append, String.toList_append, Nat.toList_repr]
  rfl

theorem toList_text_of_needsQuotes {name : String} (h : Segment.needsQuotes name = true) :
    (Segment.field name).text.toList = '"' :: name.toList ++ ['"'] := by
  rw [Segment.text, if_pos h]
  simp

/-- A name that is put in quotes, without one of its own, is read to its end. -/
theorem readFrom_text_of_needsQuotes {name : String} (h : Segment.needsQuotes name = true)
    (hquote : '"' ∉ name.toList) : readFrom path (.plain true []) ((Segment.field name).text.toList ++ rest) =
      (.field name :: ·) <$> readFrom path (.plain false []) rest := by
  have hread := @readFrom_quoted path rest _ hquote []
  rw [List.reverse_nil, List.nil_append, String.ofList_toList] at hread
  rw [toList_text_of_needsQuotes h, List.append_assoc, List.cons_append, readFrom_quote]
  exact hread

/-- A name that is not put in quotes and does not begin with one is held to its end. -/
theorem readFrom_text_of_not_needsQuotes {name : String} (h : ¬Segment.needsQuotes name = true)
    (hhead : name.toList.head? ≠ some '"') :
    readFrom path (.plain true []) ((Segment.field name).text.toList ++ rest) =
      readFrom path (.plain false name.toList.reverse) rest := by
  obtain ⟨hne, hplain⟩ := not_or.1 (mt needsQuotes_iff.2 h)
  obtain ⟨c, more, hcs⟩ := List.exists_cons_of_ne_nil hne
  rw [Segment.text, if_neg h]
  rw [hcs] at hhead hplain ⊢
  have hchars : ∀ d ∈ c :: more, d ≠ '.' ∧ d ≠ '[' := by
    intro d hd
    refine ⟨?_, ?_⟩
    · intro he
      exact hplain ⟨d, hd, Or.inl he⟩
    · intro he
      exact hplain ⟨d, hd, Or.inr (Or.inr (Or.inl he))⟩
  obtain ⟨⟨hdot, hbracket⟩, hmore⟩ := List.forall_mem_cons.1 hchars
  have hquote : c ≠ '"' := by
    rintro rfl
    exact hhead rfl
  rw [List.cons_append, readFrom_cons hdot hbracket fun _ => hquote, readFrom_append hmore (List.cons_ne_nil c []),
    List.reverse_cons]

/-- A name that is held whole is the segment of the name. -/
theorem held_reverse {name : String} (h : name.toList ≠ []) : held name.toList.reverse = [.field name] := by
  obtain ⟨c, more, hreverse⟩ := List.exists_cons_of_ne_nil (List.reverse_ne_nil_iff.2 h)
  rw [hreverse, held, ← hreverse, List.reverse_reverse, String.ofList_toList]

/-- The text of a legible segment is read as the segment, of which a name without quotes is held until something else
begins. -/
theorem exists_readFrom_text {segment : Segment} (h : segment.Legible)
    (hindex : ∀ position, segment = .index position → position < Nat.pow 2 64) :
    ∃ front name, front ++ held name = [segment] ∧ ∀ path rest,
      readFrom path (.plain true []) (segment.text.toList ++ rest) =
        (front ++ ·) <$> readFrom path (.plain false name) rest := by
  cases segment with
  | wildcard =>
    refine ⟨[.wildcard], [], rfl, ?_⟩
    intro path rest
    have hstar : ']' ∉ ['*'] := by decide
    exact readFrom_brackets hstar rfl []
  | index position =>
    refine ⟨[.index position], [], rfl, ?_⟩
    intro path rest
    have hbracket : ']' ∉ Nat.toDigits 10 position := by
      intro hmem
      exact absurd (isDigit_of_mem_toDigits hmem) (by decide)
    rw [toList_text_index, List.append_assoc]
    exact readFrom_brackets hbracket (bracketSegment_toDigits (hindex position rfl)) []
  | field name =>
    obtain ⟨hhead, hboth⟩ := h
    by_cases hneeds : Segment.needsQuotes name = true
    · have hquote : '"' ∉ name.toList := by
        intro hmem
        rcases needsQuotes_iff.1 hneeds with hnil | hspecial
        · rw [hnil] at hmem
          cases hmem
        · exact hboth ⟨hmem, hspecial⟩
      refine ⟨[.field name], [], rfl, ?_⟩
      intro path rest
      exact readFrom_text_of_needsQuotes hneeds hquote
    · have hne : name.toList ≠ [] := fun hnil => hneeds (needsQuotes_iff.2 (Or.inl hnil))
      refine ⟨[], name.toList.reverse, held_reverse hne, ?_⟩
      intro path rest
      rw [readFrom_text_of_not_needsQuotes hneeds hhead]
      exact (id_map _).symm

/-- A name that is read in quotes has none. -/
theorem notMem_of_readFrom_quoted {cs passed : List Char} (hpassed : '"' ∉ passed) {name : String}
    {segments : List Segment} (h : readFrom path (.quoted passed) cs = .ok (.field name :: segments)) :
    '"' ∉ name.toList := by
  induction cs generalizing passed with
  | nil => cases h
  | cons c more ih =>
    rw [readFrom] at h
    split at h
    · obtain ⟨following, -, h⟩ := bind_eq_ok.1 h
      cases h
      simpa using hpassed
    · rename_i hc
      refine ih ?_ h
      simp only [List.mem_cons, not_or]
      exact ⟨Ne.symm hc, hpassed⟩

/-- The text of a segment that is not legible is read as something else, whatever follows it. -/
theorem ne_of_readFrom_text {segment : Segment} (h : ¬segment.Legible) (segments : List Segment) :
    readFrom path (.plain true []) (segment.text.toList ++ rest) ≠ .ok (segment :: segments) := by
  cases segment with
  | wildcard | index => exact absurd trivial h
  | field name =>
    -- the name has a quote, and its text begins with one
    have hname : '"' ∈ name.toList ∧ ∃ cs, (Segment.field name).text.toList = '"' :: cs := by
      by_cases hneeds : Segment.needsQuotes name = true
      · refine ⟨?_, _, toList_text_of_needsQuotes hneeds⟩
        by_contra hnone
        refine h ⟨?_, fun hboth => hnone hboth.1⟩
        intro hhead
        exact hnone (List.mem_of_mem_head? hhead)
      · have hhead : name.toList.head? = some '"' := by
          by_contra hne
          exact h ⟨hne, fun hboth => hneeds (needsQuotes_iff.2 (Or.inr hboth.2))⟩
        obtain ⟨cs, hcs⟩ := List.head?_eq_some_iff.1 hhead
        refine ⟨hcs ▸ List.mem_cons_self, cs, ?_⟩
        rw [Segment.text, if_neg hneeds]
        exact hcs
    obtain ⟨hmem, cs, hcs⟩ := hname
    rw [hcs, List.cons_append, readFrom_quote]
    intro hread
    exact notMem_of_readFrom_quoted List.not_mem_nil hread hmem

/-! ## Paths -/

/-- After a segment the others are read from their start, each name after its dot. -/
theorem readFrom_restText (name : List Char) (segment : Segment) (more : List Segment) :
    readFrom path (.plain false name) (restText (segment :: more)).toList =
      (held name ++ ·) <$> readFrom path (.plain true []) (segment.text.toList ++ (restText more).toList) := by
  have hbracket : ∀ cs, readFrom path (.plain false name) ('[' :: cs) =
      (held name ++ ·) <$> readFrom path (.plain true []) ('[' :: cs) := by
    intro cs
    rw [readFrom_openBracket, readFrom_openBracket, Functor.map_map]
    rfl
  cases segment with
  | field word =>
    rw [restText, String.append_assoc, String.toList_append, String.toList_append]
    exact readFrom_dot name
  | index position =>
    rw [restText, String.toList_append, toList_text_index]
    · exact hbracket _
    · nofun
  | wildcard =>
    rw [restText, String.toList_append]
    · exact hbracket _
    · nofun

/-- What is read before other segments does not matter to what is read as them. -/
theorem map_append_eq_ok_iff (front : List Segment) {segments : List Segment}
    {answer : Except PathError (List Segment)} :
    (front ++ ·) <$> answer = .ok (front ++ segments) ↔ answer = .ok segments := by
  cases answer <;> simp [Functor.map, Except.map]

/-- The text of segments is read as them just when all of them are legible. -/
theorem readFrom_text_eq_ok_iff {first : Segment} {more : List Segment}
    (hindex : ∀ position, .index position ∈ first :: more → position < Nat.pow 2 64) :
    readFrom path (.plain true []) (first.text.toList ++ (restText more).toList) = .ok (first :: more) ↔
      ∀ segment ∈ first :: more, segment.Legible := by
  induction more generalizing first with
  | nil =>
    by_cases hfirst : first.Legible
    · obtain ⟨front, name, hheld, hread⟩ := exists_readFrom_text hfirst fun position he =>
        hindex position (he ▸ List.mem_singleton_self _)
      rw [List.forall_mem_singleton, hread, ← hheld, map_append_eq_ok_iff]
      exact iff_of_true (readFrom_nil name) hfirst
    · exact iff_of_false (ne_of_readFrom_text hfirst []) fun h => hfirst (h first List.mem_cons_self)
  | cons second others ih =>
    by_cases hfirst : first.Legible
    · obtain ⟨front, name, hheld, hread⟩ := exists_readFrom_text hfirst fun position he =>
        hindex position (he ▸ List.mem_cons_self)
      have hsplit : first :: second :: others = front ++ (held name ++ second :: others) := by
        rw [← List.append_assoc, hheld]
        rfl
      have hothers : ∀ position, .index position ∈ second :: others → position < Nat.pow 2 64 :=
        fun position hmem => hindex position (List.mem_cons_of_mem first hmem)
      rw [List.forall_mem_cons, and_iff_right hfirst, hread, hsplit, map_append_eq_ok_iff, readFrom_restText,
        map_append_eq_ok_iff]
      exact ih hothers
    · exact iff_of_false (ne_of_readFrom_text hfirst _) fun h => hfirst (h first List.mem_cons_self)

/-- A path with segments, its indexes machine words, is read back from its text just when all segments are legible. -/
theorem parse_text_iff_legible {path : FieldPath} (hne : path.segments ≠ [])
    (hindex : ∀ position, .index position ∈ path.segments → position < Nat.pow 2 64) :
    parse path.text = .ok path ↔ ∀ segment ∈ path.segments, segment.Legible := by
  obtain ⟨segments⟩ := path
  cases segments with
  | nil => exact absurd rfl hne
  | cons first more =>
    have htext : (text ⟨first :: more⟩).toList = first.text.toList ++ (restText more).toList := String.toList_append
    have hread := @readFrom_text_eq_ok_iff (text ⟨first :: more⟩) first more hindex
    rw [← hread, ← htext, parse]
    split
    · rename_i hnil
      rw [hnil]
      exact iff_of_false nofun nofun
    · rw [map_eq_ok]
      constructor
      · rintro ⟨segments, hsegments, he⟩
        cases he
        exact hsegments
      · intro hsegments
        exact ⟨first :: more, hsegments, rfl⟩

/-- A path whose indexes are machine words is read back from its text just when it has segments and all of them are
legible: no field name begins with a double quote or has one together with a dot, a slash or a bracket. -/
theorem parse_text_eq_ok_iff {path : FieldPath}
    (hindex : ∀ position, .index position ∈ path.segments → position < Nat.pow 2 64) :
    parse path.text = .ok path ↔ path.segments ≠ [] ∧ ∀ segment ∈ path.segments, segment.Legible := by
  by_cases hne : path.segments = []
  · have htext : path.text = "" := by rw [text, hne]
    rw [htext]
    exact iff_of_false nofun fun h => h.1 hne
  · rw [parse_text_iff_legible hne hindex, and_iff_right hne]

namespace Sample

/-- An empty name, one with a dot, the largest index, a name with a quote within, and a wildcard. -/
def oddNames : FieldPath :=
  ⟨[.field "", .field "a.b", .index 18446744073709551615, .field "q\"q", .wildcard]⟩

end Sample

/-- All of them are read back, the quote within a name included. -/
theorem parse_text_eq_ok_iff_oddNames :
    (∀ position, .index position ∈ Sample.oddNames.segments → position < Nat.pow 2 64) ∧
      parse Sample.oddNames.text = .ok Sample.oddNames := by
  have hindex : ∀ position, .index position ∈ Sample.oddNames.segments → position < Nat.pow 2 64 := by
    intro position hmem
    simp only [Sample.oddNames, List.mem_cons, Segment.index.injEq, List.not_mem_nil, reduceCtorEq, false_or,
      or_false] at hmem
    rw [hmem]
    decide
  exact ⟨hindex, (parse_text_eq_ok_iff hindex).2 (by decide)⟩

end FieldPath
end ClusterQuery
