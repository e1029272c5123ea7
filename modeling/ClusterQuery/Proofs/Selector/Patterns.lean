import Mathlib.Computability.Language
import ClusterQuery.Proofs.FieldPath.Plain
import ClusterQuery.Proofs.Lists

/-!
# Patterns for keys and values

Regular expressions as languages of characters. Two expressions for a text with a character of one class at both ends
and characters of another between them describe the same texts (`mem_optional_mul_one`, `mem_one_mul_optional`), and
words that are repeated after a separator are the words of a list with the separator between them (`mem_separated`).
-/

namespace ClusterQuery.Selector

/-- The characters of a text are of one class, and there is a first and a last one, of another. -/
structure Enclosed (ends inner : Char → Prop) (cs : List Char) : Prop where
  all : ∀ c ∈ cs, inner c
  first : ∃ c ∈ cs.head?, ends c
  last : ∃ c ∈ cs.getLast?, ends c

namespace Pattern

open scoped Computability

/-- One character of a class. -/
def one (inClass : Char → Prop) : Language Char :=
  {word | ∃ c, inClass c ∧ word = [c]}

/-- Words of a language with one and the same character between them. -/
def separated (separator : Char) (words : Language Char) : Language Char :=
  words * (one (· = separator) * words)∗

variable {inClass ends inner : Char → Prop} {cs : List Char} {language : Language Char}

/-- A character of a class, and then a text. -/
theorem mem_one_mul : cs ∈ one inClass * language ↔ ∃ c rest, inClass c ∧ rest ∈ language ∧ cs = c :: rest := by
  rw [Language.mem_mul]
  constructor
  · rintro ⟨_, ⟨c, hc, rfl⟩, rest, hrest, rfl⟩
    exact ⟨c, rest, hc, hrest, rfl⟩
  · rintro ⟨c, rest, hc, hrest, rfl⟩
    exact ⟨[c], ⟨c, hc, rfl⟩, rest, hrest, rfl⟩

/-- A text, and then a character of a class. -/
theorem mem_mul_one : cs ∈ language * one inClass ↔ ∃ front c, front ∈ language ∧ inClass c ∧ cs = front ++ [c] := by
  rw [Language.mem_mul]
  constructor
  · rintro ⟨front, hfront, _, ⟨c, hc, rfl⟩, rfl⟩
    exact ⟨front, c, hfront, hc, rfl⟩
  · rintro ⟨front, c, hfront, hc, rfl⟩
    exact ⟨front, hfront, [c], ⟨c, hc, rfl⟩, rfl⟩

/-- Any number of characters of a class. -/
theorem mem_kstar_one : cs ∈ (one inClass)∗ ↔ ∀ c ∈ cs, inClass c := by
  rw [Language.mem_kstar]
  constructor
  · rintro ⟨words, rfl, hwords⟩ c hc
    obtain ⟨word, hword, hc⟩ := List.mem_flatten.1 hc
    obtain ⟨d, hd, rfl⟩ := hwords word hword
    rwa [List.mem_singleton.1 hc]
  · intro hall
    refine ⟨cs.map fun c => [c], by rw [← List.flatMap_def, List.flatMap_singleton'], ?_⟩
    rintro _ hword
    obtain ⟨c, hc, rfl⟩ := List.mem_map.1 hword
    exact ⟨c, hall c hc, rfl⟩

/-- An enclosed text is one character, or it is two with a text between them. -/
theorem enclosed_iff (h : ∀ c, ends c → inner c) : Enclosed ends inner cs ↔ (∃ c, ends c ∧ cs = [c]) ∨
    ∃ first middle last, ends first ∧ (∀ c ∈ middle, inner c) ∧ ends last ∧ cs = first :: (middle ++ [last]) := by
  constructor
  · rintro ⟨hall, ⟨first, hfirst, hends⟩, last, hlast, hends'⟩
    cases cs with
    | nil => cases hfirst
    | cons c rest =>
      obtain rfl : c = first := Option.some.inj hfirst
      rcases List.eq_nil_or_concat' rest with rfl | ⟨middle, d, rfl⟩
      · exact Or.inl ⟨c, hends, rfl⟩
      · obtain rfl : d = last := by
          rw [← List.cons_append, List.getLast?_concat] at hlast
          exact Option.some.inj hlast
        exact Or.inr ⟨c, middle, d, hends, fun e he => hall e (by simp [he]), hends', rfl⟩
  · rintro (⟨c, hc, rfl⟩ | ⟨first, middle, last, hfirst, hmiddle, hlast, rfl⟩)
    · exact ⟨List.forall_mem_singleton.2 (h c hc), ⟨c, rfl, hc⟩, c, rfl, hc⟩
    · refine ⟨?_, ⟨first, rfl, hfirst⟩, last, List.getLast?_concat (l := first :: middle), hlast⟩
      simp only [List.forall_mem_cons, List.forall_mem_append]
      exact ⟨h first hfirst, hmiddle, h last hlast, nofun⟩

/-- An optional start before the last character: the words of this expression are the enclosed ones. -/
theorem mem_optional_mul_one (h : ∀ c, ends c → inner c) :
    cs ∈ (1 + one ends * (one inner)∗) * one ends ↔ Enclosed ends inner cs := by
  rw [enclosed_iff h, mem_mul_one]
  constructor
  · rintro ⟨front, last, hfront, hlast, rfl⟩
    rcases hfront with rfl | hfront
    · exact Or.inl ⟨last, hlast, rfl⟩
    · obtain ⟨first, middle, hfirst, hmiddle, rfl⟩ := mem_one_mul.1 hfront
      exact Or.inr ⟨first, middle, last, hfirst, mem_kstar_one.1 hmiddle, hlast, rfl⟩
  · rintro (⟨c, hc, rfl⟩ | ⟨first, middle, last, hfirst, hmiddle, hlast, rfl⟩)
    · exact ⟨[], c, Or.inl rfl, hc, rfl⟩
    · exact ⟨first :: middle, last, Or.inr (mem_one_mul.2 ⟨first, middle, hfirst, mem_kstar_one.2 hmiddle, rfl⟩), hlast,
        rfl⟩

/-- An optional end after the first character: the words of this expression are the enclosed ones. -/
theorem mem_one_mul_optional (h : ∀ c, ends c → inner c) :
    cs ∈ one ends * (1 + (one inner)∗ * one ends) ↔ Enclosed ends inner cs := by
  rw [enclosed_iff h, mem_one_mul]
  constructor
  · rintro ⟨first, rest, hfirst, hrest, rfl⟩
    rcases hrest with rfl | hrest
    · exact Or.inl ⟨first, hfirst, rfl⟩
    · obtain ⟨middle, last, hmiddle, hlast, rfl⟩ := mem_mul_one.1 hrest
      exact Or.inr ⟨first, middle, last, hfirst, mem_kstar_one.1 hmiddle, hlast, rfl⟩
  · rintro (⟨c, hc, rfl⟩ | ⟨first, middle, last, hfirst, hmiddle, hlast, rfl⟩)
    · exact ⟨c, [], hc, Or.inl rfl, rfl⟩
    · exact ⟨first, middle ++ [last], hfirst,
        Or.inr (mem_mul_one.2 ⟨middle, last, mem_kstar_one.2 hmiddle, hlast, rfl⟩), rfl⟩

/-- Words with separators between them are those of a list, of which there is at least one. -/
theorem mem_separated {separator : Char} : cs ∈ separated separator language ↔
    ∃ words, words ≠ [] ∧ (∀ word ∈ words, word ∈ language) ∧ cs = [separator].intercalate words := by
  rw [separated, Language.mem_mul]
  constructor
  · rintro ⟨first, hfirst, _, hmore, rfl⟩
    obtain ⟨pieces, rfl, hpieces⟩ := Language.mem_kstar.1 hmore
    -- each piece is a word after the separator
    have hwords : ∃ words : List (List Char), (∀ word ∈ words, word ∈ language) ∧
        pieces = words.map (separator :: ·) := by
      refine ⟨pieces.map List.tail, fun word hword => ?_, ?_⟩
      · obtain ⟨piece, hpiece, rfl⟩ := List.mem_map.1 hword
        obtain ⟨c, rest, -, hrest, rfl⟩ := mem_one_mul.1 (hpieces piece hpiece)
        exact hrest
      · rw [List.map_map, eq_comm]
        refine (List.map_congr_left fun piece hpiece => ?_).trans (List.map_id pieces)
        obtain ⟨c, rest, rfl, -, rfl⟩ := mem_one_mul.1 (hpieces piece hpiece)
        rfl
    obtain ⟨words, hwords, rfl⟩ := hwords
    refine ⟨first :: words, List.cons_ne_nil _ _, List.forall_mem_cons.2 ⟨hfirst, hwords⟩, ?_⟩
    rw [intercalate_cons, ← List.flatMap_def]
    rfl
  · rintro ⟨words, hne, hwords, rfl⟩
    obtain ⟨first, more, rfl⟩ := List.exists_cons_of_ne_nil hne
    obtain ⟨hfirst, hmore⟩ := List.forall_mem_cons.1 hwords
    refine ⟨first, hfirst, (more.map (separator :: ·)).flatten, Language.join_mem_kstar fun piece hpiece => ?_, ?_⟩
    · obtain ⟨word, hword, rfl⟩ := List.mem_map.1 hpiece
      exact mem_one_mul.2 ⟨separator, word, rfl, hmore word hword, rfl⟩
    · rw [intercalate_cons, ← List.flatMap_def]
      rfl

end Pattern

end ClusterQuery.Selector
