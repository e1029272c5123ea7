import ClusterQuery.Proofs.Query.Tiling

/-!
# Other spellings of a text

The letters of a keyword in another case, more blanks between two tokens, a comma for `AND` or the other way around, and
a semicolon more or less at the end: before such a change in one place (`Respelled`) every token ends as it did. From
the place on the tokens are the same too, but for the separator or the semicolon (`Lexer.tokensOn_blanks`,
`Lexer.tokensOn_word`, `Lexer.tokensOn_separator`, `Lexer.tokensOn_addSemicolon`, `Lexer.tokensOn_dropSemicolon`).
-/

namespace ClusterQuery.Query

/-- The sign or word that separates two conditions, with what is around it: the word is apart from its neighbours. -/
inductive Separates : List Char → List Char → List Char → Prop where
  | comma (before after : List Char) : Separates before [','] after
  | word {before after : List Char} : before ≠ [] → after ≠ [] → Separates before ['A', 'N', 'D'] after

/-- What is left of a text before a reader, spelled otherwise in one place. -/
inductive Lexer.Respells : Lexer → List Char → Prop where
  /-- More blanks before the next token. -/
  | blanks {lexer : Lexer} {front rest blanks : List Char} : lexer.rest = front ++ rest →
    (∀ c ∈ front, Text.isBlank c = true) → (∀ c ∈ blanks, Text.isBlank c = true) →
      Respells lexer (front ++ (blanks ++ rest))
  /-- The same word in letters of another case. -/
  | word {lexer : Lexer} {lexeme : List Char} :
    lexer.next.1.token.word? = some (Text.asciiUpper (String.ofList lexeme)) →
      Respells lexer (lexer.gap ++ (lexeme ++ lexer.next.2.rest))
  /-- Another separator of two conditions. -/
  | separator {lexer : Lexer} {before sign after front rest : List Char} : lexer.zone = .filter →
    lexer.next.1.token = .comma ∨ lexer.next.1.token = .andWord → lexer.next.2.rest = front ++ rest →
      (∀ c ∈ front, Text.isBlank c = true) → (∀ c ∈ before ++ after, Text.isBlank c = true) →
        Separates before sign after → Respells lexer (before ++ (sign ++ (after ++ rest)))
  /-- A semicolon at the end. -/
  | addSemicolon {lexer : Lexer} {before after : List Char} : lexer.next.1.token = .finish →
    lexer.last ≠ some .semicolon → lexer.rest = before ++ after → Respells lexer (before ++ ';' :: after)
  | dropSemicolon {lexer : Lexer} : lexer.next.1.token = .semicolon → Respells lexer (lexer.gap ++ lexer.next.2.rest)
  /-- Another spelling after the next token. -/
  | later {lexer : Lexer} {following : List Char} : lexer.next.1.token ≠ .finish → Respells lexer.next.2 following →
    Respells lexer (lexer.gap ++ (lexer.lexeme ++ following))

/-- A text spelled otherwise in one place. -/
def Respelled (text other : String) : Prop :=
  (Lexer.ofText text.toList).Respells other.toList

/-! ## What ends a token -/

/-- A character that goes on with no token. -/
def Apart (c : Char) : Prop :=
  isPathChar c = false ∧ c ≠ '>'

theorem apart_of_isBlank {c : Char} (h : Text.isBlank c = true) : Apart c := by
  constructor
  · cases hpath : isPathChar c with
    | false => rfl
    | true => exact h.symm.trans (not_isBlank_of_isPathChar hpath)
  · rintro rfl
    exact absurd h (by decide)

theorem apart_of_endsEmptyPath {c : Char} (h : endsEmptyPath c = true) : Apart c := by
  refine ⟨not_isPathChar_of_endsEmptyPath h, ?_⟩
  rintro rfl
  exact absurd h (by decide)

theorem Apart.not_isWordChar {c : Char} (h : Apart c) : isWordChar c = false := by
  cases hword : isWordChar c with
  | false => rfl
  | true => exact (isPathChar_of_isWordChar hword).symm.trans h.1

theorem Apart.not_isDigit {c : Char} (h : Apart c) : c.isDigit = false := by
  cases hdigit : c.isDigit with
  | false => rfl
  | true => exact (isWordChar_of_isDigit hdigit).symm.trans h.not_isWordChar

section Ends

variable {token : Token} {old new : List Char}

/-- A token that is neither the end nor an illegal character. -/
def Token.Legal (token : Token) : Prop :=
  token ≠ .finish ∧ ∀ c, token ≠ .illegal c

/-- A token ends before a text that begins as another does that it ends before, or with a character apart. -/
theorem Token.EndsBefore.of_head (hold : token.EndsBefore old) (hlegal : token.Legal)
    (hpath : token = .path "" → ∀ c ∈ (Text.trimLeft new).head?, endsEmptyPath c = true)
    (hhead : ∀ c ∈ new.head?, Apart c ∨ c ∈ old.head?) : token.EndsBefore new := by
  cases token with
  | path text =>
    by_cases hempty : text = ""
    · subst hempty
      exact endsBefore_emptyPath_iff.2 (hpath rfl)
    · rw [endsBefore_path_iff hempty] at hold ⊢
      exact fun c hc => (hhead c hc).elim And.left (hold c)
  | identifier name => exact fun c hc => (hhead c hc).elim Apart.not_isWordChar (hold c)
  | integer digits => exact fun c hc => (hhead c hc).elim Apart.not_isDigit (hold c)
  | dash =>
    intro hgreater
    exact (hhead '>' hgreater).elim (fun h => h.2 rfl) (fun h => hold h)
  | illegal c => exact absurd rfl (hlegal.2 c)
  | finish => exact absurd rfl hlegal.1
  | _ => exact fun hword c hc => (hhead c hc).elim Apart.not_isWordChar (hold hword c)

/-- Letters go on with the same tokens. -/
theorem Token.EndsBefore.of_letter {first other : Char} (hold : token.EndsBefore (first :: old)) (hlegal : token.Legal)
    (hfirst : first.isAlpha = true) (hother : other.isAlpha = true) : token.EndsBefore (other :: new) := by
  have hword : isWordChar first = true := isWordChar_of_isAlpha hfirst
  have hnot {P : Prop} (h : isWordChar first = false) : P := absurd (h.symm.trans hword) Bool.false_ne_true
  cases token with
  | path text =>
    have hpath := hold.path_maximal first rfl
    exact absurd (hpath.symm.trans (isPathChar_of_isWordChar hword)) Bool.false_ne_true
  | identifier name => exact hnot (hold first rfl)
  | integer digits =>
    intro c hc
    obtain rfl : other = c := Option.some.inj hc
    exact not_isDigit_of_isWordStart (by simp [isWordStart, hother])
  | dash =>
    intro hgreater
    obtain rfl : other = '>' := Option.some.inj hgreater
    exact absurd hother (by decide)
  | illegal c => exact absurd rfl (hlegal.2 c)
  | finish => exact absurd rfl hlegal.1
  | _ => exact fun hkeyword => hnot (hold hkeyword first rfl)

end Ends

/-! ## Words in letters of another case -/

section Words

variable {word other : String} {token : Token}

theorem isAlpha_of_toUpper {c : Char} (h : c.toUpper.isAlpha = true) : c.isAlpha = true := by
  unfold Char.toUpper at h
  split at h
  · rename_i hlower
    have hc : c.isLower = true := (Bool.decide_and _ _).symm.trans (decide_eq_true hlower)
    exact Bool.or_eq_true_iff.2 (Or.inr hc)
  · exact h

theorem isAlpha_of_word? {capitals : String} (h : token.word? = some capitals) :
    capitals ≠ "" ∧ ∀ c ∈ capitals.toList, c.isAlpha = true := by
  cases token with
  | boolean value => cases value <;> cases h <;> exact ⟨by decide, List.all_eq_true.1 (by decide)⟩
  | matchWord | whereWord | returnWord | createWord | setWord | deleteWord | andWord =>
    cases h
    exact ⟨by decide, List.all_eq_true.1 (by decide)⟩
  | _ => cases h

/-- A keyword is letters, in whatever case. -/
theorem exists_letters (h : token.word? = some (Text.asciiUpper word)) :
    ∃ first rest, word.toList = first :: rest ∧ ∀ c ∈ first :: rest, c.isAlpha = true := by
  obtain ⟨hne, hcapitals⟩ := isAlpha_of_word? h
  have hletters : ∀ c ∈ word.toList, c.isAlpha = true := fun c hc =>
    isAlpha_of_toUpper (hcapitals c.toUpper (by simpa [Text.asciiUpper] using ⟨c, hc, rfl⟩))
  cases hword : word.toList with
  | nil =>
    rw [Text.asciiUpper, hword] at hne
    exact absurd rfl hne
  | cons first rest => exact ⟨first, rest, rfl, hword ▸ hletters⟩

theorem isWord_of_word? (h : token.word? = some (Text.asciiUpper word)) : IsWord word := by
  obtain ⟨first, rest, hword, hletters⟩ := exists_letters h
  obtain ⟨hfirst, hrest⟩ := List.forall_mem_cons.1 hletters
  exact ⟨first, rest, hword, by simp [isWordStart, hfirst], fun c hc => isWordChar_of_isAlpha (hrest c hc)⟩

/-- Where one spelling of a keyword is read as the keyword the other is too. -/
theorem wordToken_of_word? {zone : Zone} {last : Option Token} (hread : wordToken zone last word = token)
    (hother : token.word? = some (Text.asciiUpper other)) : wordToken zone last other = token := by
  have hkeyword : keyword? other = some token := keyword?_eq_some_iff.2 hother
  unfold wordToken at hread ⊢
  dsimp only at hread ⊢
  split
  · rename_i hname
    rw [if_pos hname] at hread
    subst hread
    cases hother
  · rw [hkeyword, Option.getD_some]

end Words

/-! ## Tokens from a place on -/

namespace Lexer

/-- The tokens of a text that a reader reads in its state. -/
def tokensOn (lexer : Lexer) (text : List Char) : List Token :=
  tokensFrom lexer.capture lexer.zone lexer.last text

variable {lexer : Lexer}

theorem tokensOn_rest (lexer : Lexer) : lexer.tokensOn lexer.rest = lexer.tokens.map (·.token) :=
  lexer.map_tokens.symm

theorem tokensOn_of_finish (h : lexer.next.1.token = .finish) : lexer.tokensOn lexer.rest = [.finish] := by
  rw [tokensOn_rest, tokens_of_finish h, List.map_singleton, h]

theorem tokensOn_of_ne_finish (h : lexer.next.1.token ≠ .finish) :
    lexer.tokensOn lexer.rest = lexer.next.1.token :: lexer.next.2.tokensOn lexer.next.2.rest := by
  rw [tokensOn_rest, tokens_of_ne_finish h, List.map_cons, ← tokensOn_rest]

/-- A token is read before anything that does not go on with it. -/
theorem tokensOn_lexeme (h : lexer.next.1.token ≠ .finish) {following : List Char}
    (hends : lexer.next.1.token.EndsBefore following) :
    lexer.tokensOn (lexer.gap ++ (lexer.lexeme ++ following)) =
      lexer.next.1.token :: lexer.next.2.tokensOn following := by
  rw [tokensOn, tokensFrom_blanks lexer.isBlank_of_mem_gap]
  exact lexer.takes.tokensFrom_eq h following hends

/-- Where a path may come the token before does not matter. -/
theorem tokensFrom_last {capture : Capture} (hcapture : capture ≠ .none) (zone : Zone) (last other : Option Token)
    (text : List Char) : tokensFrom capture zone last text = tokensFrom capture zone other text := by
  have hnext : (Lexer.mk text Place.start capture zone last).next =
      (Lexer.mk text Place.start capture zone other).next := by
    unfold next
    simp only [capture_skipBlanks, hcapture, if_false]
    rfl
  rw [tokensFrom, tokensFrom, tokens_congr hnext]

/-! ### The state after a token -/

theorem capturePath_cases (text : List Char) :
    (∃ path, (capturePath text).1 = .path path) ∨ ∃ c, (capturePath text).1 = .illegal c := by
  unfold capturePath
  dsimp only
  split
  · split
    · exact Or.inl ⟨_, rfl⟩
    · exact Or.inr ⟨_, rfl⟩
  · exact Or.inl ⟨_, rfl⟩

/-- Where no path may come, a token that is not the end takes the reader on as it says. -/
theorem next_of_none (hcapture : lexer.capture = .none) (h : lexer.next.1.token ≠ .finish) :
    lexer.next.2.capture = (transition .none lexer.zone lexer.next.1.token).1 ∧
      lexer.next.2.zone = (transition .none lexer.zone lexer.next.1.token).2 ∧
        lexer.next.2.last = some lexer.next.1.token := by
  unfold next at h ⊢
  simp only [capture_skipBlanks, hcapture, if_true] at h ⊢
  cases hrest : lexer.skipBlanks.rest with
  | nil =>
    rw [hrest] at h
    exact absurd rfl h
  | cons first following => exact ⟨rfl, rfl, rfl⟩

/-- Where a path may come, a path or an illegal character is read. -/
theorem next_of_ne_none (hcapture : lexer.capture ≠ .none) :
    ((∃ path, lexer.next.1.token = .path path) ∨ ∃ c, lexer.next.1.token = .illegal c) ∧
      lexer.next.2.capture = .none ∧ lexer.next.2.zone = lexer.zone ∧
        lexer.next.2.last = some lexer.next.1.token := by
  unfold next
  dsimp only
  rw [capture_skipBlanks, if_neg hcapture]
  exact ⟨capturePath_cases _, rfl, rfl, rfl⟩

/-- A path comes only where one may. -/
theorem capture_eq_none (hpath : ∀ path, lexer.next.1.token ≠ .path path)
    (hillegal : ∀ c, lexer.next.1.token ≠ .illegal c) : lexer.capture = .none := by
  by_contra hcapture
  rcases (next_of_ne_none hcapture).1 with ⟨path, h⟩ | ⟨c, h⟩
  · exact hpath path h
  · exact hillegal c h

/-! ## Edits -/

section Edits

variable {token : Token} {front rest blanks before after sign following : List Char}

theorem trimLeft_append (h : ∀ c ∈ blanks, Text.isBlank c = true) (text : List Char) :
    Text.trimLeft (blanks ++ text) = Text.trimLeft text :=
  List.dropWhile_append_of_pos h

theorem apart_or_head (h : ∀ c ∈ blanks, Text.isBlank c = true) (text : List Char) :
    ∀ c ∈ (blanks ++ text).head?, Apart c ∨ c ∈ text.head? := by
  intro c hc
  cases blanks with
  | nil => exact Or.inr hc
  | cons first more =>
    obtain rfl : first = c := Option.some.inj hc
    exact Or.inl (apart_of_isBlank (h first List.mem_cons_self))

/-! ### Blanks -/

theorem endsBefore_blanks (hfront : ∀ c ∈ front, Text.isBlank c = true) (hblanks : ∀ c ∈ blanks, Text.isBlank c = true)
    (hlegal : token.Legal) (hends : token.EndsBefore (front ++ rest)) :
    token.EndsBefore (front ++ (blanks ++ rest)) := by
  refine hends.of_head hlegal (fun hpath c hc => ?_) fun c hc => ?_
  · rw [trimLeft_append hfront, trimLeft_append hblanks] at hc
    rw [hpath, Token.endsBefore_emptyPath_iff, trimLeft_append hfront] at hends
    exact hends c hc
  · cases front with
    | nil => exact apart_or_head hblanks rest c hc
    | cons first more => exact Or.inr hc

theorem tokensOn_blanks (hrest : lexer.rest = front ++ rest) (hfront : ∀ c ∈ front, Text.isBlank c = true)
    (hblanks : ∀ c ∈ blanks, Text.isBlank c = true) :
    lexer.tokensOn (front ++ (blanks ++ rest)) = lexer.tokensOn lexer.rest := by
  rw [hrest, tokensOn, tokensOn, tokensFrom_blanks hfront, tokensFrom_blanks hblanks, tokensFrom_blanks hfront]

/-! ### Keywords -/

theorem word?_of_reads {lexeme : List Char} (hreads : token.Reads lexeme) (h : token.word? ≠ none) :
    token.word? = some (Text.asciiUpper (String.ofList lexeme)) := by
  cases hreads with
  | word hword => exact hword
  | sign hsign =>
    unfold sign? at hsign
    split at hsign <;> cases hsign <;> exact absurd rfl h
  | _ => exact absurd rfl h

theorem capture_of_word? (h : lexer.next.1.token.word? ≠ none) : lexer.capture = .none :=
  capture_eq_none (fun path hpath => h (by rw [hpath]; rfl)) fun c hillegal => h (by rw [hillegal]; rfl)

/-- A word that is read is the token that the reader makes of it. -/
theorem wordToken_lexeme (h : lexer.next.1.token.word? ≠ none) :
    wordToken lexer.zone lexer.last (String.ofList lexer.lexeme) = lexer.next.1.token := by
  have hfinish : lexer.next.1.token ≠ .finish := fun he => h (by rw [he]; rfl)
  have hword : IsWord (String.ofList lexer.lexeme) := isWord_of_word? (word?_of_reads lexer.takes.reads h)
  have hread : tokensFrom .none lexer.zone lexer.last ((String.ofList lexer.lexeme).toList ++ []) = _ :=
    tokensFrom_word hword nofun
  have htaken := lexer.takes.tokensFrom_eq hfinish [] (Token.endsBefore_nil _)
  rw [capture_of_word? h] at htaken
  rw [String.toList_ofList] at hread
  exact (List.cons.inj (hread.symm.trans htaken)).1

theorem tokensOn_word (h : lexer.next.1.token.word? = some (Text.asciiUpper (String.ofList sign))) :
    lexer.tokensOn (lexer.gap ++ (sign ++ lexer.next.2.rest)) = lexer.tokensOn lexer.rest := by
  have hword : lexer.next.1.token.word? ≠ none := h ▸ Option.some_ne_none _
  have hfinish : lexer.next.1.token ≠ .finish := fun he => hword (by rw [he]; rfl)
  have hillegal : ∀ c, lexer.next.1.token ≠ .illegal c := fun c he => hword (by rw [he]; rfl)
  obtain ⟨hcapture, hzone, hlast⟩ := next_of_none (capture_of_word? hword) hfinish
  have hsign : tokensFrom .none lexer.zone lexer.last ((String.ofList sign).toList ++ lexer.next.2.rest) = _ :=
    tokensFrom_word (isWord_of_word? h) ((lexer.takes.ends hillegal).notWordChar hword)
  rw [wordToken_of_word? (wordToken_lexeme hword) h, String.toList_ofList, ← hcapture, ← hzone, ← hlast] at hsign
  rw [tokensOn, tokensFrom_blanks lexer.isBlank_of_mem_gap, capture_of_word? hword, hsign,
    tokensOn_of_ne_finish hfinish]
  rfl

theorem endsBefore_word (h : lexer.next.1.token.word? = some (Text.asciiUpper (String.ofList sign)))
    (hlegal : token.Legal) (hends : token.EndsBefore lexer.rest) :
    token.EndsBefore (lexer.gap ++ (sign ++ lexer.next.2.rest)) := by
  have hlexeme := word?_of_reads lexer.takes.reads (h ▸ Option.some_ne_none _)
  obtain ⟨first, more, hfirst, hletters⟩ := exists_letters hlexeme
  obtain ⟨other, others, hother, hothers⟩ := exists_letters h
  rw [String.toList_ofList] at hfirst hother
  have hletter := hletters first List.mem_cons_self
  rw [rest_eq, hfirst] at hends
  rw [hother]
  cases hgap : lexer.gap with
  | nil =>
    rw [hgap] at hends
    exact hends.of_letter hlegal hletter (hothers other List.mem_cons_self)
  | cons c blanks =>
    refine hends.of_head hlegal (fun hpath => ?_) fun d hd => Or.inr (by rw [hgap]; exact hd)
    have hpathChar : isPathChar first = true := isPathChar_of_isWordChar (isWordChar_of_isAlpha hletter)
    rw [hpath, Token.endsBefore_emptyPath_iff, trimLeft_append lexer.isBlank_of_mem_gap, List.cons_append,
      Text.trimLeft, List.dropWhile_cons_of_neg (by simp [not_isBlank_of_isPathChar hpathChar])] at hends
    have hnot := not_isPathChar_of_endsEmptyPath (hends first rfl)
    exact absurd (hnot.symm.trans hpathChar) Bool.false_ne_true

/-! ### Separators -/

theorem keyword?_and : keyword? "AND" = some .andWord := by
  decide

theorem tokensOn_separator (hzone : lexer.zone = .filter)
    (htoken : lexer.next.1.token = .comma ∨ lexer.next.1.token = .andWord) (hrest : lexer.next.2.rest = front ++ rest)
    (hfront : ∀ c ∈ front, Text.isBlank c = true) (hblank : ∀ c ∈ before ++ after, Text.isBlank c = true)
    (hsign : Separates before sign after) :
    ∃ other tokens, (other = .comma ∨ other = .andWord) ∧
      lexer.tokensOn (before ++ (sign ++ (after ++ rest))) = other :: tokens ∧
        lexer.tokensOn lexer.rest = lexer.next.1.token :: tokens := by
  obtain ⟨hbefore, hafter⟩ := List.forall_mem_append.1 hblank
  have hfinish : lexer.next.1.token ≠ .finish := by rcases htoken with h | h <;> rw [h] <;> nofun
  have hcapture : lexer.capture = .none := by
    rcases htoken with h | h <;> exact capture_eq_none (h ▸ fun _ => nofun) (h ▸ fun _ => nofun)
  have hstate : transition .none .filter lexer.next.1.token = (.afterSeparator, .filter) := by
    rcases htoken with h | h <;> rw [h] <;> rfl
  have hlast (last : Option Token) : tokensFrom .afterSeparator .filter last rest =
      tokensFrom .afterSeparator .filter none rest := tokensFrom_last (by decide) _ _ _ _
  obtain ⟨hnext, hfilter, -⟩ := next_of_none hcapture hfinish
  rw [hzone, hstate] at hnext hfilter
  have hold : lexer.tokensOn lexer.rest = lexer.next.1.token :: tokensFrom .afterSeparator .filter none rest := by
    rw [tokensOn_of_ne_finish hfinish, tokensOn, hnext, hfilter, hrest, tokensFrom_blanks hfront, hlast]
  rw [tokensOn, hcapture, hzone, tokensFrom_blanks hbefore]
  cases hsign with
  | comma =>
    refine ⟨.comma, _, Or.inl rfl, ?_, hold⟩
    rw [List.singleton_append, tokensFrom_sign rfl]
    exact congrArg _ ((tokensFrom_blanks hafter rest).trans (hlast _))
  | word _ hne =>
    refine ⟨.andWord, _, Or.inr rfl, ?_, hold⟩
    have hend : ∀ c ∈ (after ++ rest).head?, isWordChar c = false := by
      rw [List.head?_append_of_ne_nil _ hne]
      exact fun c hc => (apart_of_isBlank (hafter c (List.mem_of_mem_head? hc))).not_isWordChar
    have hword : tokensFrom .none .filter lexer.last ("AND".toList ++ (after ++ rest)) = _ :=
      tokensFrom_keyword ⟨'A', ['N', 'D'], rfl, rfl, List.all_eq_true.1 rfl⟩ keyword?_and nofun hend
    exact hword.trans (congrArg _ ((tokensFrom_blanks hafter rest).trans (hlast _)))

theorem endsBefore_separator (hblank : ∀ c ∈ before ++ after, Text.isBlank c = true)
    (hsign : Separates before sign after) (hlegal : token.Legal) (hpath : token ≠ .path "")
    (hends : token.EndsBefore lexer.rest) : token.EndsBefore (before ++ (sign ++ (after ++ rest))) := by
  refine hends.of_head hlegal (fun h => absurd h hpath) fun c hc => Or.inl ?_
  obtain ⟨hbefore, -⟩ := List.forall_mem_append.1 hblank
  cases before with
  | cons first more =>
    obtain rfl : first = c := Option.some.inj hc
    exact apart_of_isBlank (hbefore first List.mem_cons_self)
  | nil =>
    cases hsign with
    | comma =>
      obtain rfl : ',' = c := Option.some.inj hc
      exact apart_of_endsEmptyPath (by decide)
    | word hnil => exact absurd rfl hnil

/-! ### Semicolons -/

theorem isBlank_of_finish (h : lexer.next.1.token = .finish) : ∀ c ∈ lexer.rest, Text.isBlank c = true :=
  List.dropWhile_eq_nil_iff.1 (rest_of_finish h).2

theorem tokensFrom_of_blank {zone : Zone} {last : Option Token} {text : List Char}
    (h : ∀ c ∈ text, Text.isBlank c = true) : tokensFrom .none zone last text = [.finish] := by
  have htokens : tokensFrom .none zone last (text ++ []) = _ := tokensFrom_blanks h []
  rwa [List.append_nil, tokensFrom_nil] at htokens

theorem tokensOn_addSemicolon (h : lexer.next.1.token = .finish) (hrest : lexer.rest = before ++ after) :
    lexer.tokensOn (before ++ ';' :: after) = [.semicolon, .finish] := by
  obtain ⟨hbefore, hafter⟩ := List.forall_mem_append.1 (hrest ▸ isBlank_of_finish h)
  rw [tokensOn, (rest_of_finish h).1, tokensFrom_blanks hbefore, tokensFrom_sign rfl]
  exact congrArg _ (tokensFrom_of_blank hafter)

theorem endsBefore_addSemicolon (h : lexer.next.1.token = .finish) (hrest : lexer.rest = before ++ after)
    (hlegal : token.Legal) (hends : token.EndsBefore lexer.rest) : token.EndsBefore (before ++ ';' :: after) := by
  obtain ⟨hbefore, -⟩ := List.forall_mem_append.1 (hrest ▸ isBlank_of_finish h)
  refine hends.of_head hlegal (fun _ c hc => ?_) fun c hc => Or.inl ?_
  · rw [trimLeft_append hbefore] at hc
    obtain rfl : ';' = c := Option.some.inj hc
    decide
  · rcases apart_or_head hbefore (';' :: after) c hc with hapart | hhead
    · exact hapart
    · obtain rfl : ';' = c := Option.some.inj hhead
      exact apart_of_endsEmptyPath (by decide)

theorem isBlank_dropSemicolon (hfinish : lexer.next.2.next.1.token = .finish) :
    ∀ c ∈ lexer.gap ++ lexer.next.2.rest, Text.isBlank c = true :=
  List.forall_mem_append.2 ⟨lexer.isBlank_of_mem_gap, isBlank_of_finish hfinish⟩

theorem tokensOn_dropSemicolon (h : lexer.next.1.token = .semicolon) (hfinish : lexer.next.2.next.1.token = .finish) :
    lexer.tokensOn (lexer.gap ++ lexer.next.2.rest) = [.finish] := by
  rw [tokensOn, capture_eq_none (h ▸ fun _ => nofun) (h ▸ fun _ => nofun)]
  exact tokensFrom_of_blank (isBlank_dropSemicolon hfinish)

theorem endsBefore_dropSemicolon (hfinish : lexer.next.2.next.1.token = .finish)
    (hlegal : token.Legal) (hends : token.EndsBefore lexer.rest) :
    token.EndsBefore (lexer.gap ++ lexer.next.2.rest) := by
  have hblank := isBlank_dropSemicolon hfinish
  refine hends.of_head hlegal (fun _ c hc => ?_) fun c hc => Or.inl (apart_of_isBlank (hblank c ?_))
  · rw [Text.trimLeft, List.dropWhile_eq_nil_iff.2 hblank] at hc
    cases hc
  · exact List.mem_of_mem_head? hc

/-! ### Later edits -/

theorem eq_emptyPath_of_reads_nil (h : token.Reads []) (hfinish : token ≠ .finish) : token = .path "" := by
  generalize hchars : ([] : List Char) = chars at h
  cases h with
  | path htext => rw [String.toList_eq_nil_iff.1 hchars.symm]
  | finish => exact absurd rfl hfinish
  | word hword =>
    obtain ⟨first, rest, hfirst, -⟩ := exists_letters hword
    rw [String.toList_ofList, ← hchars] at hfirst
    cases hfirst
  | identifier hname =>
    obtain ⟨first, rest, hfirst, -, -⟩ := hname
    cases hchars.trans hfirst
  | integer hne => exact absurd (String.toList_eq_nil_iff.1 hchars.symm) hne
  | _ => cases hchars

theorem endsBefore_lexeme (h : lexer.next.1.token.Legal) (hfollowing : lexer.next.1.token.EndsBefore following)
    (hlegal : token.Legal) (hends : token.EndsBefore lexer.rest) :
    token.EndsBefore (lexer.gap ++ (lexer.lexeme ++ following)) := by
  have hgap := lexer.isBlank_of_mem_gap
  cases hlexeme : lexer.lexeme with
  | nil =>
    have hpath : lexer.next.1.token = .path "" := eq_emptyPath_of_reads_nil (hlexeme ▸ lexer.takes.reads) h.1
    rw [hpath, Token.endsBefore_emptyPath_iff] at hfollowing
    refine hends.of_head hlegal (fun _ => ?_) fun c hc => ?_
    · rwa [trimLeft_append hgap]
    · refine Or.inl ((apart_or_head hgap following c hc).elim id fun hhead => ?_)
      obtain ⟨more, rfl⟩ := List.head?_eq_some_iff.1 hhead
      cases hblank : Text.isBlank c with
      | true => exact apart_of_isBlank hblank
      | false =>
        rw [Text.trimLeft, List.dropWhile_cons_of_neg (by simp [hblank])] at hfollowing
        exact apart_of_endsEmptyPath (hfollowing c rfl)
  | cons first more =>
    have hblank : Text.isBlank first = false := by
      refine eq_false_of_mem_head?_dropWhile Text.isBlank lexer.rest first ?_
      rw [← Text.trimLeft, lexer.takes.trim_eq, hlexeme]
      rfl
    have htrim (text : List Char) : Text.trimLeft (lexer.gap ++ (first :: more ++ text)) = first :: more ++ text := by
      rw [trimLeft_append hgap, List.cons_append, Text.trimLeft, List.dropWhile_cons_of_neg (by simp [hblank])]
    rw [rest_eq, hlexeme] at hends
    refine hends.of_head hlegal (fun hpath => ?_) fun c hc => Or.inr ?_
    · rw [hpath, Token.endsBefore_emptyPath_iff, htrim] at hends
      rw [htrim]
      exact hends
    · cases hnil : lexer.gap with
      | nil =>
        rw [hnil] at hc
        exact hc
      | cons blank blanks =>
        rw [hnil] at hc
        exact hc

end Edits

end Lexer

end ClusterQuery.Query
