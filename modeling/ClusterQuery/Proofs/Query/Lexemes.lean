import ClusterQuery.Proofs.Query.Lexing

/-!
# What a token is read from

A call of the reader takes up blanks and then the characters of its token, its lexeme (`Lexer.takes`). The lexeme says
what the token is (`Token.Reads`): a name, a number or a path as it stands, a string by what is between its quotes, a
keyword in any case of its letters. And the same characters are read as the same token wherever nothing follows that
goes on with them (`Token.EndsBefore`).
-/

namespace ClusterQuery.Query

/-! ## Words in capitals -/

/-- The word of a keyword or a truth value, in capitals. -/
def Token.word? : Token → Option String
  | .matchWord => some "MATCH"
  | .whereWord => some "WHERE"
  | .returnWord => some "RETURN"
  | .createWord => some "CREATE"
  | .setWord => some "SET"
  | .deleteWord => some "DELETE"
  | .andWord => some "AND"
  | .boolean true => some "TRUE"
  | .boolean false => some "FALSE"
  | _ => none

theorem keyword?_eq_some_iff {word : String} {token : Token} :
    keyword? word = some token ↔ token.word? = some (Text.asciiUpper word) := by
  constructor
  · intro h
    unfold keyword? at h
    split at h <;> rename_i hword <;> cases h <;> rw [hword] <;> rfl
  · intro h
    have hupper : ∀ capitals, token.word? = some capitals → Text.asciiUpper word = capitals := fun capitals hc =>
      (Option.some.inj (hc.symm.trans h)).symm
    unfold keyword?
    cases token with
    | matchWord | whereWord | returnWord | createWord | setWord | deleteWord | andWord =>
      rw [hupper _ rfl]
      rfl
    | boolean value => cases value <;> rw [hupper _ rfl] <;> rfl
    | _ => cases h

/-! ## Lexemes -/

/-- The characters that a token is read from. -/
inductive Token.Reads : Token → List Char → Prop where
  /-- A keyword or a truth value, in any case of its letters. -/
  | word {token : Token} {lexeme : List Char} :
    token.word? = some (Text.asciiUpper (String.ofList lexeme)) → Reads token lexeme
  | identifier {name : String} : IsWord name → Reads (.identifier name) name.toList
  | integer {digits : String} : digits ≠ "" → (∀ c ∈ digits.toList, c.isDigit = true) →
    Reads (.integer digits) digits.toList
  | path {text : String} : IsPathText text → Reads (.path text) text.toList
  /-- A string, between two equal quotes the second of which is the first that ends it. -/
  | string {quote : Char} {body : List Char} : quote = '"' ∨ quote = '\'' →
    quotedBody? quote (body ++ [quote]) = some body →
    Reads (.string (String.ofList (unescape body))) (quote :: (body ++ [quote]))
  | sign {c : Char} {token : Token} : sign? c = some token → Reads token [c]
  | dash : Reads .dash ['-']
  | arrow : Reads .arrow ['-', '>']
  | notEqual : Reads .notEqual ['!', '=']
  | illegal (c : Char) : Reads (.illegal c) [c]
  | finish : Reads .finish []

/-- The characters after a token do not go on with it. An empty path is before what may follow one, past blanks. -/
def Token.EndsBefore (following : List Char) : Token → Prop
  | .path text =>
    if text = "" then ∀ c ∈ (Text.trimLeft following).head?, endsEmptyPath c = true
    else ∀ c ∈ following.head?, isPathChar c = false
  | .identifier _ => ∀ c ∈ following.head?, isWordChar c = false
  | .integer _ => ∀ c ∈ following.head?, c.isDigit = false
  | .dash => following.head? ≠ some '>'
  | .illegal c =>
    (c = '!' → following.head? ≠ some '=') ∧ (c = '"' ∨ c = '\'' → quotedBody? c following = none)
  | .finish => following = []
  | token => token.word? ≠ none → ∀ c ∈ following.head?, isWordChar c = false

theorem Token.endsBefore_path (text : String) (following : List Char) :
    (Token.path text).EndsBefore following =
      if text = "" then ∀ c ∈ (Text.trimLeft following).head?, endsEmptyPath c = true
      else ∀ c ∈ following.head?, isPathChar c = false := rfl

theorem Token.endsBefore_emptyPath_iff {following : List Char} :
    (Token.path "").EndsBefore following ↔ ∀ c ∈ (Text.trimLeft following).head?, endsEmptyPath c = true := by
  rw [endsBefore_path, if_pos rfl]

theorem Token.endsBefore_path_iff {text : String} {following : List Char} (hne : text ≠ "") :
    (Token.path text).EndsBefore following ↔ ∀ c ∈ following.head?, isPathChar c = false := by
  rw [endsBefore_path, if_neg hne]

/-- Nothing goes on with no token. -/
theorem Token.endsBefore_nil (token : Token) : token.EndsBefore [] := by
  cases token with
  | path text =>
    by_cases hempty : text = ""
    · subst hempty
      exact endsBefore_emptyPath_iff.2 nofun
    · exact (endsBefore_path_iff hempty).2 nofun
  | illegal c => exact ⟨fun _ => nofun, fun _ => rfl⟩
  | finish => rfl
  | dash | integer | identifier => nofun
  | _ => exact fun _ => nofun

/-- The characters of a word end where no word character follows. -/
theorem Token.EndsBefore.of_word {token : Token} {following : List Char} (hword : token.word? ≠ none)
    (h : ∀ c ∈ following.head?, isWordChar c = false) : token.EndsBefore following := by
  cases token with
  | path | illegal | finish | dash | integer | identifier => exact absurd rfl hword
  | _ => exact fun _ => h

theorem Token.EndsBefore.notWordChar {token : Token} {following : List Char} (h : token.EndsBefore following)
    (hword : token.word? ≠ none) : ∀ c ∈ following.head?, isWordChar c = false := by
  cases token with
  | path | illegal | finish | dash | integer | identifier => exact absurd rfl hword
  | _ => exact h hword

theorem not_isPathChar_of_endsEmptyPath {c : Char} (h : endsEmptyPath c = true) : isPathChar c = false := by
  simp only [endsEmptyPath, Bool.or_eq_true, decide_eq_true_eq] at h
  rcases h with (((((((rfl | rfl) | rfl) | rfl) | rfl) | rfl) | rfl) | rfl) | rfl <;> decide

/-- No path character comes right after a path. -/
theorem Token.EndsBefore.path_maximal {text : String} {following : List Char}
    (h : (Token.path text).EndsBefore following) : ∀ c ∈ following.head?, isPathChar c = false := by
  by_cases hempty : text = ""
  · subst hempty
    intro c hc
    obtain ⟨rest, rfl⟩ := List.head?_eq_some_iff.1 hc
    cases hpath : isPathChar c with
    | false => rfl
    | true =>
      have hhead : (Text.trimLeft (c :: rest)).head? = some c := by
        simp [Text.trimLeft, not_isBlank_of_isPathChar hpath]
      exact hpath.symm.trans (not_isPathChar_of_endsEmptyPath (endsBefore_emptyPath_iff.1 h c hhead))
  · exact (endsBefore_path_iff hempty).1 h

/-! ## Tokens where no path may come -/

theorem eq_false_of_mem_head?_dropWhile (p : Char → Bool) (text : List Char) :
    ∀ c ∈ (text.dropWhile p).head?, p c = false := by
  intro c hc
  have h := List.head?_dropWhile_not p text
  rw [Option.mem_def.1 hc] at h
  simpa using h

/-- The characters after the first that are scanned as a token, whatever follows that does not go on with it. -/
structure Scans (zone : Zone) (last : Option Token) (first : Char) (chars : List Char) (token : Token) : Prop where
  reads : token.Reads (first :: chars)
  scan_eq : ∀ following, token.EndsBefore following →
    scanToken zone last first (chars ++ following) = (token, chars.length)

/-- What follows a character begins with the rest of a token, and goes on with something else. -/
def Begins (zone : Zone) (last : Option Token) (first : Char) (text : List Char) : Prop :=
  ∃ token chars following, text = chars ++ following ∧ Scans zone last first chars token ∧ token.EndsBefore following

variable {zone : Zone} {last : Option Token} {first quote : Char} {body text : List Char}

/-- A character that begins no token. -/
theorem begins_illegal (hends : (Token.illegal first).EndsBefore text)
    (h : ∀ following, (Token.illegal first).EndsBefore following →
      scanToken zone last first following = (.illegal first, 0)) : Begins zone last first text :=
  ⟨.illegal first, [], text, rfl, ⟨.illegal first, h⟩, hends⟩

/-! ### Signs -/

theorem endsBefore_of_sign? {c : Char} {token : Token} (h : sign? c = some token) (following : List Char) :
    token.EndsBefore following := by
  unfold sign? at h
  split at h <;> cases h <;> exact fun hword => absurd rfl hword

theorem begins_sign {token : Token} (h : sign? first = some token) : Begins zone last first text := by
  refine ⟨token, [], text, rfl, ⟨.sign h, fun following _ => ?_⟩, endsBefore_of_sign? h text⟩
  unfold scanToken
  rw [h]
  rfl

theorem begins_dash : Begins zone last '-' text := by
  by_cases harrow : text.head? = some '>'
  · obtain ⟨rest, rfl⟩ := List.head?_eq_some_iff.1 harrow
    exact ⟨.arrow, ['>'], rest, rfl, ⟨.arrow, fun following _ => rfl⟩, fun hword => absurd rfl hword⟩
  · refine ⟨.dash, [], text, rfl, ⟨.dash, fun following hends => ?_⟩, harrow⟩
    unfold scanToken
    simp [sign?, show following.head? ≠ some '>' from hends]

theorem begins_bang : Begins zone last '!' text := by
  by_cases hequal : text.head? = some '='
  · obtain ⟨rest, rfl⟩ := List.head?_eq_some_iff.1 hequal
    exact ⟨.notEqual, ['='], rest, rfl, ⟨.notEqual, fun following _ => rfl⟩, fun hword => absurd rfl hword⟩
  · refine begins_illegal ⟨fun _ => hequal, fun hquote => absurd hquote (by simp)⟩ fun following hends => ?_
    unfold scanToken
    simp [sign?, hends.1 rfl]

/-! ### Strings -/

/-- A character that is no backslash ends a quoted text or belongs to it. -/
theorem quotedBody?_cons {c : Char} (hc : c ≠ '\\') (rest : List Char) :
    quotedBody? quote (c :: rest) = if c = quote then some [] else (quotedBody? quote rest).map (c :: ·) := by
  rw [quotedBody?]
  exact fun _ _ hbackslash => absurd hbackslash hc

/-- What is up to a closing quote is so whatever comes after it. -/
theorem quotedBody?_append (hquote : quote ≠ '\\') (h : quotedBody? quote text = some body) :
    (∃ following, text = body ++ quote :: following) ∧
      ∀ following, quotedBody? quote (body ++ quote :: following) = some body := by
  fun_induction quotedBody? quote text generalizing body with
  | case1 => cases h
  | case2 c rest ih =>
    obtain ⟨inner, hinner, rfl⟩ := Option.map_eq_some_iff.1 h
    obtain ⟨⟨following, hsplit⟩, hagain⟩ := ih hinner
    refine ⟨⟨following, by rw [hsplit]; rfl⟩, fun following => ?_⟩
    simp only [List.cons_append, quotedBody?, hagain, Option.map_some]
  | case3 rest =>
    obtain rfl := Option.some.inj h
    refine ⟨⟨rest, rfl⟩, fun following => ?_⟩
    rw [List.nil_append, quotedBody?_cons hquote, if_pos rfl]
  | case4 c rest hescape hne ih =>
    obtain ⟨inner, hinner, rfl⟩ := Option.map_eq_some_iff.1 h
    -- a backslash takes the next character along, and a last one finds no closing quote
    have hc : c ≠ '\\' := by
      rintro rfl
      cases rest with
      | nil => cases hinner
      | cons d more => exact hescape d more rfl rfl
    obtain ⟨⟨following, hsplit⟩, hagain⟩ := ih hinner
    refine ⟨⟨following, by rw [hsplit]; rfl⟩, fun following => ?_⟩
    rw [List.cons_append, quotedBody?_cons hc, if_neg hne, hagain, Option.map_some]

theorem scans_quoted (hquote : quote = '"' ∨ quote = '\'') (h : quotedBody? quote text = some body) :
    Scans zone last quote (body ++ [quote]) (.string (String.ofList (unescape body))) := by
  have hagain := (quotedBody?_append (by rcases hquote with rfl | rfl <;> decide) h).2
  refine ⟨.string hquote (hagain []), fun following _ => ?_⟩
  rw [List.append_assoc, List.singleton_append, List.length_append, List.length_singleton, scanToken_quote hquote,
    hagain following]

theorem begins_quote (hquote : first = '"' ∨ first = '\'') : Begins zone last first text := by
  cases hbody : quotedBody? first text with
  | some body =>
    have hne : first ≠ '\\' := by rcases hquote with rfl | rfl <;> decide
    obtain ⟨following, rfl⟩ := (quotedBody?_append hne hbody).1
    exact ⟨_, body ++ [first], following, by simp, scans_quoted hquote hbody, fun hword => absurd rfl hword⟩
  | none =>
    refine begins_illegal ⟨fun hbang => ?_, fun _ => hbody⟩ fun following hends => ?_
    · subst hbang
      exact absurd hquote (by decide)
    · rw [scanToken_quote hquote, hends.2 hquote]

/-! ### Numbers and words -/

theorem begins_digit (h : first.isDigit = true) : Begins zone last first text := by
  have hdigits : ∀ c ∈ text.takeWhile Char.isDigit, c.isDigit = true := fun c hc => List.mem_takeWhile_imp hc
  refine ⟨.integer (String.ofList (first :: text.takeWhile Char.isDigit)), text.takeWhile Char.isDigit,
    text.dropWhile Char.isDigit, List.takeWhile_append_dropWhile.symm, ⟨?_, fun following hends => ?_⟩,
    eq_false_of_mem_head?_dropWhile Char.isDigit text⟩
  · have hall : ∀ c ∈ (String.ofList (first :: text.takeWhile Char.isDigit)).toList, c.isDigit = true := by
      rw [String.toList_ofList]
      exact List.forall_mem_cons.2 ⟨h, hdigits⟩
    have hreads := Token.Reads.integer (by simp) hall
    rwa [String.toList_ofList] at hreads
  · have hword : isWordChar first = true := isWordChar_of_isDigit h
    rw [scanToken_of_isWordChar hword, if_pos h, takeWhile_append_eq_left hdigits hends]

theorem wordToken_cases (zone : Zone) (last : Option Token) (word : String) :
    wordToken zone last word = .identifier word ∨
      (wordToken zone last word).word? = some (Text.asciiUpper word) := by
  unfold wordToken
  dsimp only
  split
  · exact Or.inl rfl
  · cases h : keyword? word with
    | none => exact Or.inl rfl
    | some token => exact Or.inr (keyword?_eq_some_iff.1 h)

/-- A word ends where no word character follows, be it a name or a keyword. -/
theorem wordToken_endsBefore_iff {word : String} {following : List Char} :
    (wordToken zone last word).EndsBefore following ↔ ∀ c ∈ following.head?, isWordChar c = false := by
  rcases wordToken_cases zone last word with h | h
  · rw [h]
    exact Iff.rfl
  · have hword : (wordToken zone last word).word? ≠ none := h ▸ Option.some_ne_none _
    exact ⟨fun hends => hends.notWordChar hword, Token.EndsBefore.of_word hword⟩

theorem begins_word (h : isWordStart first = true) : Begins zone last first text := by
  have hchars : ∀ c ∈ text.takeWhile isWordChar, isWordChar c = true := fun c hc => List.mem_takeWhile_imp hc
  refine ⟨wordToken zone last (String.ofList (first :: text.takeWhile isWordChar)), text.takeWhile isWordChar,
    text.dropWhile isWordChar, List.takeWhile_append_dropWhile.symm, ⟨?_, fun following hends => ?_⟩,
    wordToken_endsBefore_iff.2 (eq_false_of_mem_head?_dropWhile isWordChar text)⟩
  · rcases wordToken_cases zone last (String.ofList (first :: text.takeWhile isWordChar)) with he | he
    · rw [he]
      have hword : IsWord (String.ofList (first :: text.takeWhile isWordChar)) :=
        ⟨first, _, String.toList_ofList, h, hchars⟩
      have hreads := Token.Reads.identifier hword
      rwa [String.toList_ofList] at hreads
    · exact .word he
  · have hword : isWordChar first = true := by
      simp only [isWordStart, isWordChar, Char.isAlphanum, Bool.or_eq_true, decide_eq_true_eq] at h ⊢
      exact h.imp_left Or.inl
    rw [scanToken_of_isWordChar hword, if_neg (by simp [not_isDigit_of_isWordStart h]), if_pos h,
      takeWhile_append_eq_left hchars (wordToken_endsBefore_iff.1 hends)]

/-- Where no path may come, every character begins a token. -/
theorem begins (zone : Zone) (last : Option Token) (first : Char) (text : List Char) : Begins zone last first text := by
  cases hsign : sign? first with
  | some token => exact begins_sign hsign
  | none =>
    by_cases hdash : first = '-'
    · exact hdash ▸ begins_dash
    by_cases hbang : first = '!'
    · exact hbang ▸ begins_bang
    by_cases hquote : first = '"' ∨ first = '\''
    · exact begins_quote hquote
    by_cases hdigit : first.isDigit = true
    · exact begins_digit hdigit
    by_cases hword : isWordStart first = true
    · exact begins_word hword
    refine begins_illegal ⟨fun h => absurd h hbang, fun h => absurd h hquote⟩ fun following _ => ?_
    unfold scanToken
    simp [hsign, hdash, hbang, hquote, hdigit, hword]

/-! ## Paths -/

section Captures

variable {capture : Capture}

/-- Blanks before a token do not matter. -/
theorem tokensFrom_blanks {blanks : List Char} (h : ∀ c ∈ blanks, Text.isBlank c = true) (text : List Char) :
    tokensFrom capture zone last (blanks ++ text) = tokensFrom capture zone last text := by
  induction blanks with
  | nil => rfl
  | cons c rest ih =>
    obtain ⟨hc, hrest⟩ := List.forall_mem_cons.1 h
    rw [List.cons_append, tokensFrom_blank hc, ih hrest]

/-- A text is its first blanks and what is left without them. -/
theorem takeWhile_append_trimLeft (text : List Char) : text.takeWhile Text.isBlank ++ Text.trimLeft text = text :=
  List.takeWhile_append_dropWhile

theorem tokensFrom_trimLeft (text : List Char) :
    tokensFrom capture zone last (Text.trimLeft text) = tokensFrom capture zone last text := by
  have hblank : ∀ c ∈ text.takeWhile Text.isBlank, Text.isBlank c = true := fun c hc => List.mem_takeWhile_imp hc
  rw [← tokensFrom_blanks hblank (Text.trimLeft text), takeWhile_append_trimLeft]

/-- At the end of a text an empty path comes first where a path may come. -/
theorem tokensFrom_capture_nil (hcapture : capture ≠ .none) :
    tokensFrom capture zone last [] = .path "" :: tokensFrom .none zone (some (.path "")) [] := by
  have hnext : (Lexer.mk [] Place.start capture zone last).next =
      (⟨.path "", Place.start⟩, ⟨[], Place.start, .none, zone, some (.path "")⟩) := by
    cases capture with
    | none => exact absurd rfl hcapture
    | _ => rfl
  exact tokensFrom_eq_cons hnext nofun

/-- An empty path is read before what may follow one, blanks or none before that. -/
theorem tokensFrom_noPath (hcapture : capture ≠ .none) (hends : (Token.path "").EndsBefore text) :
    tokensFrom capture zone last text = .path "" :: tokensFrom .none zone (some (.path "")) text := by
  have hafter : tokensFrom .none zone (some (.path "")) (Text.trimLeft text) =
      tokensFrom .none zone (some (.path "")) text := tokensFrom_trimLeft text
  rw [← tokensFrom_trimLeft, ← hafter]
  replace hends := Token.endsBefore_emptyPath_iff.1 hends
  cases htrim : Text.trimLeft text with
  | nil => exact tokensFrom_capture_nil hcapture
  | cons c rest =>
    have hc : endsEmptyPath c = true := hends c (by rw [htrim]; rfl)
    have hblank : Text.isBlank c = false :=
      eq_false_of_mem_head?_dropWhile Text.isBlank text c (by rw [← Text.trimLeft, htrim]; rfl)
    exact tokensFrom_emptyPath hcapture hblank (not_isPathChar_of_endsEmptyPath hc) hc

/-- A character that neither belongs to a path nor may follow an empty one. -/
theorem tokensFrom_noPathChar (hcapture : capture ≠ .none) {c : Char} (hblank : Text.isBlank c = false)
    (hc : capturePath (c :: text) = (.illegal c, 1)) :
    tokensFrom capture zone last (c :: text) = .illegal c :: tokensFrom .none zone (some (.illegal c)) text := by
  have hhere : (Lexer.mk (c :: text) Place.start capture zone last).skipBlanks =
      Lexer.mk (c :: text) Place.start capture zone last := Lexer.skipBlanks_of_not_blank rfl hblank
  have hnext : (Lexer.mk (c :: text) Place.start capture zone last).next =
      (⟨.illegal c, Place.start⟩, ⟨text, Place.start.advanceBy [c], .none, zone, some (.illegal c)⟩) := by
    rw [Lexer.next, hhere]
    dsimp only
    rw [if_neg hcapture, hc]
    rfl
  exact tokensFrom_eq_cons hnext (by simp)

/-- The characters of a path, whatever follows that does not go on with it; or a character that can be in none. -/
structure Captures (chars : List Char) (token : Token) : Prop where
  reads : token.Reads chars
  ne_finish : token ≠ .finish
  tokensFrom_eq : ∀ (capture : Capture) (zone : Zone) (last : Option Token) (following : List Char), capture ≠ .none →
    token.EndsBefore following →
      tokensFrom capture zone last (chars ++ following) = token :: tokensFrom .none zone (some token) following

theorem captures_noPath : Captures [] (.path "") where
  reads := .path (show IsPathText "" from nofun)
  ne_finish := nofun
  tokensFrom_eq _ _ _ _ hcapture hends := tokensFrom_noPath hcapture hends

theorem captures_path {path : String} (h : IsPathText path) (hne : path ≠ "") :
    Captures path.toList (.path path) where
  reads := .path h
  ne_finish := nofun
  tokensFrom_eq _ _ _ _ hcapture hends := tokensFrom_path hcapture h hne hends.path_maximal

theorem captures_illegal {c : Char} (hblank : Text.isBlank c = false)
    (h : ∀ following, capturePath (c :: following) = (.illegal c, 1)) : Captures [c] (.illegal c) where
  reads := .illegal c
  ne_finish := nofun
  tokensFrom_eq _ _ _ following hcapture _ := tokensFrom_noPathChar hcapture hblank (h following)

theorem capturePath_nil : capturePath [] = (.path "", 0) := by
  unfold capturePath
  simp

theorem capturePath_cons {c : Char} (h : isPathChar c = false) (following : List Char) :
    capturePath (c :: following) = if endsEmptyPath c then (.path "", 0) else (.illegal c, 1) := by
  unfold capturePath
  simp [h]

theorem capturePath_path (h : text.takeWhile isPathChar ≠ []) :
    capturePath text = (.path (String.ofList (text.takeWhile isPathChar)), (text.takeWhile isPathChar).length) := by
  unfold capturePath
  dsimp only
  split
  · rename_i hnil
    exact absurd hnil h
  · rfl

/-- Where a path may come, a text without a blank before it begins with one, if only an empty one, or with a character
that can be in none. -/
theorem exists_captures (text : List Char) (hblank : ∀ c ∈ text.head?, Text.isBlank c = false) :
    ∃ token chars following, text = chars ++ following ∧ capturePath text = (token, chars.length) ∧
      Captures chars token ∧ ((∀ c, token ≠ .illegal c) → token.EndsBefore following) := by
  by_cases hpath : text.takeWhile isPathChar = []
  · cases text with
    | nil => exact ⟨.path "", [], [], rfl, capturePath_nil, captures_noPath, fun _ => Token.endsBefore_nil _⟩
    | cons c rest =>
      have hc : Text.isBlank c = false := hblank c rfl
      have hpathChar : isPathChar c = false := by simpa [List.takeWhile_cons] using hpath
      have hcaptured := capturePath_cons hpathChar
      by_cases hends : endsEmptyPath c = true
      · refine ⟨.path "", [], c :: rest, rfl, (hcaptured rest).trans (if_pos hends), captures_noPath, fun _ => ?_⟩
        rw [Token.endsBefore_emptyPath_iff, Text.trimLeft, List.dropWhile_cons_of_neg (by simp [hc])]
        intro d hd
        obtain rfl : c = d := Option.some.inj hd
        exact hends
      · exact ⟨.illegal c, [c], rest, rfl, (hcaptured rest).trans (if_neg hends),
          captures_illegal hc fun following => (hcaptured following).trans (if_neg hends), fun h => absurd rfl (h c)⟩
  · have hne : String.ofList (text.takeWhile isPathChar) ≠ "" := by simpa using hpath
    have hchars : IsPathText (String.ofList (text.takeWhile isPathChar)) := by
      rw [IsPathText, String.toList_ofList]
      exact fun c hc => List.mem_takeWhile_imp hc
    have hcaptures := captures_path hchars hne
    rw [String.toList_ofList] at hcaptures
    refine ⟨_, _, text.dropWhile isPathChar, List.takeWhile_append_dropWhile.symm, capturePath_path hpath, hcaptures,
      fun _ => ?_⟩
    exact (Token.endsBefore_path_iff hne).2 (eq_false_of_mem_head?_dropWhile isPathChar text)

end Captures

/-! ## Calls of the reader -/

namespace Lexer

/-- The blanks before the next token. -/
def gap (lexer : Lexer) : List Char :=
  lexer.rest.takeWhile Text.isBlank

/-- The characters of the next token: those after the blanks that are not left after it. -/
def lexeme (lexer : Lexer) : List Char :=
  (Text.trimLeft lexer.rest).take ((Text.trimLeft lexer.rest).length - lexer.next.2.rest.length)

/-- What a call of the reader takes up after blanks: the characters of its token. -/
structure Takes (lexer : Lexer) (lexeme : List Char) : Prop where
  trim_eq : Text.trimLeft lexer.rest = lexeme ++ lexer.next.2.rest
  place_eq : lexer.next.1.place = lexer.place.advanceBy lexer.gap
  after_eq : lexer.next.2.place = (lexer.place.advanceBy lexer.gap).advanceBy lexeme
  reads : lexer.next.1.token.Reads lexeme
  ends : (∀ c, lexer.next.1.token ≠ .illegal c) → lexer.next.1.token.EndsBefore lexer.next.2.rest
  /-- The lexeme is read as the same token before anything that does not go on with it. -/
  tokensFrom_eq : lexer.next.1.token ≠ .finish → ∀ following, lexer.next.1.token.EndsBefore following →
    tokensFrom lexer.capture lexer.zone lexer.last (lexeme ++ following) =
      lexer.next.1.token :: tokensFrom lexer.next.2.capture lexer.next.2.zone lexer.next.2.last following

variable (lexer : Lexer)

theorem isBlank_of_mem_gap : ∀ c ∈ lexer.gap, Text.isBlank c = true :=
  fun _ hc => List.mem_takeWhile_imp hc

theorem gap_append_trimLeft : lexer.gap ++ Text.trimLeft lexer.rest = lexer.rest :=
  takeWhile_append_trimLeft lexer.rest

@[simp] theorem zone_skipBlanks : lexer.skipBlanks.zone = lexer.zone := rfl

@[simp] theorem last_skipBlanks : lexer.skipBlanks.last = lexer.last := rfl

/-- The reader past the blanks before it. -/
theorem skipBlanks_eq :
    lexer.skipBlanks =
      ⟨Text.trimLeft lexer.rest, lexer.place.advanceBy lexer.gap, lexer.capture, lexer.zone, lexer.last⟩ := by
  have hdrop := @List.drop_left Char lexer.gap (Text.trimLeft lexer.rest)
  have htake := @List.take_left Char lexer.gap (Text.trimLeft lexer.rest)
  rw [gap_append_trimLeft, gap] at hdrop htake
  rw [skipBlanks, skip, hdrop, htake, gap]

variable {lexer}

theorem next_of_nil (hcapture : lexer.capture = .none) (hrest : Text.trimLeft lexer.rest = []) :
    lexer.next = (⟨.finish, lexer.skipBlanks.place⟩, lexer.skipBlanks) := by
  have hhere : lexer.skipBlanks.rest = [] := by rw [skipBlanks_eq, hrest]
  rw [next]
  dsimp only
  rw [if_pos ((capture_skipBlanks lexer).trans hcapture), hhere]

theorem takes_of_nil (hcapture : lexer.capture = .none) (hrest : Text.trimLeft lexer.rest = []) :
    lexer.Takes [] := by
  have hnext := next_of_nil hcapture hrest
  rw [skipBlanks_eq, hrest] at hnext
  constructor
  · rw [hnext, hrest]
    rfl
  · rw [hnext]
  · rw [hnext]
    rfl
  · rw [hnext]
    exact .finish
  · rw [hnext]
    exact fun _ => rfl
  · rw [hnext]
    exact fun h => absurd rfl h

/-- A call that takes up a token with its characters. -/
theorem takes_of_token (after : Capture) (zone : Zone) {token : Token} {chars following : List Char}
    (hrest : Text.trimLeft lexer.rest = chars ++ following)
    (hnext : lexer.next = (⟨token, lexer.skipBlanks.place⟩,
      { lexer.skipBlanks.skip chars.length with capture := after, zone := zone, last := some token }))
    (hreads : token.Reads chars) (hends : (∀ c, token ≠ .illegal c) → token.EndsBefore following)
    (htokens : ∀ following, token.EndsBefore following →
      tokensFrom lexer.capture lexer.zone lexer.last (chars ++ following) =
        token :: tokensFrom after zone (some token) following) :
    lexer.Takes chars := by
  rw [skipBlanks_eq, hrest, skip] at hnext
  dsimp only at hnext
  rw [List.drop_left, List.take_left] at hnext
  constructor
  · rw [hnext, hrest]
  · rw [hnext]
  · rw [hnext]
  · rw [hnext]
    exact hreads
  · rw [hnext]
    exact hends
  · rw [hnext]
    exact fun _ => htokens

theorem exists_takes (lexer : Lexer) : ∃ lexeme, lexer.Takes lexeme := by
  have hblank : ∀ c ∈ (Text.trimLeft lexer.rest).head?, Text.isBlank c = false :=
    eq_false_of_mem_head?_dropWhile Text.isBlank lexer.rest
  have hhere : lexer.skipBlanks.rest = Text.trimLeft lexer.rest := by rw [skipBlanks_eq]
  by_cases hcapture : lexer.capture = .none
  · cases htrim : Text.trimLeft lexer.rest with
    | nil => exact ⟨_, takes_of_nil hcapture htrim⟩
    | cons first text =>
      obtain ⟨token, chars, following, rfl, hscans, hends⟩ := begins lexer.zone lexer.last first text
      have hfirst : Text.isBlank first = false := hblank first (by rw [htrim]; rfl)
      refine ⟨first :: chars, takes_of_token (transition .none lexer.zone token).1
        (transition .none lexer.zone token).2 htrim ?_ hscans.reads (fun _ => hends) fun more hmore => ?_⟩
      · rw [next]
        dsimp only
        rw [capture_skipBlanks, if_pos hcapture, hhere, htrim]
        dsimp only
        rw [zone_skipBlanks, last_skipBlanks, hscans.scan_eq following hends, hcapture]
        rfl
      · rw [hcapture, List.cons_append, tokensFrom_scan hfirst (hscans.scan_eq more hmore), List.drop_left]
  · obtain ⟨token, chars, following, hsplit, hcaptured, hcaptures, hends⟩ :=
      exists_captures (Text.trimLeft lexer.rest) hblank
    refine ⟨chars, takes_of_token .none lexer.zone hsplit ?_ hcaptures.reads hends
      fun more hmore => hcaptures.tokensFrom_eq _ _ _ more hcapture hmore⟩
    rw [next]
    dsimp only
    rw [capture_skipBlanks, if_neg hcapture, hhere, hcaptured]
    rfl

/-- Every call takes up the blanks and the lexeme before what is left, or blanks and the end. -/
theorem takes (lexer : Lexer) : lexer.Takes lexer.lexeme := by
  obtain ⟨chars, htakes⟩ := lexer.exists_takes
  have hchars : lexer.lexeme = chars := by
    rw [lexeme, htakes.trim_eq, List.length_append, Nat.add_sub_cancel, List.take_left]
  rwa [hchars]

theorem rest_eq (lexer : Lexer) : lexer.rest = lexer.gap ++ (lexer.lexeme ++ lexer.next.2.rest) := by
  rw [← lexer.takes.trim_eq, gap_append_trimLeft]

end Lexer

end ClusterQuery.Query
