import Mathlib.Data.List.TakeWhile
import ClusterQuery.Proofs.Query.Quoting
import ClusterQuery.Proofs.Query.Spelling

/-!
# What a text lexes to

Where a token stands does not matter to what it is, so the tokens of a text depend on the state of the reader and the
characters only (`tokensFrom`). A sign, a name, a path or a value at the start of a text is one token, whatever follows,
as long as what follows does not go on with it.
-/

namespace ClusterQuery.Query

namespace Lexer

/-- The reader at another place. -/
def atPlace (lexer : Lexer) (place : Place) : Lexer :=
  { lexer with place := place }

theorem next_atPlace (lexer : Lexer) (place : Place) :
    (lexer.atPlace place).next.1.token = lexer.next.1.token ∧
      ∃ after, (lexer.atPlace place).next.2 = lexer.next.2.atPlace after := by
  obtain ⟨rest, start, capture, zone, last⟩ := lexer
  unfold next
  simp only [skipBlanks, skip, atPlace]
  by_cases hcapture : capture = .none
  · simp only [hcapture, ↓reduceIte]
    cases rest.drop (rest.takeWhile Text.isBlank).length with
    | nil => exact ⟨rfl, _, rfl⟩
    | cons first following => exact ⟨rfl, _, rfl⟩
  · simp only [hcapture, ↓reduceIte, true_and]
    exact ⟨_, rfl⟩

theorem tokens_of_finish {lexer : Lexer} (h : lexer.next.1.token = .finish) : lexer.tokens = [lexer.next.1] := by
  rw [tokens, dif_pos h]

theorem tokens_of_ne_finish {lexer : Lexer} (h : lexer.next.1.token ≠ .finish) :
    lexer.tokens = lexer.next.1 :: lexer.next.2.tokens := by
  rw [tokens, dif_neg h]

theorem tokens_congr {lexer other : Lexer} (h : lexer.next = other.next) : lexer.tokens = other.tokens := by
  by_cases hfinish : lexer.next.1.token = .finish
  · rw [tokens_of_finish hfinish, tokens_of_finish (h ▸ hfinish), h]
  · have hother : other.next.1.token ≠ .finish := h ▸ hfinish
    rw [tokens_of_ne_finish hfinish, tokens_of_ne_finish hother, h]

/-- The tokens from a reader on are the same from any place. -/
theorem tokens_atPlace (lexer : Lexer) (place : Place) :
    (lexer.atPlace place).tokens.map (·.token) = lexer.tokens.map (·.token) := by
  induction lexer using tokens.induct generalizing place with
  | case1 lexer h =>
    obtain ⟨htoken, -⟩ := lexer.next_atPlace place
    rw [tokens_of_finish h, tokens_of_finish (htoken.trans h), List.map_singleton, List.map_singleton, htoken]
  | case2 lexer h ih =>
    obtain ⟨htoken, after, hafter⟩ := lexer.next_atPlace place
    have hne : (lexer.atPlace place).next.1.token ≠ .finish := htoken ▸ h
    rw [tokens_of_ne_finish h, tokens_of_ne_finish hne, List.map_cons, List.map_cons, htoken, hafter, ih]

end Lexer

/-- The tokens of a text that is read on from a state of the reader. -/
def tokensFrom (capture : Capture) (zone : Zone) (last : Option Token) (text : List Char) : List Token :=
  (Lexer.mk text Place.start capture zone last).tokens.map (·.token)

/-- The state of a reader gives its tokens. -/
theorem Lexer.map_tokens (lexer : Lexer) :
    lexer.tokens.map (·.token) = tokensFrom lexer.capture lexer.zone lexer.last lexer.rest :=
  (lexer.tokens_atPlace Place.start).symm

theorem tokensOf_eq (text : String) : tokensOf text = tokensFrom .none .pattern none text.toList := by
  rfl

variable {capture : Capture} {zone : Zone} {last : Option Token} {text following : List Char}

theorem tokensFrom_nil : tokensFrom .none zone last [] = [.finish] := by
  rw [tokensFrom, Lexer.tokens]
  rfl

/-- One token and the tokens after it. -/
theorem tokensFrom_eq_cons {token : Token} {place after : Place} {afterCapture : Capture} {afterZone : Zone}
    {afterLast : Option Token} {rest : List Char}
    (hnext : (Lexer.mk text Place.start capture zone last).next =
      (⟨token, place⟩, ⟨rest, after, afterCapture, afterZone, afterLast⟩)) (h : token ≠ .finish) :
    tokensFrom capture zone last text = token :: tokensFrom afterCapture afterZone afterLast rest := by
  have hne : (Lexer.mk text Place.start capture zone last).next.1.token ≠ .finish := by rwa [hnext]
  rw [tokensFrom, Lexer.tokens_of_ne_finish hne, hnext, List.map_cons, Lexer.map_tokens]

/-! ## Blanks -/

theorem Lexer.skipBlanks_of_not_blank {lexer : Lexer} {first : Char} (hrest : lexer.rest = first :: following)
    (h : Text.isBlank first = false) : lexer.skipBlanks = lexer := by
  have hnone : lexer.rest.takeWhile Text.isBlank = [] := by rw [hrest, List.takeWhile_cons_of_neg (by simp [h])]
  rw [skipBlanks, hnone]
  rfl

theorem Lexer.skipBlanks_of_blank {place : Place} {c : Char} (h : Text.isBlank c = true) :
    ((Lexer.mk (c :: text) place capture zone last).skipBlanks) =
      (Lexer.mk text (place.advance c) capture zone last).skipBlanks := by
  simp [skipBlanks, skip, List.takeWhile_cons_of_pos h, Place.advanceBy]

/-- A blank before a token does not matter. -/
theorem tokensFrom_blank {c : Char} (h : Text.isBlank c = true) :
    tokensFrom capture zone last (c :: text) = tokensFrom capture zone last text := by
  have hnext : (Lexer.mk (c :: text) Place.start capture zone last).next =
      ((Lexer.mk text Place.start capture zone last).atPlace (Place.start.advance c)).next := by
    rw [Lexer.next, Lexer.skipBlanks_of_blank h]
    rfl
  rw [tokensFrom, Lexer.tokens_congr hnext, Lexer.tokens_atPlace]
  rfl

/-! ## Signs, words and numbers -/

theorem keyword?_ne_finish (word : String) : keyword? word ≠ some .finish := by
  unfold keyword?
  split <;> nofun

theorem scanToken_ne_finish (zone : Zone) (last : Option Token) (first : Char) (following : List Char) :
    (scanToken zone last first following).1 ≠ .finish := by
  have hword (word : String) : wordToken zone last word ≠ .finish := by
    have hkeyword := keyword?_ne_finish word
    unfold wordToken
    dsimp only
    split
    · nofun
    · cases h : keyword? word with
      | none => nofun
      | some token => exact fun he => hkeyword (h.trans (congrArg some he))
  unfold scanToken
  split
  · rename_i token hsign
    unfold sign? at hsign
    split at hsign <;> cases hsign <;> nofun
  · split_ifs
    · nofun
    · nofun
    · nofun
    · nofun
    · split <;> nofun
    · nofun
    · exact hword _
    · nofun

/-- The token at the start of a text where no path may come. -/
theorem tokensFrom_scan {first : Char} (hblank : Text.isBlank first = false) {token : Token} {more : Nat}
    (h : scanToken zone last first following = (token, more)) :
    tokensFrom .none zone last (first :: following) =
      token :: tokensFrom (Lexer.transition .none zone token).1 (Lexer.transition .none zone token).2 (some token)
        (following.drop more) := by
  have hne : token ≠ .finish := by
    have := scanToken_ne_finish zone last first following
    rwa [h] at this
  have hhere : (Lexer.mk (first :: following) Place.start .none zone last).skipBlanks =
      Lexer.mk (first :: following) Place.start .none zone last := Lexer.skipBlanks_of_not_blank rfl hblank
  have hnext : (Lexer.mk (first :: following) Place.start .none zone last).next =
      (⟨token, Place.start⟩, ⟨following.drop more, Place.start.advanceBy ((first :: following).take (more + 1)),
        (Lexer.transition .none zone token).1, (Lexer.transition .none zone token).2, some token⟩) := by
    rw [Lexer.next, hhere]
    dsimp only
    rw [if_pos rfl, h]
    rfl
  exact tokensFrom_eq_cons hnext hne

/-- The path at the start of a text where one may come. -/
theorem tokensFrom_capture {first : Char} (hblank : Text.isBlank first = false) (hcapture : capture ≠ .none)
    {path : String} {count : Nat} (h : capturePath (first :: following) = (.path path, count)) :
    tokensFrom capture zone last (first :: following) =
      .path path :: tokensFrom .none zone (some (.path path)) ((first :: following).drop count) := by
  have hhere : (Lexer.mk (first :: following) Place.start capture zone last).skipBlanks =
      Lexer.mk (first :: following) Place.start capture zone last := Lexer.skipBlanks_of_not_blank rfl hblank
  have hnext : (Lexer.mk (first :: following) Place.start capture zone last).next =
      (⟨.path path, Place.start⟩, ⟨(first :: following).drop count,
        Place.start.advanceBy ((first :: following).take count), .none, zone, some (.path path)⟩) := by
    rw [Lexer.next, hhere]
    dsimp only
    rw [if_neg hcapture, h]
    rfl
  exact tokensFrom_eq_cons hnext (by nofun)

/-! ## Characters -/

/-- A run of characters ends before one that is not of it. -/
theorem takeWhile_append_eq_left {p : Char → Bool} {chars after : List Char} (hchars : ∀ c ∈ chars, p c = true)
    (hend : ∀ c ∈ after.head?, p c = false) : (chars ++ after).takeWhile p = chars := by
  rw [List.takeWhile_append_of_pos hchars]
  cases after with
  | nil => exact List.append_nil chars
  | cons c rest => simp [hend c rfl]

/-- The blanks among the characters up to the tilde are the space and those before it. -/
theorem not_isBlank {c : Char} (hlow : 33 ≤ c.toNat) (hhigh : c.toNat ≤ 126) : Text.isBlank c = false := by
  simp only [Text.isBlank, Text.inRanges, Text.blankRanges, List.any_cons, List.any_nil, Bool.or_false,
    Bool.or_eq_false_iff, Bool.and_eq_false_iff, decide_eq_false_iff_not]
  omega

theorem isAlphanum_range {c : Char} (h : c.isAlphanum = true) : 48 ≤ c.toNat ∧ c.toNat ≤ 122 := by
  delta Char.isAlphanum Char.isAlpha Char.isUpper Char.isLower Char.isDigit at h
  simp only [Bool.or_eq_true, Bool.and_eq_true, decide_eq_true_eq, ge_iff_le, UInt32.le_iff_toNat_le, Char.toNat_val,
    Char.reduceToNat] at h
  omega

/-- No word begins with a digit. -/
theorem not_isDigit_of_isWordStart {c : Char} (h : isWordStart c = true) : c.isDigit = false := by
  rw [Bool.eq_false_iff]
  intro hdigit
  rw [isWordStart] at h
  delta Char.isAlpha Char.isUpper Char.isLower at h
  simp only [Bool.or_eq_true, Bool.and_eq_true, decide_eq_true_eq, ge_iff_le, UInt32.le_iff_toNat_le, Char.toNat_val,
    Char.reduceToNat] at h
  simp only [Char.isDigit, Bool.and_eq_true, decide_eq_true_eq, ge_iff_le, UInt32.le_iff_toNat_le, Char.toNat_val,
    Char.reduceToNat] at hdigit
  rcases h with h | rfl
  · omega
  · exact absurd hdigit (by decide)

theorem not_isBlank_of_isPathChar {c : Char} (h : isPathChar c = true) : Text.isBlank c = false := by
  simp only [isPathChar, Bool.or_eq_true, decide_eq_true_eq] at h
  rcases h with (((((((((h | rfl) | rfl) | rfl) | rfl) | rfl) | rfl) | rfl) | rfl) | rfl) | rfl
  · obtain ⟨hlow, hhigh⟩ := isAlphanum_range h
    exact not_isBlank (by omega) (by omega)
  all_goals decide

theorem isWordChar_of_isAlpha {c : Char} (h : c.isAlpha = true) : isWordChar c = true := by
  simp [isWordChar, Char.isAlphanum, h]

theorem isWordChar_of_isDigit {c : Char} (h : c.isDigit = true) : isWordChar c = true := by
  simp [isWordChar, Char.isAlphanum, h]

theorem isPathChar_of_isWordChar {c : Char} (h : isWordChar c = true) : isPathChar c = true := by
  simp only [isWordChar, Bool.or_eq_true, decide_eq_true_eq] at h
  rcases h with h | rfl
  · simp [isPathChar, h]
  · decide

theorem not_isBlank_of_isWordChar {c : Char} (h : isWordChar c = true) : Text.isBlank c = false :=
  not_isBlank_of_isPathChar (isPathChar_of_isWordChar h)

theorem not_isBlank_of_sign? {c : Char} {token : Token} (h : sign? c = some token) : Text.isBlank c = false := by
  unfold sign? at h
  split at h <;> first | decide | cases h

/-! ## Signs -/

/-- A sign is a token by itself. -/
theorem tokensFrom_sign {c : Char} {token : Token} (h : sign? c = some token) :
    tokensFrom .none zone last (c :: text) =
      token :: tokensFrom (Lexer.transition .none zone token).1 (Lexer.transition .none zone token).2 (some token)
        text := by
  have hscan : scanToken zone last c text = (token, 0) := by
    unfold scanToken
    rw [h]
  exact tokensFrom_scan (not_isBlank_of_sign? h) hscan

/-! ## Paths -/

/-- A path with characters is one token up to the character after it. -/
theorem tokensFrom_path {path : String} (hcapture : capture ≠ .none) (hpath : IsPathText path) (hne : path ≠ "")
    (hend : ∀ c ∈ text.head?, isPathChar c = false) :
    tokensFrom capture zone last (path.toList ++ text) =
      .path path :: tokensFrom .none zone (some (.path path)) text := by
  have htake : (path.toList ++ text).takeWhile isPathChar = path.toList := takeWhile_append_eq_left hpath hend
  obtain ⟨first, rest, hfirst⟩ : ∃ first rest, path.toList = first :: rest :=
    List.exists_cons_of_ne_nil (by simpa using hne)
  have hcaptured : capturePath (path.toList ++ text) = (.path path, path.toList.length) := by
    unfold capturePath
    rw [htake, hfirst]
    dsimp only
    rw [← hfirst, String.ofList_toList]
  have hblank : Text.isBlank first = false :=
    not_isBlank_of_isPathChar (hpath first (by rw [hfirst]; exact List.mem_cons_self))
  rw [hfirst, List.cons_append] at hcaptured ⊢
  rw [tokensFrom_capture hblank hcapture hcaptured, ← List.cons_append, ← hfirst, List.drop_left]

/-- An empty path is a token before a sign that may follow one. -/
theorem tokensFrom_emptyPath {c : Char} (hcapture : capture ≠ .none) (hblank : Text.isBlank c = false)
    (hpath : isPathChar c = false) (hc : endsEmptyPath c = true) :
    tokensFrom capture zone last (c :: text) = .path "" :: tokensFrom .none zone (some (.path "")) (c :: text) := by
  have hcaptured : capturePath (c :: text) = (.path "", 0) := by
    unfold capturePath
    rw [List.takeWhile_cons_of_neg (by simp [hpath])]
    dsimp only
    rw [if_pos hc]
  rw [tokensFrom_capture hblank hcapture hcaptured, List.drop_zero]

/-- A key, with characters or none, is one token up to the colon after it. -/
theorem tokensFrom_key {key : String} (hcapture : capture ≠ .none) (hkey : IsPathText key) :
    tokensFrom capture zone last (key.toList ++ ':' :: text) =
      .path key :: tokensFrom .none zone (some (.path key)) (':' :: text) := by
  by_cases hne : key = ""
  · rw [hne, String.toList_empty, List.nil_append]
    exact tokensFrom_emptyPath hcapture (by decide) (by decide) (by decide)
  · refine tokensFrom_path hcapture hkey hne ?_
    simp only [List.head?_cons, Option.mem_some_iff, forall_eq']
    decide

/-! ## Words -/

/-- A letter, a digit or an underscore begins a number or a word. -/
theorem scanToken_of_isWordChar {first : Char} (h : isWordChar first = true) :
    scanToken zone last first following =
      if first.isDigit then
        (.integer (String.ofList (first :: following.takeWhile Char.isDigit)),
          (following.takeWhile Char.isDigit).length)
      else if isWordStart first then
        (wordToken zone last (String.ofList (first :: following.takeWhile isWordChar)),
          (following.takeWhile isWordChar).length)
      else (.illegal first, 0) := by
  have hsign : sign? first = none := by
    unfold sign?
    split <;> first | rfl | exact absurd h (by decide)
  have hquote : ¬(first = '"' ∨ first = '\'') := by
    rintro (rfl | rfl) <;> exact absurd h (by decide)
  have hdash : first ≠ '-' := by
    rintro rfl
    exact absurd h (by decide)
  have hbang : first ≠ '!' := by
    rintro rfl
    exact absurd h (by decide)
  unfold scanToken
  rw [hsign]
  dsimp only
  rw [if_neg hdash, if_neg hbang, if_neg hquote]

/-- A word is one token up to the character after it. -/
theorem tokensFrom_word {name : String} (hname : IsWord name) (hend : ∀ c ∈ text.head?, isWordChar c = false) :
    tokensFrom .none zone last (name.toList ++ text) =
      wordToken zone last name ::
        tokensFrom (Lexer.transition .none zone (wordToken zone last name)).1
          (Lexer.transition .none zone (wordToken zone last name)).2 (some (wordToken zone last name)) text := by
  have hchars : ∀ c ∈ name.toList, isWordChar c = true := fun c => hname.isWordChar
  obtain ⟨first, rest, hfirst, hstart, hrest⟩ := hname
  have hword : isWordChar first = true := hchars first (by rw [hfirst]; exact List.mem_cons_self)
  have htake : (rest ++ text).takeWhile isWordChar = rest := takeWhile_append_eq_left hrest hend
  have hscan : scanToken zone last first (rest ++ text) = (wordToken zone last name, rest.length) := by
    rw [scanToken_of_isWordChar hword, if_neg (by simp [not_isDigit_of_isWordStart hstart]), if_pos hstart, htake,
      ← hfirst, String.ofList_toList]
  rw [hfirst, List.cons_append, tokensFrom_scan (not_isBlank_of_isWordChar hword) hscan, List.drop_left]

/-- The name of a pattern after a parenthesis, a colon or a bracket that opens. -/
theorem tokensFrom_name {name : String} (hname : IsWord name) (hend : ∀ c ∈ text.head?, isWordChar c = false)
    (hlast : last = some .leftParen ∨ last = some .colon ∨ last = some .leftBracket) :
    tokensFrom .none .pattern last (name.toList ++ text) =
      .identifier name :: tokensFrom .none .pattern (some (.identifier name)) text := by
  rw [tokensFrom_word hname hend, wordToken, if_pos ⟨rfl, hlast⟩]
  rfl

/-- A keyword where no name comes. -/
theorem tokensFrom_keyword {word : String} {token : Token} (hword : IsWord word) (hkeyword : keyword? word = some token)
    (hname : ¬(zone = .pattern ∧ (last = some .leftParen ∨ last = some .colon ∨ last = some .leftBracket)))
    (hend : ∀ c ∈ text.head?, isWordChar c = false) :
    tokensFrom .none zone last (word.toList ++ text) =
      token :: tokensFrom (Lexer.transition .none zone token).1 (Lexer.transition .none zone token).2 (some token)
        text := by
  have htoken : wordToken zone last word = token := by
    rw [wordToken, if_neg hname, hkeyword, Option.getD_some]
  rw [tokensFrom_word hword hend, htoken]

/-! ## Values -/

/-- A number is one token up to the character after it. -/
theorem tokensFrom_digits {digits : String} (hdigits : ∀ c ∈ digits.toList, c.isDigit = true) (hne : digits ≠ "")
    (hend : ∀ c ∈ text.head?, isWordChar c = false) :
    tokensFrom .none zone last (digits.toList ++ text) =
      .integer digits :: tokensFrom .none zone (some (.integer digits)) text := by
  obtain ⟨first, rest, hfirst⟩ : ∃ first rest, digits.toList = first :: rest :=
    List.exists_cons_of_ne_nil (by simpa using hne)
  rw [hfirst] at hdigits
  obtain ⟨hdigit, hrest⟩ := List.forall_mem_cons.1 hdigits
  have hword : isWordChar first = true := isWordChar_of_isDigit hdigit
  have htake : (rest ++ text).takeWhile Char.isDigit = rest := by
    refine takeWhile_append_eq_left hrest fun c hc => ?_
    have hnot := hend c hc
    simp only [isWordChar, Char.isAlphanum, Bool.or_eq_false_iff] at hnot
    exact hnot.1.2
  have hscan : scanToken zone last first (rest ++ text) = (.integer digits, rest.length) := by
    rw [scanToken_of_isWordChar hword, if_pos hdigit, htake, ← hfirst, String.ofList_toList]
  rw [hfirst, List.cons_append, tokensFrom_scan (not_isBlank_of_isWordChar hword) hscan, List.drop_left]
  rfl

/-- A quote begins a string if another one closes it. -/
theorem scanToken_quote {quote : Char} (hquote : quote = '"' ∨ quote = '\'') (following : List Char) :
    scanToken zone last quote following =
      match quotedBody? quote following with
      | some body => (.string (String.ofList (unescape body)), body.length + 1)
      | none => (.illegal quote, 0) := by
  have hbody : escapedBody? quote following = quotedBody? quote following := by
    rcases hquote with rfl | rfl <;> exact escapedBody?_eq_quotedBody? (by decide) (by decide) following
  rw [← hbody]
  unfold scanToken
  rcases hquote with rfl | rfl <;> rfl

theorem quotedBody?_escape (value text : List Char) :
    quotedBody? '"' (value.flatMap Literal.escapeChar ++ '"' :: text) = some (value.flatMap Literal.escapeChar) := by
  induction value with
  | nil => rfl
  | cons c rest ih =>
    rw [List.flatMap_cons, List.append_assoc]
    by_cases hc : c = '"' ∨ c = '\\'
    · rw [Literal.escapeChar, if_pos hc]
      simp only [List.cons_append, List.nil_append, quotedBody?, ih, Option.map_some]
    · rw [Literal.escapeChar, if_neg hc]
      rw [not_or] at hc
      simp [quotedBody?, hc, ih]

theorem unescape_escape (value : List Char) : unescape (value.flatMap Literal.escapeChar) = value := by
  induction value with
  | nil => rfl
  | cons c rest ih =>
    rw [List.flatMap_cons]
    by_cases hc : c = '"' ∨ c = '\\'
    · rw [Literal.escapeChar, if_pos hc]
      simp only [List.cons_append, List.nil_append, unescape, ih]
      rcases hc with rfl | rfl <;> rfl
    · rw [Literal.escapeChar, if_neg hc]
      rw [not_or] at hc
      simp [unescape, hc, ih]

/-- A quoted string is one token. -/
theorem tokensFrom_quoted (value : String) :
    tokensFrom .none zone last ((Literal.string value).text.toList ++ text) =
      .string value :: tokensFrom .none zone (some (.string value)) text := by
  have hscan : scanToken zone last '"' (value.toList.flatMap Literal.escapeChar ++ '"' :: text) =
      (.string value, (value.toList.flatMap Literal.escapeChar ++ ['"']).length) := by
    rw [scanToken_quote (Or.inl rfl), quotedBody?_escape]
    dsimp only
    rw [unescape_escape, String.ofList_toList, List.length_append]
    rfl
  have htext : (Literal.string value).text.toList ++ text =
      '"' :: ((value.toList.flatMap Literal.escapeChar ++ ['"']) ++ text) := by
    simp [Literal.text]
  have hrest : value.toList.flatMap Literal.escapeChar ++ '"' :: text =
      (value.toList.flatMap Literal.escapeChar ++ ['"']) ++ text := by simp
  rw [hrest] at hscan
  rw [htext, tokensFrom_scan (by decide) hscan, List.drop_left]
  rfl

end ClusterQuery.Query
