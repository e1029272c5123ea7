import Mathlib.Data.List.Induction
import Mathlib.Data.String.Basic
import Mathlib.Logic.Function.Iterate
import ClusterQuery.Proofs.Query.Lexemes

/-!
# How the tokens of a text tile it

Every call of the reader goes on where the call before it stopped, so the blanks and the lexemes of the calls, one after
the other, are the text, and a place is what is counted in the characters before it (`Place.advanceBy_start`). The calls
come to the end of the text, and then stay there (`Lexer.exists_count`, `Lexer.next_next_of_finish`).
-/

namespace ClusterQuery.Query

/-! ## Places -/

/-- The place after the first characters of a text: their bytes, and one more than their line feeds and than the
characters since the last of these. -/
def Place.after (front : List Char) : Place :=
  ⟨String.utf8Len front, front.count '\n' + 1, (front.reverse.takeWhile (· ≠ '\n')).length + 1⟩

theorem Place.advanceBy_append (place : Place) (cs more : List Char) :
    place.advanceBy (cs ++ more) = (place.advanceBy cs).advanceBy more :=
  List.foldl_append

theorem Place.advance_after (front : List Char) (c : Char) :
    (Place.after front).advance c = Place.after (front ++ [c]) := by
  unfold advance
  split
  · rename_i hfeed
    simp [Place.after, hfeed]
  · rename_i hother
    simp [Place.after, hother]

/-- A place is what is counted before it. -/
theorem Place.advanceBy_start (front : List Char) : Place.start.advanceBy front = Place.after front := by
  induction front using List.reverseRecOn with
  | nil => rfl
  | append_singleton front c ih =>
    rw [advanceBy_append, ih]
    exact advance_after front c

/-- The characters of a text from one place to another. -/
def Spans (text : List Char) (start stop : Place) (chars : List Char) : Prop :=
  ∃ front rest, text = front ++ (chars ++ rest) ∧ start = Place.after front ∧ stop = Place.after (front ++ chars)

namespace Spans

variable {text : String} {start stop : Place} {chars : List Char}

theorem offset_le (h : Spans text.toList start stop chars) : start.offset ≤ stop.offset := by
  obtain ⟨front, rest, -, rfl, rfl⟩ := h
  rw [Place.after, Place.after, String.utf8Len_append]
  exact Nat.le_add_right _ _

/-- A span is cut out of its text by the offsets of its ends. -/
theorem extract_eq (h : Spans text.toList start stop chars) :
    String.Pos.Raw.extract text ⟨start.offset⟩ ⟨stop.offset⟩ = String.ofList chars := by
  obtain ⟨front, rest, htext, rfl, rfl⟩ := h
  rw [← String.ofList_toList (s := text), htext, Place.after, Place.after, String.utf8Len_append, ← List.append_assoc]
  exact String.extract_of_valid front chars rest

/-- A span starts between two characters. -/
theorem isValid_start (h : Spans text.toList start stop chars) : String.Pos.Raw.IsValid text ⟨start.offset⟩ := by
  obtain ⟨front, rest, htext, rfl, rfl⟩ := h
  refine String.Pos.Raw.isValid_iff_exists_append.2 ⟨String.ofList front, String.ofList (chars ++ rest), ?_, ?_⟩
  · rw [← String.ofList_append, ← htext, String.ofList_toList]
  · rw [String.rawEndPos, String.utf8ByteSize_ofList, Place.after]

theorem isValid_stop (h : Spans text.toList start stop chars) : String.Pos.Raw.IsValid text ⟨stop.offset⟩ := by
  obtain ⟨front, rest, htext, rfl, rfl⟩ := h
  exact isValid_start ⟨front ++ chars, [], by simpa using htext, rfl, rfl⟩

end Spans

/-! ## Calls -/

namespace Lexer

/-- The reader after a number of calls. -/
def past (lexer : Lexer) (count : Nat) : Lexer :=
  (fun reader => reader.next.2)^[count] lexer

theorem past_succ (lexer : Lexer) (count : Nat) : lexer.past (count + 1) = (lexer.past count).next.2 :=
  Function.iterate_succ_apply' _ _ _

theorem past_next (lexer : Lexer) (count : Nat) : lexer.next.2.past count = lexer.past (count + 1) :=
  (Function.iterate_succ_apply _ _ _).symm

/-! ### The end -/

theorem capturePath_ne_finish (text : List Char) : (capturePath text).1 ≠ .finish := by
  unfold capturePath
  dsimp only
  split
  · split <;> nofun
  · nofun

/-- The end comes where no path may come and nothing but blanks is left. -/
theorem rest_of_finish {lexer : Lexer} (h : lexer.next.1.token = .finish) :
    lexer.capture = .none ∧ Text.trimLeft lexer.rest = [] := by
  have hhere : lexer.skipBlanks.rest = Text.trimLeft lexer.rest := by rw [skipBlanks_eq]
  rw [next] at h
  dsimp only at h
  rw [capture_skipBlanks] at h
  split at h
  · rename_i hcapture
    refine ⟨hcapture, hhere ▸ ?_⟩
    split at h
    · assumption
    · exact absurd h (scanToken_ne_finish _ _ _ _)
  · exact absurd h (capturePath_ne_finish _)

/-- At the end of a text the reader stays there. -/
theorem next_next_of_finish {lexer : Lexer} (h : lexer.next.1.token = .finish) :
    lexer.next.2.next = (lexer.next.1, lexer.next.2) := by
  obtain ⟨hcapture, hrest⟩ := rest_of_finish h
  rw [next_of_nil hcapture hrest]
  dsimp only
  have hagain : Text.trimLeft lexer.skipBlanks.rest = [] := by rw [skipBlanks_eq, hrest]; rfl
  have hhere : lexer.skipBlanks.skipBlanks = lexer.skipBlanks := by
    rw [skipBlanks_eq lexer.skipBlanks, skipBlanks_eq, hrest]
    rfl
  rw [next_of_nil ((capture_skipBlanks lexer).trans hcapture) hagain, hhere]

theorem head?_tokens (lexer : Lexer) : lexer.tokens.head? = some lexer.next.1 := by
  by_cases h : lexer.next.1.token = .finish
  · rw [tokens_of_finish h]
    rfl
  · rw [tokens_of_ne_finish h]
    rfl

/-- The tokens of a reader are those of its first calls, up to the first that finds the end. -/
theorem exists_count (lexer : Lexer) :
    ∃ count ≤ lexer.measure, lexer.tokens = (List.range (count + 1)).map (fun n => (lexer.past n).next.1) ∧
      (lexer.past count).next.1.token = .finish ∧ ∀ n < count, (lexer.past n).next.1.token ≠ .finish := by
  induction lexer using tokens.induct with
  | case1 lexer h => exact ⟨0, Nat.zero_le _, tokens_of_finish h, h, fun n hn => absurd hn n.not_lt_zero⟩
  | case2 lexer h ih =>
    obtain ⟨count, hcount, htokens, hfinish, hbefore⟩ := ih
    refine ⟨count + 1, (Nat.succ_le_succ hcount).trans (next_measure_lt lexer h), ?_, ?_, fun n hn => ?_⟩
    · rw [tokens_of_ne_finish h, htokens, List.range_succ_eq_map (n := count + 1), List.map_cons, List.map_map]
      refine congrArg _ (List.map_congr_left fun n _ => ?_)
      rw [past_next]
      rfl
    · rwa [← past_next]
    · cases n with
      | zero => exact h
      | succ n =>
        rw [← past_next]
        exact hbefore n (Nat.lt_of_succ_lt_succ hn)

theorem past_of_finish {lexer : Lexer} {count n : Nat} (h : (lexer.past count).next.1.token = .finish)
    (hle : count ≤ n) : (lexer.past n).next.1 = (lexer.past count).next.1 := by
  induction n, hle using Nat.le_induction with
  | base => rfl
  | succ n _ ih => rw [past_succ, next_next_of_finish (ih ▸ h), ih]

/-! ### What is read before a call -/

/-- The blanks and lexemes of the first calls, one after the other. -/
def tiled (lexer : Lexer) (count : Nat) : List Char :=
  (List.range count).flatMap fun n => (lexer.past n).gap ++ (lexer.past n).lexeme

theorem tiled_succ (lexer : Lexer) (count : Nat) :
    lexer.tiled (count + 1) = lexer.tiled count ++ ((lexer.past count).gap ++ (lexer.past count).lexeme) := by
  simp [tiled, List.range_succ]

/-- They come before what is left. -/
theorem tiled_append_rest (lexer : Lexer) (count : Nat) :
    lexer.tiled count ++ (lexer.past count).rest = lexer.rest := by
  induction count with
  | zero => rfl
  | succ count ih => rw [tiled_succ, past_succ, List.append_assoc, List.append_assoc, ← rest_eq, ih]

theorem place_past (lexer : Lexer) (count : Nat) :
    (lexer.past count).place = lexer.place.advanceBy (lexer.tiled count) := by
  induction count with
  | zero => rfl
  | succ count ih =>
    rw [past_succ, (takes _).after_eq, ih, tiled_succ, Place.advanceBy_append, Place.advanceBy_append]

variable {lexer : Lexer}

/-! ### Where paths come -/

/-- What comes next goes with the part of the query. -/
structure Coherent (lexer : Lexer) : Prop where
  afterReturn : lexer.capture = .afterReturn → lexer.zone = .projection
  afterWhere : lexer.capture = .afterWhere → lexer.zone = .filter
  afterBrace : lexer.capture = .afterBrace → lexer.zone = .block
  afterSeparator : lexer.capture = .afterSeparator → lexer.zone ≠ .pattern

theorem coherent_transition (zone : Zone) (token : Token) (rest : List Char) (place : Place) (last : Option Token) :
    (Lexer.mk rest place (transition .none zone token).1 (transition .none zone token).2 last).Coherent := by
  unfold transition
  split
  case h_5 | h_6 => split <;> constructor <;> simp_all
  all_goals constructor <;> simp

/-- A call keeps what comes next and the part of the query together. -/
theorem Coherent.next (h : lexer.Coherent) : lexer.next.2.Coherent := by
  rw [Lexer.next]
  dsimp only
  split
  · split
    · exact ⟨h.afterReturn, h.afterWhere, h.afterBrace, h.afterSeparator⟩
    · rename_i hcapture _ _ _ _
      rw [hcapture]
      exact coherent_transition _ _ _ _ _
  · constructor <;> simp

theorem Coherent.past (h : lexer.Coherent) (count : Nat) : (lexer.past count).Coherent := by
  induction count with
  | zero => exact h
  | succ count ih => exact past_succ lexer count ▸ ih.next

/-! ### Lexemes apart from their text -/

theorem eq_nil_of_reads_finish {chars : List Char} (h : Token.finish.Reads chars) : chars = [] := by
  cases h with
  | word hword => cases hword
  | sign hsign =>
    unfold sign? at hsign
    split at hsign <;> cases hsign
  | finish => rfl

/-- A lexeme with nothing after it is read as its token. -/
theorem next_lexeme (lexer : Lexer) :
    ({ lexer with rest := lexer.lexeme } : Lexer).next.1.token = lexer.next.1.token := by
  by_cases hfinish : lexer.next.1.token = .finish
  · have hnil : lexer.lexeme = [] := eq_nil_of_reads_finish (hfinish ▸ lexer.takes.reads)
    have hcapture : ({ lexer with rest := [] } : Lexer).capture = .none := (rest_of_finish hfinish).1
    rw [hnil, next_of_nil hcapture rfl, hfinish]
  · have htokens := lexer.takes.tokensFrom_eq hfinish [] (Token.endsBefore_nil _)
    have hsame := map_tokens { lexer with rest := lexer.lexeme }
    rw [List.append_nil] at htokens
    rw [htokens] at hsame
    have hhead := congrArg List.head? hsame
    rw [List.head?_map, head?_tokens] at hhead
    exact Option.some.inj hhead

end Lexer

/-! ## The tiling -/

/-- The reader of a text after a number of calls. -/
def reader (text : String) (count : Nat) : Lexer :=
  (Lexer.ofText text.toList).past count

/-- The token that a call of the reader of a text hands out, and its place. -/
def call (text : String) (count : Nat) : PlacedToken :=
  (reader text count).next.1

/-- The blanks that a call takes up before its token. -/
def gap (text : String) (count : Nat) : List Char :=
  (reader text count).gap

/-- The characters that the token of a call is read from. -/
def lexeme (text : String) (count : Nat) : List Char :=
  (reader text count).lexeme

/-- The calls of the reader of a text, the first to find the end after the given number of others. -/
structure Tiles (text : String) (count : Nat) : Prop where
  count_le : count ≤ 2 * text.length
  tokenize_eq : tokenize text = (List.range (count + 1)).map (call text)
  finish_iff : ∀ n, (call text n).token = .finish ↔ count ≤ n
  finish_eq : ∀ n, count ≤ n → call text n = ⟨.finish, Place.after text.toList⟩
  /-- Blanks and lexemes in turn are the text. -/
  text_eq : text.toList = (List.range (count + 1)).flatMap fun n => gap text n ++ lexeme text n
  blank : ∀ n, ∀ c ∈ gap text n, Text.isBlank c = true
  spans_gap : ∀ n, Spans text.toList (reader text n).place (call text n).place (gap text n)
  spans_lexeme : ∀ n, Spans text.toList (call text n).place (reader text (n + 1)).place (lexeme text n)
  /-- No lexeme starts before the end of the one before it. -/
  ordered : ∀ n, (call text n).place.offset ≤ (reader text (n + 1)).place.offset ∧
    (reader text (n + 1)).place.offset ≤ (call text (n + 1)).place.offset
  /-- The offsets of a lexeme are between characters, and cut it out of the text. -/
  cut : ∀ n, String.Pos.Raw.IsValid text ⟨(call text n).place.offset⟩ ∧
    String.Pos.Raw.IsValid text ⟨(reader text (n + 1)).place.offset⟩ ∧
      String.Pos.Raw.extract text ⟨(call text n).place.offset⟩ ⟨(reader text (n + 1)).place.offset⟩ =
        String.ofList (lexeme text n)
  reads : ∀ n, (call text n).token.Reads (lexeme text n)
  /-- A path takes up all the characters that it can. -/
  maximal : ∀ n path, (call text n).token = .path path → ∀ c ∈ (reader text (n + 1)).rest.head?, isPathChar c = false
  /-- A lexeme with nothing after it is read as its token. -/
  alone : ∀ n, ({ reader text n with rest := lexeme text n } : Lexer).next.1.token = (call text n).token
  coherent : ∀ n, (reader text n).Coherent

/-- The reader of any text comes to its end within twice as many calls as it has characters and one more, and stays
there; up to then it takes up the whole text, lexemes with blanks between them, each lexeme read as its token. -/
theorem exists_tiles (text : String) : ∃ count, Tiles text count := by
  let start := Lexer.ofText text.toList
  obtain ⟨count, hcount, htokens, hfinish, hbefore⟩ := start.exists_count
  have hrest (n : Nat) : text.toList = start.tiled n ++ (reader text n).rest := (start.tiled_append_rest n).symm
  have hplace (n : Nat) : (reader text n).place = Place.after (start.tiled n) :=
    (start.place_past n).trans (Place.advanceBy_start _)
  have hcall (n : Nat) : (call text n).place = Place.after (start.tiled n ++ gap text n) := by
    rw [call, (Lexer.takes _).place_eq, hplace n, ← Place.advanceBy_start, ← Place.advanceBy_append,
      Place.advanceBy_start]
    rfl
  have hsucc (n : Nat) : start.tiled (n + 1) = start.tiled n ++ gap text n ++ lexeme text n := by
    rw [List.append_assoc]
    exact start.tiled_succ n
  have hiff (n : Nat) : (call text n).token = .finish ↔ count ≤ n := by
    refine ⟨fun h => Nat.le_of_not_lt fun hn => hbefore n hn h, fun h => ?_⟩
    rw [call, reader, Lexer.past_of_finish hfinish h]
    exact hfinish
  -- what is left past the end is nothing, so all the text is tiled by then
  have hall (n : Nat) (hn : count ≤ n) :
      text.toList = start.tiled (n + 1) ∧ call text n = ⟨.finish, Place.after text.toList⟩ := by
    have htoken := (hiff n).2 hn
    have hnil : lexeme text n = [] := Lexer.eq_nil_of_reads_finish (htoken ▸ (Lexer.takes _).reads)
    have hends : (reader text n).next.2.rest = [] := by
      have h := (reader text n).takes.ends (by rw [← call, htoken]; nofun)
      rwa [← call, htoken] at h
    have htext : text.toList = start.tiled (n + 1) := by
      have h := hrest (n + 1)
      rwa [reader, Lexer.past_succ, ← reader, hends, List.append_nil] at h
    refine ⟨htext, ?_⟩
    rw [htext, hsucc, hnil, List.append_nil, ← hcall, ← htoken]
  have hgap (n : Nat) : Spans text.toList (reader text n).place (call text n).place (gap text n) := by
    refine ⟨start.tiled n, lexeme text n ++ (reader text n).next.2.rest, ?_, hplace n, hcall n⟩
    rw [hrest n, Lexer.rest_eq]
    rfl
  have hlexeme (n : Nat) : Spans text.toList (call text n).place (reader text (n + 1)).place (lexeme text n) := by
    refine ⟨start.tiled n ++ gap text n, (reader text n).next.2.rest, ?_, hcall n, by rw [hplace, hsucc]⟩
    rw [hrest n, Lexer.rest_eq, List.append_assoc]
    rfl
  exact ⟨count, {
    count_le := hcount.trans_eq (by rw [← String.length_toList]; rfl)
    tokenize_eq := htokens
    finish_iff := hiff
    finish_eq := fun n hn => (hall n hn).2
    text_eq := (hall count le_rfl).1
    blank := fun n => (reader text n).isBlank_of_mem_gap
    spans_gap := hgap
    spans_lexeme := hlexeme
    ordered := fun n => ⟨(hlexeme n).offset_le, (hgap (n + 1)).offset_le⟩
    cut := fun n => ⟨(hlexeme n).isValid_start, (hlexeme n).isValid_stop, (hlexeme n).extract_eq⟩
    reads := fun n => (Lexer.takes _).reads
    maximal := fun n path hpath => by
      have h := (reader text n).takes.ends (by rw [← call, hpath]; nofun)
      rw [← call, hpath] at h
      rw [reader, Lexer.past_succ]
      exact h.path_maximal
    alone := fun n => (reader text n).next_lexeme
    coherent := Lexer.Coherent.past ⟨nofun, nofun, nofun, nofun⟩ }⟩

end ClusterQuery.Query
