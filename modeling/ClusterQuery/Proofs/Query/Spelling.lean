import Mathlib.Data.List.TakeWhile
import ClusterQuery.Proofs.Query.Grammar

/-!
# The spelling of tokens

The tokens of a text are spelled as their forms want (`tokensOf_spelled`): a name is a word, and a field path is made of
path characters. The end comes once, as the last token (`tokensOf_finish`).
-/

namespace ClusterQuery.Query

/-- A letter or an underscore, and letters, digits and underscores after it. -/
def IsWord (name : String) : Prop :=
  ∃ first rest, name.toList = first :: rest ∧ isWordStart first = true ∧ ∀ c ∈ rest, isWordChar c = true

/-- Path characters, or none at all. -/
def IsPathText (text : String) : Prop :=
  ∀ c ∈ text.toList, isPathChar c = true

instance : DecidablePred IsWord := fun name =>
  match h : name.toList with
  | [] => isFalse fun ⟨_, _, hname, _⟩ => by rw [h] at hname; cases hname
  | first :: rest =>
    decidable_of_iff (isWordStart first = true ∧ rest.all isWordChar = true)
      ⟨fun hword => ⟨first, rest, h, hword.1, List.all_eq_true.1 hword.2⟩,
        fun ⟨_, _, hname, hword⟩ => by rw [h] at hname; cases hname; exact ⟨hword.1, List.all_eq_true.2 hword.2⟩⟩

instance : DecidablePred IsPathText := fun text =>
  decidable_of_iff (text.toList.all isPathChar = true) List.all_eq_true

/-- A word holds none but word characters. -/
theorem IsWord.isWordChar {name : String} (h : IsWord name) {c : Char} (hc : c ∈ name.toList) :
    isWordChar c = true := by
  obtain ⟨first, rest, hname, hfirst, hrest⟩ := h
  rw [hname] at hc
  rcases List.mem_cons.1 hc with rfl | hc
  · simp only [isWordStart, Bool.or_eq_true, decide_eq_true_eq] at hfirst
    simp only [Query.isWordChar, Char.isAlphanum, Bool.or_eq_true, decide_eq_true_eq]
    exact hfirst.imp_left Or.inl
  · exact hrest c hc

theorem IsWord.slash_notMem {name : String} (h : IsWord name) : '/' ∉ name.toList :=
  fun hmem => absurd (h.isWordChar hmem) (by decide)

/-- The tokens of a text, the end last. -/
def tokensOf (text : String) : List Token :=
  (tokenize text).map (·.token)

/-- What the form of a token wants of its characters. -/
def Token.Spelled : Token → Prop
  | .identifier name => IsWord name
  | .path text => IsPathText text
  | _ => True

theorem keyword?_spelled {word : String} {token : Token} (h : keyword? word = some token) : token.Spelled := by
  unfold keyword? at h
  split at h <;> cases h <;> trivial

theorem sign?_spelled {c : Char} {token : Token} (h : sign? c = some token) : token.Spelled := by
  unfold sign? at h
  split at h <;> cases h <;> trivial

theorem wordToken_spelled (zone : Zone) (last : Option Token) {word : String} (h : IsWord word) :
    (wordToken zone last word).Spelled := by
  unfold wordToken
  dsimp only
  split
  · exact h
  · cases hkeyword : keyword? word with
    | none => exact h
    | some token => exact keyword?_spelled hkeyword

theorem scanToken_spelled (zone : Zone) (last : Option Token) (first : Char) (following : List Char) :
    (scanToken zone last first following).1.Spelled := by
  unfold scanToken
  split
  · rename_i hsign
    exact sign?_spelled hsign
  · split_ifs with harrow _ _ _ hquote hdigit hword
    · trivial
    · trivial
    · trivial
    · trivial
    · split <;> trivial
    · trivial
    · exact wordToken_spelled zone last ⟨first, _, String.toList_ofList, hword, fun c => List.mem_takeWhile_imp⟩
    · trivial

theorem capturePath_spelled (text : List Char) : (capturePath text).1.Spelled := by
  have hpath : IsPathText (String.ofList (text.takeWhile isPathChar)) := by
    rw [IsPathText, String.toList_ofList]
    exact fun c => List.mem_takeWhile_imp
  unfold capturePath
  dsimp only
  split
  · split
    · intro c hc
      simp at hc
    · trivial
  · exact hpath

namespace Lexer

theorem next_spelled (lexer : Lexer) : lexer.next.1.token.Spelled := by
  unfold next
  dsimp only
  split
  · split
    · trivial
    · exact scanToken_spelled _ _ _ _
  · exact capturePath_spelled _

theorem tokens_spelled (lexer : Lexer) : ∀ placed ∈ lexer.tokens, placed.token.Spelled := by
  induction lexer using tokens.induct with
  | case1 lexer h =>
    rw [tokens, dif_pos h]
    exact List.forall_mem_singleton.2 lexer.next_spelled
  | case2 lexer h ih =>
    rw [tokens, dif_neg h]
    exact List.forall_mem_cons.2 ⟨lexer.next_spelled, ih⟩

/-- The end is the last token, and no other. -/
theorem tokens_finish (lexer : Lexer) :
    ∃ front, lexer.tokens.map (·.token) = front ++ [Token.finish] ∧ Token.finish ∉ front := by
  induction lexer using tokens.induct with
  | case1 lexer h =>
    rw [tokens, dif_pos h]
    exact ⟨[], by simp [h], List.not_mem_nil⟩
  | case2 lexer h ih =>
    rw [tokens, dif_neg h]
    obtain ⟨front, hfront, hnot⟩ := ih
    exact ⟨lexer.next.1.token :: front, by rw [List.map_cons, hfront, List.cons_append],
      by simp [hnot, Ne.symm h]⟩

end Lexer

/-- The tokens of a text are spelled as their forms want. -/
theorem tokensOf_spelled (text : String) : ∀ token ∈ tokensOf text, token.Spelled :=
  List.forall_mem_map.2 (Lexer.tokens_spelled _)

/-- The end is the last token of a text, and no other. -/
theorem tokensOf_finish (text : String) :
    ∃ front, tokensOf text = front ++ [.finish] ∧ .finish ∉ front :=
  Lexer.tokens_finish _

end ClusterQuery.Query
