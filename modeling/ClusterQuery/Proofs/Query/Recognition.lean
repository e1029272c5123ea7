import ClusterQuery.Proofs.Query.Grammar

/-!
# Tokens that complete a query

Where the tokens stand matters for errors only, so a run is told apart from what completes it: `Reading.answer?` is the
query that tokens complete from a reading, and parsing is to have one for the tokens of the whole text
(`run_toOption`). Tokens of a value, a key, a block or a mention complete what the rest completes after them exactly
when their numbers fit (`answer?_pair`, `answer?_blockRest`, `answer?_mention`).
-/

namespace ClusterQuery.Query

namespace Reading

/-- The reading at another stage. -/
def atStage (reading : Reading) (stage : Stage) : Reading :=
  { reading with stage := stage }

/-- The query that tokens complete, if they do, wherever they stand. -/
def answer? (reading : Reading) : List Token → Option Query
  | [] => none
  | token :: rest =>
    match reading.step ⟨token, .start⟩ with
    | .error _ => none
    | .ok (.inr query) => some query
    | .ok (.inl next) => next.answer? rest

/-- The query that tokens complete after an outcome, if they do. -/
def follow (outcome : Outcome) (rest : List Token) : Option Query :=
  match outcome with
  | .error _ => none
  | .ok (.inr query) => some query
  | .ok (.inl next) => next.answer? rest

theorem answer?_cons (reading : Reading) (token : Token) (rest : List Token) :
    reading.answer? (token :: rest) = follow (reading.step ⟨token, .start⟩) rest := by
  rfl

/-! ## Places do not matter -/

section Places

variable (reading : Reading) (token : Token) (first second : Place)

theorem ending_toOption : (reading.ending ⟨token, first⟩).toOption = (reading.ending ⟨token, second⟩).toOption := by
  cases token <;> rfl

theorem expect_toOption (wanted : Token) (expected : String) (stage : Stage) :
    (reading.expect ⟨token, first⟩ wanted expected stage).toOption =
      (reading.expect ⟨token, second⟩ wanted expected stage).toOption := by
  unfold expect
  split <;> rfl

theorem expectName_toOption (expected : String) (stage : String → Stage) :
    (reading.expectName ⟨token, first⟩ expected stage).toOption =
      (reading.expectName ⟨token, second⟩ expected stage).toOption := by
  cases token <;> rfl

theorem expectPath_toOption (expected : String) :
    (expectPath ⟨token, first⟩ expected).toOption = (expectPath ⟨token, second⟩ expected).toOption := by
  cases token with
  | path text =>
    unfold expectPath
    dsimp only
    split <;> rfl
  | _ => rfl

theorem expectLiteral_toOption :
    (expectLiteral ⟨token, first⟩).toOption = (expectLiteral ⟨token, second⟩).toOption := by
  cases token with
  | integer digits =>
    unfold expectLiteral
    dsimp only
    split <;> rfl
  | _ => rfl

/-- What follows two answers that agree up to their errors agrees up to its errors. -/
theorem bind_toOption {α : Type} {answer other : Except ParseError α} (next : α → Outcome)
    (h : answer.toOption = other.toOption) : (answer >>= next).toOption = (other >>= next).toOption := by
  cases answer <;> cases other <;> cases h <;> rfl

theorem afterPattern_toOption :
    (reading.afterPattern ⟨token, first⟩).toOption = (reading.afterPattern ⟨token, second⟩).toOption := by
  unfold afterPattern
  cases reading.verb with
  | find => cases token <;> rfl
  | assign => exact expect_toOption reading token first second _ _ _
  | create => exact ending_toOption reading token first second
  | delete => exact ending_toOption reading token first second

/-- Where a token stands shows in errors only. -/
theorem step_toOption : (reading.step ⟨token, first⟩).toOption = (reading.step ⟨token, second⟩).toOption := by
  unfold step
  cases reading.stage with
  | nodeOpen | bindingColon | edgeBracket | edgeColon | edgeClose | keyColon =>
    exact expect_toOption reading token first second _ _ _
  | edgeArrow source label => exact expect_toOption { reading with openEdge := _ } token first second _ _ _
  | bindingName | kind | edgeLabel => exact expectName_toOption reading token first second _ _
  | firstKey owner =>
    dsimp only
    unfold readFirstKey
    split
    · rfl
    · exact bind_toOption _ (expectPath_toOption token first second _)
  | key | filterPath | projectionPath => exact bind_toOption _ (expectPath_toOption token first second _)
  | value | filterValue => exact bind_toOption _ (expectLiteral_toOption token first second)
  | patternMore id =>
    cases token <;> first | rfl | exact afterPattern_toOption reading _ first second
  | close => exact ending_toOption reading token first second
  | verb | nodeBlockOrClose | nodeClose | emptyBlockClose | blockMore | filterComparison | filterMore |
    projectionMore | finish => cases token <;> rfl

end Places

/-- A run gives the query that the tokens complete. -/
theorem run_toOption (reading : Reading) (tokens : List PlacedToken) :
    (reading.run tokens).toOption = reading.answer? (tokens.map (·.token)) := by
  induction tokens generalizing reading with
  | nil => rfl
  | cons placed rest ih =>
    have hstep := step_toOption reading placed.token placed.place .start
    rw [List.map_cons, answer?_cons, run]
    change (reading.step placed).toOption = _ at hstep
    cases hplaced : reading.step placed <;> cases hstart : reading.step ⟨placed.token, .start⟩ <;>
      rw [hplaced, hstart] at hstep
    · rfl
    · cases hstep
    · cases hstep
    · rename_i outcome other
      cases hstep
      cases outcome with
      | inl next => exact ih next
      | inr query => rfl

/-- Tokens complete a query after a sequence of answers exactly when they do after the last. -/
theorem follow_bind {α : Type} {answer : Except ParseError α} {next : α → Outcome} {rest : List Token} {query : Query} :
    follow (answer >>= next) rest = some query ↔ ∃ a, answer = .ok a ∧ follow (next a) rest = some query := by
  cases answer with
  | error cause => exact ⟨nofun, fun ⟨_, h, _⟩ => nomatch h⟩
  | ok a => exact ⟨fun h => ⟨a, rfl, h⟩, fun ⟨_, h, hnext⟩ => by cases h; exact hnext⟩

end Reading

/-! ## Phrases and what they do to a reading -/

section Numbers

variable {front rest : List Token}

theorem numbersFit_append : NumbersFit (front ++ rest) ↔ NumbersFit front ∧ NumbersFit rest := by
  simp only [NumbersFit, List.mem_append, or_imp, forall_and]

theorem numbersFit_nil : NumbersFit [] :=
  fun _ h => absurd h List.not_mem_nil

/-- A token that is no number says nothing about numbers. -/
theorem numbersFit_singleton {token : Token} (h : ∀ digits, token ≠ .integer digits) : NumbersFit [token] :=
  fun digits hmem => absurd (List.mem_singleton.1 hmem).symm (h digits)

theorem numbersFit_cons {token : Token} (h : ∀ digits, token ≠ .integer digits) :
    NumbersFit (token :: rest) ↔ NumbersFit rest := by
  rw [← List.singleton_append, numbersFit_append]
  exact and_iff_right (numbersFit_singleton h)

end Numbers

namespace Reading

open Phrase

variable {reading : Reading} {query : Query} {rest : List Token}

/-- A value that is no number is read as it is, a number when it fits. -/
theorem expectLiteral_token {value : Value} {place : Place} {literal : Literal} :
    expectLiteral ⟨value.token, place⟩ = .ok literal ↔ NumbersFit [value.token] ∧ literal = value.literal := by
  cases value with
  | string | boolean =>
    simp [expectLiteral, Value.token, Value.literal, numbersFit_singleton, eq_comm]
  | integer digits =>
    have hnumber : digits.toList.foldl (fun n c => 10 * n + (c.toNat - 48)) 0 = numberOf digits := by
      rw [numberOf, Nat.ofDigitChars_eq_foldl]
      rfl
    have hfits : NumbersFit [Token.integer digits] ↔ numberOf digits < 2 ^ 63 := by
      simp [NumbersFit]
      omega
    have hbound : Nat.pow 2 63 = 2 ^ 63 := rfl
    simp only [expectLiteral, Value.token, Value.literal, Literal.integerOf?, hnumber, hfits, hbound]
    by_cases h : numberOf digits < 2 ^ 63
    · simp only [h, ↓reduceIte, true_and, Except.ok.injEq]
      exact eq_comm
    · simp only [h, ↓reduceIte, false_and, reduceCtorEq]

theorem answer?_value {owner : BlockOwner} {properties : List Property} {key : String} {value : Value} :
    (reading.atStage (.value owner properties key)).answer? (value.token :: rest) = some query ↔
      NumbersFit [value.token] ∧
        (reading.atStage (.blockMore owner (properties ++ [⟨key, value.literal⟩]))).answer? rest = some query := by
  rw [answer?_cons]
  refine follow_bind.trans ?_
  simp only [expectLiteral_token]
  constructor
  · rintro ⟨_, ⟨hfits, rfl⟩, h⟩
    exact ⟨hfits, h⟩
  · rintro ⟨hfits, h⟩
    exact ⟨_, ⟨hfits, rfl⟩, h⟩


/-- A path with characters is read as it is. -/
theorem expectPath_path (path : PathText) (place : Place) (expected : String) :
    expectPath ⟨.path path, place⟩ expected = .ok path.1 :=
  if_neg path.2

theorem answer?_key {owner : BlockOwner} {properties : List Property} {path : PathText} :
    (reading.atStage (.key owner properties)).answer? (.path path :: rest) =
      (reading.atStage (.keyColon owner properties (unquoteKey path))).answer? rest := by
  rw [answer?_cons]
  change follow (expectPath _ _ >>= _) _ = _
  rw [expectPath_path]
  rfl

theorem answer?_firstKey {owner : BlockOwner} {path : PathText} :
    (reading.atStage (.firstKey owner)).answer? (.path path :: rest) =
      (reading.atStage (.keyColon owner [] (unquoteKey path))).answer? rest := by
  have hpath : Token.path path ≠ .path "" := by simpa using path.2
  rw [answer?_cons]
  change follow (readFirstKey _ _ owner) _ = _
  rw [readFirstKey, if_neg hpath, expectPath_path]
  rfl

/-- After its key a pair is read with its value. -/
theorem answer?_pair {owner : BlockOwner} {properties : List Property} {pair : Pair} :
    (reading.atStage (.keyColon owner properties (unquoteKey pair.key))).answer?
        (.colon :: pair.value.token :: rest) = some query ↔
      NumbersFit pair.tokens ∧
        (reading.atStage (.blockMore owner (properties ++ [pair.property]))).answer? rest = some query := by
  have hfits : NumbersFit pair.tokens ↔ NumbersFit [pair.value.token] := by
    simp [Pair.tokens, numbersFit_cons]
  rw [hfits]
  exact answer?_value

/-- Pairs after a comma each, and the end of the block. -/
theorem answer?_morePairs {owner : BlockOwner} {properties : List Property} {pairs : List Pair} :
    (reading.atStage (.blockMore owner properties)).answer? (morePairs pairs ++ .rightBrace :: rest) = some query ↔
      NumbersFit (morePairs pairs) ∧
        follow (reading.closeBlock (properties ++ pairs.map Pair.property) owner) rest = some query := by
  induction pairs generalizing properties with
  | nil =>
    rw [List.map_nil, List.append_nil]
    refine Iff.trans ?_ (and_iff_right numbersFit_nil).symm
    cases owner <;> exact Iff.rfl
  | cons pair more ih =>
    have hcomma : (reading.atStage (.blockMore owner properties)).answer?
        (morePairs (pair :: more) ++ .rightBrace :: rest) =
          (reading.atStage (.key owner properties)).answer? (.path pair.key :: .colon :: pair.value.token ::
            (morePairs more ++ .rightBrace :: rest)) := rfl
    have hfits : NumbersFit (morePairs (pair :: more)) ↔ NumbersFit pair.tokens ∧ NumbersFit (morePairs more) := by
      simp [morePairs, numbersFit_cons, numbersFit_append]
    rw [hcomma, answer?_key, answer?_pair, ih, hfits, and_assoc, List.append_assoc]
    rfl

/-- A block after its opening brace. -/
theorem answer?_blockRest {owner : BlockOwner} {pairs : List Pair} :
    (reading.atStage (.firstKey owner)).answer? (blockRest pairs ++ rest) = some query ↔
      NumbersFit (blockRest pairs) ∧ follow (reading.closeBlock (pairs.map Pair.property) owner) rest = some query := by
  cases pairs with
  | nil =>
    refine Iff.trans ?_ (and_iff_right ?_).symm
    · cases owner <;> exact Iff.rfl
    · simp [blockRest, numbersFit_cons, numbersFit_nil]
  | cons pair more =>
    have hstart : (reading.atStage (.firstKey owner)).answer? (blockRest (pair :: more) ++ rest) =
        (reading.atStage (.firstKey owner)).answer? (.path pair.key :: .colon :: pair.value.token ::
          (morePairs more ++ .rightBrace :: rest)) := by
      simp [blockRest, Pair.tokens]
    have hfits : NumbersFit (blockRest (pair :: more)) ↔ NumbersFit pair.tokens ∧ NumbersFit (morePairs more) := by
      simp [blockRest, numbersFit_append, numbersFit_singleton]
    rw [hstart, answer?_firstKey, answer?_pair, answer?_morePairs, hfits, and_assoc]
    rfl

/-- A mention of a node. -/
theorem answer?_mention {mention : Mention} :
    (reading.atStage .nodeOpen).answer? (mention.tokens ++ rest) = some query ↔
      NumbersFit mention.tokens ∧ follow (reading.addNode mention.head mention.properties) rest = some query := by
  obtain ⟨head, block⟩ := mention
  cases block with
  | none =>
    refine Iff.trans ?_ (and_iff_right ?_).symm
    · exact Iff.rfl
    · simp [Mention.tokens, numbersFit_cons, numbersFit_nil]
  | some pairs =>
    have hstart : (reading.atStage .nodeOpen).answer? ((⟨head, some pairs⟩ : Mention).tokens ++ rest) =
        (reading.atStage (.firstKey (.node head))).answer? (blockRest pairs ++ .rightParen :: rest) := by
      rw [Mention.tokens, Option.elim_some, blockTokens]
      simp only [List.append_assoc, List.cons_append, List.nil_append]
      rfl
    have hfits : NumbersFit (⟨head, some pairs⟩ : Mention).tokens ↔ NumbersFit (blockRest pairs) := by
      simp [Mention.tokens, blockTokens, numbersFit_cons, numbersFit_append, numbersFit_nil]
    rw [hstart, answer?_blockRest, hfits]
    rfl

end Reading
end ClusterQuery.Query
