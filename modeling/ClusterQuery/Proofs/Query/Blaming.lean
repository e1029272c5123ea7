import ClusterQuery.Proofs.Query.Awaiting
import ClusterQuery.Proofs.Query.Building
import ClusterQuery.Proofs.Query.Tiling

/-!
# The token at fault

A reading that takes up a token goes on with what the grammar has after it, and one that refuses a token does so where
no query goes on with it (`Reading.step_tells`). So the token that an error points at is the first with which the tokens
up to it begin no query (`Fault`).
-/

namespace ClusterQuery.Query

/-- An error that says what is wrong with a token, and where the token is. -/
inductive ParseError.Blames (placed : PlacedToken) : ParseError → Prop where
  | misplaced (expected : String) : Blames placed (.unexpected placed expected)
  | emptyPath : placed.token = .path "" → Blames placed (.emptyPath placed.place)
  | invalidInteger {digits : String} : placed.token = .integer digits → 2 ^ 63 - 1 < numberOf digits →
    Blames placed (.invalidInteger digits placed.place)

namespace Reading

/-- What the grammar has after what has been read. -/
def awaited (reading : Reading) : Set (List Token) :=
  reading.stage.awaited reading.verb

/-- Why a reading refuses a token. -/
inductive Refuses (reading : Reading) (placed : PlacedToken) : ParseError → Prop where
  /-- No query goes on with the token. -/
  | blame {cause : ParseError} : cause.Blames placed →
    (NumbersFit [placed.token] → ∀ rest, placed.token :: rest ∉ reading.awaited) → Refuses reading placed cause
  /-- There is no query. -/
  | empty : reading.stage = .verb → placed.token = .finish → Refuses reading placed .emptyQuery
  | conflict (name first second : String) : Refuses reading placed (.conflictingBinding name first second)
  | graph (refusal : GraphError) : Refuses reading placed (.graph refusal)

/-- What follows a token tells what the grammar has there. -/
def Tells (reading : Reading) (placed : PlacedToken) : Outcome → Prop
  | .error cause => reading.Refuses placed cause
  | .ok (.inl next) => placed.token ≠ .finish ∧ next.stage ≠ .verb ∧ NumbersFit [placed.token] ∧
    ∀ rest, placed.token :: rest ∈ reading.awaited ↔ rest ∈ next.awaited
  | .ok (.inr _) => True

section Telling

open Awaited

variable {reading : Reading} {placed : PlacedToken}

theorem tells_unexpected {expected : String} (h : ∀ rest, placed.token :: rest ∉ reading.awaited) :
    reading.Tells placed (.error (.unexpected placed expected)) :=
  .blame (.misplaced expected) fun _ => h

/-- A token that is no number and goes on to a stage. -/
theorem tells_goTo {next : Reading} {stage : Stage} (hfinish : placed.token ≠ .finish) (hstage : stage ≠ .verb)
    (htoken : ∀ digits, placed.token ≠ .integer digits)
    (h : ∀ rest, placed.token :: rest ∈ reading.awaited ↔ rest ∈ stage.awaited next.verb) :
    reading.Tells placed (next.goTo stage) :=
  ⟨hfinish, hstage, numbersFit_singleton htoken, h⟩

theorem tells_expect {next : Reading} {wanted : Token} {expected : String} {stage : Stage} (hfinish : wanted ≠ .finish)
    (hstage : stage ≠ .verb) (hwanted : ∀ digits, wanted ≠ .integer digits)
    (h : ∀ rest, placed.token :: rest ∈ reading.awaited ↔ placed.token = wanted ∧ rest ∈ stage.awaited next.verb) :
    reading.Tells placed (next.expect placed wanted expected stage) := by
  unfold expect
  split
  · rename_i htoken
    exact tells_goTo (htoken ▸ hfinish) hstage (htoken ▸ hwanted) fun rest => (h rest).trans (and_iff_right htoken)
  · rename_i htoken
    exact tells_unexpected fun rest hmem => htoken ((h rest).1 hmem).1

theorem tells_expectName {expected : String} {stage : String → Stage} (hstage : ∀ name, stage name ≠ .verb)
    (h : ∀ name, reading.awaited = before names ((stage name).awaited reading.verb)) :
    reading.Tells placed (reading.expectName placed expected stage) := by
  unfold expectName
  split
  · rename_i name htoken
    refine tells_goTo (htoken ▸ nofun) (hstage name) (htoken ▸ fun _ => nofun) fun rest => ?_
    simp [h name, htoken, names]
  · rename_i htoken
    refine tells_unexpected fun rest => ?_
    rw [h "", cons_mem_before]
    rintro ⟨⟨name, hname⟩, -⟩
    exact htoken name hname.symm

/-- Where a path must come. -/
theorem tells_expectPath {expected : String} {next : String → Reading} {stage : String → Stage}
    (hstage : ∀ text, stage text ≠ .verb)
    (h : ∀ text rest, placed.token :: rest ∈ reading.awaited ↔
      placed.token ∈ paths ∧ rest ∈ (stage text).awaited (next text).verb) :
    reading.Tells placed (expectPath placed expected >>= fun text => (next text).goTo (stage text)) := by
  unfold expectPath
  split
  · rename_i text htoken
    split
    · rename_i hempty
      refine .blame (.emptyPath (hempty ▸ htoken)) fun _ rest => ?_
      rw [h "", htoken]
      rintro ⟨⟨path, hpath⟩, -⟩
      exact path.2 ((Token.path.inj hpath).trans hempty)
    · rename_i hne
      refine tells_goTo (htoken ▸ nofun) (hstage text) (htoken ▸ fun _ => nofun) fun rest => ?_
      rw [h text, htoken]
      exact and_iff_right ⟨⟨text, hne⟩, rfl⟩
  · rename_i htoken
    refine tells_unexpected fun rest => ?_
    rw [h ""]
    rintro ⟨⟨path, hpath⟩, -⟩
    exact htoken path hpath.symm

theorem numbersFit_integer {digits : String} :
    NumbersFit [Token.integer digits] ↔ numberOf digits ≤ 2 ^ 63 - 1 := by
  simp [NumbersFit]

/-- What is no value is at fault, and a number when it does not fit. -/
theorem expectLiteral_blames {cause : ParseError} (h : expectLiteral placed = .error cause) :
    cause.Blames placed ∧ (NumbersFit [placed.token] → placed.token ∉ values) := by
  obtain ⟨token, place⟩ := placed
  cases token with
  | string | boolean => cases h
  | integer digits =>
    have hfits : ¬NumbersFit [Token.integer digits] := fun hfits => by
      have hliteral : expectLiteral ⟨(Phrase.Value.integer digits).token, place⟩ = .ok _ :=
        expectLiteral_token.2 ⟨hfits, rfl⟩
      exact nomatch h.symm.trans hliteral
    refine ⟨?_, fun h => absurd h hfits⟩
    unfold expectLiteral at h
    dsimp only at h
    split at h
    · cases h
    · cases h
      exact .invalidInteger rfl (Nat.lt_of_not_le (mt numbersFit_integer.2 hfits))
  | _ =>
    cases h
    refine ⟨.misplaced _, fun _ => ?_⟩
    rintro ⟨value, hvalue⟩
    cases value <;> cases hvalue

theorem exists_value_of_expectLiteral {literal : Literal} (h : expectLiteral placed = .ok literal) :
    ∃ value : Phrase.Value, placed.token = value.token := by
  unfold expectLiteral at h
  split at h <;> rename_i htoken
  · exact ⟨.string _, htoken⟩
  · exact ⟨.boolean _, htoken⟩
  · exact ⟨.integer _, htoken⟩
  · cases h

/-- Where a value must come. -/
theorem tells_expectLiteral {next : Literal → Reading} {stage : Literal → Stage}
    (hstage : ∀ literal, stage literal ≠ .verb)
    (h : ∀ literal, reading.awaited = before values ((stage literal).awaited (next literal).verb)) :
    reading.Tells placed (expectLiteral placed >>= fun literal => (next literal).goTo (stage literal)) := by
  cases hliteral : expectLiteral placed with
  | error cause =>
    obtain ⟨hblames, hvalue⟩ := expectLiteral_blames hliteral
    refine .blame hblames fun hfits rest => ?_
    rw [h (.boolean true), cons_mem_before]
    exact fun hmem => hvalue hfits hmem.1
  | ok literal =>
    obtain ⟨value, hvalue⟩ := exists_value_of_expectLiteral hliteral
    obtain ⟨token, place⟩ := placed
    obtain rfl : token = value.token := hvalue
    refine ⟨by cases value <;> nofun, hstage literal, (expectLiteral_token.1 hliteral).1, fun rest => ?_⟩
    rw [h literal, cons_mem_before]
    exact and_iff_right ⟨value, rfl⟩

theorem tells_ending (h : ∀ rest, placed.token :: rest ∈ reading.awaited ↔ placed.token :: rest ∈ ends) :
    reading.Tells placed (reading.ending placed) := by
  unfold ending
  split
  · rename_i htoken
    refine tells_goTo (htoken ▸ nofun) nofun (htoken ▸ fun _ => nofun) fun rest => ?_
    rw [h rest, htoken, cons_mem_ends]
    simp [Stage.awaited]
  · trivial
  · rename_i hsemicolon hfinish
    refine tells_unexpected fun rest => ?_
    rw [h rest, cons_mem_ends]
    rintro (⟨htoken, -⟩ | ⟨htoken, -⟩)
    · exact hsemicolon htoken
    · exact hfinish htoken

theorem tells_closeBlock {properties : List Property} {owner : BlockOwner} (htoken : placed.token = .rightBrace)
    (h : ∀ rest, placed.token :: rest ∈ reading.awaited ↔ rest ∈ afterBlock reading.verb owner) :
    reading.Tells placed (reading.closeBlock properties owner) := by
  cases owner with
  | node head => exact tells_goTo (htoken ▸ nofun) nofun (htoken ▸ fun _ => nofun) h
  | query => exact tells_goTo (htoken ▸ nofun) nofun (htoken ▸ fun _ => nofun) h

theorem tells_addNode {head : NodeHead} {properties : List Property} (htoken : placed.token = .rightParen)
    (h : ∀ rest, placed.token :: rest ∈ reading.awaited ↔ rest ∈ morePattern reading.verb) :
    reading.Tells placed (reading.addNode head properties) := by
  have hgoTo {next : Reading} {id : String} (hverb : next.verb = reading.verb) :
      reading.Tells placed (next.goTo (.patternMore id)) :=
    tells_goTo (htoken ▸ nofun) nofun (htoken ▸ fun _ => nofun) (hverb ▸ h)
  unfold addNode
  dsimp only
  split
  · exact .conflict _ _ _
  · split
    · exact hgoTo rfl
    · split
      · exact .graph _
      · exact hgoTo rfl

theorem tells_readFirstKey {owner : BlockOwner} (h : reading.awaited = firstKey reading.verb owner) :
    reading.Tells placed (reading.readFirstKey placed owner) := by
  unfold readFirstKey
  split
  · rename_i htoken
    refine tells_goTo (htoken ▸ nofun) nofun (htoken ▸ fun _ => nofun) fun rest => ?_
    have hpath : Token.path "" ∉ paths := fun ⟨path, hpath⟩ => path.2 (Token.path.inj hpath)
    rw [h, htoken, cons_mem_firstKey]
    simp [hpath, Stage.awaited]
  · rename_i htoken
    refine tells_expectPath (fun _ => nofun) fun text rest => ?_
    rw [h, cons_mem_firstKey]
    simp [htoken, Stage.awaited]

theorem tells_afterPattern
    (h : ∀ rest, placed.token :: rest ∈ reading.awaited ↔ placed.token :: rest ∈ Awaited.afterPattern reading.verb) :
    reading.Tells placed (reading.afterPattern placed) := by
  unfold Reading.afterPattern
  split <;> rename_i hverb <;> rw [hverb] at h
  · split
    · rename_i htoken
      refine tells_goTo (htoken ▸ nofun) nofun (htoken ▸ fun _ => nofun) fun rest => ?_
      rw [h, htoken, cons_mem_afterPattern_find, cons_mem_projected, cons_mem_ends]
      simp [Stage.awaited]
    · rename_i htoken
      refine tells_goTo (htoken ▸ nofun) nofun (htoken ▸ fun _ => nofun) fun rest => ?_
      rw [h, htoken, cons_mem_afterPattern_find, cons_mem_projected, cons_mem_ends]
      simp [Stage.awaited]
    · rename_i hwhere hreturn
      refine tells_ending fun rest => ?_
      rw [h, cons_mem_afterPattern_find, cons_mem_projected]
      simp [show placed.token ≠ .whereWord from hwhere, show placed.token ≠ .returnWord from hreturn]
  · exact tells_expect nofun nofun (fun _ => nofun) fun rest => (h rest).trans <| by
      rw [cons_mem_afterPattern_assign, hverb]
      rfl
  · exact tells_ending fun rest => (h rest).trans (afterPattern_eq_ends (Or.inl rfl) ▸ Iff.rfl)
  · exact tells_ending fun rest => (h rest).trans (afterPattern_eq_ends (Or.inr rfl) ▸ Iff.rfl)

theorem tells_verb (hstage : reading.stage = .verb) : reading.Tells placed (reading.step placed) := by
  have hverb (verb : Verb) (rest : List Token) :
      Phrase.verbToken verb :: rest ∈ reading.awaited ↔ rest ∈ Awaited.nodeOpen verb := by
    rw [awaited, hstage]
    refine cons_mem_phrases.trans ⟨?_, fun h => ⟨verb, rfl, h⟩⟩
    rintro ⟨other, htoken, h⟩
    cases verb <;> cases other <;> first | exact h | cases htoken
  unfold step
  rw [hstage]
  dsimp only
  split <;> rename_i htoken
  · exact tells_goTo (htoken ▸ nofun) nofun (htoken ▸ fun _ => nofun) fun rest => htoken ▸ hverb .find rest
  · exact tells_goTo (htoken ▸ nofun) nofun (htoken ▸ fun _ => nofun) fun rest => htoken ▸ hverb .create rest
  · exact tells_goTo (htoken ▸ nofun) nofun (htoken ▸ fun _ => nofun) fun rest => htoken ▸ hverb .assign rest
  · exact tells_goTo (htoken ▸ nofun) nofun (htoken ▸ fun _ => nofun) fun rest => htoken ▸ hverb .delete rest
  · exact .empty hstage htoken
  · rename_i hmatch hcreate hset hdelete
    refine tells_unexpected fun rest hmem => ?_
    rw [awaited, hstage] at hmem
    obtain ⟨verb, hword, -⟩ := cons_mem_phrases.1 hmem
    cases verb with
    | find => exact hmatch hword
    | create => exact hcreate hword
    | assign => exact hset hword
    | delete => exact hdelete hword

theorem tells_patternMore {id : String} (hstage : reading.stage = .patternMore id) :
    reading.Tells placed (reading.step placed) := by
  have hmore (token : Token) (rest : List Token) : token :: rest ∈ reading.awaited ↔
      (token = .dash ∧ rest ∈ Awaited.edgeBracket reading.verb) ∨
        (token = .comma ∧ rest ∈ Awaited.nodeOpen reading.verb) ∨
          token :: rest ∈ Awaited.afterPattern reading.verb := by
    rw [awaited, hstage]
    exact cons_mem_morePattern
  unfold step
  rw [hstage]
  dsimp only
  split <;> rename_i htoken
  · refine tells_goTo (htoken ▸ nofun) nofun (htoken ▸ fun _ => nofun) fun rest => ?_
    have hnot : Token.dash :: rest ∉ Awaited.afterPattern reading.verb := fun h =>
      absurd (first_of_afterPattern h) (by decide)
    simp [hmore, htoken, hnot, Stage.awaited]
  · refine tells_goTo (htoken ▸ nofun) nofun (htoken ▸ fun _ => nofun) fun rest => ?_
    have hnot : Token.comma :: rest ∉ Awaited.afterPattern reading.verb := fun h =>
      absurd (first_of_afterPattern h) (by decide)
    simp [hmore, htoken, hnot, Stage.awaited]
  · rename_i hdash
    refine tells_afterPattern fun rest => (hmore _ rest).trans ⟨?_, fun h => Or.inr (Or.inr h)⟩
    rintro (⟨h, -⟩ | ⟨h, -⟩ | h)
    · exact absurd h hdash
    · exact absurd h htoken
    · exact h

/-- After a condition or a projected path: a separator, a clause or the end. -/
theorem tells_filterMore (hstage : reading.stage = .filterMore) : reading.Tells placed (reading.step placed) := by
  have hmore (token : Token) (rest : List Token) : token :: rest ∈ reading.awaited ↔
      ((token = .andWord ∨ token = .comma) ∧ rest ∈ Awaited.filterPath) ∨
        (token = .returnWord ∧ rest ∈ before paths morePaths) ∨ token :: rest ∈ ends := by
    rw [awaited, hstage, ← cons_mem_projected]
    exact cons_mem_moreConditions
  unfold step
  rw [hstage]
  dsimp only
  split <;> rename_i htoken
  · refine tells_goTo (htoken ▸ nofun) nofun (htoken ▸ fun _ => nofun) fun rest => ?_
    simp [hmore, htoken, cons_mem_ends, Stage.awaited]
  · refine tells_goTo (htoken ▸ nofun) nofun (htoken ▸ fun _ => nofun) fun rest => ?_
    simp [hmore, htoken, cons_mem_ends, Stage.awaited]
  · refine tells_goTo (htoken ▸ nofun) nofun (htoken ▸ fun _ => nofun) fun rest => ?_
    simp [hmore, htoken, cons_mem_ends, Stage.awaited]
  · rename_i hand hcomma
    refine tells_ending fun rest => (hmore _ rest).trans ⟨?_, fun h => Or.inr (Or.inr h)⟩
    rintro (⟨h | h, -⟩ | ⟨h, -⟩ | h)
    · exact absurd h hand
    · exact absurd h hcomma
    · exact absurd h htoken
    · exact h

theorem tells_projectionMore (hstage : reading.stage = .projectionMore) :
    reading.Tells placed (reading.step placed) := by
  have hmore (token : Token) (rest : List Token) : token :: rest ∈ reading.awaited ↔
      (token = .comma ∧ rest ∈ before paths morePaths) ∨ token :: rest ∈ ends := by
    rw [awaited, hstage]
    exact cons_mem_morePaths
  unfold step
  rw [hstage]
  dsimp only
  split <;> rename_i htoken
  · refine tells_goTo (htoken ▸ nofun) nofun (htoken ▸ fun _ => nofun) fun rest => ?_
    simp [hmore, htoken, cons_mem_ends, Stage.awaited]
  · refine tells_ending fun rest => (hmore _ rest).trans ⟨?_, Or.inr⟩
    rintro (⟨h, -⟩ | h)
    · exact absurd h htoken
    · exact h

theorem tells_nodeBlockOrClose {head : NodeHead} (hstage : reading.stage = .nodeBlockOrClose head) :
    reading.Tells placed (reading.step placed) := by
  have hblock (token : Token) (rest : List Token) : token :: rest ∈ reading.awaited ↔
      (token = .leftBrace ∧ rest ∈ Awaited.firstKey reading.verb (.node head)) ∨
        (token = .rightParen ∧ rest ∈ morePattern reading.verb) := by
    rw [awaited, hstage]
    exact cons_mem_nodeBlockOrClose head
  unfold step
  rw [hstage]
  dsimp only
  split <;> rename_i htoken
  · refine tells_goTo (htoken ▸ nofun) nofun (htoken ▸ fun _ => nofun) fun rest => ?_
    simp [hblock, htoken, Stage.awaited]
  · exact tells_addNode htoken fun rest => by simp [hblock, htoken]
  · rename_i hbrace
    refine tells_unexpected fun rest hmem => ?_
    rcases (hblock _ rest).1 hmem with ⟨h, -⟩ | ⟨h, -⟩
    · exact hbrace h
    · exact htoken h

theorem tells_blockMore {owner : BlockOwner} {properties : List Property}
    (hstage : reading.stage = .blockMore owner properties) : reading.Tells placed (reading.step placed) := by
  have hmore (token : Token) (rest : List Token) : token :: rest ∈ reading.awaited ↔
      (token = .comma ∧ rest ∈ Awaited.key reading.verb owner) ∨
        (token = .rightBrace ∧ rest ∈ afterBlock reading.verb owner) := by
    rw [awaited, hstage]
    exact cons_mem_blockMore
  unfold step
  rw [hstage]
  dsimp only
  split <;> rename_i htoken
  · refine tells_goTo (htoken ▸ nofun) nofun (htoken ▸ fun _ => nofun) fun rest => ?_
    simp [hmore, htoken, Stage.awaited]
  · exact tells_closeBlock htoken fun rest => by simp [hmore, htoken]
  · rename_i hcomma
    refine tells_unexpected fun rest hmem => ?_
    rcases (hmore _ rest).1 hmem with ⟨h, -⟩ | ⟨h, -⟩
    · exact hcomma h
    · exact htoken h

theorem tells_filterComparison {path : String} (hstage : reading.stage = .filterComparison path) :
    reading.Tells placed (reading.step placed) := by
  have hcomparison (comparison : Comparison) (rest : List Token) :
      Phrase.comparisonToken comparison :: rest ∈ reading.awaited ↔ rest ∈ Awaited.filterValue := by
    rw [awaited, hstage]
    exact cons_mem_before.trans (and_iff_right ⟨comparison, rfl⟩)
  unfold step
  rw [hstage]
  dsimp only
  split <;> rename_i htoken
  · exact tells_goTo (htoken ▸ nofun) nofun (htoken ▸ fun _ => nofun) fun rest => htoken ▸ hcomparison .equal rest
  · exact tells_goTo (htoken ▸ nofun) nofun (htoken ▸ fun _ => nofun) fun rest => htoken ▸ hcomparison .notEqual rest
  · rename_i hequal
    refine tells_unexpected fun rest hmem => ?_
    rw [awaited, hstage] at hmem
    obtain ⟨⟨comparison, hsign⟩, -⟩ := cons_mem_before.1 hmem
    cases comparison with
    | equal => exact hequal hsign.symm
    | notEqual => exact htoken hsign.symm

/-- What follows a token of a reading tells what the grammar has there. -/
theorem step_tells (reading : Reading) (placed : PlacedToken) : reading.Tells placed (reading.step placed) := by
  have hawaited {stage : Stage} (h : reading.stage = stage) : reading.awaited = stage.awaited reading.verb := by
    rw [awaited, h]
  cases hstage : reading.stage with
  | verb => exact tells_verb hstage
  | patternMore => exact tells_patternMore hstage
  | filterMore => exact tells_filterMore hstage
  | projectionMore => exact tells_projectionMore hstage
  | nodeBlockOrClose => exact tells_nodeBlockOrClose hstage
  | blockMore => exact tells_blockMore hstage
  | filterComparison => exact tells_filterComparison hstage
  | nodeOpen | bindingColon | edgeBracket | edgeColon | edgeClose | keyColon | edgeArrow =>
    rw [step, hstage]
    exact tells_expect nofun nofun (fun _ => nofun) fun rest => by rw [hawaited hstage]; exact cons_mem_before
  | bindingName | kind | edgeLabel =>
    rw [step, hstage]
    exact tells_expectName (fun _ => nofun) fun _ => hawaited hstage
  | firstKey =>
    rw [step, hstage]
    exact tells_readFirstKey (hawaited hstage)
  | key | filterPath | projectionPath =>
    rw [step, hstage]
    exact tells_expectPath (fun _ => nofun) fun text rest => by rw [hawaited hstage]; exact cons_mem_before
  | value | filterValue =>
    rw [step, hstage]
    exact tells_expectLiteral (fun _ => nofun) fun _ => hawaited hstage
  | close =>
    rw [step, hstage]
    exact tells_ending fun rest => by rw [hawaited hstage]; rfl
  | finish =>
    rw [step, hstage]
    dsimp only
    split <;> rename_i htoken
    · trivial
    · refine tells_unexpected fun rest hmem => htoken ?_
      rw [hawaited hstage] at hmem
      exact (List.cons.inj hmem).1
  | nodeClose head properties =>
    have hclose (rest : List Token) : placed.token :: rest ∈ reading.awaited ↔
        placed.token = .rightParen ∧ rest ∈ morePattern reading.verb := by
      rw [hawaited hstage]
      exact cons_mem_before
    rw [step, hstage]
    dsimp only
    split <;> rename_i htoken
    · exact tells_addNode htoken fun rest => (hclose rest).trans (and_iff_right htoken)
    · exact tells_unexpected fun rest hmem => htoken ((hclose rest).1 hmem).1
  | emptyBlockClose owner =>
    have hclose (rest : List Token) : placed.token :: rest ∈ reading.awaited ↔
        placed.token = .rightBrace ∧ rest ∈ afterBlock reading.verb owner := by
      rw [hawaited hstage]
      exact cons_mem_before
    rw [step, hstage]
    dsimp only
    split <;> rename_i htoken
    · exact tells_closeBlock htoken fun rest => (hclose rest).trans (and_iff_right htoken)
    · exact tells_unexpected fun rest hmem => htoken ((hclose rest).1 hmem).1

end Telling

/-! ## Runs -/

/-- The tokens that a reading takes up one after another, and the reading after them. -/
inductive TakesUp : Reading → List PlacedToken → Reading → Prop where
  | nil (reading : Reading) : TakesUp reading [] reading
  | cons {reading next last : Reading} {placed : PlacedToken} {rest : List PlacedToken} :
    reading.step placed = .ok (.inl next) → TakesUp next rest last → TakesUp reading (placed :: rest) last

/-- A run that fails does so at a token, after others that it takes up, or has none left. -/
theorem exists_of_run_error {tokens : List PlacedToken} {reading : Reading} {cause : ParseError}
    (h : reading.run tokens = .error cause) :
    (∃ last, reading.TakesUp tokens last) ∨
      ∃ front placed rest last, tokens = front ++ placed :: rest ∧ reading.TakesUp front last ∧
        last.step placed = .error cause := by
  induction tokens generalizing reading with
  | nil => exact Or.inl ⟨reading, .nil reading⟩
  | cons placed rest ih =>
    unfold run at h
    split at h <;> rename_i hstep
    · cases h
      exact Or.inr ⟨[], placed, rest, reading, rfl, .nil reading, hstep⟩
    · cases h
    · rename_i next
      rcases ih h with ⟨last, htakes⟩ | ⟨front, other, after, last, rfl, htakes, herror⟩
      · exact Or.inl ⟨last, .cons hstep htakes⟩
      · exact Or.inr ⟨placed :: front, other, after, last, rfl, .cons hstep htakes, herror⟩

variable {reading last : Reading} {front : List PlacedToken}

theorem TakesUp.finish_notMem (h : reading.TakesUp front last) : .finish ∉ front.map (·.token) := by
  induction h with
  | nil => exact List.not_mem_nil
  | @cons reading next last placed rest hstep _ ih =>
    have htells := step_tells reading placed
    rw [hstep] at htells
    rw [List.map_cons, List.mem_cons, not_or]
    exact ⟨htells.1.symm, ih⟩

/-- Only before its first token a reading is where a query begins. -/
theorem TakesUp.eq_nil (h : reading.TakesUp front last) (hverb : last.stage = .verb) : front = [] := by
  induction h with
  | nil => rfl
  | @cons reading next last placed rest hstep htakes ih =>
    have htells := step_tells reading placed
    rw [hstep] at htells
    obtain rfl := ih hverb
    cases htakes with
    | nil => exact absurd hverb htells.2.1

/-- What the grammar has after the tokens that a reading takes up is what it has after the tokens before them. -/
theorem TakesUp.append_mem_awaited (h : reading.TakesUp front last) :
    NumbersFit (front.map (·.token)) ∧
      ∀ rest, front.map (·.token) ++ rest ∈ reading.awaited ↔ rest ∈ last.awaited := by
  induction h with
  | nil => exact ⟨numbersFit_nil, fun rest => Iff.rfl⟩
  | @cons reading next last placed rest hstep _ ih =>
    have htells := step_tells reading placed
    rw [hstep] at htells
    obtain ⟨-, -, hfits, hnext⟩ := htells
    exact ⟨numbersFit_append.2 ⟨hfits, ih.1⟩, fun tokens => (hnext _).trans (ih.2 tokens)⟩

end Reading

/-! ## Errors -/

/-- Tokens that begin a query of the grammar whose numbers fit. -/
def BeginsQuery (tokens : List Token) : Prop :=
  ∃ phrase : Phrase, NumbersFit phrase.tokens ∧ tokens <+: phrase.tokens

/-- The tokens that are read up to an error begin a query. -/
theorem Reading.TakesUp.beginsQuery {front : List PlacedToken} {last : Reading} (h : start.TakesUp front last) :
    BeginsQuery (front.map (·.token)) := by
  obtain ⟨hfits, hawaited⟩ := h.append_mem_awaited
  obtain ⟨rest, hrest, hmore⟩ := last.stage.awaited_completes last.verb
  obtain ⟨phrase, hphrase⟩ := (hawaited rest).2 hrest
  exact ⟨phrase, hphrase ▸ numbersFit_append.2 ⟨hfits, hmore⟩, rest, hphrase.symm⟩

/-- With a token that the grammar does not have next they begin none. -/
theorem Reading.TakesUp.not_beginsQuery {front : List PlacedToken} {last : Reading} {token : Token}
    (h : start.TakesUp front last) (hnone : NumbersFit [token] → ∀ rest, token :: rest ∉ last.awaited) :
    ¬BeginsQuery (front.map (·.token) ++ [token]) := by
  rintro ⟨phrase, hfits, rest, hphrase⟩
  rw [List.append_assoc] at hphrase
  rw [← hphrase, numbersFit_append, numbersFit_append] at hfits
  exact hnone hfits.2.1 rest ((h.append_mem_awaited.2 _).1 ⟨phrase, hphrase.symm⟩)

/-- The token that an error points at: the first with which the tokens up to it begin no query. -/
structure Fault (text : String) (cause : ParseError) (front : List PlacedToken) (placed : PlacedToken) : Prop where
  tokenize_eq : ∃ rest, tokenize text = front ++ placed :: rest
  /-- The reading of the tokens before it fails at the token. -/
  raised : ∃ reading, Reading.start.TakesUp front reading ∧ reading.step placed = .error cause
  place_eq : cause.place? = some placed.place
  beginsQuery : BeginsQuery (front.map (·.token))
  not_beginsQuery : ¬BeginsQuery (front.map (·.token) ++ [placed.token])
  illegalCharacter_iff : ∀ c, cause = .illegalCharacter c placed.place ↔ placed.token = .illegal c
  unexpectedEnd_iff : (∃ expected, cause = .unexpectedEnd expected placed.place) ↔ placed.token = .finish
  emptyPath : cause = .emptyPath placed.place → placed.token = .path ""
  invalidInteger : ∀ digits, cause = .invalidInteger digits placed.place →
    placed.token = .integer digits ∧ 2 ^ 63 - 1 < numberOf digits

namespace ParseError.Blames

variable {placed : PlacedToken} {cause : ParseError}

theorem place_eq (h : cause.Blames placed) : cause.place? = some placed.place := by
  obtain ⟨token, place⟩ := placed
  cases h with
  | misplaced expected => cases token <;> rfl
  | emptyPath => rfl
  | invalidInteger => rfl

theorem illegalCharacter_iff (h : cause.Blames placed) (c : Char) :
    cause = .illegalCharacter c placed.place ↔ placed.token = .illegal c := by
  obtain ⟨token, place⟩ := placed
  cases h with
  | misplaced expected => cases token <;> simp [unexpected]
  | emptyPath htoken | invalidInteger htoken =>
    dsimp only at htoken
    simp [htoken]

theorem unexpectedEnd_iff (h : cause.Blames placed) :
    (∃ expected, cause = .unexpectedEnd expected placed.place) ↔ placed.token = .finish := by
  obtain ⟨token, place⟩ := placed
  cases h with
  | misplaced expected => cases token <;> simp [unexpected]
  | emptyPath htoken | invalidInteger htoken =>
    dsimp only at htoken
    simp [htoken]

theorem token_of_emptyPath (h : cause.Blames placed) {place : Place} (hcause : cause = .emptyPath place) :
    placed.token = .path "" := by
  obtain ⟨token, here⟩ := placed
  cases h with
  | misplaced expected => cases token <;> cases hcause
  | emptyPath htoken => exact htoken
  | invalidInteger => cases hcause

theorem token_of_invalidInteger (h : cause.Blames placed) {digits : String} {place : Place}
    (hcause : cause = .invalidInteger digits place) :
    placed.token = .integer digits ∧ 2 ^ 63 - 1 < numberOf digits := by
  obtain ⟨token, here⟩ := placed
  cases h with
  | misplaced expected => cases token <;> cases hcause
  | emptyPath => cases hcause
  | invalidInteger htoken hlarge =>
    cases hcause
    exact ⟨htoken, hlarge⟩

end ParseError.Blames

section Errors

variable {text : String} {cause : ParseError}

/-- A text is refused at one of its tokens. -/
theorem exists_of_parse_error (h : parse text = .error cause) :
    ∃ front placed rest last, tokenize text = front ++ placed :: rest ∧ Reading.start.TakesUp front last ∧
      last.step placed = .error cause := by
  rcases Reading.exists_of_run_error h with ⟨last, htakes⟩ | herror
  · obtain ⟨front, hfront, -⟩ := tokensOf_finish text
    have hfinish : Token.finish ∈ (tokenize text).map (·.token) := by
      rw [← tokensOf, hfront]
      simp
    exact absurd hfinish htakes.finish_notMem
  · exact herror

/-- A text is refused for want of a query exactly when it is blank. -/
theorem parse_eq_emptyQuery_iff : parse text = .error .emptyQuery ↔ ∀ c ∈ text.toList, Text.isBlank c = true := by
  have hblank : Text.trimLeft text.toList = [] ↔ ∀ c ∈ text.toList, Text.isBlank c = true :=
    List.dropWhile_eq_nil_iff
  rw [← hblank]
  constructor
  · intro h
    obtain ⟨front, placed, rest, last, htokens, htakes, hstep⟩ := exists_of_parse_error h
    have htells := last.step_tells placed
    rw [hstep] at htells
    cases htells with
    | blame hblames => exact nomatch hblames.place_eq
    | empty hverb hfinish =>
      obtain rfl := htakes.eq_nil hverb
      have hhead := Lexer.head?_tokens (Lexer.ofText text.toList)
      rw [← tokenize, htokens] at hhead
      exact (Lexer.rest_of_finish (Option.some.inj hhead ▸ hfinish)).2
  · intro h
    have hnext : (Lexer.ofText text.toList).next.1.token = .finish := by
      rw [Lexer.next_of_nil rfl h]
    rw [parse, tokenize, Lexer.tokens_of_finish hnext, Lexer.next_of_nil rfl h]
    rfl

/-- An error that points at a place points at the first token with which the tokens up to it begin no query; one that
points at none is that of a blank text or of a binding with two kinds. -/
theorem parse_blames (h : parse text = .error cause) :
    (∀ place, cause.place? = some place → ∃ front placed, placed.place = place ∧ Fault text cause front placed) ∧
      (cause.place? = none →
        (cause = .emptyQuery ∧ ∀ c ∈ text.toList, Text.isBlank c = true) ∨
          ∃ name first second, cause = .conflictingBinding name first second) := by
  obtain ⟨front, placed, rest, last, htokens, htakes, hstep⟩ := exists_of_parse_error h
  have htells := last.step_tells placed
  rw [hstep] at htells
  cases htells with
  | blame hblames hnone =>
    refine ⟨fun place hplace => ⟨front, placed, ?_, ?_⟩, fun hplace => ?_⟩
    · exact Option.some.inj (hblames.place_eq.symm.trans hplace)
    · exact {
        tokenize_eq := ⟨rest, htokens⟩
        raised := ⟨last, htakes, hstep⟩
        place_eq := hblames.place_eq
        beginsQuery := htakes.beginsQuery
        not_beginsQuery := htakes.not_beginsQuery hnone
        illegalCharacter_iff := hblames.illegalCharacter_iff
        unexpectedEnd_iff := hblames.unexpectedEnd_iff
        emptyPath := hblames.token_of_emptyPath
        invalidInteger := fun _ => hblames.token_of_invalidInteger }
    · exact nomatch hplace.symm.trans hblames.place_eq
  | empty => exact ⟨nofun, fun _ => Or.inl ⟨rfl, parse_eq_emptyQuery_iff.1 h⟩⟩
  | conflict name first second => exact ⟨nofun, fun _ => Or.inr ⟨name, first, second, rfl⟩⟩
  | graph refusal => exact absurd h ((parse_built text).2 refusal)

/-- A comma where a value has to come. -/
theorem parse_blames_comma :
    ∃ cause, parse "MATCH (p:Pod) WHERE p.kind = , RETURN p" = .error cause ∧
      ∃ front placed, placed.place = ⟨29, 1, 30⟩ ∧
        Fault "MATCH (p:Pod) WHERE p.kind = , RETURN p" cause front placed := by
  have hparse : parse "MATCH (p:Pod) WHERE p.kind = , RETURN p" =
      .error (.unexpectedToken .comma "string, integer or boolean" ⟨29, 1, 30⟩) := by decide +kernel
  exact ⟨_, hparse, (parse_blames hparse).1 _ rfl⟩

end Errors

end ClusterQuery.Query
