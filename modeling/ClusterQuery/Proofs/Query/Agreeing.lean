import Mathlib.Logic.Relation
import ClusterQuery.Proofs.Query.Blaming
import ClusterQuery.Proofs.Query.Reprinting
import ClusterQuery.Proofs.Query.Respelling

/-!
# Other spellings say the same

The reader of tokens and the reading of the query agree on the part of the query they are in (`Reading.Agrees`), so a
comma that the reader takes up among the conditions separates two of them, as `AND` does. An edit in one place then
leaves what the tokens complete as it was (`Lexer.Respells.answer?_eq`).
-/

namespace ClusterQuery.Query

/-- The part of the query that a stage is in; the end may come in any. -/
def Stage.zone? : Stage → Option Zone
  | .firstKey _ | .emptyBlockClose _ | .key .. | .keyColon .. | .value .. | .blockMore .. => some .block
  | .filterPath | .filterComparison _ | .filterValue .. | .filterMore => some .filter
  | .projectionPath | .projectionMore => some .projection
  | .close | .finish => none
  | _ => some .pattern

/-- The part of the query after a token. -/
def Zone.after (zone : Zone) (token : Token) : Zone :=
  (Lexer.transition .none zone token).2

theorem Lexer.state_of_next (lexer : Lexer) (h : lexer.next.1.token ≠ .finish) :
    lexer.next.2.zone = lexer.zone.after lexer.next.1.token ∧ lexer.next.2.last = some lexer.next.1.token := by
  by_cases hcapture : lexer.capture = .none
  · exact (next_of_none hcapture h).2
  · obtain ⟨htoken, -, hzone, hlast⟩ := next_of_ne_none hcapture
    refine ⟨hzone.trans ?_, hlast⟩
    rcases htoken with ⟨path, hpath⟩ | ⟨c, hillegal⟩
    · rw [hpath]
      rfl
    · rw [hillegal]
      rfl

namespace Reading

/-- The reading after a token is in the part of the query that the token leads to, and at the end after a semicolon. -/
def Stays (zone : Zone) (token : Token) : Outcome → Prop
  | .ok (.inl next) =>
    (∀ part ∈ next.stage.zone?, zone.after token = part) ∧ (next.stage = .finish → token = .semicolon)
  | _ => True

section Staying

variable {zone : Zone} {reading next : Reading} {placed : PlacedToken} {stage : Stage}

theorem stays_goTo {token : Token} (hstage : stage ≠ .finish) (h : ∀ part ∈ stage.zone?, zone.after token = part) :
    Stays zone token (next.goTo stage) :=
  ⟨h, fun he => absurd he hstage⟩

theorem stays_expect {wanted : Token} {expected : String} (hstage : stage ≠ .finish)
    (h : ∀ part ∈ stage.zone?, zone.after wanted = part) :
    Stays zone placed.token (next.expect placed wanted expected stage) := by
  unfold expect
  split
  · rename_i htoken
    exact stays_goTo hstage (htoken ▸ h)
  · trivial

theorem stays_expectName {expected : String} {stage : String → Stage} (hstage : ∀ name, stage name ≠ .finish)
    (h : ∀ name, ∀ part ∈ (stage name).zone?, zone = part) :
    Stays zone placed.token (reading.expectName placed expected stage) := by
  unfold expectName
  split
  · rename_i name htoken
    exact stays_goTo (hstage name) (htoken ▸ h name)
  · trivial

theorem stays_expectPath {expected : String} {next : String → Reading} {stage : String → Stage}
    (hstage : ∀ text, stage text ≠ .finish) (h : ∀ text, ∀ part ∈ (stage text).zone?, zone = part) :
    Stays zone placed.token (expectPath placed expected >>= fun text => (next text).goTo (stage text)) := by
  unfold expectPath
  split
  · rename_i text htoken
    split
    · trivial
    · exact stays_goTo (hstage text) (htoken ▸ h text)
  · trivial

theorem stays_expectLiteral {next : Literal → Reading} {stage : Literal → Stage}
    (hstage : ∀ literal, stage literal ≠ .finish) (h : ∀ literal, ∀ part ∈ (stage literal).zone?, zone = part) :
    Stays zone placed.token (expectLiteral placed >>= fun literal => (next literal).goTo (stage literal)) := by
  cases hliteral : expectLiteral placed with
  | error => trivial
  | ok literal =>
    obtain ⟨value, hvalue⟩ := exists_value_of_expectLiteral hliteral
    refine stays_goTo (hstage literal) fun part hpart => (Eq.trans ?_ (h literal part hpart))
    rw [hvalue]
    cases value <;> rfl

theorem stays_ending : Stays zone placed.token (reading.ending placed) := by
  unfold ending
  split
  · rename_i htoken
    exact ⟨nofun, fun _ => htoken⟩
  · trivial
  · trivial

theorem stays_closeBlock {properties : List Property} {owner : BlockOwner} (htoken : placed.token = .rightBrace) :
    Stays zone placed.token (reading.closeBlock properties owner) := by
  rw [htoken]
  cases owner with
  | node head => exact stays_goTo nofun fun part hpart => Option.some.inj hpart
  | query => exact stays_goTo nofun nofun

theorem stays_addNode {head : NodeHead} {properties : List Property} (h : zone.after placed.token = .pattern) :
    Stays zone placed.token (reading.addNode head properties) := by
  have hgoTo {next : Reading} {id : String} : Stays zone placed.token (next.goTo (.patternMore id)) :=
    stays_goTo nofun fun part hpart => h.trans (Option.some.inj hpart)
  unfold addNode
  dsimp only
  split
  · trivial
  · split
    · exact hgoTo
    · split
      · trivial
      · exact hgoTo

theorem stays_afterPattern : Stays zone placed.token (reading.afterPattern placed) := by
  unfold afterPattern
  split
  · split
    · rename_i htoken
      exact stays_goTo nofun fun part hpart => htoken ▸ Option.some.inj hpart
    · rename_i htoken
      exact stays_goTo nofun fun part hpart => htoken ▸ Option.some.inj hpart
    · exact stays_ending
  · exact stays_expect nofun fun part hpart => Option.some.inj hpart
  · exact stays_ending
  · exact stays_ending

/-- A step stays with the part of the query that the reader of tokens is in. -/
theorem step_stays (h : ∀ part ∈ reading.stage.zone?, zone = part) : Stays zone placed.token (reading.step placed) := by
  unfold step
  cases hstage : reading.stage with rw [hstage] at h
  | nodeOpen | bindingColon | edgeBracket | edgeColon | edgeClose | keyColon | edgeArrow =>
    exact stays_expect nofun fun part hpart => h part hpart
  | bindingName | kind | edgeLabel => exact stays_expectName (fun _ => nofun) fun _ part hpart => h part hpart
  | key | filterPath | projectionPath => exact stays_expectPath (fun _ => nofun) fun _ part hpart => h part hpart
  | value | filterValue => exact stays_expectLiteral (fun _ => nofun) fun _ part hpart => h part hpart
  | close => exact stays_ending
  | finish =>
    dsimp only
    split <;> trivial
  | firstKey owner =>
    dsimp only [readFirstKey]
    split
    · rename_i htoken
      exact stays_goTo nofun fun part hpart => htoken ▸ h part hpart
    · exact stays_expectPath (fun _ => nofun) fun _ part hpart => h part hpart
  | verb | filterComparison | filterMore | projectionMore =>
    obtain rfl := h _ rfl
    dsimp only
    split <;> rename_i htoken
    all_goals first
      | exact stays_goTo nofun fun part hpart => htoken ▸ Option.some.inj hpart
      | exact stays_ending
      | trivial
  | patternMore id =>
    obtain rfl := h _ rfl
    dsimp only
    split <;> rename_i htoken
    · exact stays_goTo nofun fun part hpart => htoken ▸ Option.some.inj hpart
    · exact stays_goTo nofun fun part hpart => htoken ▸ Option.some.inj hpart
    · exact stays_afterPattern
  | nodeBlockOrClose head =>
    obtain rfl := h _ rfl
    dsimp only
    split <;> rename_i htoken
    · exact stays_goTo nofun fun part hpart => htoken ▸ Option.some.inj hpart
    · exact stays_addNode (htoken ▸ rfl)
    · trivial
  | nodeClose head properties =>
    obtain rfl := h _ rfl
    dsimp only
    split <;> rename_i htoken
    · exact stays_addNode (htoken ▸ rfl)
    · trivial
  | emptyBlockClose owner =>
    dsimp only
    split <;> rename_i htoken
    · exact stays_closeBlock htoken
    · trivial
  | blockMore owner properties =>
    obtain rfl := h _ rfl
    dsimp only
    split <;> rename_i htoken
    · exact stays_goTo nofun fun part hpart => htoken ▸ Option.some.inj hpart
    · exact stays_closeBlock htoken
    · trivial

end Staying

/-! ## Single tokens -/

section Tokens

variable {reading next : Reading} {query : Query} {tokens : List Token}

theorem step_illegal (reading : Reading) (c : Char) : ∃ cause, reading.step ⟨.illegal c, .start⟩ = .error cause := by
  obtain ⟨verb, graph, openEdge, filters, projections, assignments, stage⟩ := reading
  cases stage with
  | patternMore => cases verb <;> exact ⟨_, rfl⟩
  | _ => exact ⟨_, rfl⟩

/-- A path without characters is taken up at the start of a block only. -/
theorem stage_of_emptyPath (h : reading.step ⟨.path "", .start⟩ = .ok (.inl next)) :
    ∃ owner, next.stage = .emptyBlockClose owner := by
  obtain ⟨verb, graph, openEdge, filters, projections, assignments, stage⟩ := reading
  cases stage with
  | firstKey owner =>
    cases h
    exact ⟨owner, rfl⟩
  | patternMore => cases verb <;> cases h
  | _ => cases h

/-- Among the conditions, what separates comes after a condition. -/
theorem stage_of_separator {token : Token} (htoken : token = .comma ∨ token = .andWord)
    (hzone : ∀ part ∈ reading.stage.zone?, part = .filter) (h : reading.answer? (token :: tokens) = some query) :
    reading.stage = .filterMore := by
  obtain ⟨verb, graph, openEdge, filters, projections, assignments, stage⟩ := reading
  cases stage with
  | filterMore => rfl
  | patternMore | blockMore | projectionMore => exact nomatch hzone _ rfl
  | _ => rcases htoken with rfl | rfl <;> cases h

theorem answer?_separator (hstage : reading.stage = .filterMore) {token other : Token}
    (htoken : token = .comma ∨ token = .andWord) (hother : other = .comma ∨ other = .andWord) :
    reading.answer? (token :: tokens) = reading.answer? (other :: tokens) := by
  have hpath {sign : Token} (hsign : sign = .comma ∨ sign = .andWord) :
      reading.answer? (sign :: tokens) = (reading.atStage .filterPath).answer? tokens := by
    rw [answer?_cons, step, hstage]
    rcases hsign with rfl | rfl <;> rfl
  rw [hpath htoken, hpath hother]

/-- Where the query may end, a semicolon may come before the end. -/
theorem answer?_addSemicolon (hstage : reading.stage ≠ .finish) (h : reading.answer? [.finish] = some query) :
    reading.answer? [.semicolon, .finish] = some query := by
  obtain ⟨verb, graph, openEdge, filters, projections, assignments, stage⟩ := reading
  cases stage with
  | patternMore => cases verb <;> exact h
  | filterMore | projectionMore | close => exact h
  | finish => exact absurd rfl hstage
  | _ => cases h

/-- After a semicolon comes the end, and it may come without the semicolon. -/
theorem answer?_dropSemicolon (h : reading.answer? (.semicolon :: tokens) = some query) :
    tokens.head? = some .finish ∧ reading.answer? [.finish] = some query := by
  have hfinish {last : Reading} (hlast : (last.atStage .finish).answer? tokens = some query) :
      tokens.head? = some .finish ∧ some ⟨last.graph, last.clause⟩ = some query := by
    cases tokens with
    | nil => cases hlast
    | cons token rest =>
      cases token with
      | finish => exact ⟨rfl, hlast⟩
      | _ => cases hlast
  obtain ⟨verb, graph, openEdge, filters, projections, assignments, stage⟩ := reading
  cases stage with
  | patternMore => cases verb <;> first | exact hfinish h | cases h
  | filterMore | projectionMore | close => exact hfinish h
  | _ => cases h

end Tokens

/-! ## The reader of tokens and the reading of the query -/

/-- A reading and the reader of the tokens after it are in the same part of the query, and the token before is one that
may be there. -/
structure Agrees (reading : Reading) (lexer : Lexer) : Prop where
  zone_eq : ∀ part ∈ reading.stage.zone?, lexer.zone = part
  semicolon : reading.stage = .finish → lexer.last = some .semicolon
  emptyPath : lexer.last = some (.path "") → ∃ owner, reading.stage = .emptyBlockClose owner
  legal : ∀ token ∈ lexer.last, token.Legal
  ends : ∀ token ∈ lexer.last, token.EndsBefore lexer.rest

theorem agrees_start (text : List Char) : start.Agrees (.ofText text) where
  zone_eq _ hpart := Option.some.inj hpart
  semicolon := nofun
  emptyPath := nofun
  legal := nofun
  ends := nofun

variable {reading : Reading} {lexer : Lexer}

/-- A token that is taken up is neither the end nor an illegal character. -/
theorem legal_of_step {next : Reading} {token : Token}
    (hstep : reading.step ⟨token, .start⟩ = .ok (.inl next)) : token.Legal := by
  have htells := step_tells reading ⟨token, .start⟩
  rw [hstep] at htells
  refine ⟨htells.1, fun c hc => ?_⟩
  obtain ⟨cause, herror⟩ := reading.step_illegal c
  rw [hc, herror] at hstep
  cases hstep

/-- They go on together. -/
theorem Agrees.next {after : Reading} (h : reading.Agrees lexer)
    (hstep : reading.step ⟨lexer.next.1.token, .start⟩ = .ok (.inl after)) : after.Agrees lexer.next.2 := by
  have hlegal := legal_of_step hstep
  have hstays : Stays lexer.zone lexer.next.1.token (reading.step ⟨lexer.next.1.token, .start⟩) :=
    step_stays h.zone_eq
  rw [hstep] at hstays
  obtain ⟨hzone, hlast⟩ := lexer.state_of_next hlegal.1
  constructor
  · intro part hpart
    rw [hzone]
    exact hstays.1 part hpart
  · intro hfinish
    rw [hlast, hstays.2 hfinish]
  · intro hpath
    rw [hlast] at hpath
    rw [Option.some.inj hpath] at hstep
    exact stage_of_emptyPath hstep
  · intro token htoken
    rw [hlast] at htoken
    exact Option.some.inj htoken ▸ hlegal
  · intro token htoken
    rw [hlast] at htoken
    exact Option.some.inj htoken ▸ lexer.takes.ends hlegal.2

end Reading

/-! ## Edits -/

/-- An edit leaves what the tokens complete, and the token before it ends before it. -/
theorem Lexer.Respells.answer?_eq {lexer : Lexer} {other : List Char} (hother : lexer.Respells other)
    {reading : Reading} (hagrees : reading.Agrees lexer) {query : Query}
    (h : reading.answer? (lexer.tokensOn lexer.rest) = some query) :
    reading.answer? (lexer.tokensOn other) = some query ∧ ∀ token ∈ lexer.last, token.EndsBefore other := by
  induction hother generalizing reading with
  | blanks hrest hfront hblanks =>
    refine ⟨by rwa [tokensOn_blanks hrest hfront hblanks], fun token htoken => ?_⟩
    exact endsBefore_blanks hfront hblanks (hagrees.legal token htoken) (hrest ▸ hagrees.ends token htoken)
  | word hword =>
    refine ⟨by rwa [tokensOn_word hword], fun token htoken => ?_⟩
    exact endsBefore_word hword (hagrees.legal token htoken) (hagrees.ends token htoken)
  | separator hzone hseparator hrest hfront hblank hsign =>
    obtain ⟨sign, tokens, hnew, htokens, hold⟩ := tokensOn_separator hzone hseparator hrest hfront hblank hsign
    rw [hold] at h
    have hstage : reading.stage = .filterMore :=
      Reading.stage_of_separator hseparator (fun part hpart => (hagrees.zone_eq part hpart).symm.trans hzone) h
    refine ⟨by rwa [htokens, Reading.answer?_separator hstage hnew hseparator], fun token htoken => ?_⟩
    refine endsBefore_separator hblank hsign (hagrees.legal token htoken) ?_ (hagrees.ends token htoken)
    rintro rfl
    obtain ⟨owner, hempty⟩ := hagrees.emptyPath htoken
    exact nomatch hstage.symm.trans hempty
  | addSemicolon hfinish hlast hrest =>
    rw [tokensOn_of_finish hfinish] at h
    refine ⟨?_, fun token htoken => ?_⟩
    · rw [tokensOn_addSemicolon hfinish hrest]
      exact Reading.answer?_addSemicolon (fun hstage => hlast (hagrees.semicolon hstage)) h
    · exact endsBefore_addSemicolon hfinish hrest (hagrees.legal token htoken) (hagrees.ends token htoken)
  | @dropSemicolon lexer hsemicolon =>
    rw [tokensOn_of_ne_finish (by rw [hsemicolon]; nofun), hsemicolon] at h
    obtain ⟨hhead, hanswer⟩ := Reading.answer?_dropSemicolon h
    have hfinish : lexer.next.2.next.1.token = .finish := by
      rw [tokensOn_rest, List.head?_map, head?_tokens] at hhead
      exact Option.some.inj hhead
    refine ⟨by rwa [tokensOn_dropSemicolon hsemicolon hfinish], fun token htoken => ?_⟩
    exact endsBefore_dropSemicolon hfinish (hagrees.legal token htoken) (hagrees.ends token htoken)
  | @later lexer following hfinish _ ih =>
    rw [tokensOn_of_ne_finish hfinish, Reading.answer?_cons] at h
    cases hstep : reading.step ⟨lexer.next.1.token, .start⟩ with
    | error cause =>
      rw [hstep] at h
      cases h
    | ok outcome =>
      cases outcome with
      | inr query => exact absurd (Reading.token_of_step_query hstep) hfinish
      | inl next =>
        rw [hstep] at h
        obtain ⟨hanswer, hends⟩ := ih (hagrees.next hstep) h
        have hfollowing := hends lexer.next.1.token (lexer.state_of_next hfinish).2
        refine ⟨?_, fun token htoken => ?_⟩
        · rw [tokensOn_lexeme hfinish hfollowing, Reading.answer?_cons, hstep]
          exact hanswer
        · exact endsBefore_lexeme (Reading.legal_of_step hstep) hfollowing (hagrees.legal token htoken)
            (hagrees.ends token htoken)

/-- A text that is read says the same when it is spelled otherwise in one place. -/
theorem Respelled.parse_eq {text other : String} (hother : Respelled text other) {query : Query}
    (h : parse text = .ok query) : parse other = .ok query :=
  parse_eq_ok_iff.2 (hother.answer?_eq (Reading.agrees_start _) (parse_eq_ok_iff.1 h)).1

/-- An edit may be before any token. -/
theorem Lexer.Respells.of_past {lexer : Lexer} {count : Nat} {other : List Char} (h : (lexer.past count).Respells other)
    (hfinish : ∀ n < count, (lexer.past n).next.1.token ≠ .finish) : lexer.Respells (lexer.tiled count ++ other) := by
  induction count generalizing other with
  | zero => exact h
  | succ count ih =>
    rw [past_succ] at h
    have hlater := ih (.later (hfinish count (Nat.lt_succ_self count)) h) fun n hn => hfinish n (Nat.lt_succ_of_lt hn)
    rwa [← List.append_assoc, ← List.append_assoc, List.append_assoc _ (gap _), ← tiled_succ] at hlater

theorem Respelled.of_past {text other : String} (count : Nat) {rest : List Char}
    (h : ((Lexer.ofText text.toList).past count).Respells rest)
    (hfinish : ∀ n < count, ((Lexer.ofText text.toList).past n).next.1.token ≠ .finish)
    (hother : other.toList = (Lexer.ofText text.toList).tiled count ++ rest) : Respelled text other := by
  rw [Respelled, hother]
  exact h.of_past hfinish

/-- A text that is read says the same however often it is spelled otherwise: keywords in letters of another case, more
blanks between tokens, another separator of conditions, a semicolon more or less at the end. -/
theorem parse_respelled {text other : String} (hedits : Relation.ReflTransGen Respelled text other) {query : Query}
    (h : parse text = .ok query) : parse other = .ok query := by
  induction hedits with
  | refl => exact h
  | tail _ hother ih => exact hother.parse_eq ih

/-- Another case, another separator, a line break and a semicolon. -/
theorem parse_respelled_conditions :
    parse "match (p:Pod) where p.a = 1, p.b = 'x'" =
        .ok ⟨⟨[⟨"Pod/p", "Pod", "p", []⟩], []⟩,
          .find [⟨"p.a", .equal, .integer 1⟩, ⟨"p.b", .equal, .string "x"⟩] []⟩ ∧
      parse "MATCH\n (p:Pod) where p.a = 1 AND p.b = 'x';" =
        .ok ⟨⟨[⟨"Pod/p", "Pod", "p", []⟩], []⟩,
          .find [⟨"p.a", .equal, .integer 1⟩, ⟨"p.b", .equal, .string "x"⟩] []⟩ := by
  have hcase : Respelled "match (p:Pod) where p.a = 1, p.b = 'x'" "MATCH (p:Pod) where p.a = 1, p.b = 'x'" :=
    .of_past 0 (@Lexer.Respells.word _ "MATCH".toList (by decide +kernel)) (by decide +kernel) (by decide +kernel)
  have hblanks : Respelled "MATCH (p:Pod) where p.a = 1, p.b = 'x'" "MATCH\n (p:Pod) where p.a = 1, p.b = 'x'" :=
    .of_past 1 (@Lexer.Respells.blanks _ [] _ ['\n'] rfl nofun (List.all_eq_true.1 rfl)) (by decide +kernel)
      (by decide +kernel)
  have hseparator : Respelled "MATCH\n (p:Pod) where p.a = 1, p.b = 'x'"
      "MATCH\n (p:Pod) where p.a = 1 AND p.b = 'x'" :=
    .of_past 10 (@Lexer.Respells.separator _ [' '] ['A', 'N', 'D'] [' '] [' '] "p.b = 'x'".toList
      (by decide +kernel) (by decide +kernel) (by decide +kernel) (List.all_eq_true.1 rfl) (List.all_eq_true.1 rfl)
        (.word (by decide) (by decide))) (by decide +kernel) (by decide +kernel)
  have hsemicolon : Respelled "MATCH\n (p:Pod) where p.a = 1 AND p.b = 'x'"
      "MATCH\n (p:Pod) where p.a = 1 AND p.b = 'x';" :=
    .of_past 14 (@Lexer.Respells.addSemicolon _ [] [] (by decide +kernel) (by decide +kernel) (by decide +kernel))
      (by decide +kernel) (by decide +kernel)
  have hparse : parse "match (p:Pod) where p.a = 1, p.b = 'x'" =
      .ok ⟨⟨[⟨"Pod/p", "Pod", "p", []⟩], []⟩,
        .find [⟨"p.a", .equal, .integer 1⟩, ⟨"p.b", .equal, .string "x"⟩] []⟩ := by decide +kernel
  exact ⟨hparse, parse_respelled (.tail (.tail (.tail (.single hcase) hblanks) hseparator) hsemicolon) hparse⟩

end ClusterQuery.Query
