import ClusterQuery.Query.Printer
import ClusterQuery.Proofs.Lists
import ClusterQuery.Proofs.Query.Lexing

/-!
# The tokens of printed text

What the printer writes lexes to the tokens it means, piece by piece: values, blocks of properties, mentions of nodes,
chains, and what follows the pattern. A piece is read the same whatever text comes after it, because each one ends where
its last token must end.
-/

namespace ClusterQuery

/-! ## What can be written -/

/-- Numbers are written without a sign. -/
def Literal.Printable : Literal → Prop
  | .integer value => 0 ≤ value ∧ Literal.inRange value = true
  | _ => True

namespace Query

/-- The key is made of path characters, if it has any. -/
structure LegibleProperty (property : Property) : Prop where
  key : IsPathText property.key
  value : property.value.Printable

/-- The names are words and the properties can be written. -/
structure LegibleNode (node : Node) : Prop where
  name : IsWord node.name
  kind : IsWord node.kind
  properties : ∀ property ∈ node.properties, LegibleProperty property

/-- The path has characters, and all are path characters. -/
structure LegiblePath (path : String) : Prop where
  characters : path ≠ ""
  text : IsPathText path

/-! ## Separated lists -/

/-- What holds of the first character of a text. -/
theorem forall_mem_head? {property : Char → Prop} {first : Char} {following : List Char} (h : property first) :
    ∀ c ∈ (first :: following).head?, property c := by
  rintro c ⟨⟩
  exact h

/-- What holds of the first character of a text that goes on with separated pieces. -/
theorem forall_mem_head?_flatMap {α : Type} {property : Char → Prop} {entries : List α} {piece : α → List Char}
    {first : Char} {separator text : List Char} (hfirst : property first) (htext : ∀ c ∈ text.head?, property c) :
    ∀ c ∈ (entries.flatMap (first :: separator ++ piece ·) ++ text).head?, property c := by
  cases entries with
  | nil => exact htext
  | cons entry rest => exact forall_mem_head? hfirst

/-! ## Values -/

/-- The token of a value. -/
def valueToken : Literal → Token
  | .string value => .string value
  | .integer value => .integer (toString value)
  | .boolean value => .boolean value

variable {capture : Capture} {zone : Zone} {last : Option Token} {text : List Char}

theorem tokensFrom_value {value : Literal} (h : value.Printable) (hzone : zone ≠ .pattern)
    (hend : ∀ c ∈ text.head?, isWordChar c = false) :
    tokensFrom .none zone last (value.text.toList ++ text) =
      valueToken value :: tokensFrom .none zone (some (valueToken value)) text := by
  cases value with
  | string value => exact tokensFrom_quoted value
  | integer value =>
    have hnat : toString value = value.toNat.repr := by
      change value.repr = _
      rw [Int.repr_eq_if, if_pos h.1]
    have hdigits : ∀ c ∈ (toString value).toList, c.isDigit = true := by
      rw [hnat, Nat.toList_repr]
      exact fun c => Nat.isDigit_of_mem_toDigits (by decide) (by decide)
    have hne : toString value ≠ "" := by
      rw [hnat]
      exact Nat.repr_ne_empty
    exact tokensFrom_digits hdigits hne hend
  | boolean value =>
    have hname : ¬(zone = .pattern ∧ (last = some .leftParen ∨ last = some .colon ∨ last = some .leftBracket)) :=
      fun h => hzone h.1
    cases value with
    | true =>
      have htrue : tokensFrom .none zone last ("true".toList ++ text) = _ :=
        tokensFrom_keyword (by decide)
          (show keyword? "true" = some (.boolean true) by decide) hname hend
      exact htrue
    | false =>
      have hfalse : tokensFrom .none zone last ("false".toList ++ text) = _ :=
        tokensFrom_keyword (by decide)
          (show keyword? "false" = some (.boolean false) by decide) hname hend
      exact hfalse

/-- A comma and a blank between two pieces. -/
theorem tokensFrom_comma : tokensFrom .none zone last ([',', ' '] ++ text) =
    .comma :: tokensFrom (Lexer.transition .none zone .comma).1 (Lexer.transition .none zone .comma).2 (some .comma)
      text := by
  rw [List.cons_append, tokensFrom_sign rfl, List.singleton_append, tokensFrom_blank (by decide)]

/-! ## Blocks of properties -/

/-- The tokens of a property. -/
def propertyTokens (property : Property) : List Token :=
  [.path property.key, .colon, valueToken property.value]

/-- The tokens of a block of properties. -/
def propertiesTokens : List Property → List Token
  | [] => [.leftBrace, .path "", .rightBrace]
  | first :: more =>
    .leftBrace :: propertyTokens first ++ more.flatMap (fun property => .comma :: propertyTokens property) ++
      [.rightBrace]

/-- The text of a property. -/
def propertyChars (property : Property) : List Char :=
  property.key.toList ++ ':' :: ' ' :: property.value.text.toList

theorem toList_propertiesText (properties : List Property) :
    (propertiesText properties).toList = '{' :: [',', ' '].intercalate (properties.map propertyChars) ++ ['}'] := by
  have hchars : propertyChars = fun property : Property =>
      property.key.toList ++ ':' :: ' ' :: property.value.text.toList := rfl
  simp [propertiesText, String.toList_intercalate, Function.comp_def, hchars]

theorem tokensFrom_property {property : Property} (h : LegibleProperty property) (hcapture : capture ≠ .none)
    (hzone : zone ≠ .pattern) (hend : ∀ c ∈ text.head?, isWordChar c = false) :
    tokensFrom capture zone last (propertyChars property ++ text) =
      propertyTokens property ++ tokensFrom .none zone (some (valueToken property.value)) text := by
  have hcolon : tokensFrom .none zone (some (.path property.key)) (':' :: ' ' :: (property.value.text.toList ++ text)) =
      .colon :: tokensFrom .none zone (some .colon) (' ' :: (property.value.text.toList ++ text)) := tokensFrom_sign rfl
  rw [propertyChars, List.append_assoc, List.cons_append, List.cons_append, tokensFrom_key hcapture h.key, hcolon,
    tokensFrom_blank (by decide), tokensFrom_value h.value hzone hend]
  rfl

theorem tokensFrom_moreProperties {properties : List Property} (h : ∀ property ∈ properties, LegibleProperty property) :
    tokensFrom .none .block last (properties.flatMap ([',', ' '] ++ propertyChars ·) ++ '}' :: text) =
      properties.flatMap (fun property => .comma :: propertyTokens property) ++
        .rightBrace :: tokensFrom .none .pattern (some .rightBrace) text := by
  induction properties generalizing last with
  | nil => exact tokensFrom_sign rfl
  | cons property rest ih =>
    obtain ⟨hproperty, hrest⟩ := List.forall_mem_cons.1 h
    have hend : ∀ c ∈ (rest.flatMap ([',', ' '] ++ propertyChars ·) ++ '}' :: text).head?, isWordChar c = false :=
      forall_mem_head?_flatMap (by decide) (forall_mem_head? (by decide))
    have hcomma (after : List Char) : tokensFrom .none .block last ([',', ' '] ++ after) =
        .comma :: tokensFrom .afterSeparator .block (some .comma) after := tokensFrom_comma
    have hnext : tokensFrom .afterSeparator .block (some .comma) (propertyChars property ++ _) = _ :=
      tokensFrom_property hproperty (by nofun) (by nofun) hend
    rw [List.flatMap_cons, List.append_assoc, List.append_assoc, hcomma, hnext, ih hrest, List.flatMap_cons,
      List.append_assoc, List.cons_append]

/-- A block of properties. -/
theorem tokensFrom_properties {properties : List Property} (h : ∀ property ∈ properties, LegibleProperty property) :
    tokensFrom .none zone last ((propertiesText properties).toList ++ text) =
      propertiesTokens properties ++ tokensFrom .none .pattern (some .rightBrace) text := by
  have hbrace (after : List Char) : tokensFrom .none zone last ('{' :: after) =
      .leftBrace :: tokensFrom .afterBrace .block (some .leftBrace) after := tokensFrom_sign rfl
  rw [toList_propertiesText, List.cons_append, List.cons_append, hbrace]
  cases properties with
  | nil =>
    have hempty : tokensFrom .afterBrace .block (some .leftBrace) ('}' :: text) =
        .path "" :: tokensFrom .none .block (some (.path "")) ('}' :: text) :=
      tokensFrom_emptyPath (by nofun) (by decide) (by decide) (by decide)
    have hclose : tokensFrom .none .block (some (.path "")) ('}' :: text) =
        .rightBrace :: tokensFrom .none .pattern (some .rightBrace) text := tokensFrom_sign rfl
    exact congrArg (Token.leftBrace :: ·) (hempty.trans (congrArg _ hclose))
  | cons first more =>
    obtain ⟨hfirst, hmore⟩ := List.forall_mem_cons.1 h
    have hend : ∀ c ∈ (more.flatMap ([',', ' '] ++ propertyChars ·) ++ '}' :: text).head?, isWordChar c = false :=
      forall_mem_head?_flatMap (by decide) (forall_mem_head? (by decide))
    have hnext : tokensFrom .afterBrace .block (some .leftBrace) (propertyChars first ++ _) = _ :=
      tokensFrom_property hfirst (by nofun) (by nofun) hend
    rw [List.map_cons, intercalate_cons, List.flatMap_map, List.append_assoc, List.append_assoc, List.singleton_append,
      hnext, tokensFrom_moreProperties hmore]
    simp [propertiesTokens]

/-! ## Chains -/

/-- The tokens of a mention of a node with the properties it shows. -/
def nodeTokens (node : Node) : List Token :=
  [.leftParen, .identifier node.name, .colon, .identifier node.kind] ++
    (if node.properties.isEmpty then [] else propertiesTokens node.properties) ++ [.rightParen]

theorem tokensFrom_node {node : Node} (h : LegibleNode node) :
    tokensFrom .none .pattern last (node.fullText.toList ++ text) =
      nodeTokens node ++ tokensFrom .none .pattern (some .rightParen) text := by
  have hopen {c : Char} (hc : isWordChar c = false) (after : List Char) :
      tokensFrom .none .pattern last ('(' :: (node.name.toList ++ ':' :: (node.kind.toList ++ c :: after))) =
        .leftParen :: .identifier node.name :: .colon :: .identifier node.kind ::
          tokensFrom .none .pattern (some (.identifier node.kind)) (c :: after) := by
    have hparen (rest : List Char) : tokensFrom .none .pattern last ('(' :: rest) =
        .leftParen :: tokensFrom .none .pattern (some .leftParen) rest := tokensFrom_sign rfl
    have hcolon (rest : List Char) : tokensFrom .none .pattern (some (.identifier node.name)) (':' :: rest) =
        .colon :: tokensFrom .none .pattern (some .colon) rest := tokensFrom_sign rfl
    rw [hparen, tokensFrom_name h.name (forall_mem_head? (by decide)) (Or.inl rfl), hcolon,
      tokensFrom_name h.kind (forall_mem_head? hc) (Or.inr (Or.inl rfl))]
  have hclose (before : Option Token) : tokensFrom .none .pattern before (')' :: text) =
      .rightParen :: tokensFrom .none .pattern (some .rightParen) text := tokensFrom_sign rfl
  by_cases hempty : node.properties.isEmpty = true
  · have htext : node.fullText.toList ++ text =
        '(' :: (node.name.toList ++ ':' :: (node.kind.toList ++ ')' :: text)) := by
      simp [Node.fullText, Node.bareText, hempty]
    rw [htext, hopen (by decide), hclose, nodeTokens, if_pos hempty]
    rfl
  · have htext : node.fullText.toList ++ text =
        '(' :: (node.name.toList ++ ':' :: (node.kind.toList ++ ' ' ::
          ((propertiesText node.properties).toList ++ ')' :: text))) := by
      simp [Node.fullText, hempty]
    rw [htext, hopen (by decide), tokensFrom_blank (by decide), tokensFrom_properties h.properties, hclose, nodeTokens,
      if_neg hempty]
    simp

/-- A chain as it is printed: its nodes with the properties that are shown there, and the labels between them. -/
structure Layout where
  first : Node
  hops : List (String × Node)

namespace Layout

/-- The text of an edge and the node it leads to. -/
def hopChars (hop : String × Node) : List Char :=
  "-[:".toList ++ hop.1.toList ++ "]->".toList ++ hop.2.fullText.toList

/-- The text of a chain. -/
def chars (chain : Layout) : List Char :=
  chain.first.fullText.toList ++ chain.hops.flatMap hopChars

/-- The tokens of an edge and the node it leads to. -/
def hopTokens (hop : String × Node) : List Token :=
  [.dash, .leftBracket, .colon, .identifier hop.1, .rightBracket, .arrow] ++ nodeTokens hop.2

/-- The tokens of a chain. -/
def tokens (chain : Layout) : List Token :=
  nodeTokens chain.first ++ chain.hops.flatMap hopTokens

/-- The mentions of nodes. -/
def mentions (chain : Layout) : List Node :=
  chain.first :: chain.hops.map (·.2)

/-- The names are words and the properties can be written. -/
structure Legible (chain : Layout) : Prop where
  mentions : ∀ node ∈ chain.mentions, LegibleNode node
  labels : ∀ hop ∈ chain.hops, IsWord hop.1

end Layout

theorem tokensFrom_hop {hop : String × Node} (hlabel : IsWord hop.1) (hnode : LegibleNode hop.2) :
    tokensFrom .none .pattern (some .rightParen) (Layout.hopChars hop ++ text) =
      Layout.hopTokens hop ++ tokensFrom .none .pattern (some .rightParen) text := by
  have hdash (rest : List Char) : tokensFrom .none .pattern (some .rightParen) ('-' :: '[' :: rest) =
      .dash :: tokensFrom .none .pattern (some .dash) ('[' :: rest) := tokensFrom_scan (by decide) rfl
  have hbracket (rest : List Char) : tokensFrom .none .pattern (some .dash) ('[' :: rest) =
      .leftBracket :: tokensFrom .none .pattern (some .leftBracket) rest := tokensFrom_sign rfl
  have hcolon (rest : List Char) : tokensFrom .none .pattern (some .leftBracket) (':' :: rest) =
      .colon :: tokensFrom .none .pattern (some .colon) rest := tokensFrom_sign rfl
  have hclose (rest : List Char) : tokensFrom .none .pattern (some (.identifier hop.1)) (']' :: rest) =
      .rightBracket :: tokensFrom .none .pattern (some .rightBracket) rest := tokensFrom_sign rfl
  have harrow (rest : List Char) : tokensFrom .none .pattern (some .rightBracket) ('-' :: '>' :: rest) =
      .arrow :: tokensFrom .none .pattern (some .arrow) rest := tokensFrom_scan (by decide) rfl
  have htext : Layout.hopChars hop ++ text =
      '-' :: '[' :: ':' :: (hop.1.toList ++ ']' :: '-' :: '>' :: (hop.2.fullText.toList ++ text)) := by
    simp [Layout.hopChars]
  rw [htext, hdash, hbracket, hcolon, tokensFrom_name hlabel (forall_mem_head? (by decide)) (Or.inr (Or.inl rfl)),
    hclose, harrow, tokensFrom_node hnode]
  rfl

theorem tokensFrom_hops {hops : List (String × Node)} (hlabels : ∀ hop ∈ hops, IsWord hop.1)
    (hnodes : ∀ hop ∈ hops, LegibleNode hop.2) :
    tokensFrom .none .pattern (some .rightParen) (hops.flatMap Layout.hopChars ++ text) =
      hops.flatMap Layout.hopTokens ++ tokensFrom .none .pattern (some .rightParen) text := by
  induction hops with
  | nil => rfl
  | cons hop rest ih =>
    obtain ⟨hlabel, hlabels⟩ := List.forall_mem_cons.1 hlabels
    obtain ⟨hnode, hnodes⟩ := List.forall_mem_cons.1 hnodes
    rw [List.flatMap_cons, List.append_assoc, tokensFrom_hop hlabel hnode, ih hlabels hnodes, List.flatMap_cons,
      List.append_assoc]

/-- A chain. -/
theorem tokensFrom_chain {chain : Layout} (h : chain.Legible) :
    tokensFrom .none .pattern last (chain.chars ++ text) =
      chain.tokens ++ tokensFrom .none .pattern (some .rightParen) text := by
  obtain ⟨hfirst, htargets⟩ := List.forall_mem_cons.1 h.mentions
  have hnodes : ∀ hop ∈ chain.hops, LegibleNode hop.2 := fun hop hhop => htargets hop.2 (List.mem_map_of_mem hhop)
  rw [Layout.chars, List.append_assoc, tokensFrom_node hfirst, tokensFrom_hops h.labels hnodes, Layout.tokens,
    List.append_assoc]

/-- The tokens of chains, at least one. -/
def chainsTokens : List Layout → List Token
  | [] => []
  | first :: more => first.tokens ++ more.flatMap fun chain => .comma :: chain.tokens

/-- Chains one after another. -/
theorem tokensFrom_chains {chains : List Layout} (hne : chains ≠ []) (h : ∀ chain ∈ chains, chain.Legible) :
    tokensFrom .none .pattern last ([',', ' '].intercalate (chains.map Layout.chars) ++ text) =
      chainsTokens chains ++ tokensFrom .none .pattern (some .rightParen) text := by
  obtain ⟨first, more, rfl⟩ := List.exists_cons_of_ne_nil hne
  obtain ⟨hfirst, hmore⟩ := List.forall_mem_cons.1 h
  have hseparated : tokensFrom .none .pattern (some .rightParen) (more.flatMap ([',', ' '] ++ ·.chars) ++ text) =
      (more.flatMap fun chain => .comma :: chain.tokens) ++ tokensFrom .none .pattern (some .rightParen) text := by
    clear hne h
    induction more with
    | nil => rfl
    | cons chain rest ih =>
      obtain ⟨hchain, hrest⟩ := List.forall_mem_cons.1 hmore
      have hcomma (after : List Char) : tokensFrom .none .pattern (some .rightParen) ([',', ' '] ++ after) =
          .comma :: tokensFrom .none .pattern (some .comma) after := tokensFrom_comma
      rw [List.flatMap_cons, List.append_assoc, List.append_assoc, hcomma, tokensFrom_chain hchain, ih hrest,
        List.flatMap_cons, List.append_assoc, List.cons_append]
  rw [List.map_cons, intercalate_cons, List.flatMap_map, List.append_assoc, tokensFrom_chain hfirst, hseparated,
    chainsTokens, List.append_assoc]

/-! ## Clauses -/

/-- The path and the value can be written. -/
structure LegibleFilter (filter : Filter) : Prop where
  path : LegiblePath filter.path
  value : filter.value.Printable

/-- The tokens of a filter. -/
def filterTokens (filter : Filter) : List Token :=
  [.path filter.path, Phrase.comparisonToken filter.comparison, valueToken filter.value]

theorem tokensFrom_filter {filter : Filter} (h : LegibleFilter filter) (hcapture : capture ≠ .none)
    (hend : ∀ c ∈ text.head?, isWordChar c = false) :
    tokensFrom capture .filter last (filter.text.toList ++ text) =
      filterTokens filter ++ tokensFrom .none .filter (some (valueToken filter.value)) text := by
  have hpath (after : List Char) : tokensFrom capture .filter last (filter.path.toList ++ ' ' :: after) =
      .path filter.path :: tokensFrom .none .filter (some (.path filter.path)) after := by
    rw [tokensFrom_path hcapture h.path.text h.path.characters (forall_mem_head? (by decide)),
      tokensFrom_blank (by decide)]
  have hsign (after : List Char) :
      tokensFrom .none .filter (some (.path filter.path)) (filter.comparison.text.toList ++ ' ' :: after) =
        Phrase.comparisonToken filter.comparison ::
          tokensFrom .none .filter (some (Phrase.comparisonToken filter.comparison)) after := by
    cases filter.comparison with
    | equal =>
      have hequal : tokensFrom .none .filter (some (.path filter.path)) ('=' :: ' ' :: after) =
          .equal :: tokensFrom .none .filter (some .equal) (' ' :: after) := tokensFrom_sign rfl
      exact hequal.trans (congrArg _ (tokensFrom_blank (by decide)))
    | notEqual =>
      have hnot : tokensFrom .none .filter (some (.path filter.path)) ('!' :: '=' :: ' ' :: after) =
          .notEqual :: tokensFrom .none .filter (some .notEqual) (' ' :: after) := tokensFrom_scan (by decide) rfl
      exact hnot.trans (congrArg _ (tokensFrom_blank (by decide)))
  have htext : filter.text.toList ++ text =
      filter.path.toList ++ ' ' :: (filter.comparison.text.toList ++ ' ' :: (filter.value.text.toList ++ text)) := by
    simp [Filter.text]
  rw [htext, hpath, hsign, tokensFrom_value h.value (by nofun) hend]
  rfl

/-- The tokens of filters. -/
def filtersTokens : List Filter → List Token
  | [] => []
  | first :: more => .whereWord :: filterTokens first ++ more.flatMap (fun filter => .andWord :: filterTokens filter)

/-- The tokens of projections. -/
def projectionsTokens : List String → List Token
  | [] => []
  | first :: more => .returnWord :: .path first :: more.flatMap (fun path => [.comma, .path path])

/-- The tokens of what follows the pattern. -/
def clauseTokens : Clause → List Token
  | .find filters projections => filtersTokens filters ++ projectionsTokens projections
  | .create => []
  | .assign assignments => propertiesTokens assignments
  | .delete => []

/-- The filters of a clause. -/
def clauseFilters : Clause → List Filter
  | .find filters _ => filters
  | _ => []

/-- The projections of a clause. -/
def clauseProjections : Clause → List String
  | .find _ projections => projections
  | _ => []

/-- The assignments of a clause. -/
def clauseAssignments : Clause → List Property
  | .assign assignments => assignments
  | _ => []

/-- The filters, the projections and the assignments can be written. -/
structure LegibleClause (clause : Clause) : Prop where
  filters : ∀ filter ∈ clauseFilters clause, LegibleFilter filter
  projections : ∀ path ∈ clauseProjections clause, LegiblePath path
  assignments : ∀ property ∈ clauseAssignments clause, LegibleProperty property

/-- A word between two blanks. -/
def spaced (word : String) : List Char :=
  ' ' :: (word.toList ++ [' '])

/-- A keyword between two blanks. -/
theorem tokensFrom_spaced {word : String} {token : Token} (hword : IsWord word) (hkeyword : keyword? word = some token)
    (hname : ¬(zone = .pattern ∧ (last = some .leftParen ∨ last = some .colon ∨ last = some .leftBracket))) :
    tokensFrom .none zone last (spaced word ++ text) =
      token :: tokensFrom (Lexer.transition .none zone token).1 (Lexer.transition .none zone token).2 (some token)
        text := by
  have htext : spaced word ++ text = ' ' :: (word.toList ++ ' ' :: text) := by simp [spaced]
  rw [htext, tokensFrom_blank (by decide), tokensFrom_keyword hword hkeyword hname (forall_mem_head? (by decide)),
    tokensFrom_blank (by decide)]

/-- The text of filters, with the word before them. -/
def filtersChars : List Filter → List Char
  | [] => []
  | first :: more => spaced "WHERE" ++ (first.text.toList ++ more.flatMap (spaced "AND" ++ ·.text.toList))

/-- The text of projections, with the word before them. -/
def projectionsChars : List String → List Char
  | [] => []
  | first :: more => spaced "RETURN" ++ (first.toList ++ more.flatMap ([',', ' '] ++ ·.toList))

theorem head?_projectionsChars (projections : List String) :
    ∀ c ∈ (projectionsChars projections).head?, isWordChar c = false := by
  cases projections with
  | nil => nofun
  | cons first more => exact forall_mem_head? (by decide)

theorem toList_find_text (filters : List Filter) (projections : List String) :
    (Clause.find filters projections).text.toList = filtersChars filters ++ projectionsChars projections := by
  have hfilters : (if filters.isEmpty then "" else " WHERE " ++ " AND ".intercalate (filters.map Filter.text)).toList =
      filtersChars filters := by
    cases filters with
    | nil => rfl
    | cons first more =>
      simp [filtersChars, spaced, String.toList_intercalate, intercalate_cons, List.flatMap_map, Function.comp_def]
  have hprojections : (if projections.isEmpty then "" else " RETURN " ++ ", ".intercalate projections).toList =
      projectionsChars projections := by
    cases projections with
    | nil => rfl
    | cons first more =>
      simp [projectionsChars, spaced, String.toList_intercalate, intercalate_cons, List.flatMap_map]
  rw [Clause.text, String.toList_append, hfilters, hprojections]

/-- Further projections, to the end. -/
theorem tokensFrom_moreProjections {projections : List String} (h : ∀ path ∈ projections, LegiblePath path) :
    tokensFrom .none .projection last (projections.flatMap ([',', ' '] ++ ·.toList)) =
      projections.flatMap (fun path => [.comma, .path path]) ++ [.finish] := by
  induction projections generalizing last with
  | nil => exact tokensFrom_nil
  | cons path rest ih =>
    obtain ⟨hpath, hrest⟩ := List.forall_mem_cons.1 h
    have hcomma (after : List Char) : tokensFrom .none .projection last ([',', ' '] ++ after) =
        .comma :: tokensFrom .afterSeparator .projection (some .comma) after := tokensFrom_comma
    have hend : ∀ c ∈ (rest.flatMap ([',', ' '] ++ ·.toList)).head?, isPathChar c = false := by
      rw [← List.append_nil (rest.flatMap _)]
      exact forall_mem_head?_flatMap (by decide) (by nofun)
    rw [List.flatMap_cons, List.append_assoc, hcomma, tokensFrom_path (by nofun) hpath.text hpath.characters hend,
      ih hrest, List.flatMap_cons]
    rfl

/-- Projections, to the end. -/
theorem tokensFrom_projections {projections : List String} (h : ∀ path ∈ projections, LegiblePath path)
    (hname : ¬(zone = .pattern ∧ (last = some .leftParen ∨ last = some .colon ∨ last = some .leftBracket))) :
    tokensFrom .none zone last (projectionsChars projections) = projectionsTokens projections ++ [.finish] := by
  cases projections with
  | nil => exact tokensFrom_nil
  | cons first more =>
    obtain ⟨hfirst, hmore⟩ := List.forall_mem_cons.1 h
    have hend : ∀ c ∈ (more.flatMap ([',', ' '] ++ ·.toList)).head?, isPathChar c = false := by
      rw [← List.append_nil (more.flatMap _)]
      exact forall_mem_head?_flatMap (by decide) (by nofun)
    have hreturn (after : List Char) : tokensFrom .none zone last (spaced "RETURN" ++ after) =
        .returnWord :: tokensFrom .afterReturn .projection (some .returnWord) after :=
      tokensFrom_spaced (by decide)
        (show keyword? "RETURN" = some .returnWord by decide) hname
    rw [projectionsChars, hreturn, tokensFrom_path (by nofun) hfirst.text hfirst.characters hend,
      tokensFrom_moreProjections hmore]
    rfl

/-- Further filters and the projections, to the end. -/
theorem tokensFrom_moreFilters {filters : List Filter} {projections : List String}
    (hfilters : ∀ filter ∈ filters, LegibleFilter filter) (hprojections : ∀ path ∈ projections, LegiblePath path) :
    tokensFrom .none .filter last (filters.flatMap (spaced "AND" ++ ·.text.toList) ++ projectionsChars projections) =
      filters.flatMap (fun filter => .andWord :: filterTokens filter) ++
        (projectionsTokens projections ++ [.finish]) := by
  induction filters generalizing last with
  | nil => exact tokensFrom_projections hprojections (by nofun)
  | cons filter rest ih =>
    obtain ⟨hfilter, hrest⟩ := List.forall_mem_cons.1 hfilters
    have hand (after : List Char) : tokensFrom .none .filter last (spaced "AND" ++ after) =
        .andWord :: tokensFrom .afterSeparator .filter (some .andWord) after :=
      tokensFrom_spaced (by decide) (show keyword? "AND" = some .andWord by decide) (by nofun)
    have hend : ∀ c ∈ (rest.flatMap (spaced "AND" ++ ·.text.toList) ++ projectionsChars projections).head?,
        isWordChar c = false :=
      forall_mem_head?_flatMap (by decide) (head?_projectionsChars projections)
    rw [List.flatMap_cons, List.append_assoc, List.append_assoc, hand, tokensFrom_filter hfilter (by nofun) hend,
      ih hrest, List.flatMap_cons, List.append_assoc, List.cons_append]

/-- What follows the pattern, to the end. -/
theorem tokensFrom_clause {clause : Clause} (h : LegibleClause clause) :
    tokensFrom .none .pattern (some .rightParen) clause.text.toList = clauseTokens clause ++ [.finish] := by
  cases clause with
  | create | delete => exact tokensFrom_nil
  | assign assignments =>
    have htext : (Clause.assign assignments).text.toList = ' ' :: ((propertiesText assignments).toList ++ []) := by
      simp [Clause.text]
    have hassignments : ∀ property ∈ assignments, LegibleProperty property := h.assignments
    rw [htext, tokensFrom_blank (by decide), tokensFrom_properties hassignments, tokensFrom_nil]
    rfl
  | find filters projections =>
    have hprojections : ∀ path ∈ projections, LegiblePath path := h.projections
    rw [toList_find_text, clauseTokens, List.append_assoc]
    cases filters with
    | nil => exact tokensFrom_projections hprojections (by simp)
    | cons first more =>
      obtain ⟨hfirst, hmore⟩ := List.forall_mem_cons.1 h.filters
      have hwhere (after : List Char) : tokensFrom .none .pattern (some .rightParen) (spaced "WHERE" ++ after) =
          .whereWord :: tokensFrom .afterWhere .filter (some .whereWord) after :=
        tokensFrom_spaced (by decide)
          (show keyword? "WHERE" = some .whereWord by decide) (by simp)
      have hend : ∀ c ∈ (more.flatMap (spaced "AND" ++ ·.text.toList) ++ projectionsChars projections).head?,
          isWordChar c = false :=
        forall_mem_head?_flatMap (by decide) (head?_projectionsChars projections)
      rw [filtersChars, List.append_assoc, List.append_assoc, hwhere, tokensFrom_filter hfirst (by decide) hend,
        tokensFrom_moreFilters hmore hprojections]
      simp [filtersTokens]

end Query

end ClusterQuery
