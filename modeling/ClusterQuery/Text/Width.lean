import ClusterQuery.Text.Follower

/-!
# Columns

How many columns of a terminal a text takes. The text is read from its end; each character adds its columns in view of
what follows it, which is a `Follower` and perhaps a selector between the two.
-/

namespace ClusterQuery.Text

/-- A mark that selects how the character before it is drawn. -/
inductive Selector where
  | emoji
  | text
  /-- The wide form of a quotation mark. -/
  | wide
  deriving DecidableEq, Repr

/-- The selector that a character is. -/
def Selector.ofChar? (c : Char) : Option Selector :=
  match c.toNat with
  | 0xFE0F => some .emoji
  | 0xFE0E => some .text
  | 0xFE01 => some .wide
  | _ => none

/-- What a character has after it: a follower, and the selectors before it that still wait for their character. -/
structure Context where
  follower : Follower
  asEmoji : Bool
  asText : Bool
  asWide : Bool
  deriving DecidableEq, Repr

namespace Context

/-- A follower without a selector before it. -/
def after (follower : Follower) : Context := ⟨follower, false, false, false⟩

/-- One more selector. -/
def mark (context : Context) : Selector → Context
  | .emoji => { context with asEmoji := true }
  | .text => { context with asText := true }
  | .wide => { context with asWide := true }

/-- The context for a character that the selector for emoji has no effect on: that selector is spent, and it has cut off
all followers but letters. -/
def withoutEmoji (context : Context) : Context :=
  if context.asEmoji ∧ ¬context.follower.isLetter then after .plain else { context with asEmoji := false }

/-- A selector comes before the follower: letters keep their part in a sign and the selectors before them, and joined
emoji keep theirs before the selector for emoji; anything else is cut off. -/
def select (context : Context) (selector : Selector) : Context :=
  if context.follower.isLetter then context.mark selector
  else if selector = .emoji ∧ context.follower.awaitsEmoji then (after context.follower).mark selector
  else (after .plain).mark selector

end Context

/-- The character has a form that a selector chooses, with the columns of that form. A character that joins what
follows adds none. -/
def selectedWidth? (c : Char) (context : Context) : Option (Nat × Follower) :=
  if context.asEmoji &&
      (inRanges textEmojiRanges c.toNat || inRanges textStyleRanges c.toNat ||
        inRanges wideTextStyleRanges c.toNat) then
    some (if context.follower.awaitsEmoji then 0 else 2, .emoji)
  else if context.asText && inRanges textStyleRanges c.toNat then some (1, .plain)
  else if context.asWide && c ∈ ['‘', '’', '“', '”'] then some (2, .plain)
  else none

/-- The columns that a character adds before a follower, and what both are for the character before them. -/
def widthBefore (c : Char) (follower : Follower) : Int × Follower :=
  if c.toNat ≤ 0xA0 then (1, .plain)
  else if follower.passesMarks ∧ c = joiner then (0, follower.join)
  else if follower.passesMarks ∧ inRanges formMarkRanges c.toNat then (0, follower)
  else (follower.meet? c).getD (charWidth c, .ofChar c)

/-- The columns that a character adds in a context, and the context of the character before it. -/
def widthIn (c : Char) (context : Context) : Int × Context :=
  match selectedWidth? c context with
  | some (width, follower) => (width, .after follower)
  | none =>
    match Selector.ofChar? c with
    | some selector => (0, context.withoutEmoji.select selector)
    | none =>
      let (width, follower) := widthBefore c context.withoutEmoji.follower
      (width, .after follower)

/-- The columns of a text. -/
def width (text : List Char) : Nat :=
  let (total, _) := text.foldr
    (fun c ((total, context) : Int × Context) =>
      let (added, before) := widthIn c context
      (total + added, before))
    (0, .after .plain)
  total.toNat

end ClusterQuery.Text
