import ClusterQuery.Text.Blank
import ClusterQuery.Text.EmojiTable
import ClusterQuery.Text.WidthTable

/-!
# What follows a character

Characters can be drawn as one sign, and then they take fewer or more columns together than they take alone. Read from
the end of a text, what a character adds depends on what follows it: `Follower` names the cases, `Follower.ofChar` says
which one a character is by itself, and `Follower.meet?` what becomes of a character and its follower.
-/

namespace ClusterQuery.Text

/-- What follows a character, as far as it changes the columns that the character adds. -/
inductive Follower where
  | plain
  | skinTone
  /-- One letter of a flag, and not known to be paired. -/
  | flagLetter
  /-- Two letters of a flag or more. -/
  | flagLetters
  | emoji
  /-- A joiner and an emoji, as in all cases that are called joined below. -/
  | joinedEmoji
  /-- A key around what comes before, joined. -/
  | joinedKeycap
  | joinedFlagLetter
  /-- An even number of letters of flags, joined. -/
  | joinedFlags
  /-- An odd number of letters of flags, more than one, joined. -/
  | joinedFlagsAndLetter
  /-- The end of a sequence of tags, joined. -/
  | joinedTagEnd
  /-- So many letter tags before the end, joined. -/
  | joinedTagLetters (count : Nat)
  /-- So many digit tags before letters or the end, joined. -/
  | joinedTagDigits (count : Nat)
  /-- The short Kirat Rai vowel of which the others are made. -/
  | kiratRaiVowel
  /-- Two of it. -/
  | kiratRaiVowels
  | alef
  | lamed (joined : Bool)
  | ya (joined : Bool)
  /-- The vowel that joins a ya, and the joined ya. -/
  | vowelAndYa
  | tifinagh (joined : Bool)
  /-- The sign that joins Tifinagh consonants, and the second of them. -/
  | joinedTifinagh
  /-- The second half of a Lisu tone. -/
  | lisuTone
  | orkhon (joined : Bool)
  /-- A Khmer letter that can be written below another one. -/
  | khmer
  deriving DecidableEq, Repr

/-- The character that joins its neighbours into one sign. -/
def joiner : Char := '\u200d'

/-- The letters that become part of a flag two by two. -/
def flagLetterRange : Nat × Nat := (0x1F1E6, 0x1F1FF)

/-- The skin tones. -/
def skinToneRange : Nat × Nat := (0x1F3FB, 0x1F3FF)

/-- The consonants of Tifinagh. -/
def tifinaghRanges : List (Nat × Nat) := [(0x2D31, 0x2D65), (0x2D6F, 0x2D6F)]

/-- The sign that joins Tifinagh consonants; where it joins none it is seen. -/
def tifinaghJoiner : Char := '\u2d7f'

/-- The Khmer letters that can be written below another one. -/
def khmerRanges : List (Nat × Nat) :=
  [(0x1780, 0x1782), (0x1784, 0x1787), (0x1789, 0x178C), (0x178E, 0x1793), (0x1795, 0x1798), (0x179B, 0x179D),
    (0x17A0, 0x17A0), (0x17A2, 0x17A2), (0x17A7, 0x17A7), (0x17AB, 0x17AC), (0x17AF, 0x17AF)]

/-- The forms of the Arabic letter alef. -/
def alefRanges : List (Nat × Nat) :=
  [(0x622, 0x623), (0x625, 0x625), (0x627, 0x627), (0x671, 0x673), (0x675, 0x675), (0x773, 0x774), (0x870, 0x882)]

/-- The forms of the Arabic letter lam. -/
def lamRanges : List (Nat × Nat) :=
  [(0x644, 0x644), (0x6B5, 0x6B8), (0x76A, 0x76A), (0x8A6, 0x8A6), (0x8C7, 0x8C7)]

/-- The marks that only choose the form of the letter before them. -/
def formMarkRanges : List (Nat × Nat) :=
  [(0x34F, 0x34F), (0x17B4, 0x17B5), (0x180B, 0x180D), (0x180F, 0x180F), (0xFE00, 0xFE0F), (0xE0100, 0xE01EF)]

/-- A character that takes no column by itself. -/
def isZeroWidth (c : Char) : Bool :=
  c ≠ tifinaghJoiner && (inRanges extendRanges c.toNat || inRanges ignorableRanges c.toNat)

/-- The columns of one character by itself; control characters count as one. Two Khmer signs stand for several
letters. -/
def charWidth (c : Char) : Nat :=
  if c.toNat ≤ 0xA0 then 1
  else if isZeroWidth c then 0
  else if c.toNat = 0x17D8 then 3
  else if c.toNat = 0x17A4 || inRanges wideRanges c.toNat then 2
  else 1

namespace Follower

/-- What a character is for the one before it. -/
def ofChar (c : Char) : Follower :=
  if inRanges emojiRanges c.toNat then .emoji
  else if inRanges [skinToneRange] c.toNat then .skinTone
  else if inRanges [flagLetterRange] c.toNat then .flagLetter
  else if inRanges alefRanges c.toNat then .alef
  else if inRanges tifinaghRanges c.toNat then .tifinagh false
  else if inRanges khmerRanges c.toNat then .khmer
  else
    match c.toNat with
    | 0x5DC => .lamed false
    | 0x1A10 => .ya false
    | 0xA4FC => .lisuTone
    | 0xA4FD => .lisuTone
    | 0x10C03 => .orkhon false
    | 0x16D67 => .kiratRaiVowel
    | 0x16D68 => .kiratRaiVowels
    | _ => .plain

/-- A letter that keeps its part in a sign when a selector comes before it. -/
def isLetter : Follower → Bool
  | .alef => true
  | .lamed _ => true
  | .ya _ => true
  | .vowelAndYa => true
  | .tifinagh _ => true
  | .joinedTifinagh => true
  | .lisuTone => true
  | .orkhon _ => true
  | .khmer => true
  | _ => false

/-- A letter that keeps its part in a sign when a joiner or a mark of form comes before it. -/
def passesMarks (follower : Follower) : Bool :=
  follower.isLetter && follower ≠ .alef

/-- An emoji with a joiner before it, which an emoji with a selector can join. -/
def awaitsEmoji : Follower → Bool
  | .joinedEmoji => true
  | .joinedKeycap => true
  | _ => false

/-- A letter with a joiner before it. -/
def join : Follower → Follower
  | .lamed _ => .lamed true
  | .ya _ => .ya true
  | .tifinagh _ => .tifinagh true
  | .orkhon _ => .orkhon true
  | other => other

/-- An emoji or its last part, before which a joiner joins. -/
def endsEmoji : Follower → Bool
  | .emoji => true
  | .skinTone => true
  | .flagLetters => true
  | .joinedFlags => true
  | .joinedFlagsAndLetter => true
  | _ => false

/-- The tags before a flag are as many as name a region. -/
def namesRegion : Follower → Bool
  | .joinedTagLetters count => 3 ≤ count
  | .joinedTagDigits count => count = 3
  | _ => false

/-- What a letter tag or a digit tag adds to the tags after it. -/
def addTag (follower : Follower) (code : Nat) : Option Follower :=
  if 0xE0061 ≤ code ∧ code ≤ 0xE007A then
    match follower with
    | .joinedTagEnd => some (.joinedTagLetters 1)
    | .joinedTagLetters count => if count < 6 then some (.joinedTagLetters (count + 1)) else none
    | _ => none
  else if 0xE0030 ≤ code ∧ code ≤ 0xE0039 then
    match follower with
    | .joinedTagEnd => some (.joinedTagDigits 1)
    | .joinedTagLetters count => if count ≤ 4 then some (.joinedTagDigits 1) else none
    | .joinedTagDigits count => if count < 3 then some (.joinedTagDigits (count + 1)) else none
    | _ => none
  else none

/-- What a letter of a flag and its follower become. The first letter before a joined emoji is counted as if it were
alone, the second one takes that back. -/
def meetFlagLetter : Follower → Option (Int × Follower)
  | .flagLetter => some (1, .flagLetters)
  | .flagLetters => some (1, .flagLetters)
  | .joinedEmoji => some (1, .joinedFlagLetter)
  | .joinedFlagLetter => some (-1, .joinedFlags)
  | .joinedFlags => some (3, .joinedFlagsAndLetter)
  | .joinedFlagsAndLetter => some (-1, .joinedFlags)
  | _ => none

/-- What a character that joins emoji and its follower become. -/
def meetEmoji (follower : Follower) (c : Char) : Option (Int × Follower) :=
  if inRanges [flagLetterRange] c.toNat then follower.meetFlagLetter
  else if c = joiner then if follower.endsEmoji then some (0, .joinedEmoji) else none
  else if follower = .skinTone then if inRanges toneBaseRanges c.toNat then some (0, .emoji) else none
  else if follower = .joinedEmoji then
    if c = '\u20e3' then some (0, .joinedKeycap)
    else if inRanges [skinToneRange] c.toNat then some (0, .skinTone)
    else if c.toNat = 0xE007F then some (0, .joinedTagEnd)
    else if inRanges emojiRanges c.toNat then some (0, .emoji)
    else none
  else if c.toNat = 0x1F3F4 then if follower.namesRegion then some (0, .emoji) else none
  else (follower.addTag c.toNat).map (0, ·)

/-- What a letter and the letter after it become. -/
def meetLetter (follower : Follower) (c : Char) : Option (Int × Follower) :=
  match follower with
  | .alef =>
    if inRanges lamRanges c.toNat then some (0, .plain)
    else if isZeroWidth c ∧ ¬inRanges partingRanges c.toNat then some (0, .alef)
    else none
  | .lamed true => if c.toNat = 0x5D0 then some (0, .plain) else none
  | .ya true => if c.toNat = 0x1A17 then some (0, .vowelAndYa) else none
  | .vowelAndYa => if c.toNat = 0x1A15 then some (0, .plain) else none
  | .tifinagh joined =>
    if c = tifinaghJoiner then some (1, .joinedTifinagh)
    else if joined ∧ inRanges tifinaghRanges c.toNat then some (0, .plain)
    else none
  | .joinedTifinagh => if inRanges tifinaghRanges c.toNat then some (-1, .plain) else none
  | .lisuTone => if 0xA4F8 ≤ c.toNat ∧ c.toNat ≤ 0xA4FB then some (0, .plain) else none
  | .orkhon true => if c.toNat = 0x10C32 then some (0, .plain) else none
  | .khmer => if c.toNat = 0x17D2 then some (-1, .plain) else none
  | .kiratRaiVowel =>
    match c.toNat with
    | 0x16D63 => some (0, .plain)
    | 0x16D67 => some (0, .kiratRaiVowels)
    | 0x16D68 => some (1, .kiratRaiVowel)
    | 0x16D69 => some (0, .plain)
    | _ => none
  | .kiratRaiVowels => if c.toNat = 0x16D63 then some (0, .plain) else none
  | _ => none

/-- The columns that a character adds where it is drawn together with its follower, and what both are for the character
before them; none where they stay apart. -/
def meet? (follower : Follower) (c : Char) : Option (Int × Follower) :=
  follower.meetLetter c <|> follower.meetEmoji c

end Follower

end ClusterQuery.Text
