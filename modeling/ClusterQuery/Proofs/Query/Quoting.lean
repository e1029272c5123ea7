import Mathlib.Tactic.Common
import ClusterQuery.Query.Lexer

/-!
# Quoted text by its characters

The reader looks for the closing quote among the bytes of a text, and past a backslash it may come to stand inside a
character. No byte of a character that takes several is that of a quote or a backslash
(`eq_of_toUInt8_mem_utf8EncodeChar`), so from there it goes on to the end of the character. What it finds is what a scan
over the characters finds (`escapedBody?_eq_quotedBody?`).
-/

namespace ClusterQuery.Query

/-- The characters up to the closing quote, with their backslashes; a backslash takes the next character along. -/
def quotedBody? (quote : Char) : List Char → Option (List Char)
  | [] => none
  | '\\' :: c :: rest => (quotedBody? quote rest).map fun body => '\\' :: c :: body
  | c :: rest => if c = quote then some [] else (quotedBody? quote rest).map (c :: ·)

/-! ## Bytes of characters -/

/-- The bytes of a character that takes several are above all characters that take one. -/
theorem le_of_mem_utf8EncodeChar {c : Char} (hsize : c.utf8Size ≠ 1) {byte : UInt8}
    (h : byte ∈ String.utf8EncodeChar c) : 128 ≤ byte.toNat := by
  have hhigh : ∀ low high : UInt8, 128 ≤ high.toNat → 128 ≤ (low ||| high).toNat := fun low high hle => by
    rw [UInt8.toNat_or]
    exact Nat.le_trans hle Nat.right_le_or
  rcases Char.utf8Size_eq c with hone | htwo | hthree | hfour
  · exact absurd hone hsize
  · rw [String.utf8EncodeChar_eq_cons_cons htwo] at h
    simp only [List.mem_cons, List.not_mem_nil, or_false] at h
    rcases h with rfl | rfl <;> exact hhigh _ _ (by decide)
  · rw [String.utf8EncodeChar_eq_cons_cons_cons hthree] at h
    simp only [List.mem_cons, List.not_mem_nil, or_false] at h
    rcases h with rfl | rfl | rfl <;> exact hhigh _ _ (by decide)
  · rw [String.utf8EncodeChar_eq_cons_cons_cons_cons hfour] at h
    simp only [List.mem_cons, List.not_mem_nil, or_false] at h
    rcases h with rfl | rfl | rfl | rfl <;> exact hhigh _ _ (by decide)

/-- A character that takes one byte is that byte. -/
theorem toNat_toUInt8 {c : Char} (h : c.toNat < 128) : c.toUInt8.toNat = c.toNat :=
  Nat.mod_eq_of_lt (show c.toNat < 256 by omega)

theorem utf8Size_of_lt {c : Char} (h : c.toNat < 128) : c.utf8Size = 1 :=
  Char.utf8Size_eq_one_iff.2 (UInt32.le_iff_toNat_le.2 (Nat.le_of_lt_succ h))

/-- The byte of a character that takes one is in the bytes of none that takes several. -/
theorem toUInt8_notMem_of_utf8Size_ne_one {c d : Char} (hd : d.toNat < 128) (hsize : c.utf8Size ≠ 1) :
    d.toUInt8 ∉ String.utf8EncodeChar c := by
  intro h
  have hle := le_of_mem_utf8EncodeChar hsize h
  rw [toNat_toUInt8 hd] at hle
  omega

/-- The byte of a character that takes one is in the bytes of no other character. -/
theorem eq_of_toUInt8_mem_utf8EncodeChar {c d : Char} (hd : d.toNat < 128)
    (h : d.toUInt8 ∈ String.utf8EncodeChar c) : c = d := by
  by_cases hsize : c.utf8Size = 1
  · rw [String.utf8EncodeChar_eq_singleton hsize, List.mem_singleton] at h
    have hc : c.toNat < 128 := Nat.lt_succ_of_le (UInt32.le_iff_toNat_le.1 (Char.utf8Size_eq_one_iff.1 hsize))
    have hbytes : d.toUInt8.toNat = c.toUInt8.toNat := congrArg UInt8.toNat h
    rw [toNat_toUInt8 hd, toNat_toUInt8 hc] at hbytes
    exact Char.toNat_inj.1 hbytes.symm
  · exact absurd h (toUInt8_notMem_of_utf8Size_ne_one hd hsize)

/-- Only the first byte of a character can be that of one that takes one. -/
theorem toUInt8_notMem_tail {d : Char} (hd : d.toNat < 128) (c : Char) :
    d.toUInt8 ∉ (String.utf8EncodeChar c).tail := by
  intro h
  by_cases hsize : c.utf8Size = 1
  · rw [String.utf8EncodeChar_eq_singleton hsize] at h
    cases h
  · exact toUInt8_notMem_of_utf8Size_ne_one hd hsize (List.mem_of_mem_tail h)

/-! ## Where the scan stops -/

variable {quote : Char}

/-- The scan goes on past bytes that are neither a quote nor a backslash. -/
theorem quotePosition_append {byte : UInt8} {bytes : List UInt8} (hquote : byte ∉ bytes)
    (hbackslash : '\\'.toUInt8 ∉ bytes) (more : List UInt8) :
    quotePosition byte (bytes ++ more) = bytes.length + quotePosition byte more := by
  induction bytes with
  | nil => exact (Nat.zero_add _).symm
  | cons first rest ih =>
    rw [List.mem_cons, not_or] at hquote hbackslash
    have hstep : quotePosition byte (first :: (rest ++ more)) = quotePosition byte (rest ++ more) + 1 := by
      cases rest ++ more with
      | nil => exact if_neg (Ne.symm hquote.1)
      | cons => rw [quotePosition, if_neg (Ne.symm hbackslash.1), if_neg (Ne.symm hquote.1)]
    rw [List.cons_append, hstep, ih hquote.2 hbackslash.2, List.length_cons]
    omega

/-- The scan of a text that begins with a character other than a quote and a backslash goes on past it. -/
theorem quotePosition_cons {c : Char} (hascii : quote.toNat < 128) (hquote : c ≠ quote) (hbackslash : c ≠ '\\')
    (more : List UInt8) : quotePosition quote.toUInt8 (String.utf8EncodeChar c ++ more) =
      c.utf8Size + quotePosition quote.toUInt8 more := by
  rw [quotePosition_append (fun h => hquote (eq_of_toUInt8_mem_utf8EncodeChar hascii h))
    (fun h => hbackslash (eq_of_toUInt8_mem_utf8EncodeChar (by decide) h)), String.length_utf8EncodeChar]

/-- A backslash takes a whole character along, whatever bytes it has. -/
theorem quotePosition_escape (hascii : quote.toNat < 128) (c : Char) (more : List UInt8) :
    quotePosition quote.toUInt8 ('\\'.toUInt8 :: (String.utf8EncodeChar c ++ more)) =
      1 + (c.utf8Size + quotePosition quote.toUInt8 more) := by
  have htail := quotePosition_append (toUInt8_notMem_tail hascii c) (toUInt8_notMem_tail (by decide) c) more
  have hlength := String.length_utf8EncodeChar c
  cases hbytes : String.utf8EncodeChar c with
  | nil => exact absurd hbytes String.utf8EncodeChar_ne_nil
  | cons first rest =>
    rw [hbytes, List.tail_cons] at htail
    rw [hbytes, List.length_cons] at hlength
    rw [List.cons_append, quotePosition, if_pos rfl, htail]
    omega

/-- A position past the first character is one among the bytes after it. -/
theorem splitAtByte_cons (c : Char) (rest : List Char) (position : Nat) :
    splitAtByte (c.utf8Size + position) (c :: rest) =
      (c :: (splitAtByte position rest).1, (splitAtByte position rest).2) := by
  obtain ⟨size, hsize⟩ := Nat.exists_eq_add_one.2 c.utf8Size_pos
  rw [hsize, Nat.add_right_comm, splitAtByte, ← Nat.add_right_comm, ← hsize, Nat.add_sub_cancel_left]

/-- A body goes on as the scan does when it passes the characters at the start of a text. -/
theorem escapedBody?_append (front : List Char) {rest : List Char} {position : Nat}
    (hposition : quotePosition quote.toUInt8 ((front ++ rest).flatMap String.utf8EncodeChar) = position)
    (hsplit : splitAtByte position (front ++ rest) =
      let split := splitAtByte (quotePosition quote.toUInt8 (rest.flatMap String.utf8EncodeChar)) rest
      (front ++ split.1, split.2)) :
    escapedBody? quote (front ++ rest) = (escapedBody? quote rest).map (front ++ ·) := by
  rw [escapedBody?, escapedBody?, hposition, hsplit]
  dsimp only
  split <;> rfl

/-- The scan over the bytes finds the body that the scan over the characters finds. -/
theorem escapedBody?_eq_quotedBody? (hascii : quote.toNat < 128) (hquote : quote ≠ '\\') (text : List Char) :
    escapedBody? quote text = quotedBody? quote text := by
  have hbyte : quote.toUInt8 ≠ '\\'.toUInt8 := fun h =>
    hquote (eq_of_toUInt8_mem_utf8EncodeChar (c := '\\') hascii (List.mem_singleton.2 h)).symm
  fun_induction quotedBody? quote text with
  | case1 => rfl
  | case2 c rest ih =>
    rw [← ih]
    refine escapedBody?_append ['\\', c] (quotePosition_escape hascii c _) ?_
    rw [List.cons_append, List.singleton_append]
    exact (splitAtByte_cons '\\' _ _).trans (by rw [splitAtByte_cons]; rfl)
  | case3 rest =>
    have hone : String.utf8EncodeChar quote = [quote.toUInt8] :=
      String.utf8EncodeChar_eq_singleton (utf8Size_of_lt hascii)
    have hstop : quotePosition quote.toUInt8 ((quote :: rest).flatMap String.utf8EncodeChar) = 0 := by
      rw [List.flatMap_cons, hone, List.singleton_append]
      cases rest.flatMap String.utf8EncodeChar with
      | nil => exact if_pos rfl
      | cons => rw [quotePosition, if_neg hbyte, if_pos rfl]
    rw [escapedBody?, hstop, splitAtByte]
    exact if_pos rfl
  | case4 c rest hescape hne ih =>
    rw [← ih]
    by_cases hbackslash : c = '\\'
    · -- a backslash at the end of the text takes nothing along
      subst hbackslash
      cases rest with
      | nil => exact escapedBody?_append ['\\'] (if_neg hbyte.symm) rfl
      | cons d more => exact absurd rfl (hescape d more rfl)
    · exact escapedBody?_append [c] (quotePosition_cons hascii hne hbackslash _) (splitAtByte_cons c rest _)

end ClusterQuery.Query
