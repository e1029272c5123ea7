import Mathlib.Algebra.Ring.Int.Defs
import ClusterQuery.Text.LowerCase

/-!
# Texts in lower case

No lower case of a letter is a letter that changes (`lowerChar_of_mem`): the runs of the case table do not lead into one
another. So a text in lower case stays as it is (`lower_lower`), and a text that comes to it when only the ASCII letters
are put in lower case comes to it altogether (`lower_of_asciiLower_eq`). In ASCII texts there are no other letters
(`lower_of_isAscii`).
-/

namespace ClusterQuery.Text

/-! ## The case table -/

namespace CaseRun

/-- Where the run takes a letter. -/
def lowered (run : CaseRun) (code : Nat) : Nat :=
  (code + run.distance).toNat

/-- How far the letters of a run are apart, if it has more than one. -/
def stride (run : CaseRun) : Nat :=
  if run.first = run.last then 0 else run.step

/-- The first run takes no letter into the second: it leads before or behind it, or is out of step with it. -/
def avoids (run other : CaseRun) : Bool :=
  Nat.blt (run.lowered run.last) other.first || Nat.blt other.last (run.lowered run.first) ||
    (0 ≤ run.first + run.distance &&
      (run.first + run.distance - other.first) % (Nat.gcd run.stride other.stride : Int) != 0)

variable {run other : CaseRun} {code : Nat}

/-- A letter of a run is some strides behind the first. -/
theorem bounds_of_contains (h : run.contains code = true) :
    run.first ≤ code ∧ code ≤ run.last ∧ (run.stride : Int) ∣ code - run.first := by
  simp only [contains, Bool.and_eq_true, decide_eq_true_eq, beq_iff_eq] at h
  obtain ⟨⟨hfirst, hlast⟩, hstep⟩ := h
  refine ⟨hfirst, hlast, ?_⟩
  rw [← Nat.cast_sub hfirst]
  refine Int.natCast_dvd_natCast.2 ?_
  unfold stride
  split
  · -- the first letter is the only one
    exact Nat.zero_dvd.2 (by omega)
  · exact Nat.dvd_of_mod_eq_zero hstep

/-- A run that avoids another takes no letter into it. -/
theorem contains_lowered_of_avoids (h : run.avoids other = true) (hcode : run.contains code = true) :
    other.contains (run.lowered code) = false := by
  rw [Bool.eq_false_iff]
  intro hother
  obtain ⟨hfirst, hlast, hstride⟩ := bounds_of_contains hcode
  obtain ⟨hfirst', hlast', hstride'⟩ := bounds_of_contains hother
  simp only [avoids, Nat.blt_eq, Bool.or_eq_true, Bool.and_eq_true, decide_eq_true_eq, bne_iff_ne, ne_eq, lowered] at *
  rcases h with (h | h) | ⟨hpositive, h⟩
  · omega
  · omega
  · -- the two letters are whole strides behind the first letters of their runs
    have hcommon := Int.dvd_trans (Int.natCast_dvd_natCast.2 (Nat.gcd_dvd_left run.stride other.stride)) hstride
    have hcommon' := Int.dvd_trans (Int.natCast_dvd_natCast.2 (Nat.gcd_dvd_right run.stride other.stride)) hstride'
    have hdiff := Int.dvd_sub hcommon' hcommon
    rw [Int.toNat_of_nonneg (by omega), show (code : Int) + run.distance - other.first - (code - run.first) =
      run.first + run.distance - other.first by omega] at hdiff
    exact h (Int.emod_eq_zero_of_dvd hdiff)

end CaseRun

/-- The letters that change: those of ASCII, capital I with a dot, and those of the table. -/
def changingRuns : List CaseRun :=
  ⟨0x41, 0x5A, 1, 32⟩ :: ⟨0x130, 0x130, 1, 0⟩ :: caseRuns

/-- The runs of the table take no letter to a letter that changes. -/
theorem caseRuns_avoid : (caseRuns.all fun run => changingRuns.all run.avoids) = true := by
  decide +kernel

/-! ## Characters -/

variable {c d : Char}

theorem toLower_toLower (c : Char) : c.toLower.toLower = c.toLower := by
  unfold Char.toLower
  grind

/-- Outside ASCII there is no ASCII letter. -/
theorem toLower_of_le (h : 0x80 ≤ c.toNat) : c.toLower = c := by
  unfold Char.toLower
  rw [dif_neg]
  rintro ⟨-, hle⟩
  have hlast : c.toNat ≤ 0x5A := hle
  omega

/-- In ASCII the letters stay in ASCII. -/
theorem toNat_toLower_lt (h : c.toNat < 0x80) : c.toLower.toNat < 0x80 := by
  unfold Char.toLower
  split
  · rename_i hupper
    have hlast : c.toNat ≤ 0x5A := hupper.2
    have hsum : (c.val + 32).toNat = (c.toNat + 32) % 4294967296 := UInt32.toNat_add _ _
    change (c.val + 32).toNat < 0x80
    omega
  · exact h

theorem lowerChar_of_lt (h : c.toNat < 0x80) : lowerChar c = [c.toLower] :=
  if_pos h

/-- A character that changes in no way is no capital letter of ASCII. -/
theorem toLower_of_lowerChar (h : lowerChar c = [c]) : c.toLower = c := by
  rcases Nat.lt_or_ge c.toNat 0x80 with hlt | hge
  · rw [lowerChar_of_lt hlt] at h
    exact List.singleton_inj.1 h
  · exact toLower_of_le hge

/-- A character that is in no run of letters that change stays as it is. -/
theorem lowerChar_eq_self (h : ∀ run ∈ changingRuns, run.contains c.toNat = false) : lowerChar c = [c] := by
  obtain ⟨hascii, h⟩ := List.forall_mem_cons.1 h
  obtain ⟨hdotted, htable⟩ := List.forall_mem_cons.1 h
  unfold lowerChar
  split
  · have hsame : c.toLower = c := by
      unfold Char.toLower
      rw [dif_neg]
      rintro ⟨hge, hle⟩
      have hfirst : 0x41 ≤ c.toNat := hge
      have hlast : c.toNat ≤ 0x5A := hle
      simp [CaseRun.contains, hfirst, hlast, Nat.mod_one] at hascii
    rw [hsame]
  · split
    · rename_i hc
      subst hc
      exact absurd hdotted (by decide)
    · rw [List.find?_eq_none.2 fun run hrun => by rw [htable run hrun]; exact Bool.false_ne_true]

/-- Where a run of the table takes a letter, nothing changes any more. -/
theorem lowerChar_lowered {run : CaseRun} (hrun : run ∈ caseRuns) {code : Nat} (hcode : run.contains code = true) :
    lowerChar (Char.ofNat (run.lowered code)) = [Char.ofNat (run.lowered code)] := by
  by_cases hvalid : (run.lowered code).isValidChar
  · have hsame : (Char.ofNat (run.lowered code)).toNat = run.lowered code := by
      rw [Char.ofNat, dif_pos hvalid]
      rfl
    refine lowerChar_eq_self fun other hother => ?_
    have havoids := List.all_eq_true.1 (List.all_eq_true.1 caseRuns_avoid run hrun) other hother
    rw [hsame]
    exact CaseRun.contains_lowered_of_avoids havoids hcode
  · rw [Char.ofNat, dif_neg hvalid]
    decide

/-- The lower case of a character stays as it is. -/
theorem lowerChar_of_mem (h : d ∈ lowerChar c) : lowerChar d = [d] := by
  unfold lowerChar at h
  split at h
  · rename_i hascii
    obtain rfl := List.mem_singleton.1 h
    rw [lowerChar_of_lt (toNat_toLower_lt hascii), toLower_toLower]
  · split at h
    · rcases List.mem_cons.1 h with rfl | h
      · decide
      · rw [List.mem_singleton.1 h]
        decide +kernel
    · rename_i hhigh hdotted
      split at h
      · rename_i run hrun
        rw [List.mem_singleton.1 h]
        exact lowerChar_lowered (List.mem_of_find?_eq_some hrun) (by simpa using List.find?_some hrun)
      · rename_i hnone
        obtain rfl := List.mem_singleton.1 h
        rw [lowerChar, if_neg hhigh, if_neg hdotted, hnone]

/-! ## Texts -/

variable {text other key : String}

theorem asciiLower_asciiLower (text : String) : asciiLower (asciiLower text) = asciiLower text := by
  simp only [asciiLower, String.toList_ofList, List.map_map]
  refine congrArg String.ofList (List.map_congr_left fun c _ => ?_)
  exact toLower_toLower c

/-- A text differs from one in lower case by the case of ASCII letters at most when its lower case is that one. -/
theorem sameIgnoringCase_iff (hkey : asciiLower key = key) :
    sameIgnoringCase text key = true ↔ asciiLower text = key := by
  rw [sameIgnoringCase, beq_iff_eq]
  constructor
  · intro h
    rw [asciiLower, h]
    exact hkey
  · intro h
    rw [← h]
    conv_rhs => rw [asciiLower, String.toList_ofList, List.map_map]
    exact List.map_congr_left fun c _ => (toLower_toLower c).symm

/-- Nothing in the lower case of a text changes any more. -/
theorem lowerChar_of_mem_lowerFrom {passed cs : List Char} (h : d ∈ lowerFrom passed cs) : lowerChar d = [d] := by
  induction cs generalizing passed with
  | nil => cases h
  | cons c rest ih =>
    rw [lowerFrom] at h
    rcases List.mem_append.1 h with h | h
    · split at h
      · -- the two small sigmas
        split at h
        all_goals
          rw [List.mem_singleton.1 h]
          decide +kernel
      · exact lowerChar_of_mem h
    · exact ih h

/-- Where only letters of ASCII change, characters are put in lower case one by one. -/
theorem lowerFrom_eq_map {cs : List Char} (h : ∀ c ∈ cs, lowerChar c.toLower = [c.toLower]) (passed : List Char) :
    lowerFrom passed cs = cs.map Char.toLower := by
  induction cs generalizing passed with
  | nil => rfl
  | cons c rest ih =>
    obtain ⟨hc, hrest⟩ := List.forall_mem_cons.1 h
    have hsigma : c ≠ 'Σ' := by
      rintro rfl
      exact absurd hc (by decide +kernel)
    have hchar : lowerChar c = [c.toLower] := by
      rcases Nat.lt_or_ge c.toNat 0x80 with hlt | hge
      · exact lowerChar_of_lt hlt
      · rwa [toLower_of_le hge] at hc ⊢
    rw [lowerFrom, ih hrest, if_neg hsigma, hchar]
    rfl

theorem lower_eq_asciiLower (h : ∀ c ∈ text.toList, lowerChar c.toLower = [c.toLower]) :
    lower text = asciiLower text := by
  rw [lower, lowerFrom_eq_map h, asciiLower]

theorem asciiLower_lower (text : String) : asciiLower (lower text) = lower text := by
  rw [asciiLower, lower, String.toList_ofList]
  refine congrArg String.ofList ((List.map_congr_left fun c hc => ?_).trans (List.map_id _))
  exact toLower_of_lowerChar (lowerChar_of_mem_lowerFrom hc)

/-- A text that is in lower case but for letters of ASCII has the lower case that these give it. -/
theorem lower_of_asciiLower_eq (h : asciiLower text = lower other) : lower text = lower other := by
  rw [← h]
  refine lower_eq_asciiLower fun c hc => ?_
  have hmem : c.toLower ∈ (asciiLower text).toList := by
    rw [asciiLower, String.toList_ofList]
    exact List.mem_map_of_mem hc
  rw [h, lower, String.toList_ofList] at hmem
  exact lowerChar_of_mem_lowerFrom hmem

/-- A text in lower case stays as it is. -/
theorem lower_lower (text : String) : lower (lower text) = lower text :=
  lower_of_asciiLower_eq (asciiLower_lower text)

/-- Every character of the text is an ASCII character. -/
def IsAscii (text : String) : Prop :=
  ∀ c ∈ text.toList, c.toNat < 0x80

-- by the characters of the text: there are instances that go through all characters
instance : DecidablePred IsAscii := fun text =>
  List.decidableBAll (fun c : Char => c.toNat < 0x80) text.toList

theorem lower_of_isAscii (h : IsAscii text) : lower text = asciiLower text := by
  refine lower_eq_asciiLower fun c hc => ?_
  rw [lowerChar_of_lt (toNat_toLower_lt (h c hc)), toLower_toLower]

end ClusterQuery.Text
