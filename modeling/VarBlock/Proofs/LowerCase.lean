import Mathlib
import VarBlock.Text.Lowercase

/-!
# What lower-casing does to names

The names of configuration entries are compared in lower case. Two things about the table behind
that matter for them. On ASCII text it is the lower-casing of ASCII (`lowercase_of_isAscii`). And it
leads to characters from `a` on: any other character of the result was in the text already, and is
no capital (`of_mem_lowercase`). So a name in lower case has a point or a bracket only if the name
has one, and one that is ASCII does not change any more (`lowercase_lowercase`).

What is ASCII in lower case has been ASCII before, with one exception: the Kelvin sign becomes `k`
(`isAscii_of_lowercase`).

The table of runs is checked once by evaluation (`lowerRuns_eq`, `bounds_of_mem_lowerRuns`). All
other lemmas are about a run in it, a character and then a text, in this order.
-/

namespace VarBlock.Text

def isAscii (c : Char) : Bool := c.toNat < 0x80

/-- Whether a run says what a character is in lower case. -/
def CaseRun.isFor (c : Char) (r : CaseRun) : Bool :=
  r.first ≤ c.toNat && c.toNat ≤ r.last && (c.toNat - r.first) % r.stride = 0

/-! ## The runs -/

/-- The first run is that of the ASCII capitals. -/
theorem lowerRuns_eq : lowerRuns = ⟨0x41, 0x5A, 1, 32⟩ :: lowerRuns.tail := rfl

/-- After the first run, no run begins in ASCII. -/
theorem le_first_of_mem_tail : ∀ r ∈ lowerRuns.tail, 0x80 ≤ r.first := by decide +kernel

/-- A run leads to characters, and these come from `a` on. -/
theorem bounds_of_mem_lowerRuns : ∀ r ∈ lowerRuns,
    0x61 ≤ r.first + r.shift ∧
      (r.last + r.shift < 0xD800 ∨ 0xDFFF < r.first + r.shift ∧ r.last + r.shift < 0x110000) := by
  decide +kernel

/-- A run beyond ASCII leads beyond ASCII too, unless it is that of the Kelvin sign. -/
theorem beyond_or_kelvin_of_mem_tail : ∀ r ∈ lowerRuns.tail,
    0x80 ≤ r.first + r.shift ∨ r.first = 0x212A ∧ r.last = 0x212A ∧ r.shift = -8383 := by
  decide +kernel

theorem isUpper_iff {c : Char} : c.isUpper = true ↔ 0x41 ≤ c.toNat ∧ c.toNat ≤ 0x5A := by
  rw [Char.isUpper, decide_eq_true_iff, ge_iff_le, UInt32.le_iff_toNat_le, UInt32.le_iff_toNat_le]
  rfl

/-- The first run is for the capitals of ASCII. -/
theorem CaseRun.isFor_capitals (c : Char) : isFor c ⟨0x41, 0x5A, 1, 32⟩ = c.isUpper := by
  rw [Bool.eq_iff_iff, isUpper_iff]
  simp [isFor, Nat.mod_one]

/-! ## Single characters -/

/-- Lower-casing by the rule of ASCII leads into ASCII only from there. -/
theorem isAscii_of_toLower {c : Char} (h : isAscii c.toLower = true) : isAscii c = true := by
  cases hu : c.isUpper with
  | true =>
    have hle := (isUpper_iff.mp hu).2
    exact decide_eq_true (by omega)
  | false => rwa [Char.toLower_eq_of_not_isUpper (Bool.eq_false_iff.mp hu)] at h

/-- But for the dotted capital I, a character is shifted by the run that is for it, or stays. -/
theorem lowerChar_eq {c : Char} (h : c.toNat ≠ 0x130) :
    lowerChar c = match lowerRuns.find? (CaseRun.isFor c) with
      | some r => [Char.ofNat (c.toNat + r.shift).toNat]
      | none => [c] := by
  rw [lowerChar, if_neg h]
  rfl

/-- The run for a capital of ASCII is the first. -/
theorem find?_of_isUpper {c : Char} (h : c.isUpper = true) :
    lowerRuns.find? (CaseRun.isFor c) = some ⟨0x41, 0x5A, 1, 32⟩ := by
  rw [lowerRuns_eq, List.find?_cons_of_pos]
  rw [CaseRun.isFor_capitals, h]

theorem find?_of_isAscii {c : Char} (hlt : c.toNat < 0x80) (h : c.isUpper = false) :
    lowerRuns.find? (CaseRun.isFor c) = none := by
  rw [lowerRuns_eq, List.find?_cons_of_neg (by rw [CaseRun.isFor_capitals, h]; decide),
    List.find?_eq_none]
  intro r hr hfor
  have hfirst := le_first_of_mem_tail r hr
  simp only [CaseRun.isFor, Bool.and_eq_true, decide_eq_true_eq] at hfor
  omega

/-- In ASCII the table follows the rule of ASCII. -/
theorem lowerChar_of_isAscii {c : Char} (h : isAscii c = true) : lowerChar c = [c.toLower] := by
  have hlt : c.toNat < 0x80 := of_decide_eq_true h
  rw [lowerChar_eq (by omega)]
  cases hu : c.isUpper with
  | true =>
    rw [find?_of_isUpper hu, Char.toLower_eq_of_isUpper hu]
    rfl
  | false => rw [find?_of_isAscii hlt hu, Char.toLower_eq_of_not_isUpper (Bool.eq_false_iff.mp hu)]

/-- The character that a run leads to. -/
theorem le_toNat_of_isFor {c : Char} {r : CaseRun} (hr : r ∈ lowerRuns) (h : r.isFor c = true) :
    0x61 ≤ (Char.ofNat (c.toNat + r.shift).toNat).toNat := by
  obtain ⟨hle, hvalid⟩ := bounds_of_mem_lowerRuns r hr
  simp only [CaseRun.isFor, Bool.and_eq_true, decide_eq_true_eq] at h
  have hchar : ((c.toNat + r.shift).toNat).isValidChar := by
    rw [Nat.isValidChar]
    omega
  rw [Char.toNat_ofNat, if_pos hchar]
  omega

/-- A character in lower case is from `a` on, or has not been changed and was no capital. -/
theorem of_mem_lowerChar {c d : Char} (h : d ∈ lowerChar c) :
    0x61 ≤ d.toNat ∨ d = c ∧ c.isUpper = false := by
  -- The dotted capital I is the one that becomes two characters, an `i` and a dot above.
  by_cases hdotted : c.toNat = 0x130
  · rw [lowerChar, if_pos hdotted] at h
    left
    rcases List.mem_pair.mp h with rfl | rfl <;> decide
  · rw [lowerChar_eq hdotted] at h
    cases hfind : lowerRuns.find? (CaseRun.isFor c) with
    | some r =>
      rw [hfind] at h
      obtain rfl := List.mem_singleton.mp h
      exact .inl (le_toNat_of_isFor (List.mem_of_find?_eq_some hfind) (List.find?_some hfind))
    -- No run is for the character, so it is no capital, as there is one for capitals.
    | none =>
      rw [hfind] at h
      refine .inr ⟨List.mem_singleton.mp h, Bool.eq_false_iff.mpr fun hu => ?_⟩
      rw [find?_of_isUpper hu] at hfind
      cases hfind

/-- A run leads to ASCII from a capital, or from the Kelvin sign to `k`. -/
theorem isUpper_or_eq_k_of_isFor {c : Char} {r : CaseRun} (hr : r ∈ lowerRuns)
    (h : r.isFor c = true) (hascii : isAscii (Char.ofNat (c.toNat + r.shift).toNat) = true) :
    c.isUpper = true ∨ Char.ofNat (c.toNat + r.shift).toNat = 'k' := by
  obtain ⟨-, hvalid⟩ := bounds_of_mem_lowerRuns r hr
  rw [lowerRuns_eq] at hr
  -- The first run is that of the capitals. Of the others only that of the Kelvin sign leads into
  -- ASCII.
  rcases List.mem_cons.mp hr with rfl | hr
  · rw [CaseRun.isFor_capitals] at h
    exact .inl h
  · simp only [CaseRun.isFor, Bool.and_eq_true, decide_eq_true_eq] at h
    right
    rcases beyond_or_kelvin_of_mem_tail r hr with hbeyond | ⟨hfirst, hlast, hshift⟩
    · have hchar : ((c.toNat + r.shift).toNat).isValidChar := by
        rw [Nat.isValidChar]
        omega
      rw [isAscii, decide_eq_true_iff, Char.toNat_ofNat, if_pos hchar] at hascii
      omega
    · have hcode : (c.toNat + r.shift).toNat = 0x6B := by omega
      rw [hcode]

/-- What is ASCII in lower case, with no `k` in it, was ASCII. -/
theorem isAscii_of_lowerChar {c : Char} (h : ∀ d ∈ lowerChar c, isAscii d = true ∧ d ≠ 'k') :
    isAscii c = true := by
  by_cases hdotted : c.toNat = 0x130
  · -- the dot above, which is written as a character of its own
    rw [lowerChar, if_pos hdotted] at h
    have hdot := (h _ (List.mem_cons_of_mem _ List.mem_cons_self)).1
    exact absurd hdot (by decide)
  · rw [lowerChar_eq hdotted] at h
    cases hfind : lowerRuns.find? (CaseRun.isFor c) with
    | some r =>
      rw [hfind] at h
      obtain ⟨hascii, hk⟩ := h _ List.mem_cons_self
      have hfor := List.find?_some hfind
      have hrun := List.mem_of_find?_eq_some hfind
      have hu := (isUpper_or_eq_k_of_isFor hrun hfor hascii).resolve_right hk
      have hle := (isUpper_iff.mp hu).2
      exact decide_eq_true (by omega)
    | none =>
      rw [hfind] at h
      exact (h c List.mem_cons_self).1

/-! ## Texts -/

/-- In ASCII each character is lower-cased for itself, for there is no sigma whose place in the word
would count. -/
theorem lowerChars_of_isAscii {cs : List Char} (h : ∀ c ∈ cs, isAscii c = true)
    (before : List Char) : lowerChars before cs = cs.map Char.toLower := by
  induction cs generalizing before with
  | nil => rfl
  | cons c cs ih =>
    obtain ⟨hc, hcs⟩ := List.forall_mem_cons.mp h
    have hlt : c.toNat < 0x80 := of_decide_eq_true hc
    rw [lowerChars, if_neg (by omega), lowerChar_of_isAscii hc, ih hcs]
    rfl

/-- Names in ASCII are lower-cased by the rule of ASCII. -/
theorem lowercase_of_isAscii {s : String} (h : ∀ c ∈ s.toList, isAscii c = true) :
    lowercase s = String.ofList (s.toList.map Char.toLower) := by
  rw [lowercase, lowerChars_of_isAscii h]

theorem isAscii_of_lowerChars {before cs : List Char}
    (h : ∀ d ∈ lowerChars before cs, isAscii d = true ∧ d ≠ 'k') : ∀ c ∈ cs, isAscii c = true := by
  induction cs generalizing before with
  | nil =>
    intro c hc
    cases hc
  | cons c cs ih =>
    rw [lowerChars] at h
    obtain ⟨himage, hrest⟩ := List.forall_mem_append.mp h
    refine List.forall_mem_cons.mpr ⟨?_, ih hrest⟩
    split at himage
    · -- both forms of the sigma are beyond ASCII
      have hsigma := (himage _ List.mem_cons_self).1
      exact absurd hsigma (by split <;> decide)
    · exact isAscii_of_lowerChar himage

theorem isAscii_of_lowercase {s : String}
    (h : ∀ d ∈ (lowercase s).toList, isAscii d = true ∧ d ≠ 'k') :
    ∀ c ∈ s.toList, isAscii c = true := by
  rw [lowercase, String.toList_ofList] at h
  exact isAscii_of_lowerChars h

example : lowercase "\u212A" = "k" := by decide

/-- In lower case there are characters from `a` on and such as were there before and are no
capitals. -/
theorem of_mem_lowerChars {before cs : List Char} {d : Char} (h : d ∈ lowerChars before cs) :
    0x61 ≤ d.toNat ∨ d ∈ cs ∧ d.isUpper = false := by
  induction cs generalizing before with
  | nil => cases h
  | cons c cs ih =>
    rw [lowerChars] at h
    rcases List.mem_append.mp h with h | h
    · split at h
      · -- both forms of the sigma
        left
        obtain rfl := List.mem_singleton.mp h
        split <;> decide
      · rcases of_mem_lowerChar h with hle | ⟨rfl, hu⟩
        · exact .inl hle
        · exact .inr ⟨List.mem_cons_self, hu⟩
    · rcases ih h with hle | ⟨hmem, hu⟩
      · exact .inl hle
      · exact .inr ⟨List.mem_cons_of_mem _ hmem, hu⟩

theorem of_mem_lowercase {s : String} {d : Char} (h : d ∈ (lowercase s).toList) :
    0x61 ≤ d.toNat ∨ d ∈ s.toList ∧ d.isUpper = false := by
  rw [lowercase, String.toList_ofList] at h
  exact of_mem_lowerChars h

/-- In lower case there is no capital of ASCII. -/
theorem not_isUpper_of_mem_lowercase {s : String} {d : Char} (h : d ∈ (lowercase s).toList) :
    d.isUpper = false := by
  rcases of_mem_lowercase h with hle | ⟨-, hu⟩
  · rw [Bool.eq_false_iff, ne_eq, isUpper_iff]
    omega
  · exact hu

/-- A name that is ASCII in lower case is not changed when it is lower-cased again. -/
theorem lowercase_lowercase {s : String} (h : ∀ c ∈ (lowercase s).toList, isAscii c = true) :
    lowercase (lowercase s) = lowercase s := by
  have hsame : (lowercase s).toList.map Char.toLower = (lowercase s).toList := by
    refine (List.map_congr_left fun c hc => ?_).trans (List.map_id _)
    have hu := not_isUpper_of_mem_lowercase hc
    exact Char.toLower_eq_of_not_isUpper (Bool.eq_false_iff.mp hu)
  rw [lowercase_of_isAscii h, hsame, String.ofList_toList]

end VarBlock.Text
