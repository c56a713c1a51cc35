import Mathlib.Data.List.Induction
import VarBlock.Position

/-!
# The lines of a text

The lines of a text are what lies between its line feeds. Any front of a text is a number of whole
lines with their ends and a piece of the line after them (`exists_ended_append`), and the place
where it stops is read off from that: as many lines and as many columns come before it.

    position_ended_append : the place after `ended ls ++ u` is ⟨ls.length + 1, u.length + 1⟩

`LineTable` comes to the same by other means. Its entries are the places just past the line ends
(`getElem?_startsAfter_ended`), and the binary search counts how many of them are reached
(`countUpTo_eq`).
-/

namespace VarBlock

/-- The lines of a text, without their ends. -/
def lines (cs : List Char) : List (List Char) := cs.splitOn '\n'

/-- Lines, each with its end. -/
def ended (ls : List (List Char)) : List Char := ls.flatMap fun l => l ++ ['\n']

theorem ended_cons (l : List Char) (ls : List (List Char)) :
    ended (l :: ls) = l ++ '\n' :: ended ls := by
  rw [ended, List.flatMap_cons, List.append_assoc]
  rfl

theorem count_ended {ls : List (List Char)} (h : ∀ l ∈ ls, '\n' ∉ l) :
    (ended ls).count '\n' = ls.length := by
  induction ls with
  | nil => rfl
  | cons l ls ih =>
    obtain ⟨hl, hls⟩ := List.forall_mem_cons.mp h
    rw [ended_cons, List.count_append, List.count_eq_zero.mpr hl, List.count_cons_self, ih hls,
      List.length_cons, Nat.zero_add]

/-- Any text is whole lines and the beginning of a line. -/
theorem exists_ended_append (a : List Char) :
    ∃ ls u, a = ended ls ++ u ∧ (∀ l ∈ ls, '\n' ∉ l) ∧ '\n' ∉ u := by
  induction a with
  | nil => exact ⟨[], [], rfl, by simp, by simp⟩
  | cons c a ih =>
    obtain ⟨ls, u, rfl, hls, hu⟩ := ih
    -- A line end in front is an empty line of its own. Any other character belongs to the first
    -- line, which may be the unfinished one.
    by_cases hc : c = '\n'
    · exact ⟨[] :: ls, u, by rw [ended_cons, hc]; rfl, by simpa using hls, hu⟩
    · have hc' : '\n' ≠ c := fun h => hc h.symm
      cases ls with
      | nil => exact ⟨[], c :: u, rfl, by simp, by simp [hc', hu]⟩
      | cons l ls =>
        obtain ⟨hl, hls⟩ := List.forall_mem_cons.mp hls
        refine ⟨(c :: l) :: ls, u, ?_, ?_, hu⟩
        · rw [ended_cons, ended_cons]
          rfl
        · exact List.forall_mem_cons.mpr ⟨by simp [hc', hl], hls⟩

/-- Any place in a text comes after whole lines and the beginning of a line. -/
theorem exists_cut {cs : List Char} {offset : Nat} (h : offset ≤ cs.length) :
    ∃ ls u, cs.take offset = ended ls ++ u ∧ cs = ended ls ++ (u ++ cs.drop offset) ∧
      offset = (ended ls).length + u.length ∧ (∀ l ∈ ls, '\n' ∉ l) ∧ '\n' ∉ u := by
  obtain ⟨ls, u, hbefore, hls, hu⟩ := exists_ended_append (cs.take offset)
  refine ⟨ls, u, hbefore, ?_, ?_, hls, hu⟩
  · rw [← List.append_assoc, ← hbefore, List.take_append_drop]
  · rw [← List.length_append, ← hbefore, List.length_take, Nat.min_eq_left h]

/-! ## Splitting piece by piece -/

/-- Whole lines in front of a text are its first lines. -/
theorem lines_ended_append {ls : List (List Char)} (h : ∀ l ∈ ls, '\n' ∉ l) (b : List Char) :
    lines (ended ls ++ b) = ls ++ lines b := by
  induction ls with
  | nil => rfl
  | cons l ls ih =>
    obtain ⟨hl, hls⟩ := List.forall_mem_cons.mp h
    rw [ended_cons, List.append_assoc, List.cons_append, lines,
      List.splitOn_append_cons_self_of_not_mem hl]
    exact congrArg (l :: ·) (ih hls)

/-- The lines before a line, and the characters of it, are where the text begins. -/
theorem eq_ended_append_of_lines {cs l : List Char} {ls more : List (List Char)}
    (h : lines cs = ls ++ l :: more) :
    (∃ rest, cs = ended ls ++ (l ++ rest)) ∧ (∀ l ∈ ls, '\n' ∉ l) ∧ '\n' ∉ l := by
  obtain ⟨ls', u, rfl, hls', hu⟩ := exists_ended_append cs
  rw [lines_ended_append hls', lines, List.splitOn_eq_singleton hu] at h
  -- The line in question is the last, which has no end, or one of those that have.
  cases more using List.reverseRecOn with
  | nil =>
    obtain ⟨rfl, hlast⟩ := List.append_inj' h rfl
    obtain rfl := List.singleton_inj.mp hlast
    exact ⟨⟨[], by rw [List.append_nil]⟩, hls', hu⟩
  | append_singleton more l' =>
    rw [← List.cons_append, ← List.append_assoc] at h
    obtain ⟨rfl, hlast⟩ := List.append_inj' h rfl
    obtain rfl := List.singleton_inj.mp hlast
    obtain ⟨hls, hmore⟩ := List.forall_mem_append.mp hls'
    refine ⟨⟨'\n' :: ended more ++ u, ?_⟩, hls, (List.forall_mem_cons.mp hmore).1⟩
    simp [ended]

/-- The first line goes on from the characters in front of the text. -/
theorem exists_lines_append {u : List Char} (h : '\n' ∉ u) (b : List Char) :
    ∃ v rest, lines (u ++ b) = (u ++ v) :: rest := by
  induction u with
  | nil => exact List.exists_cons_of_ne_nil (List.splitOn_ne_nil '\n' b)
  | cons c u ih =>
    rw [List.mem_cons, not_or] at h
    obtain ⟨v, rest, hlines⟩ := ih h.2
    refine ⟨v, rest, ?_⟩
    rw [lines] at hlines
    -- A character that is no line end is put in front of the first line.
    rw [List.cons_append, lines, List.splitOn_cons_eq_if_modifyHead, hlines,
      if_neg (by simpa using Ne.symm h.1)]
    rfl

namespace LineTable

/-! ## The entries of the table -/

theorem startsAfter_append (offset : Nat) (a b : List Char) :
    startsAfter offset (a ++ b) = startsAfter offset a ++ startsAfter (offset + a.length) b := by
  induction a generalizing offset with
  | nil => rfl
  | cons c a ih =>
    simp only [List.cons_append, startsAfter, ih, List.length_cons, Nat.add_assoc,
      Nat.add_comm 1]
    split <;> rfl

/-- Without a line end no line starts. -/
theorem startsAfter_of_not_mem {u : List Char} (h : '\n' ∉ u) (offset : Nat) :
    startsAfter offset u = [] := by
  induction u generalizing offset with
  | nil => rfl
  | cons c u ih =>
    rw [List.mem_cons, not_or] at h
    rw [startsAfter, if_neg (Ne.symm h.1), ih h.2]

/-- The entries after some characters are places in them, behind at least one. -/
theorem bounds_of_mem_startsAfter {offset n : Nat} {cs : List Char}
    (h : n ∈ startsAfter offset cs) : offset < n ∧ n ≤ offset + cs.length := by
  induction cs generalizing offset with
  | nil => cases h
  | cons c cs ih =>
    -- The entry is that of this character, if it ends a line, or one of the rest.
    have hcases : n = offset + 1 ∨ n ∈ startsAfter (offset + 1) cs := by
      rw [startsAfter] at h
      split at h
      · exact List.mem_cons.mp h
      · exact .inr h
    rw [List.length_cons]
    rcases hcases with rfl | h
    · omega
    · have := ih h
      omega

/-- The next line starts just past the line end. -/
theorem startsAfter_line {l : List Char} (h : '\n' ∉ l) (offset : Nat) (b : List Char) :
    startsAfter offset (l ++ '\n' :: b) =
      (offset + l.length + 1) :: startsAfter (offset + l.length + 1) b := by
  rw [startsAfter_append, startsAfter_of_not_mem h, List.nil_append, startsAfter, if_pos rfl]

/-- Each whole line has one that starts after it. -/
theorem length_startsAfter_ended {ls : List (List Char)} (h : ∀ l ∈ ls, '\n' ∉ l)
    (offset : Nat) : (startsAfter offset (ended ls)).length = ls.length := by
  induction ls generalizing offset with
  | nil => rfl
  | cons l ls ih =>
    obtain ⟨hl, hls⟩ := List.forall_mem_cons.mp h
    rw [ended_cons, startsAfter_line hl, List.length_cons, ih hls, List.length_cons]

/-- The last of the entries is where the lines end. -/
theorem getElem?_startsAfter_ended {ls : List (List Char)} (h : ∀ l ∈ ls, '\n' ∉ l)
    (offset : Nat) :
    (offset :: startsAfter offset (ended ls))[ls.length]? = some (offset + (ended ls).length) := by
  induction ls generalizing offset with
  | nil => rfl
  | cons l ls ih =>
    obtain ⟨hl, hls⟩ := List.forall_mem_cons.mp h
    rw [ended_cons, startsAfter_line hl, List.length_cons, List.getElem?_cons_succ, ih hls,
      List.length_append, List.length_cons]
    congr 1
    omega

/-! ## The search -/

/-- The search finds how many of the first entries are reached, if the others are not. -/
theorem countUpTo_eq {starts : Array Nat} {offset k : Nat}
    (hk : ∀ (i : Nat) (_ : i < starts.size), starts[i] ≤ offset ↔ i < k) {lo hi : Nat}
    (h : hi ≤ starts.size) (hlo : lo ≤ k) (hhi : k ≤ hi) :
    countUpTo starts offset lo hi h = k := by
  -- The answer `k` stays between the two bounds. At the middle entry `hk` tells on which side of
  -- it.
  fun_induction countUpTo starts offset lo hi h with
  | case1 lo hi h hlt mid hle ih =>
    apply ih
    · exact (hk mid _).mp hle
    · exact hhi
  | case2 lo hi h hlt mid hle ih =>
    apply ih
    · exact hlo
    · exact Nat.le_of_not_lt fun hmid => hle ((hk mid _).mpr hmid)
  | case3 lo hi h hlt => omega

/-! ## Places -/

section Places

variable {ls : List (List Char)} {u b : List Char} {source : String}

/-- The entries of a text whose lines `ls` end before a place: theirs, and those of the lines that
end behind it. -/
theorem starts_ended_append (h : source.toList = ended ls ++ (u ++ b)) (hu : '\n' ∉ u) :
    (ofString source).starts = ((0 :: startsAfter 0 (ended ls)) ++
      startsAfter ((ended ls).length + u.length) b).toArray := by
  rw [ofString, h, startsAfter_append, startsAfter_append, startsAfter_of_not_mem hu, Nat.zero_add]
  rfl

/-- Of the entries of a text, those of the lines in front of a place are reached there. -/
theorem getElem_starts_le_iff (h : source.toList = ended ls ++ (u ++ b))
    (hls : ∀ l ∈ ls, '\n' ∉ l) (hu : '\n' ∉ u) (i : Nat)
    (hi : i < (ofString source).starts.size) :
    (ofString source).starts[i] ≤ (ended ls).length + u.length ↔ i < ls.length + 1 := by
  have hlength : (0 :: startsAfter 0 (ended ls)).length = ls.length + 1 := by
    rw [List.length_cons, length_startsAfter_ended hls]
  -- Entries of lines before the place lie in front of it, and those of later lines behind it. So
  -- the two parts of the table are told apart by their number.
  have hreached : ∀ n ∈ 0 :: startsAfter 0 (ended ls), n ≤ (ended ls).length + u.length := by
    intro n hn
    rcases List.mem_cons.mp hn with rfl | hn
    · exact Nat.zero_le _
    · have := bounds_of_mem_startsAfter hn
      omega
  have hbehind : ∀ n ∈ startsAfter ((ended ls).length + u.length) b,
      (ended ls).length + u.length < n := fun n hn => (bounds_of_mem_startsAfter hn).1
  simp only [starts_ended_append h hu, List.getElem_toArray, List.getElem_append, ← hlength]
  split
  · next hlt => exact ⟨fun _ => hlt, fun _ => hreached _ (List.getElem_mem _)⟩
  · next hlt => exact ⟨fun hle => absurd hle (Nat.not_le.mpr (hbehind _ (List.getElem_mem _))),
      fun h => absurd h hlt⟩

/-- Where a text is cut in a line, the entry of this line is the length of the whole lines before
it. -/
theorem getElem?_starts (h : source.toList = ended ls ++ (u ++ b)) (hls : ∀ l ∈ ls, '\n' ∉ l)
    (hu : '\n' ∉ u) : (ofString source).starts[ls.length]? = some (ended ls).length := by
  rw [starts_ended_append h hu, List.getElem?_toArray,
    List.getElem?_append_left (by simp [length_startsAfter_ended hls]),
    getElem?_startsAfter_ended hls, Nat.zero_add]

/-- The search finds the entries of the lines in front of a place. -/
theorem countUpTo_starts (h : source.toList = ended ls ++ (u ++ b)) (hls : ∀ l ∈ ls, '\n' ∉ l)
    (hu : '\n' ∉ u) : countUpTo (ofString source).starts ((ended ls).length + u.length) 0
      (ofString source).starts.size (Nat.le_refl _) = ls.length + 1 := by
  apply countUpTo_eq (getElem_starts_le_iff h hls hu)
  · exact Nat.zero_le _
  · exact (Array.getElem?_eq_some_iff.mp (getElem?_starts h hls hu)).1

/-- An offset past the end has the place of the end. -/
theorem position_min (table : LineTable) (offset : Nat) :
    table.position (min offset table.length) = table.position offset := by
  rw [position, Nat.min_assoc, Nat.min_self]
  rfl

/-- **The place after some whole lines and a piece of a line.** -/
theorem position_ended_append (h : source.toList = ended ls ++ (u ++ b))
    (hls : ∀ l ∈ ls, '\n' ∉ l) (hu : '\n' ∉ u) :
    (ofString source).position ((ended ls).length + u.length) =
      ⟨ls.length + 1, u.length + 1⟩ := by
  -- The place is within the text, so the offset is not cut off.
  have hle : min ((ended ls).length + u.length) (ofString source).length =
      (ended ls).length + u.length := by
    show min _ source.length = _
    rw [← String.length_toList, h, List.length_append, List.length_append]
    omega
  have hstart : (ofString source).starts.getD ls.length 0 = (ended ls).length := by
    rw [Array.getD_eq_getD_getElem?, getElem?_starts h hls hu, Option.getD_some]
  simp only [position, hle, countUpTo_starts h hls hu, Nat.add_sub_cancel, hstart,
    Nat.add_sub_cancel_left]

end Places

end LineTable

end VarBlock
