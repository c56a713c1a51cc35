import Mathlib.Data.List.DropRight
import VarBlock.Proofs.Lines

/-!
# Places by counting

The place of an offset is read off from the characters in front of it: its line is one more than the
line ends among them, and its column one more than the characters behind the last of these
(`position_counts`). An offset past the end has the characters of the whole text in front of it.

A binary search for the offset has to find its way to the same line. `Searched` says what any such
search may answer, `found` or `missing`. In a table of ascending entries there is just one answer
(`Searched.unique`). As the first entry is 0, an offset that is missing comes after some entry
(`exists_searched`), and this entry is where its line starts.

The place that the table gives is compared with the counts on a cut of the text, whole lines and the
beginning of one, as `Lines` provides it. Nothing is proved about halving here: how the search goes
is in `LineTable.countUpTo_eq`, and here it only matters what it may find.
-/

namespace VarBlock.LineTable

/-- What a binary search for an offset answers: the index of an entry that is equal to it, or else
the index at which it would have to be put in. -/
inductive Searched (starts : Array Nat) (offset : Nat) : Except Nat Nat → Prop
  | found {i : Nat} (h : i < starts.size) (heq : starts[i] = offset) :
    Searched starts offset (.ok i)
  | missing {i : Nat} (h : i ≤ starts.size)
    (below : ∀ (j : Nat) (_ : j < starts.size), j < i → starts[j] < offset)
    (above : ∀ (j : Nat) (_ : j < starts.size), i ≤ j → offset < starts[j]) :
    Searched starts offset (.error i)

/-- The index of the last entry that is reached, by the answer of a search. -/
def entryOf : Except Nat Nat → Nat
  | .ok i => i
  | .error i => i - 1

def Ascending (starts : Array Nat) : Prop :=
  ∀ (i j : Nat) (_ : i < starts.size) (_ : j < starts.size), i < j → starts[i] < starts[j]

/-! ## Searching -/

section Searching

variable {starts : Array Nat} {offset : Nat}

/-- In an ascending table a search has one answer. Of two answers, one would be at or past an entry
that the other shows to be smaller or greater. -/
theorem Searched.unique {r r' : Except Nat Nat} (h : Ascending starts)
    (hr : Searched starts offset r) (hr' : Searched starts offset r') : r = r' := by
  cases hr with
  | @found i hi heq =>
    cases hr' with
    | @found i' hi' heq' =>
      rcases Nat.lt_trichotomy i i' with hlt | rfl | hlt
      · have := h i i' hi hi' hlt
        omega
      · rfl
      · have := h i' i hi' hi hlt
        omega
    | @missing i' _ below above =>
      rcases Nat.lt_or_ge i i' with hlt | hge
      · have := below i hi hlt
        omega
      · have := above i hi hge
        omega
  | @missing i hi below above =>
    cases hr' with
    | @found i' hi' heq' =>
      rcases Nat.lt_or_ge i' i with hlt | hge
      · have := below i' hi' hlt
        omega
      · have := above i' hi' hge
        omega
    | @missing i' hi' below' above' =>
      rcases Nat.lt_trichotomy i i' with hlt | rfl | hlt
      · have hsize := Nat.lt_of_lt_of_le hlt hi'
        have := below' i hsize hlt
        have := above i hsize (Nat.le_refl _)
        omega
      · rfl
      · have hsize := Nat.lt_of_lt_of_le hlt hi
        have := below i' hsize hlt
        have := above' i' hsize (Nat.le_refl _)
        omega

/-- Where the first entries are reached and the others are not, a search leads to the last of the
first. -/
theorem exists_searched {k : Nat} (h : Ascending starts)
    (hk : ∀ (i : Nat) (_ : i < starts.size), starts[i] ≤ offset ↔ i < k + 1)
    (hsize : k < starts.size) :
    ∃ r, Searched starts offset r ∧ r ≠ .error 0 ∧ entryOf r = k := by
  have hle : starts[k] ≤ offset := (hk k hsize).mpr (Nat.lt_succ_self k)
  -- The last entry that is reached is the offset itself, or it is smaller. Then the offset would be
  -- inserted behind it.
  rcases Nat.eq_or_lt_of_le hle with heq | hlt
  · exact ⟨.ok k, .found hsize heq, nofun, rfl⟩
  · refine ⟨.error (k + 1), .missing hsize ?_ ?_, nofun, rfl⟩
    · intro j hj hjk
      rcases Nat.eq_or_lt_of_le (Nat.le_of_lt_succ hjk) with rfl | hjk
      · exact hlt
      · exact Nat.lt_trans (h j k hj hsize hjk) hlt
    · intro j hj hkj
      exact Nat.lt_of_not_le fun hle => Nat.not_lt.mpr hkj ((hk j hj).mp hle)

end Searching

/-! ## The table of a text -/

/-- The starts of lines come in ascending order. -/
theorem pairwise_startsAfter (offset : Nat) (cs : List Char) :
    (startsAfter offset cs).Pairwise (· < ·) := by
  induction cs generalizing offset with
  | nil => exact .nil
  | cons c cs ih =>
    rw [startsAfter]
    split
    · exact .cons (fun n hn => (bounds_of_mem_startsAfter hn).1) (ih _)
    · exact ih _

/-- The table of a text is ascending, so that it can be searched by halving. -/
theorem ascending_starts (source : String) : Ascending (ofString source).starts := by
  have hpairwise : (0 :: startsAfter 0 source.toList).Pairwise (· < ·) :=
    .cons (fun n hn => (bounds_of_mem_startsAfter hn).1) (pairwise_startsAfter 0 source.toList)
  intro i j hi hj hij
  exact List.pairwise_iff_getElem.mp hpairwise i j hi hj hij

/-! ## Counting -/

/-- Behind the last line end of a text stands its last line. -/
theorem rtakeWhile_ended_append (ls : List (List Char)) {u : List Char} (hu : '\n' ∉ u) :
    (ended ls ++ u).rtakeWhile (· ≠ '\n') = u := by
  -- From behind, since this is where characters are taken.
  induction u using List.reverseRecOn with
  | nil =>
    rw [List.append_nil, List.rtakeWhile_eq_nil_iff]
    intro hne
    cases ls using List.reverseRecOn with
    | nil => exact absurd rfl hne
    | append_singleton ls l => simp [ended]
  | append_singleton u c ih =>
    rw [List.mem_append, not_or, List.mem_singleton] at hu
    rw [← List.append_assoc, List.rtakeWhile_concat_pos, ih hu.1]
    simpa using Ne.symm hu.2

/-- The place of an offset by counting in the characters in front of it. -/
theorem position_eq_count (source : String) (offset : Nat) :
    let before := source.toList.take (min offset source.length)
    (ofString source).position offset =
      ⟨1 + before.count '\n', 1 + (before.rtakeWhile (· ≠ '\n')).length⟩ := by
  intro before
  have hle : min offset source.length ≤ source.toList.length := by
    rw [String.length_toList]
    exact Nat.min_le_right _ _
  obtain ⟨ls, u, hbefore, hsource, hreached, hls, hu⟩ := exists_cut hle
  -- The characters in front of the place are whole lines and the beginning of one, and for these
  -- the place is known.
  have hposition : (ofString source).position (min offset source.length) =
      ⟨ls.length + 1, u.length + 1⟩ := by
    rw [hreached]
    exact position_ended_append hsource hls hu
  rw [← position_min, show before = _ from hbefore, List.count_append, count_ended hls,
    List.count_eq_zero.mpr hu, rtakeWhile_ended_append ls hu, Nat.add_zero, Nat.add_comm 1,
    Nat.add_comm 1]
  exact hposition

/-- A search has one answer, which leads to an entry that is reached. The place is told from it. -/
theorem exists_searched_position (source : String) {offset : Nat} (h : offset ≤ source.length) :
    let table := ofString source
    ∃ result, (∀ r, Searched table.starts offset r ↔ r = result) ∧ result ≠ .error 0 ∧
      countUpTo table.starts offset 0 table.starts.size (Nat.le_refl _) = entryOf result + 1 ∧
      ∃ _ : entryOf result < table.starts.size, table.starts[entryOf result] ≤ offset ∧
        table.position offset =
          ⟨entryOf result + 1, offset - table.starts[entryOf result] + 1⟩ := by
  intro table
  rw [← String.length_toList] at h
  -- The text is cut at the offset into whole lines `ls` and the beginning `u` of the next. All that
  -- is stated is known of such a cut.
  obtain ⟨ls, u, -, hsource, hoffset, hls, hu⟩ := exists_cut h
  have hposition : table.position offset = ⟨ls.length + 1, u.length + 1⟩ := by
    rw [hoffset]
    exact position_ended_append hsource hls hu
  obtain ⟨hsize, hstart⟩ := Array.getElem?_eq_some_iff.mp (getElem?_starts hsource hls hu)
  have hcount := countUpTo_starts hsource hls hu
  have hk := getElem_starts_le_iff hsource hls hu
  rw [← hoffset] at hcount hk
  obtain ⟨result, hresult, hne, hentry⟩ := exists_searched (ascending_starts source) hk hsize
  refine ⟨result, fun r => ⟨fun hr => ?_, fun hr => hr ▸ hresult⟩, hne, ?_⟩
  · exact hr.unique (ascending_starts source) hresult
  · simp only [hentry]
    refine ⟨hcount, hsize, (hk _ hsize).mpr (Nat.lt_succ_self _), ?_⟩
    rw [hposition, hstart, hoffset, Nat.add_sub_cancel_left]

/-- **Places are counted**: the line of an offset is one more than the line ends in front of it, and
its column one more than the characters behind the last of them. A binary search has one answer for
it, and this leads to an entry that is reached and from which the place is told. So nothing is taken
from a smaller number, and no entry is looked for that there is not. -/
theorem position_counts (source : String) (offset : Nat) :
    let table := ofString source
    let reached := min offset source.length
    let before := source.toList.take reached
    table.position offset = ⟨1 + before.count '\n', 1 + (before.rtakeWhile (· ≠ '\n')).length⟩ ∧
      ∃ result, (∀ r, Searched table.starts reached r ↔ r = result) ∧ result ≠ .error 0 ∧
        countUpTo table.starts reached 0 table.starts.size (Nat.le_refl _) = entryOf result + 1 ∧
        ∃ _ : entryOf result < table.starts.size, table.starts[entryOf result] ≤ reached ∧
          table.position offset =
            ⟨entryOf result + 1, reached - table.starts[entryOf result] + 1⟩ := by
  intro table reached before
  refine ⟨position_eq_count source offset, ?_⟩
  rw [← position_min]
  exact exists_searched_position source (Nat.min_le_right offset source.length)

end VarBlock.LineTable
