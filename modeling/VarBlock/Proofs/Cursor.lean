import Mathlib
import VarBlock.Proofs.Counting

/-!
# Places of a cursor

A cursor can stand before each character of a line and at the end of the line (`IsCursorPlace`).
These are the places of the offsets in a text, one for each offset and in their order:

    offset (at most the length) ──position──▶ place ──offsetAt──▶ the same offset

The way back counts the lines in front of the place with their ends, and then the columns
(`offsetAt_position`, `position_offsetAt`). Going on in a text never leads to an earlier line, and
within a line the columns follow the offsets (`strictMonoOn_position`).
-/

namespace VarBlock

/-- A place before a character of a line, or at the end of a line. -/
structure IsCursorPlace (cs : List Char) (p : Position) : Prop where
  line_pos : 1 ≤ p.line
  line_le : p.line ≤ (lines cs).length
  column_pos : 1 ≤ p.column
  column_le : ∀ l, (lines cs)[p.line - 1]? = some l → p.column ≤ l.length + 1

def cursorPlaces (cs : List Char) : Set Position := {p | IsCursorPlace cs p}

/-- Places are in order by their lines, and on one line by their columns. -/
def Position.key (p : Position) : ℕ ×ₗ ℕ := toLex (p.line, p.column)

/-- The number of characters in front of a place. -/
def offsetAt (cs : List Char) (p : Position) : ℕ :=
  (ended ((lines cs).take (p.line - 1))).length + (p.column - 1)

namespace LineTable

variable {source : String}

/-- A place in a text, and the line that goes on from it. -/
theorem exists_line {offset : ℕ} (h : offset ≤ source.length) :
    ∃ ls u v more, lines source.toList = ls ++ (u ++ v) :: more ∧
      offset = (ended ls).length + u.length ∧
      (ofString source).position offset = ⟨ls.length + 1, u.length + 1⟩ := by
  rw [← String.length_toList] at h
  obtain ⟨ls, u, -, hsource, hoffset, hls, hu⟩ := exists_cut h
  obtain ⟨v, more, hline⟩ := exists_lines_append hu (source.toList.drop offset)
  refine ⟨ls, u, v, more, ?_, hoffset, ?_⟩
  · rw [hsource, lines_ended_append hls]
    exact congrArg (ls ++ ·) hline
  · rw [hoffset]
    exact position_ended_append hsource hls hu

/-- The place of an offset is one where a cursor can stand. -/
theorem isCursorPlace_position {offset : ℕ} (h : offset ≤ source.length) :
    IsCursorPlace source.toList ((ofString source).position offset) := by
  obtain ⟨ls, u, v, more, hlines, -, hposition⟩ := exists_line h
  rw [hposition]
  constructor
  · exact Nat.le_add_left 1 _
  · rw [hlines, List.length_append, List.length_cons]
    exact Nat.add_le_add_left (Nat.le_add_left 1 _) _
  · exact Nat.le_add_left 1 _
  · -- The column is within the line: `u` is what is in front of the place on it.
    intro l hl
    rw [hlines, Nat.add_sub_cancel, List.getElem?_append_right (Nat.le_refl _), Nat.sub_self] at hl
    obtain rfl := Option.some.inj hl
    rw [List.length_append]
    exact Nat.succ_le_succ (Nat.le_add_right _ _)

/-- The way back from the place of an offset leads to the offset. -/
theorem offsetAt_position {offset : ℕ} (h : offset ≤ source.length) :
    offsetAt source.toList ((ofString source).position offset) = offset := by
  obtain ⟨ls, u, v, more, hlines, hoffset, hposition⟩ := exists_line h
  rw [offsetAt, hposition, hlines, Nat.add_sub_cancel, Nat.add_sub_cancel, List.take_left, hoffset]

/-- The characters in front of a place, and what comes after them. -/
theorem exists_cut_of_isCursorPlace {p : Position} (h : IsCursorPlace source.toList p) :
    ∃ ls u b, source.toList = ended ls ++ (u ++ b) ∧ (∀ l ∈ ls, '\n' ∉ l) ∧ '\n' ∉ u ∧
      offsetAt source.toList p = (ended ls).length + u.length ∧
      p = ⟨ls.length + 1, u.length + 1⟩ := by
  obtain ⟨line, column⟩ := p
  obtain ⟨hline, hle, hcolumn, hcolumn_le⟩ := h
  dsimp only at hline hle hcolumn hcolumn_le
  have hlt : line - 1 < (lines source.toList).length := by omega
  have hcolumn_le := hcolumn_le _ (List.getElem?_eq_getElem hlt)
  -- The line of the place is taken out of the lines, which are those before it, itself, and those
  -- after it.
  have hlines : lines source.toList = (lines source.toList).take (line - 1) ++
      (lines source.toList)[line - 1] :: (lines source.toList).drop (line - 1 + 1) := by
    rw [← List.drop_eq_getElem_cons hlt, List.take_append_drop]
  obtain ⟨⟨rest, hsource⟩, hls, hl⟩ := eq_ended_append_of_lines hlines
  have hlength : ((lines source.toList)[line - 1].take (column - 1)).length = column - 1 := by
    rw [List.length_take]
    omega
  refine ⟨(lines source.toList).take (line - 1), (lines source.toList)[line - 1].take (column - 1),
    (lines source.toList)[line - 1].drop (column - 1) ++ rest, ?_, hls, ?_, ?_, ?_⟩
  · rw [← List.append_assoc (List.take _ _), List.take_append_drop]
    exact hsource
  · exact fun hmem => hl (List.mem_of_mem_take hmem)
  · rw [offsetAt, hlength]
  · rw [hlength, List.length_take, Nat.min_eq_left (Nat.le_of_lt hlt), Nat.sub_add_cancel hline,
      Nat.sub_add_cancel hcolumn]

theorem offsetAt_le {p : Position} (h : IsCursorPlace source.toList p) :
    offsetAt source.toList p ≤ source.length := by
  obtain ⟨ls, u, b, hsource, -, -, hoffset, -⟩ := exists_cut_of_isCursorPlace h
  rw [hoffset, ← String.length_toList, hsource, List.length_append, List.length_append]
  omega

/-- From the place of a cursor to the offset and back leads to the same place. -/
theorem position_offsetAt {p : Position} (h : IsCursorPlace source.toList p) :
    (ofString source).position (offsetAt source.toList p) = p := by
  obtain ⟨ls, u, b, hsource, hls, hu, hoffset, hp⟩ := exists_cut_of_isCursorPlace h
  rw [hoffset, position_ended_append hsource hls hu, hp]

/-! ## Order -/

/-- Farther on in a text the line is the same or a later one. -/
theorem line_position_mono {i j : ℕ} (h : i ≤ j) :
    ((ofString source).position i).line ≤ ((ofString source).position j).line := by
  rw [position_eq_count, position_eq_count]
  apply Nat.add_le_add_left
  apply List.Sublist.count_le
  exact List.take_sublist_take_left (by omega)

/-- Within the text, places come in the order of their offsets: first by lines, and within a line by
columns. -/
theorem strictMonoOn_position (source : String) :
    StrictMonoOn (fun offset => ((ofString source).position offset).key)
      (Set.Iic source.length) := by
  intro i hi j hj hij
  have hline : ((ofString source).position i).line ≤ ((ofString source).position j).line :=
    line_position_mono (Nat.le_of_lt hij)
  apply Prod.Lex.toLex_lt_toLex.mpr
  -- On one line the column decides. Otherwise the lines do, whatever the columns are.
  rcases Nat.eq_or_lt_of_le hline with heq | hlt
  · refine .inr ⟨heq, ?_⟩
    have hi' := offsetAt_position hi
    have hj' := offsetAt_position hj
    rw [offsetAt, heq] at hi'
    rw [offsetAt] at hj'
    omega
  · exact .inl hlt

/-- **Offsets and places of a cursor are the same thing.** Further on in a text is a later place, no
two offsets are shown at one place, and every place where a cursor can stand is that of an
offset. -/
theorem position_bijOn_cursorPlaces (source : String) :
    StrictMonoOn (fun offset => ((ofString source).position offset).key)
        (Set.Iic source.length) ∧
      Set.BijOn (ofString source).position (Set.Iic source.length)
        (cursorPlaces source.toList) := by
  have hinv : Set.InvOn (offsetAt source.toList) (ofString source).position
      (Set.Iic source.length) (cursorPlaces source.toList) :=
    ⟨fun _ h => offsetAt_position h, fun _ h => position_offsetAt h⟩
  refine ⟨strictMonoOn_position source, hinv.bijOn ?_ ?_⟩
  · intro offset h
    exact isCursorPlace_position h
  · intro p h
    exact offsetAt_le h

end LineTable

end VarBlock
