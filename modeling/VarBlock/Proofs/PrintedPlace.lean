import Mathlib.Data.List.Forall2
import VarBlock.Proofs.DiagnosticRange
import VarBlock.Proofs.Lines
import VarBlock.Rendering

/-!
# Printed places

With positions shown, an output names the line and the column of every token and of every
diagnostic. `Marks` says what such a place is worth to a reader who splits the text into its lines:
there is a line of that number, and from that column on it goes on with the text in question. What
is reported at the end of a block is placed just after the last token, on its line
(`Locates`).

The offsets of the tokens cut the text in front of them (`Token.Stands`), and that cut is the one
that lines and columns are read off from (`marks_position`, `position_after`).

One list of places serves all three outputs: that of the tokens for the listing, and that of the
diagnostics for both layouts of the report. What a place is worth is said of the source alone, so it
can be checked without the program.
-/

namespace VarBlock

/-- In the lines of the text, the characters `x` stand at the place `p`, with `offset` characters
before them. -/
structure Marks (cs : List Char) (p : Position) (offset : Nat) (x : List Char) : Prop where
  line_pos : 1 ≤ p.line
  line_le : p.line ≤ (lines cs).length
  column_pos : 1 ≤ p.column
  begins : ∃ line, (lines cs)[p.line - 1]? = some line ∧ x <+: line.drop (p.column - 1)
  /-- The lines before the place with their ends, and the columns before it. -/
  offset_eq : offset = (ended ((lines cs).take (p.line - 1))).length + (p.column - 1)

/-- The place where a diagnostic is shown: a token that does not fit where it stands, and the end of
the block just after the last token, or at the very beginning if there is none. -/
def Locates (source : String) (d : Diagnostic) (p : Position) : Prop :=
  match d.problem with
  | .unexpectedToken _ _ text => Marks source.toList p d.range.start text.toList
  | .unterminated _ =>
    match (tokenize source).getLast? with
    | none => p = ⟨1, 1⟩
    | some t => ∃ q, Marks source.toList q t.offset t.text.toList ∧
        p = ⟨q.line, q.column + t.text.length⟩

/-- The line of a token that is shown at a place. -/
def Token.lineAt (t : Token) (p : Position) : String :=
  p.text ++ " " ++ t.kind.name ++ " " ++ Text.quoted t.text

/-- The line of a diagnostic that is shown at a place. -/
def Diagnostic.lineAt (l : Language) (d : Diagnostic) (p : Position) : String :=
  p.text ++ ": " ++ d.message l

/-- The object of a diagnostic that is shown at a place. -/
def Diagnostic.jsonAt (l : Language) (d : Diagnostic) (p : Position) : Json :=
  .object (Analysis.problemFields d.problem ++
    [("range", Analysis.rangeJson d.range), ("message", .string (d.message l)),
      ("position", Analysis.positionJson p)])

/-! ## Places in a text -/

section Places

variable {source : String} {a x b : List Char}

/-- The place of a piece without line ends marks it, where the text is cut around it. -/
theorem marks_position (h : source.toList = a ++ (x ++ b)) (hx : '\n' ∉ x) :
    Marks source.toList ((LineTable.ofString source).position a.length) a.length x := by
  obtain ⟨ls, u, rfl, hls, hu⟩ := exists_ended_append a
  rw [List.append_assoc] at h
  have hux : '\n' ∉ u ++ x := by simp [hu, hx]
  obtain ⟨v, rest, hfirst⟩ := exists_lines_append hux b
  -- The line of the piece, in full: what comes before it on the line, the piece, and what comes
  -- after it up to the line end.
  have hlines : lines source.toList = ls ++ (u ++ x ++ v) :: rest := by
    rw [h, lines_ended_append hls, ← List.append_assoc, hfirst]
  rw [List.length_append, LineTable.position_ended_append h hls hu]
  constructor
  · exact Nat.le_add_left 1 _
  · rw [hlines, List.length_append, List.length_cons]
    exact Nat.add_le_add_left (Nat.le_add_left 1 _) _
  · exact Nat.le_add_left 1 _
  · refine ⟨u ++ x ++ v, ?_, ?_⟩
    · rw [hlines, Nat.add_sub_cancel, List.getElem?_append_right (Nat.le_refl _), Nat.sub_self]
      rfl
    · rw [Nat.add_sub_cancel, List.append_assoc, List.drop_left]
      exact List.prefix_append x v
  · rw [hlines, Nat.add_sub_cancel, Nat.add_sub_cancel, List.take_left]

/-- Characters without a line end move a place on along its line. -/
theorem position_after (h : source.toList = a ++ (x ++ b)) (hx : '\n' ∉ x) :
    (LineTable.ofString source).position (a.length + x.length) =
      ⟨((LineTable.ofString source).position a.length).line,
        ((LineTable.ofString source).position a.length).column + x.length⟩ := by
  obtain ⟨ls, u, rfl, hls, hu⟩ := exists_ended_append a
  rw [List.append_assoc] at h
  have hux : '\n' ∉ u ++ x := by simp [hu, hx]
  have hafter := LineTable.position_ended_append (h.trans (by rw [List.append_assoc u])) hls hux
  rw [List.length_append] at hafter
  rw [List.length_append, LineTable.position_ended_append h hls hu, Nat.add_assoc, hafter,
    Nat.add_right_comm]

end Places

/-! ## Tokens -/

/-- A lexeme does not go over a line end. -/
theorem Lexeme.not_mem_lineEnd {k : TokenKind} {x : List Char} (h : Lexeme k x) : '\n' ∉ x := by
  intro hmem
  have hblank := h.isBlank_of_mem hmem
  cases hblank

/-- The place of a token marks the text of the token. -/
theorem Token.Stands.marks {source : String} {t : Token} (h : t.Stands source.toList) :
    Marks source.toList ((LineTable.ofString source).position t.offset) t.offset t.text.toList := by
  obtain ⟨a, b, hcs, ha, hx, -⟩ := h
  rw [ha]
  exact marks_position hcs hx.not_mem_lineEnd

/-- The place after a token is on the line of the token, behind its last character. -/
theorem Token.Stands.position_stop {source : String} {t : Token} (h : t.Stands source.toList) :
    (LineTable.ofString source).position t.stop =
      ⟨((LineTable.ofString source).position t.offset).line,
        ((LineTable.ofString source).position t.offset).column + t.text.length⟩ := by
  obtain ⟨a, b, hcs, ha, hx, -⟩ := h
  rw [Token.stop, ha, ← String.length_toList]
  exact position_after hcs hx.not_mem_lineEnd

/-- A text begins at line 1, column 1. -/
theorem position_zero (source : String) :
    (LineTable.ofString source).position 0 = ⟨1, 1⟩ := by
  have hcut : source.toList = ended [] ++ ([] ++ source.toList) := rfl
  exact LineTable.position_ended_append hcut (by simp) (by simp)

/-- The end of a block is shown just after its last token. -/
theorem locates_unterminated (source : String) (s : State) :
    Locates source (.unterminated s (endOffset (tokenize source)))
      ((LineTable.ofString source).position (endOffset (tokenize source))) := by
  rw [Locates, endOffset]
  cases hlast : (tokenize source).getLast? with
  | none => exact position_zero source
  | some t =>
    have ht := stands_of_mem_tokenize (List.mem_of_getLast? hlast)
    exact ⟨_, ht.marks, ht.position_stop⟩

/-- Every diagnostic is located by the place of the start of its range. -/
theorem locates_of_mem_diagnostics {source : String} {d : Diagnostic}
    (h : d ∈ (check source).diagnostics) :
    Locates source d ((LineTable.ofString source).position d.range.start) := by
  rcases exists_of_mem_diagnostics h with ⟨t, ht, s, m, rfl⟩ | ⟨s, rfl⟩
  · exact (stands_of_mem_tokenize ht).marks
  · exact locates_unterminated source s

/-! ## Outputs -/

/-- With positions shown, the object of a diagnostic is made with its place. -/
theorem diagnosticJson_eq_jsonAt (a : Analysis) (l : Language) (reportSuccess : Bool)
    (d : Diagnostic) : a.diagnosticJson ⟨l, reportSuccess, true⟩ d =
      Diagnostic.jsonAt l d (a.lines.position d.range.start) := by
  rw [Analysis.diagnosticJson, if_pos rfl, List.append_assoc]
  rfl

/-- **Printed places point at what they are about.** -/
theorem process_places (source : String) (l : Language) (reportSuccess : Bool) :
    (∃ ps, List.Forall₂ (fun t p => Marks source.toList p t.offset t.text.toList)
        (tokenize source) ps ∧
      process ⟨.tokens, .simple⟩ ⟨l, reportSuccess, true⟩ source =
        .ok ⟨joinLines (List.zipWith Token.lineAt (tokenize source) ps), .ofSource source⟩) ∧
    ∃ ps, List.Forall₂ (Locates source) (check source).diagnostics ps ∧
      process ⟨.diagnostics, .simple⟩ ⟨l, reportSuccess, true⟩ source =
        .ok ⟨joinLines (List.zipWith (Diagnostic.lineAt l) (check source).diagnostics ps ++
          if (check source).isValid && reportSuccess then [l.success] else []),
          .ofSource source⟩ ∧
      process ⟨.diagnostics, .json⟩ ⟨l, reportSuccess, true⟩ source =
        .ok ⟨(Json.object [("valid", .bool (check source).isValid),
          ("final_state", .string (check source).finalState.name),
          ("diagnostics",
            .array (List.zipWith (Diagnostic.jsonAt l) (check source).diagnostics ps))]).pretty,
          .ofSource source⟩ := by
  -- The places that are printed are those of the table. The lists of them are given here, and what
  -- they are worth is known token by token.
  refine ⟨⟨(tokenize source).map fun t => (LineTable.ofString source).position t.offset, ?_, ?_⟩,
    (check source).diagnostics.map fun d => (LineTable.ofString source).position d.range.start,
    ?_, ?_, ?_⟩
  · rw [List.forall₂_map_right_iff, List.forall₂_same]
    exact fun t ht => (stands_of_mem_tokenize ht).marks
  · rw [List.zipWith_map_right, List.zipWith_self]
    rfl
  · rw [List.forall₂_map_right_iff, List.forall₂_same]
    exact fun d hd => locates_of_mem_diagnostics hd
  · rw [List.zipWith_map_right, List.zipWith_self]
    rfl
  · have hjson : (Analysis.ofSource source).diagnosticJson ⟨l, reportSuccess, true⟩ =
        fun d => Diagnostic.jsonAt l d ((LineTable.ofString source).position d.range.start) :=
      funext fun d => diagnosticJson_eq_jsonAt _ l reportSuccess d
    rw [List.zipWith_map_right, List.zipWith_self, ← hjson]
    rfl

end VarBlock
