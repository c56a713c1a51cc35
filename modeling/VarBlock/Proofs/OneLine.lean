import Mathlib.Tactic.SplitIfs
import VarBlock.Proofs.Lines
import VarBlock.Proofs.Quoting
import VarBlock.Proofs.Run
import VarBlock.Rendering

/-!
# One line for each record

The simple layouts give every record a line of its own, whatever the source holds. A text is *plain*
if it has no characters that a terminal or a reader would take for more than a mark: controls, the
line and paragraph separators, and what turns the direction of writing. Quoting makes any text plain
(`isPlain_quoted`), and what else a line is made of is plain to begin with. So the line ends in an
output are those that end its lines:

    lists_joinLines : (∀ l ∈ ls, isPlain l = true) → Lists (joinLines ls) ls

That success is reported in a line of its own, and only for a valid input, is part of what an output
lists (`Analysis.successLines_eq`).
-/

namespace VarBlock

namespace Text

/-- The code points of the controls, the line and paragraph separators, and the embeddings,
overrides and isolates of bidirectional text, as inclusive ranges. -/
def layoutRanges : List (Nat × Nat) :=
  [(0x0, 0x1F), (0x7F, 0x9F), (0x2028, 0x2029), (0x202A, 0x202E), (0x2066, 0x2069)]

/-- Whether a character is a mark, and does not lay out the text around it. -/
def isPlainChar (c : Char) : Bool := !inRanges layoutRanges c

def isPlain (s : String) : Bool := s.toList.all isPlainChar

end Text

open Text (isPlain)

/-- The output is the given lines, each with its end, and they are plain. -/
structure Lists (output : String) (ls : List String) : Prop where
  lines_eq : lines output.toList = ls.map String.toList ++ [[]]
  count_eq : output.toList.count '\n' = ls.length
  plain : ∀ l ∈ ls, isPlain l = true

/-! ## Plain texts -/

namespace Text

/-- Plain texts are put together to a plain text. -/
@[simp] theorem isPlain_append (s t : String) : isPlain (s ++ t) = (isPlain s && isPlain t) := by
  rw [isPlain, String.toList_append, List.all_append]
  rfl

/-- A plain text has no line end. -/
theorem not_mem_lineEnd_of_isPlain {s : String} (h : isPlain s = true) : '\n' ∉ s.toList := by
  intro hmem
  have hplain : isPlainChar '\n' = true := List.all_eq_true.mp h _ hmem
  cases hplain

/-- What is in one of some ranges is in one of more. -/
theorem inRanges_mono {ranges ranges' : List (Nat × Nat)} (h : ranges ⊆ ranges') {c : Char}
    (hc : inRanges ranges c = true) : inRanges ranges' c = true := by
  rw [inRanges, List.any_eq_true] at hc ⊢
  obtain ⟨r, hr, hc⟩ := hc
  exact ⟨r, h hr, hc⟩

/-- Characters that lay text out have no image of their own. -/
theorem unprintable_of_layout {c : Char} (h : inRanges layoutRanges c = true) :
    inRanges unprintableRanges c = true := by
  have hsubset : [(0x0, 0x1F), (0x7F, 0xA0), (0x2028, 0x202F), (0x205F, 0x206F)] ⊆
      unprintableRanges := by decide +kernel
  apply inRanges_mono hsubset
  simp only [inRanges, layoutRanges, List.any_cons, List.any_nil, Bool.or_false, Bool.or_eq_true,
    Bool.and_eq_true, decide_eq_true_eq] at h ⊢
  omega

/-- A character that is not written by its number is plain. -/
theorem isPlainChar_of_not_needsCodePoint {c : Char} (h : needsCodePoint c = false) :
    isPlainChar c = true := by
  rw [needsCodePoint, Bool.or_eq_false_iff] at h
  rw [isPlainChar, Bool.not_eq_true', Bool.eq_false_iff]
  intro hlayout
  rw [unprintable_of_layout hlayout] at h
  cases h.2

theorem isPlainChar_digitChar : ∀ n < 16, isPlainChar (Nat.digitChar n) = true := by decide

@[simp] theorem isPlain_repr (n : Nat) : isPlain n.repr = true := by
  rw [isPlain, Nat.toList_repr]
  exact all_toDigits (by decide) (fun d hd => isPlainChar_digitChar d (by omega)) n

/-- A character is written as it is only where it has an image of its own. -/
theorem all_escapeChar (c : Char) : (escapeChar c).all isPlainChar = true := by
  rw [escapeChar]
  split_ifs with h0 ht hr hn hq hb hcode
  any_goals rfl
  · rw [List.all_append, List.all_append, hexDigits, all_toDigits (by decide) isPlainChar_digitChar]
    rfl
  · rw [List.all_cons, isPlainChar_of_not_needsCodePoint (Bool.eq_false_iff.mpr hcode)]
    rfl

/-- A quoted text is plain, whatever is quoted. -/
@[simp] theorem isPlain_quoted (s : String) : isPlain (quoted s) = true := by
  have hquote : isPlainChar '"' = true := by decide
  rw [isPlain, quoted, String.toList_ofList, List.cons_append, List.all_cons, List.all_append,
    List.all_flatMap, List.all_cons, List.all_nil, hquote]
  simp [all_escapeChar]

end Text

/-! ## Plain lines -/

theorem TokenKind.isPlain_name (k : TokenKind) : isPlain k.name = true := by
  cases k <;> decide

theorem State.isPlain_name (s : State) : isPlain s.name = true := by
  cases s <;> decide

theorem Position.isPlain_text (p : Position) : isPlain p.text = true := by
  have htext : p.text = p.line.repr ++ ":" ++ p.column.repr := rfl
  have hcolon : isPlain ":" = true := by decide
  simp [htext, hcolon]

namespace Language

/-- In both languages, what is expected is worded plainly. -/
theorem isPlain_expectation (l : Language) (e : Expectation) :
    isPlain (l.expectation e) = true := by
  cases l <;> cases e <;> decide

theorem isPlain_unterminated (l : Language) : isPlain l.unterminated = true := by
  cases l <;> decide

theorem isPlain_success (l : Language) : isPlain l.success = true := by
  cases l <;> decide

/-- A message on an unexpected token is plain, whatever text the token has. -/
theorem isPlain_unexpectedToken (l : Language) (m : Mismatch) (text : String) :
    isPlain (l.unexpectedToken m text) = true := by
  -- What a message quotes is the only part that the source decides, and quoting makes it plain.
  have hfound : isPlain ("<" ++ m.found.name ++ "> " ++ Text.quoted text) = true := by
    have hbrackets : isPlain "<" = true ∧ isPlain "> " = true := by decide
    simp [TokenKind.isPlain_name, hbrackets]
  have hexpectation := l.isPlain_expectation m.expected
  -- The words around the parts are those of the language.
  cases l with
  | english =>
    have hwords : isPlain "expected " = true ∧ isPlain ", got " = true := by decide
    show isPlain ("expected " ++ _ ++ ", got " ++ _) = true
    simp only [Text.isPlain_append, hexpectation, hwords, hfound, Bool.and_self]
  | russian =>
    have hwords : isPlain "Ожидал: " = true ∧ isPlain ", получил: " = true := by decide
    show isPlain ("Ожидал: " ++ _ ++ ", получил: " ++ _) = true
    simp only [Text.isPlain_append, hexpectation, hwords, hfound, Bool.and_self]

end Language

theorem Diagnostic.isPlain_message (d : Diagnostic) (l : Language) :
    isPlain (d.message l) = true := by
  rw [Diagnostic.message]
  cases d.problem with
  | unexpectedToken => exact l.isPlain_unexpectedToken _ _
  | unterminated => exact l.isPlain_unterminated

namespace Analysis

variable (a : Analysis) (s : DiagnosticsSettings)

/-- The place in front of a line is plain, whether it is shown or left out. -/
theorem isPlain_place (offset : Nat) : isPlain (a.place s offset) = true := by
  rw [place]
  split
  · exact Position.isPlain_text _
  · exact Text.isPlain_repr offset

theorem isPlain_tokenLine (t : Token) : isPlain (a.tokenLine s t) = true := by
  have hblank : isPlain " " = true := by decide
  simp [tokenLine, isPlain_place, TokenKind.isPlain_name, hblank]

theorem isPlain_diagnosticLine (d : Diagnostic) : isPlain (a.diagnosticLine s d) = true := by
  have hcolon : isPlain ": " = true := by decide
  simp [diagnosticLine, isPlain_place, Diagnostic.isPlain_message, hcolon]

theorem isPlain_stepLine (t : Token) (step : Step) : isPlain (stepLine t step) = true := by
  have hblank : isPlain " " = true ∧ isPlain " -> " = true := by decide
  have hrecovered : isPlain (if step.recovered then " (recovered)" else "") = true := by
    split <;> decide
  simp only [stepLine, Text.isPlain_append, Nat.toString_eq_repr, Text.isPlain_repr,
    Text.isPlain_quoted, State.isPlain_name, hblank, hrecovered, Bool.and_self]

end Analysis

/-! ## Lines of an output -/

/-- Joined lines are the lines with their ends. -/
theorem toList_joinLines (ls : List String) :
    (joinLines ls).toList = ended (ls.map String.toList) := by
  rw [joinLines, String.toList_ofList, ended, List.flatMap_map]

/-- Plain lines, joined, are the lines of the output, each with an end of its own. -/
theorem lists_joinLines {ls : List String} (h : ∀ l ∈ ls, isPlain l = true) :
    Lists (joinLines ls) ls := by
  have hline : ∀ l ∈ ls.map String.toList, '\n' ∉ l :=
    List.forall_mem_map.mpr fun l hl => Text.not_mem_lineEnd_of_isPlain (h l hl)
  constructor
  · have hlines := lines_ended_append hline []
    rwa [List.append_nil, ← toList_joinLines] at hlines
  · rw [toList_joinLines, count_ended hline, List.length_map]
  · exact h

namespace Analysis

variable (a : Analysis) (s : DiagnosticsSettings)

theorem lists_tokens : Lists (joinLines (a.tokens.map (a.tokenLine s)))
    (a.tokens.map (a.tokenLine s)) :=
  lists_joinLines (List.forall_mem_map.mpr fun t _ => a.isPlain_tokenLine s t)

/-- Success is a line of its own, where the input is valid and success is reported. -/
theorem successLines_eq : a.successLines s =
    if a.report.isValid = true ∧ s.reportSuccess = true then [s.language.success] else [] := by
  simp only [successLines, Bool.and_eq_true]

theorem lists_diagnostics :
    Lists (joinLines (a.report.diagnostics.map (a.diagnosticLine s) ++ a.successLines s))
      (a.report.diagnostics.map (a.diagnosticLine s) ++ a.successLines s) := by
  apply lists_joinLines
  refine List.forall_mem_append.mpr
    ⟨List.forall_mem_map.mpr fun d _ => a.isPlain_diagnosticLine s d, ?_⟩
  rw [successLines]
  split
  · exact List.forall_mem_singleton.mpr s.language.isPlain_success
  · simp

theorem lists_trace : Lists (joinLines a.traceLines) a.traceLines := by
  apply lists_joinLines
  rw [traceLines]
  refine List.forall_mem_append.mpr ⟨fun l hl => ?_, List.forall_mem_singleton.mpr ?_⟩
  · obtain ⟨i, hi⟩ := List.mem_iff_getElem?.mp hl
    obtain ⟨t, step, -, -, rfl⟩ := List.getElem?_zipWith_eq_some.mp hi
    exact isPlain_stepLine t step
  · have hfinal : isPlain "final: " = true := by decide
    simp [hfinal, State.isPlain_name]

end Analysis

/-- **Every record has one line.** No text of a source breaks its line or steers a terminal. -/
theorem process_simple_lists (source : String) (s : DiagnosticsSettings) :
    let a := Analysis.ofSource source
    (∃ output, process ⟨.tokens, .simple⟩ s source = .ok ⟨output, a⟩ ∧
      Lists output (a.tokens.map (a.tokenLine s))) ∧
    (∃ output, process ⟨.diagnostics, .simple⟩ s source = .ok ⟨output, a⟩ ∧
      Lists output (a.report.diagnostics.map (a.diagnosticLine s) ++
        if a.report.isValid = true ∧ s.reportSuccess = true then [s.language.success] else [])) ∧
    ∃ output steps, process ⟨.trace, .simple⟩ s source = .ok ⟨output, a⟩ ∧
      Lists output (steps ++ ["final: " ++ a.report.finalState.name]) ∧
      steps.length = a.tokens.length ∧
      ∀ i t, a.tokens[i]? = some t → ∃ step, a.report.trace[i]? = some step ∧ step.index = i ∧
        steps[i]? = some (Analysis.stepLine t step) := by
  intro a
  have hlength : a.report.trace.length = a.tokens.length := length_trace _
  refine ⟨⟨_, rfl, a.lists_tokens s⟩, ⟨_, rfl, ?_⟩, _, _, rfl, a.lists_trace, ?_, ?_⟩
  · rw [← a.successLines_eq s]
    exact a.lists_diagnostics s
  · rw [List.length_zipWith, hlength, Nat.min_self]
  · intro i t ht
    -- There is a step for every token, so the two lists can be paired.
    have hi : i < a.report.trace.length := by
      rw [hlength]
      exact (List.getElem?_eq_some_iff.mp ht).1
    have hstep := List.getElem?_eq_getElem hi
    exact ⟨_, hstep, index_of_getElem?_trace hstep,
      List.getElem?_zipWith_eq_some.mpr ⟨t, _, ht, hstep, rfl⟩⟩

end VarBlock
