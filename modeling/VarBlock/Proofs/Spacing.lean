import Mathlib.Data.List.Chain
import VarBlock.Proofs.Layout
import VarBlock.Proofs.Run

/-!
# Blanks do not matter

A `Spacing` writes lexemes down with blanks around them, as many as one likes and none where the
lexemes stay apart without. Reading gives the lexemes back whatever the blanks are: the number, the
texts and the kinds of the tokens are those of the lexemes, and an offset is the number of
characters before (`Spacing.tokenize_text`).

A report sees the places of tokens only in its ranges. `Token.unplaced` forgets the place of a
token, and what is left of a report does not change when all places are forgotten
(`trace_unplaced`, `problems_unplaced`); the ranges are the spans of the tokens that did not fit
(`ranges_validate`).

The two halves do not touch each other. The first is about texts and uses the layout (`Layout`), the
second is about reports and would hold of any change that leaves kinds and texts as they are.
-/

namespace VarBlock

/-- A word, or a single character that is neither a blank nor a letter. -/
def IsLexeme (x : List Char) : Prop :=
  IsWord x ∨ ∃ c, x = [c] ∧ isBlank c = false ∧ c.isAlpha = false

/-- The kind of a lexeme: a letter opens a word, any other character stands for itself. -/
def TokenKind.ofLexeme : List Char → TokenKind
  | [] => .unknown
  | c :: cs => if c.isAlpha then .ofWord (String.ofList (c :: cs)) else .ofSymbol c

/-- Lexemes with the blanks after each of them, one after the other. -/
def written (pieces : List (List Char × List Char)) : List Char :=
  pieces.flatMap fun p => p.1 ++ p.2

/-- A way to write lexemes down: the blanks before the first one, and each lexeme with the blanks
after it. Between a word and a lexeme that would go on with it there are blanks. -/
structure Spacing where
  margin : List Char
  pieces : List (List Char × List Char)
  margin_isGap : IsGap margin
  isLexeme : ∀ p ∈ pieces, IsLexeme p.1
  isGap : ∀ p ∈ pieces, IsGap p.2
  apart : pieces.IsChain fun p q =>
    IsWord p.1 → (∃ c ∈ q.1.head?, c.isAlphanum = true) → p.2 ≠ []

namespace Spacing

def lexemes (s : Spacing) : List (List Char) := s.pieces.map Prod.fst

/-- All that stands before the lexeme with the number `i`. -/
def before (s : Spacing) (i : Nat) : List Char := s.margin ++ written (s.pieces.take i)

def text (s : Spacing) : String := String.ofList (s.margin ++ written s.pieces)

end Spacing

/-- The same token without its place. -/
def Token.unplaced (t : Token) : Token := { t with offset := 0 }

/-! ## Reading what was written -/

/-- A lexeme is one of the kind that is chosen for it. -/
theorem lexeme_ofLexeme {x : List Char} (h : IsLexeme x) : Lexeme (.ofLexeme x) x := by
  rcases h with ⟨c, cs, rfl, hc, hcs⟩ | ⟨c, rfl, hb, ha⟩
  · rw [TokenKind.ofLexeme, if_pos hc]
    exact .word ⟨c, cs, rfl, hc, hcs⟩
  · rw [TokenKind.ofLexeme, if_neg (Bool.eq_false_iff.mp ha)]
    exact .symbol hb ha

theorem written_cons (p : List Char × List Char) (pieces : List (List Char × List Char)) :
    written (p :: pieces) = p.1 ++ (p.2 ++ written pieces) := by
  rw [written, List.flatMap_cons, List.append_assoc]
  rfl

/-- A word ends where its blanks begin, or where a lexeme begins that does not go on with it. -/
theorem endsWord_written {p : List Char × List Char} {pieces : List (List Char × List Char)}
    (hlexeme : ∀ q ∈ pieces, IsLexeme q.1) (hgap : IsGap p.2)
    (hapart : ∀ q ∈ pieces.head?, (∃ c ∈ q.1.head?, c.isAlphanum = true) → p.2 ≠ []) :
    EndsWord (p.2 ++ written pieces) := by
  -- With no blank between them, the next lexeme does not begin with a letter or digit, by `hapart`.
  by_cases hne : p.2 = []
  · rw [hne, List.nil_append]
    cases pieces with
    | nil =>
      intro c hc
      cases hc
    | cons q pieces =>
      have hq : q.1 ≠ [] := (lexeme_ofLexeme (hlexeme q List.mem_cons_self)).ne_nil
      intro c hc
      rw [written_cons, List.head?_append_of_ne_nil _ hq] at hc
      refine Bool.eq_false_iff.mpr fun hc' => ?_
      exact hapart q rfl ⟨c, hc, hc'⟩ hne
  · exact hgap.endsWord hne _

/-- What is written is laid out as the tokens at the offsets counted. -/
theorem laidOut_written {pieces : List (List Char × List Char)}
    (hlexeme : ∀ p ∈ pieces, IsLexeme p.1) (hgap : ∀ p ∈ pieces, IsGap p.2)
    (hapart : pieces.IsChain fun p q =>
      IsWord p.1 → (∃ c ∈ q.1.head?, c.isAlphanum = true) → p.2 ≠ []) (offset : Nat) :
    LaidOut offset
      (pieces.mapIdx fun i p =>
        ⟨.ofLexeme p.1, String.ofList p.1, offset + (written (pieces.take i)).length⟩)
      (written pieces) := by
  induction pieces generalizing offset with
  | nil => exact .nil isGap_nil
  | cons p pieces ih =>
    obtain ⟨hp, hlexeme⟩ := List.forall_mem_cons.mp hlexeme
    obtain ⟨hg, hgap⟩ := List.forall_mem_cons.mp hgap
    rw [List.isChain_cons] at hapart
    have hend : IsWord p.1 → EndsWord (p.2 ++ written pieces) := fun hw =>
      endsWord_written hlexeme hg fun q hq => hapart.1 q hq hw
    -- The blanks behind the lexeme are put in front of the rest, so that each lexeme comes without
    -- a gap before it.
    have hrest := LaidOut.gap_append hg
      (ih hlexeme hgap hapart.2 (offset + p.1.length + p.2.length))
    have hcons := LaidOut.cons isGap_nil (lexeme_ofLexeme hp) hend hrest
    rw [List.mapIdx_cons, written_cons]
    simpa [written_cons, written, Nat.add_assoc] using hcons

/-- Reading gives the lexemes back, each at the number of characters before it. -/
theorem Spacing.tokenize_text (s : Spacing) :
    tokenize s.text = s.pieces.mapIdx fun i p =>
      ⟨.ofLexeme p.1, String.ofList p.1, (s.before i).length⟩ := by
  have hlaid : LaidOut 0 _ (s.margin ++ written s.pieces) := LaidOut.gap_append s.margin_isGap
    (laidOut_written s.isLexeme s.isGap s.apart (0 + s.margin.length))
  rw [tokenize, text, String.toList_ofList, scan_eq_iff.mpr hlaid]
  simp [before]

/-- Without their places, the tokens are those of the lexemes. -/
theorem Spacing.map_unplaced_tokenize (s : Spacing) :
    (tokenize s.text).map Token.unplaced =
      s.lexemes.map fun x => ⟨.ofLexeme x, String.ofList x, 0⟩ := by
  rw [tokenize_text, lexemes]
  apply List.ext_getElem?
  intro i
  simp only [List.getElem?_map, List.getElem?_mapIdx, Option.map_map]
  rfl

/-! ## Reports without places -/

namespace State

theorem rejects_unplaced (s : State) (t : Token) : s.rejects t.unplaced = s.rejects t := rfl

/-- A step leads to the same state wherever the tokens stand. -/
theorem advance_unplaced (s : State) (t : Token) (next : Option Token) :
    s.advance t.unplaced (next.map Token.unplaced) = s.advance t next := by
  cases next <;> rfl

/-- The steps do not change when places are forgotten. -/
theorem steps_unplaced (s : State) (i : Nat) (ts : List Token) :
    s.steps i (ts.map Token.unplaced) = s.steps i ts := by
  induction ts generalizing s i with
  | nil => rfl
  | cons t ts ih =>
    simp only [List.map_cons, steps, List.head?_map, advance_unplaced, rejects_unplaced, ih]

end State

/-- The trace does not change when places are forgotten. -/
theorem trace_unplaced (ts : List Token) :
    (validate (ts.map Token.unplaced)).trace = (validate ts).trace :=
  State.steps_unplaced .start 0 ts

theorem finalState_unplaced (ts : List Token) :
    (validate (ts.map Token.unplaced)).finalState = (validate ts).finalState := by
  show State.start.run _ = State.start.run _
  rw [State.run_eq_target_getLast? _ 0, State.steps_unplaced, ← State.run_eq_target_getLast?]

/-- What the complaints are about does not change when places are forgotten. -/
theorem problems_complaints (steps : List Step) (ts : List Token) :
    (complaints steps (ts.map Token.unplaced)).map (fun x => x.2.problem) =
      (complaints steps ts).map fun x => x.2.problem := by
  rw [complaints, complaints, List.zip_map_right, List.filter_map, List.map_map, List.map_map,
    List.map_map]
  rfl

/-- What is said about the end does not depend on where it is. -/
theorem problems_ending (s : State) (offset offset' : Nat) :
    (ending s offset).map Diagnostic.problem = (ending s offset').map Diagnostic.problem := by
  cases s <;> rfl

/-- What the diagnostics are about does not change when places are forgotten. -/
theorem problems_unplaced (ts : List Token) :
    (validate (ts.map Token.unplaced)).diagnostics.map Diagnostic.problem =
      (validate ts).diagnostics.map Diagnostic.problem := by
  rw [diagnostics_validate, diagnostics_validate, trace_unplaced, finalState_unplaced,
    List.map_append, List.map_append, List.map_map, List.map_map]
  congr 1
  · exact problems_complaints _ _
  · exact problems_ending _ _ _

/-- The ranges of a report are the spans of the tokens that did not fit, in order, and then the end
of the block where it is reported. -/
theorem ranges_validate (ts : List Token) :
    (validate ts).diagnostics.map Diagnostic.range =
      (validate ts).recovered.filterMap (fun i => ts[i]?.map Token.span) ++
        if (validate ts).finalState = .semicolon then [] else [⟨endOffset ts, endOffset ts⟩] := by
  -- A complaint about a token has the span of the token for its range.
  have hspans : ((validate ts).located.map fun x => x.2.range) =
      (validate ts).located.filterMap fun x => ts[x.1]?.map Token.span := by
    rw [← List.filterMap_eq_map]
    apply List.filterMap_congr
    intro x hx
    obtain ⟨t, s, m, ht, hd⟩ := exists_of_mem_located hx
    rw [ht, Option.map_some, Function.comp_apply, hd]
    rfl
  rw [located_validate] at hspans
  have hending : (ending (validate ts).finalState (endOffset ts)).map Diagnostic.range =
      if (validate ts).finalState = .semicolon then [] else [⟨endOffset ts, endOffset ts⟩] := by
    cases (validate ts).finalState <;> rfl
  rw [diagnostics_validate, List.map_append, List.map_map, recovered_validate,
    List.filterMap_map, hending]
  exact congrArg (· ++ _) hspans

/-! ## Two spacings of the same lexemes -/

/-- **Blanks do not matter.** -/
theorem check_spacing (s s' : Spacing) (h : s'.lexemes = s.lexemes) :
    (tokenize s.text = s.pieces.mapIdx fun i p =>
        ⟨.ofLexeme p.1, String.ofList p.1, (s.before i).length⟩) ∧
      (check s'.text).finalState = (check s.text).finalState ∧
      (check s'.text).trace = (check s.text).trace ∧
      (check s'.text).diagnostics.map Diagnostic.problem =
        (check s.text).diagnostics.map Diagnostic.problem ∧
      (check s.text).diagnostics.map Diagnostic.range =
        (check s.text).recovered.filterMap (fun i => (tokenize s.text)[i]?.map Token.span) ++
          if (check s.text).finalState = .semicolon then []
          else [⟨endOffset (tokenize s.text), endOffset (tokenize s.text)⟩] := by
  -- Without their places both lists of tokens are the lexemes, and these are the same.
  have hsame : (tokenize s'.text).map Token.unplaced = (tokenize s.text).map Token.unplaced := by
    rw [s.map_unplaced_tokenize, s'.map_unplaced_tokenize, h]
  refine ⟨s.tokenize_text, ?_, ?_, ?_, ranges_validate _⟩
  · rw [check, ← finalState_unplaced, hsame, finalState_unplaced]
    rfl
  · rw [check, ← trace_unplaced, hsame, trace_unplaced]
    rfl
  · rw [check, ← problems_unplaced, hsame, problems_unplaced]
    rfl

namespace Spacing

theorem isLexeme_misspelt :
    ∀ x ∈ [['v', 'r'], ['x'], [':'], ['c', 'h', 'a', 'r']], IsLexeme x := by
  simp only [List.forall_mem_cons]
  refine ⟨.inl ?_, .inl ?_, .inr ⟨':', rfl, by decide, by decide⟩, .inl ?_, by simp⟩ <;>
    exact isWord_cons (by decide) (by decide)

/-- A misspelt block that is not finished, with as few blanks as can be. -/
def tight : Spacing where
  margin := []
  pieces := [(['v', 'r'], [' ']), (['x'], []), ([':'], []), (['c', 'h', 'a', 'r'], [])]
  margin_isGap := isGap_nil
  isLexeme := List.forall_mem_map.mp isLexeme_misspelt
  isGap := by simp [IsGap, isBlank]
  apart := by
    have hcolon : ':'.isAlphanum = false := rfl
    have hword : ¬ IsWord [':'] := not_isWord_of_not_isAlpha rfl
    simp [hcolon, hword]

/-- The same block over two lines. -/
def loose : Spacing where
  margin := [' ']
  pieces := [(['v', 'r'], ['\r', '\n']), (['x'], ['\t']), ([':'], [' ', ' ']),
    (['c', 'h', 'a', 'r'], ['\n'])]
  margin_isGap := by simp [IsGap, isBlank]
  isLexeme := List.forall_mem_map.mp isLexeme_misspelt
  isGap := by simp [IsGap, isBlank]
  apart := by simp

end Spacing

/-- With few blanks or with many, a misspelt block is reported alike. -/
theorem check_spacing_misspelt :
    Spacing.loose.lexemes = Spacing.tight.lexemes ∧
      (check Spacing.loose.text).trace = (check Spacing.tight.text).trace ∧
      (check Spacing.loose.text).diagnostics.map Diagnostic.problem =
        (check Spacing.tight.text).diagnostics.map Diagnostic.problem :=
  have h := check_spacing Spacing.tight Spacing.loose rfl
  ⟨rfl, h.2.2.1, h.2.2.2.1⟩

end VarBlock
