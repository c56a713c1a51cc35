import VarBlock.Proofs.Coverage

/-!
# Texts put together

A text is read in two parts as it is read at once, unless the cut goes through a word:

    tokenize_append_iff : tokenize (s ++ t) = tokenize s ++ (tokenize t).map (Token.shift s.length) ↔
      ¬ (EndsInWord s ∧ StartsInWord t)

A layout goes on with another one behind it if its last lexeme, where no blanks follow it, is not
carried on by what comes next (`LaidOut.append`). Where it is, the word at the cut would have to
stop short of a letter or digit, which no token does (`Token.Stands.endsWord`).
-/

namespace VarBlock

/-- The same token where `n` more characters come before it. -/
def Token.shift (n : Nat) (t : Token) : Token := { t with offset := n + t.offset }

/-- The kinds that words have. -/
def TokenKind.wordKinds : List TokenKind := [keyword, type, identifier]

/-- The last character of the text belongs to a word. -/
def EndsInWord (source : String) : Prop :=
  ∃ t ∈ tokenize source, t.kind ∈ TokenKind.wordKinds ∧
    ∃ i, i + 1 = source.length ∧ t.offset ≤ i ∧ i < t.stop

/-- The first character of the text is one that a word goes on with. -/
def StartsInWord (source : String) : Prop := ∃ c ∈ source.toList.head?, c.isAlphanum = true

/-! ## Layouts further on, and one after the other -/

/-- A layout stands farther on as it stood before. -/
theorem LaidOut.shift {offset : Nat} {ts : List Token} {cs : List Char} (h : LaidOut offset ts cs)
    (n : Nat) : LaidOut (n + offset) (ts.map (Token.shift n)) cs := by
  induction h with
  | nil hg => exact .nil hg
  | cons hg hx hend _ ih =>
    rw [← Nat.add_assoc, ← Nat.add_assoc] at ih
    have hcons := LaidOut.cons hg hx hend ih
    rwa [Nat.add_assoc] at hcons

/-- A layout goes on behind another one, if a word at the very end of the first is not carried
on. -/
theorem LaidOut.append {offset : Nat} {ts us : List Token} {cs ds : List Char}
    (h : LaidOut offset ts cs) (hds : LaidOut (offset + cs.length) us ds)
    (hcut : ∀ t ∈ ts, IsWord t.text.toList → t.stop = offset + cs.length → EndsWord ds) :
    LaidOut offset (ts ++ us) (cs ++ ds) := by
  induction h with
  | nil hg => exact hds.gap_append hg
  | @cons offset k g x cs ts hg hx hend hrest ih =>
    have hlength : offset + (g ++ (x ++ cs)).length = offset + g.length + x.length + cs.length := by
      simp only [List.length_append, Nat.add_assoc]
    rw [hlength] at hds hcut
    obtain ⟨hfirst, hothers⟩ := List.forall_mem_cons.mp hcut
    rw [List.append_assoc, List.append_assoc]
    refine .cons hg hx (fun hw => ?_) (ih hds hothers)
    cases cs with
    | nil =>
      -- the word is the last thing in front of the cut
      apply hfirst
      · rwa [String.toList_ofList]
      · rw [Token.stop, String.length_ofList, List.length_nil, Nat.add_zero]
    | cons c cs => exact hend hw

/-! ## Words at the cut -/

/-- A word is of one of the kinds of words. -/
theorem TokenKind.ofWord_mem_wordKinds (w : String) : ofWord w ∈ wordKinds := by
  rw [ofWord]
  split
  · simp [wordKinds]
  · split <;> simp [wordKinds]

/-- A symbol is of none of them. -/
theorem TokenKind.ofSymbol_not_mem_wordKinds (c : Char) : ofSymbol c ∉ wordKinds := by
  obtain ⟨hkeyword, htype, hidentifier⟩ := @ofSymbol_ne c
  simp [wordKinds, hkeyword, htype, hidentifier]

/-- Whether a lexeme is a word is seen from its kind. -/
theorem Lexeme.isWord_iff {k : TokenKind} {x : List Char} (h : Lexeme k x) :
    IsWord x ↔ k ∈ TokenKind.wordKinds := by
  cases h with
  | word hw => exact iff_of_true hw (TokenKind.ofWord_mem_wordKinds _)
  | symbol _ ha =>
    exact iff_of_false (not_isWord_of_not_isAlpha ha) (TokenKind.ofSymbol_not_mem_wordKinds _)

/-- A text that ends in a word has a word that stops where the text does. -/
theorem endsInWord_iff {source : String} :
    EndsInWord source ↔
      ∃ t ∈ tokenize source, IsWord t.text.toList ∧ t.stop = source.length := by
  apply exists_congr
  intro t
  apply and_congr_right
  intro ht
  have hstands := stands_of_mem_tokenize ht
  obtain ⟨_, _, -, -, hx, -⟩ := id hstands
  rw [hx.isWord_iff]
  apply and_congr_right
  intro _
  have hlt := hstands.offset_lt_stop
  have hle := hstands.stop_le
  rw [String.length_toList] at hle
  -- The last token reaches the end if and only if the last character lies within it.
  constructor
  · rintro ⟨i, hi, -, hstop⟩
    omega
  · intro hstop
    exact ⟨t.stop - 1, by omega, by omega, by omega⟩

/-- A word in front of a text is at its end unless the text starts in a word. -/
theorem endsWord_iff {source : String} : EndsWord source.toList ↔ ¬ StartsInWord source := by
  simp [EndsWord, StartsInWord]

/-- **Reading goes part by part, wherever a word is not cut.** -/
theorem tokenize_append_iff (s t : String) :
    tokenize (s ++ t) = tokenize s ++ (tokenize t).map (Token.shift s.length) ↔
      ¬ (EndsInWord s ∧ StartsInWord t) := by
  rw [endsInWord_iff]
  constructor
  · -- A word at the cut would be a token of the whole text that a letter or digit follows.
    rintro heq ⟨⟨u, hu, hw, hstop⟩, hstarts⟩
    have hmem : u ∈ tokenize (s ++ t) := by
      rw [heq]
      exact List.mem_append_left _ hu
    have hends := (stands_of_mem_tokenize hmem).endsWord hw
    rw [hstop, ← String.length_toList, String.toList_append, List.drop_left] at hends
    exact endsWord_iff.mp hends hstarts
  · -- Otherwise the two layouts, one behind the other, are a layout of the whole text, and there is
    -- just one.
    intro hcut
    have hlaid : LaidOut 0 (tokenize s ++ (tokenize t).map (Token.shift s.length))
        (s.toList ++ t.toList) := by
      refine (laidOut_tokenize s).append ?_ fun u hu hw hstop => ?_
      · rw [Nat.add_comm, String.length_toList]
        exact (laidOut_tokenize t).shift s.length
      · rw [Nat.zero_add, String.length_toList] at hstop
        exact endsWord_iff.mpr fun hstarts => hcut ⟨⟨u, hu, hw, hstop⟩, hstarts⟩
    rw [tokenize, String.toList_append, scan_eq_iff.mpr hlaid]

-- A digit goes with the word before it, unless the text is cut between them.
example : tokenize ("var x" ++ "1") = [⟨.keyword, "var", 0⟩, ⟨.identifier, "x1", 4⟩] ∧
    tokenize "var x" ++ (tokenize "1").map (Token.shift 5) =
      [⟨.keyword, "var", 0⟩, ⟨.identifier, "x", 4⟩, ⟨.digit, "1", 5⟩] := by cbv

end VarBlock
