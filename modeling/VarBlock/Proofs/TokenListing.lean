import VarBlock.Proofs.JsonReport
import VarBlock.Proofs.OneLine

/-!
# Written tokens can be told apart

A token is written in two ways: as one word, `Kind("text")@offset`, and as a line of a listing,
which without positions is the offset, the kind and the quoted text. Both are made of parts that end
where the next begins: digits at a blank, the letters of a kind at a parenthesis or a blank, and a
quoted text at its last quote, whatever else the text has in it. So each names one token only.

A listing has one line for each token, so it names one list of tokens.

The position that a listing may show instead of the offset depends on the whole source, so all this
is about listings without positions. There a line depends on its token alone
(`Analysis.tokenLine_eq_line`).
-/

namespace VarBlock

open Text

/-! ## Parts -/

theorem TokenKind.name_injective : Function.Injective TokenKind.name := by
  intro k k' h
  have hread := ofName?_name k
  rw [h, ofName?_name] at hread
  exact (Option.some.inj hread).symm

/-- The name of a kind ends where its letters end. -/
theorem TokenKind.prefixFree_name {stop : Char} (hstop : stop.isAlpha = false) :
    PrefixFree fun k : TokenKind => k.name.toList ++ [stop] := by
  apply prefixFree_concat
  · intro k k' h
    exact name_injective (String.toList_inj.mp h)
  · intro k hmem
    have hletters : k.name.toList.all Char.isAlpha = true := by cases k <;> decide
    rw [List.all_eq_true.mp hletters stop hmem] at hstop
    cases hstop

/-- A number ends where its digits end. -/
theorem prefixFree_decimal : PrefixFree fun n : Nat => Nat.toDigits 10 n ++ [' '] := by
  apply prefixFree_concat (toDigits_injective (by decide) (by decide))
  intro n hmem
  have hdigit := Nat.isDigit_of_mem_toDigits (by decide) (by decide) hmem
  cases hdigit

/-! ## Words and lines -/

namespace Token

/-- The line of a token that shows its offset. -/
def line (t : Token) : String :=
  toString t.offset ++ " " ++ t.kind.name ++ " " ++ Text.quoted t.text

/-- The parts of a token as one word. -/
theorem toList_display (t : Token) : t.display.toList =
    (t.kind.name.toList ++ ['(']) ++
      ((quoted t.text).toList ++ (')' :: '@' :: Nat.toDigits 10 t.offset)) := by
  simp [display]

theorem toList_line (t : Token) : t.line.toList =
    (Nat.toDigits 10 t.offset ++ [' ']) ++
      ((t.kind.name.toList ++ [' ']) ++ (quoted t.text).toList) := by
  simp [line]

/-- A word names one token only. -/
theorem display_injective : Function.Injective display := by
  intro t u h
  have hchars := congrArg String.toList h
  rw [toList_display, toList_display] at hchars
  -- Part by part from the front: the kind, the text, and what is left are the digits of the offset.
  obtain ⟨hkind, hchars⟩ := TokenKind.prefixFree_name rfl t.kind u.kind _ _ hchars
  obtain ⟨htext, hchars⟩ := prefixFree_quoted t.text u.text _ _ hchars
  simp only [List.cons.injEq, true_and] at hchars
  have hoffset : t.offset = u.offset := toDigits_injective (by decide) (by decide) hchars
  calc
    t = ⟨t.kind, t.text, t.offset⟩ := rfl
    _ = ⟨u.kind, u.text, u.offset⟩ := by rw [hkind, htext, hoffset]

/-- A line without positions names one token only. -/
theorem line_injective : Function.Injective line := by
  intro t u h
  have hchars := congrArg String.toList h
  rw [toList_line, toList_line] at hchars
  -- Here the offset comes first. It ends at the blank.
  obtain ⟨hoffset, hchars⟩ := prefixFree_decimal t.offset u.offset _ _ hchars
  obtain ⟨hkind, hchars⟩ := TokenKind.prefixFree_name rfl t.kind u.kind _ _ hchars
  have htext : t.text = u.text := prefixFree_quoted.injective hchars
  calc
    t = ⟨t.kind, t.text, t.offset⟩ := rfl
    _ = ⟨u.kind, u.text, u.offset⟩ := by rw [hkind, htext, hoffset]

end Token

/-! ## Listings -/

/-- Without positions the line of a token depends on the token only. -/
theorem Analysis.tokenLine_eq_line (a : Analysis) {s : DiagnosticsSettings}
    (h : s.showPositions = false) : a.tokenLine s = Token.line := by
  funext t
  simp [tokenLine, place, Token.line, h]

/-- The lines of an output are all that it lists. -/
theorem Lists.unique {output : String} {ls ls' : List String} (h : Lists output ls)
    (h' : Lists output ls') : ls = ls' := by
  have hlines := h.lines_eq.symm.trans h'.lines_eq
  have hinj : Function.Injective String.toList := fun _ _ => String.toList_inj.mp
  exact List.map_injective_iff.mpr hinj (List.append_cancel_right hlines)

/-- A listing without positions names one list of tokens. -/
theorem tokens_eq_of_listing {a a' : Analysis} {s s' : DiagnosticsSettings}
    (hs : s.showPositions = false) (hs' : s'.showPositions = false)
    (h : joinLines (a.tokens.map (a.tokenLine s)) = joinLines (a'.tokens.map (a'.tokenLine s'))) :
    a.tokens = a'.tokens := by
  have hlists := a.lists_tokens s
  rw [h] at hlists
  have hlines := hlists.unique (a'.lists_tokens s')
  rw [a.tokenLine_eq_line hs, a'.tokenLine_eq_line hs'] at hlines
  exact List.map_injective_iff.mpr Token.line_injective hlines

/-- **A written token names one token**, and a listing without positions one list of tokens,
whatever the texts of the tokens are. -/
theorem written_tokens_unambiguous :
    Function.Injective Token.display ∧
      ∀ (source source' : String) (s s' : DiagnosticsSettings), s.showPositions = false →
        s'.showPositions = false →
          ∃ output output',
            process ⟨.tokens, .simple⟩ s source = .ok ⟨output, .ofSource source⟩ ∧
              process ⟨.tokens, .simple⟩ s' source' = .ok ⟨output', .ofSource source'⟩ ∧
              (output = output' → tokenize source = tokenize source') := by
  refine ⟨Token.display_injective, fun source source' s s' hs hs' => ?_⟩
  exact ⟨_, _, rfl, rfl, tokens_eq_of_listing hs hs'⟩

end VarBlock
