import Mathlib.Data.List.Infix
import Mathlib.Data.List.MinMax
import Mathlib.Data.List.ProdSigma
import Mathlib.Data.Prod.Lex
import Mathlib.Data.String.Basic
import VarBlock.Token.Pattern
import VarBlock.Proofs.Layout

/-!
# Reading by patterns

The tokens of a text are those of its matches: `Rule.Wins` says which match counts at the front of a
text, `Matched` collects these matches from the front to the end, and the tokens at their places are
the ones that are read.

    locate_of_matched : Matched 0 source.toList ms → Token.locate source 0 0 ms = tokenize source

There always are such matches (`exists_matched`), as every character is matched by some rule. What
counts at the front is a gap or a lexeme (`Wins.isGap`, `Wins.lexeme`), which is what reading takes
off the front as well. Counting the characters between two places in the bytes is right as long as
the place that has been reached and the count stand for the same characters, whatever the number of
bytes of each.

A match is found without a scanner: of all rules and all fronts of the text, the longest front
counts, and among rules of one length the priority. That names and reserved words have the same
matches is settled by priority, and that a word never stops short by length.
-/

namespace VarBlock

/-- The match `x` of the rule counts at the front of `x ++ cs`: no other match there is longer, and
none of the same length has a higher priority. -/
structure Rule.Wins (r : Rule) (x cs : List Char) : Prop where
  mem : r ∈ Rule.all
  accepts : r.pattern.accepts x = true
  best : ∀ r' ∈ Rule.all, ∀ y, y <+: x ++ cs → r'.pattern.accepts y = true →
    y.length < x.length ∨ y.length = x.length ∧ r'.priority ≤ r.priority

/-- The matches that count, one after the other, where `start` is the place of the first
character. -/
inductive Matched : String.Pos.Raw → List Char → List Match → Prop
  | nil {start : String.Pos.Raw} : Matched start [] []
  | drop {start : String.Pos.Raw} {r : Rule} {x cs : List Char} {ms : List Match} :
      r.Wins x cs → r.kind = none → Matched (start + String.ofList x) cs ms →
      Matched start (x ++ cs) ms
  | token {start : String.Pos.Raw} {r : Rule} {k : TokenKind} {x cs : List Char}
      {ms : List Match} :
      r.Wins x cs → r.kind = some k → Matched (start + String.ofList x) cs ms →
      Matched start (x ++ cs) (⟨k, start, start + String.ofList x⟩ :: ms)

/-! ## What the rules match -/

namespace Pattern

theorem accepts_literal_iff {word : String} {x : List Char} :
    (literal word).accepts x = true ↔ x = word.toList := by
  rw [accepts, decide_eq_true_iff]

theorem accepts_one_iff {p : Char → Bool} {x : List Char} :
    (one p).accepts x = true ↔ ∃ c, x = [c] ∧ p c = true := by
  constructor
  · intro h
    match x, h with
    | [c], h => exact ⟨c, rfl, h⟩
  · rintro ⟨c, rfl, h⟩
    exact h

/-- A pattern for a run accepts a character of the first class and any number of the second. -/
theorem accepts_run_iff {p q : Char → Bool} {x : List Char} :
    (run p q).accepts x = true ↔ ∃ c cs, x = c :: cs ∧ p c = true ∧ ∀ d ∈ cs, q d = true := by
  cases x <;> simp [accepts]

end Pattern

namespace Rule

/-- The pattern of names accepts the words, reserved ones as well. -/
theorem accepts_name_iff {x : List Char} : name.pattern.accepts x = true ↔ IsWord x :=
  Pattern.accepts_run_iff

theorem name_mem : name ∈ all := by simp [all]

theorem digit_mem : digit ∈ all := by simp [all]

theorem reserved_mem {w : String} (h : w ∈ TokenKind.varWord :: TokenKind.typeWords) :
    literal (.ofWord w) w ∈ all := by
  rcases List.mem_cons.mp h with rfl | h
  · rw [TokenKind.ofWord_eq_keyword_iff.mpr rfl]
    simp [all]
  · rw [TokenKind.ofWord_eq_type_iff.mpr h]
    simp only [all, List.mem_append, List.mem_map]
    exact .inl (.inr ⟨w, h, rfl⟩)

theorem mark_mem {c : Char} (h : c ∈ [',', ':', ';']) :
    literal (.ofSymbol c) (String.singleton c) ∈ all := by
  simp only [List.mem_cons, List.not_mem_nil, or_false] at h
  rcases h with rfl | rfl | rfl
  · show literal .delimiter "," ∈ all
    simp [all]
  · show literal .colon ":" ∈ all
    simp [all]
  · show literal .semicolon ";" ∈ all
    simp [all]

/-- The rules by what they match: blanks, a reserved word, any word, a mark, a digit, or any other
character. -/
theorem mem_all_cases {r : Rule} (h : r ∈ all) :
    r = blanks ∨ (∃ w ∈ TokenKind.varWord :: TokenKind.typeWords, r = literal (.ofWord w) w) ∨
      r = name ∨ (∃ c ∈ [',', ':', ';'], r = literal (.ofSymbol c) (String.singleton c)) ∨
        r = digit ∨ r = other := by
  simp only [all, List.mem_append, List.mem_map, List.mem_cons, List.not_mem_nil, or_false] at h
  -- The members of the list in its order. Reserved words and marks are brought together.
  rcases h with ((rfl | rfl) | ⟨w, hw, rfl⟩) | rfl | rfl | rfl | rfl | rfl | rfl
  · exact .inl rfl
  · refine .inr (.inl ⟨_, List.mem_cons_self, ?_⟩)
    rw [TokenKind.ofWord_eq_keyword_iff.mpr rfl]
  · refine .inr (.inl ⟨w, List.mem_cons_of_mem _ hw, ?_⟩)
    rw [TokenKind.ofWord_eq_type_iff.mpr hw]
  · exact .inr (.inr (.inl rfl))
  · exact .inr (.inr (.inr (.inl ⟨',', by simp, rfl⟩)))
  · exact .inr (.inr (.inr (.inl ⟨':', by simp, rfl⟩)))
  · exact .inr (.inr (.inr (.inl ⟨';', by simp, rfl⟩)))
  · exact .inr (.inr (.inr (.inr (.inl rfl))))
  · exact .inr (.inr (.inr (.inr (.inr rfl))))

/-- No match is empty. -/
theorem ne_nil_of_accepts {r : Rule} {x : List Char} (hr : r ∈ all)
    (hx : r.pattern.accepts x = true) : x ≠ [] := by
  rintro rfl
  -- A literal accepts its word only, which is not empty. The other patterns ask for a first
  -- character.
  rcases mem_all_cases hr with rfl | ⟨w, hw, rfl⟩ | rfl | ⟨c, -, rfl⟩ | rfl | rfl
  · cases hx
  · obtain ⟨c, cs, hword, -⟩ := isWord_of_reserved hw
    rw [← Pattern.accepts_literal_iff.mp hx] at hword
    cases hword
  · cases hx
  · have hc := Pattern.accepts_literal_iff.mp hx
    rw [String.toList_singleton] at hc
    cases hc
  · cases hx
  · cases hx

/-! ## What counts at the front -/

namespace Wins

variable {r : Rule} {k : TokenKind} {x cs : List Char}

/-- No rule that accepts the same text has a greater priority than the winner. -/
theorem priority_le (h : r.Wins x cs) {r' : Rule} (hr' : r' ∈ all)
    (hx : r'.pattern.accepts x = true) : r'.priority ≤ r.priority := by
  have hbest := h.best r' hr' x (List.prefix_append x cs) hx
  omega

/-- A match that is a word ends where the word ends, or the rule for names would go further. -/
theorem endsWord (h : r.Wins x cs) (hx : IsWord x) : EndsWord cs := by
  intro c hc
  obtain ⟨rest, rfl⟩ : ∃ rest, cs = c :: rest := List.head?_eq_some_iff.mp hc
  refine Bool.eq_false_iff.mpr fun hc => ?_
  -- If the next character went on with the word, names would match one more.
  have hlonger : IsWord (x ++ [c]) := by
    obtain ⟨d, ds, rfl, hd, hds⟩ := hx
    refine ⟨d, ds ++ [c], rfl, hd, ?_⟩
    simpa [or_imp, forall_and, hc] using hds
  have hprefix : x ++ [c] <+: x ++ c :: rest := ⟨rest, by simp⟩
  have hbest := h.best name name_mem _ hprefix (accepts_name_iff.mpr hlonger)
  rw [List.length_append, List.length_singleton] at hbest
  omega

/-- Where a rule without a kind wins, blanks are passed over. -/
theorem isGap (h : r.Wins x cs) (hk : r.kind = none) : IsGap x := by
  rcases mem_all_cases h.mem with rfl | ⟨w, -, rfl⟩ | rfl | ⟨c, -, rfl⟩ | rfl | rfl
  · obtain ⟨c, cs, rfl, hc, hcs⟩ := Pattern.accepts_run_iff.mp h.accepts
    exact List.forall_mem_cons.mpr ⟨hc, hcs⟩
  all_goals cases hk

/-- A match of the rule for names is no reserved word, as the rule for that word has a higher
priority. -/
theorem ofWord_of_name (h : name.Wins x cs) :
    TokenKind.ofWord (String.ofList x) = .identifier := by
  rw [TokenKind.ofWord_eq_identifier_iff]
  intro hreserved
  have hlength : ∀ w ∈ TokenKind.varWord :: TokenKind.typeWords, 1 < w.length := by decide
  have hpriority : 2 * (String.ofList x).length ≤ 3 := h.priority_le (reserved_mem hreserved)
    (Pattern.accepts_literal_iff.mpr String.toList_ofList.symm)
  have hlt := hlength _ hreserved
  omega

/-- A character is matched by the last rule only if it is no letter, no mark and no digit. -/
theorem lexeme_of_other {c : Char} (h : other.Wins [c] cs) : Lexeme .unknown [c] := by
  obtain ⟨_, hx, hb⟩ := Pattern.accepts_one_iff.mp h.accepts
  obtain ⟨rfl, -⟩ := List.cons.inj hx
  -- Were the character a letter, a mark or a digit, a rule of greater priority would accept it too.
  have ha : c.isAlpha = false := by
    refine Bool.eq_false_iff.mpr fun ha => ?_
    have hpriority : 3 ≤ 1 :=
      h.priority_le name_mem (accepts_name_iff.mpr (isWord_cons ha (by simp)))
    omega
  have hm : c ∉ [',', ':', ';'] := by
    intro hm
    have hpriority : 2 * (String.singleton c).length ≤ 1 := h.priority_le (mark_mem hm)
      (Pattern.accepts_literal_iff.mpr (String.toList_singleton c).symm)
    rw [String.length_singleton] at hpriority
    omega
  have hd : c.isDigit = false := by
    refine Bool.eq_false_iff.mpr fun hd => ?_
    have hpriority : 3 ≤ 1 :=
      h.priority_le digit_mem (Pattern.accepts_one_iff.mpr ⟨c, rfl, hd⟩)
    omega
  rw [← TokenKind.ofSymbol_eq_unknown_iff.mpr ⟨hm, hd⟩]
  exact .symbol (by simpa using hb) ha

/-- The match that counts is a lexeme of the kind its rule says. -/
theorem lexeme (h : r.Wins x cs) (hk : r.kind = some k) : Lexeme k x := by
  -- Blanks have no kind. A word may be matched by the rule for names, so its kind has to be found
  -- by priority, and the same goes for the last rule.
  rcases mem_all_cases h.mem with rfl | ⟨w, hw, rfl⟩ | rfl | ⟨c, hc, rfl⟩ | rfl | rfl
  · cases hk
  all_goals obtain rfl := Option.some.inj hk
  · obtain rfl := Pattern.accepts_literal_iff.mp h.accepts
    exact lexeme_ofWord (isWord_of_reserved hw)
  · rw [← h.ofWord_of_name]
    exact .word (accepts_name_iff.mp h.accepts)
  · obtain rfl := Pattern.accepts_literal_iff.mp h.accepts
    rw [String.toList_singleton]
    exact lexeme_of_mark hc
  · obtain ⟨c, rfl, hc⟩ := Pattern.accepts_one_iff.mp h.accepts
    exact lexeme_of_isDigit hc
  · obtain ⟨c, rfl, -⟩ := Pattern.accepts_one_iff.mp h.accepts
    exact h.lexeme_of_other

end Wins

/-- Some match counts at the front of every text: blanks are matched, and so is all else. -/
theorem exists_wins (c : Char) (cs : List Char) :
    ∃ r x rest, c :: cs = x ++ rest ∧ Wins r x rest := by
  let found := (all.product (c :: cs).inits).filter fun m => m.1.pattern.accepts m.2
  let key : Rule × List Char → ℕ ×ₗ ℕ := fun m => toLex (m.2.length, m.1.priority)
  have hmem : ∀ r ∈ all, ∀ x, x <+: c :: cs → r.pattern.accepts x = true → (r, x) ∈ found := by
    intro r hr x hx haccepts
    rw [List.mem_filter, List.pair_mem_product, List.mem_inits]
    exact ⟨⟨hr, hx⟩, haccepts⟩
  have hfront : [c] <+: c :: cs := ⟨cs, rfl⟩
  have hne : found ≠ [] := by
    cases hb : isBlank c with
    | true =>
      exact List.ne_nil_of_mem (hmem blanks (by simp [all]) [c] hfront
        (Pattern.accepts_run_iff.mpr ⟨c, [], rfl, hb, by simp⟩))
    | false =>
      exact List.ne_nil_of_mem (hmem other (by simp [all]) [c] hfront
        (Pattern.accepts_one_iff.mpr ⟨c, rfl, by simp [hb]⟩))
  -- the first of the longest matches with the highest priority counts
  obtain ⟨m, hm⟩ : ∃ m, found.argmax key = some m :=
    Option.ne_none_iff_exists'.mp fun hnone => hne (List.argmax_eq_none.mp hnone)
  obtain ⟨hfound, haccepts⟩ := List.mem_filter.mp (List.argmax_mem hm)
  obtain ⟨hr, hx⟩ := List.pair_mem_product.mp hfound
  obtain ⟨rest, hrest⟩ := (List.mem_inits _ _).mp hx
  refine ⟨m.1, m.2, rest, hrest.symm, hr, haccepts, ?_⟩
  intro r' hr' y hy hy'
  rw [hrest] at hy
  exact Prod.Lex.toLex_le_toLex.mp (List.le_of_mem_argmax (hmem r' hr' y hy hy') hm)

end Rule

/-! ## The tokens of the matches -/

/-- Every text has matches from its front to its end, since at each place some rule wins. -/
theorem exists_matched (start : String.Pos.Raw) (cs : List Char) : ∃ ms, Matched start cs ms := by
  cases cs with
  | nil => exact ⟨[], .nil⟩
  | cons c cs =>
    obtain ⟨r, x, rest, hrest, hwins⟩ := Rule.exists_wins c cs
    -- A match takes at least one character, which is why the recursion ends.
    have hlt : rest.length < (c :: cs).length := by
      have hpos := List.length_pos_iff.mpr (Rule.ne_nil_of_accepts hwins.mem hwins.accepts)
      rw [hrest, List.length_append]
      omega
    obtain ⟨ms, hms⟩ := exists_matched (start + String.ofList x) rest
    rw [hrest]
    cases hk : r.kind with
    | none => exact ⟨ms, .drop hwins hk hms⟩
    | some k => exact ⟨_, .token hwins hk hms⟩
termination_by cs.length
decreasing_by exact hlt

/-- The place just past a piece of a text. -/
theorem endPos_append (a x : List Char) :
    (⟨String.utf8Len a⟩ : String.Pos.Raw) + String.ofList x = ⟨String.utf8Len (a ++ x)⟩ := by
  rw [String.utf8Len_append, ← String.utf8ByteSize_ofList x]
  rfl

/-- The bytes between two places are those of the characters between them. -/
theorem extract_of_append {source : String} {a x cs : List Char}
    (h : source.toList = a ++ (x ++ cs)) :
    String.Pos.Raw.extract source ⟨String.utf8Len a⟩ ⟨String.utf8Len (a ++ x)⟩ =
      String.ofList x := by
  rw [← String.ofList_toList (s := source), h, ← List.append_assoc, String.utf8Len_append]
  exact String.extract_of_valid a x cs

/-- Counting characters from match to match finds the tokens that are read. The characters `a` have
been passed, and the gap `g` after them has been dropped. -/
theorem locate_eq_scan {source : String} {start : String.Pos.Raw} {cs : List Char}
    {ms : List Match} (h : Matched start cs ms) {a g : List Char} (hg : IsGap g)
    (hsource : source.toList = a ++ (g ++ cs)) (hstart : start = ⟨String.utf8Len (a ++ g)⟩) :
    Token.locate source ⟨String.utf8Len a⟩ a.length ms = Token.scan (a.length + g.length) cs := by
  -- `a` has been read into tokens and `g` is the gap since the last. A dropped match makes the gap
  -- longer, a token ends it.
  induction h generalizing a g with
  | nil => rw [Token.locate, Token.scan]
  | @drop start r x cs ms hwins hk _ ih =>
    have hx : IsGap x := hwins.isGap hk
    rw [scan_gap_append hx, Nat.add_assoc, ← List.length_append]
    apply ih (hg.append hx)
    · rw [hsource, List.append_assoc]
    · rw [hstart, endPos_append, List.append_assoc]
  | @token start r k x cs ms hwins hk _ ih =>
    have hx : Lexeme k x := hwins.lexeme hk
    have hpassed : source.toList = (a ++ g) ++ (x ++ cs) := by rw [hsource, List.append_assoc]
    subst hstart
    rw [endPos_append] at ih ⊢
    have hrest := ih (a := a ++ g ++ x) isGap_nil (by rw [hpassed, ← List.append_assoc]; rfl)
      (by rw [List.append_nil])
    simp only [List.length_append, List.length_nil, Nat.add_zero] at hrest
    rw [scan_lexeme_append hx hwins.endsWord, Token.locate, ← hrest]
    simp only [extract_of_append hsource, extract_of_append hpassed, Token.stop,
      String.length_ofList]

/-- The tokens at the places of the matches are the tokens of the text. -/
theorem locate_of_matched {source : String} {ms : List Match} (h : Matched 0 source.toList ms) :
    Token.locate source 0 0 ms = tokenize source :=
  locate_eq_scan (a := []) h isGap_nil rfl rfl

-- The first match takes two bytes and is one character.
example : Token.locate "ж x" 0 0 [⟨.unknown, ⟨0⟩, ⟨2⟩⟩, ⟨.identifier, ⟨3⟩, ⟨4⟩⟩] =
    [⟨.unknown, "ж", 0⟩, ⟨.identifier, "x", 2⟩] := by decide

end VarBlock
