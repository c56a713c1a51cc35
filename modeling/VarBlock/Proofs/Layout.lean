import Mathlib.Data.List.TakeWhile
import VarBlock.Token.Lexer

/-!
# The layout of tokens in a text

`LaidOut` is the relation between tokens and the texts they can be read from, stated without the
scanner: gaps of blanks and lexemes in turn, where a word is followed by nothing that would go on
with it. Reading is the function side of that relation:

    scan_eq_iff : Token.scan offset cs = ts ↔ LaidOut offset ts cs

so the tokens of a text are unique, and a text can be taken apart lexeme by lexeme
(`scan_gap_append`, `scan_lexeme_append`).

Each direction is an induction over what it starts from. The recursion of `scan` has one case for a
blank, one for a word and one for any other character, and each adds to a layout of the rest
(`laidOut_scan`). A layout has one case for a lexeme, which the scanner takes off the front
(`scan_of_laidOut`).

The first part is about kinds: which words and which characters have which, and that no kind is both
of a word and of a character.
-/

namespace VarBlock

/-- A possibly empty run of blanks. -/
def IsGap (g : List Char) : Prop := ∀ c ∈ g, isBlank c = true

/-- A letter, then letters and digits. -/
def IsWord (w : List Char) : Prop :=
  ∃ c cs, w = c :: cs ∧ c.isAlpha = true ∧ ∀ d ∈ cs, d.isAlphanum = true

/-- A word that stands before these characters ends there. -/
def EndsWord (cs : List Char) : Prop := ∀ c ∈ cs.head?, c.isAlphanum = false

/-- The characters of a token of kind `k`: a word, or one character that is neither a blank nor the
start of a word. -/
inductive Lexeme : TokenKind → List Char → Prop
  | word {w : List Char} : IsWord w → Lexeme (.ofWord (String.ofList w)) w
  | symbol {c : Char} : isBlank c = false → c.isAlpha = false → Lexeme (.ofSymbol c) [c]

/-- The tokens `ts` are laid out in `cs`, where `offset` characters come before `cs`. -/
inductive LaidOut : Nat → List Token → List Char → Prop
  | nil {offset : Nat} {g : List Char} : IsGap g → LaidOut offset [] g
  | cons {offset : Nat} {k : TokenKind} {g x cs : List Char} {ts : List Token} :
      IsGap g → Lexeme k x → (IsWord x → EndsWord cs) →
      LaidOut (offset + g.length + x.length) ts cs →
      LaidOut offset (⟨k, String.ofList x, offset + g.length⟩ :: ts) (g ++ (x ++ cs))

/-! ## Kinds of words and of characters -/

namespace TokenKind

theorem ofWord_eq_keyword_iff {w : String} : ofWord w = .keyword ↔ w = varWord := by
  grind [ofWord]

theorem ofWord_eq_type_iff {w : String} : ofWord w = .type ↔ w ∈ typeWords := by
  have hvar : varWord ∉ typeWords := by decide
  grind [ofWord]

theorem ofWord_eq_identifier_iff {w : String} :
    ofWord w = .identifier ↔ w ∉ varWord :: typeWords := by
  grind [ofWord]

theorem ofWord_ne {w : String} :
    ofWord w ≠ .delimiter ∧ ofWord w ≠ .colon ∧ ofWord w ≠ .semicolon ∧ ofWord w ≠ .digit ∧
      ofWord w ≠ .unknown := by
  grind [ofWord]

theorem ofSymbol_eq_delimiter_iff {c : Char} : ofSymbol c = .delimiter ↔ c = ',' := by
  grind [ofSymbol]

theorem ofSymbol_eq_colon_iff {c : Char} : ofSymbol c = .colon ↔ c = ':' := by
  grind [ofSymbol]

theorem ofSymbol_eq_semicolon_iff {c : Char} : ofSymbol c = .semicolon ↔ c = ';' := by
  grind [ofSymbol]

theorem not_isDigit_of_mark {c : Char} (h : c ∈ [',', ':', ';']) : c.isDigit = false := by
  simp only [List.mem_cons, List.not_mem_nil, or_false] at h
  rcases h with rfl | rfl | rfl <;> rfl

/-- The digits are those of ASCII. -/
theorem ofSymbol_eq_digit_iff {c : Char} : ofSymbol c = .digit ↔ c.isDigit = true := by
  have hmark : c ∈ [',', ':', ';'] → c.isDigit = false := not_isDigit_of_mark
  grind [ofSymbol]

theorem ofSymbol_eq_unknown_iff {c : Char} :
    ofSymbol c = .unknown ↔ c ∉ [',', ':', ';'] ∧ c.isDigit = false := by
  grind [ofSymbol]

theorem ofSymbol_ne {c : Char} :
    ofSymbol c ≠ .keyword ∧ ofSymbol c ≠ .type ∧ ofSymbol c ≠ .identifier := by
  grind [ofSymbol]

end TokenKind

/-! ## Characters -/

theorem isBlank_of_isAlphanum {c : Char} (h : c.isAlphanum = true) : isBlank c = false := by
  rw [isBlank]
  simp only [Bool.or_eq_false_iff, decide_eq_false_iff_not]
  refine ⟨⟨⟨?_, ?_⟩, ?_⟩, ?_⟩ <;>
  · rintro rfl
    exact absurd h (by decide)

theorem isAlphanum_of_isAlpha {c : Char} (h : c.isAlpha = true) : c.isAlphanum = true := by
  rw [Char.isAlphanum, h, Bool.true_or]

/-- The letters come after the digits. -/
theorem not_isAlpha_of_isDigit {c : Char} (h : c.isDigit = true) : c.isAlpha = false := by
  have hle : c.toNat ≤ '9'.toNat := (Char.isDigit_iff_toNat.mp h).2
  refine Bool.eq_false_iff.mpr fun ha => ?_
  -- A letter is a capital or not, and either begins past the digits.
  have hge : 'A'.toNat ≤ c.toNat ∨ 'a'.toNat ≤ c.toNat := by
    rcases Bool.or_eq_true_iff.mp ha with hc | hc
    · exact .inl (UInt32.le_iff_toNat_le.mp (of_decide_eq_true hc).1)
    · exact .inr (UInt32.le_iff_toNat_le.mp (of_decide_eq_true (Bool.and_eq_true_iff.mp hc).1))
  have hupper : '9'.toNat < 'A'.toNat := by decide
  have hlower : '9'.toNat < 'a'.toNat := by decide
  omega

theorem isBlank_of_isAlpha {c : Char} (h : c.isAlpha = true) : isBlank c = false :=
  isBlank_of_isAlphanum (isAlphanum_of_isAlpha h)

theorem isGap_nil : IsGap [] := by
  intro c hc
  cases hc

theorem IsGap.append {g h : List Char} (hg : IsGap g) (hh : IsGap h) : IsGap (g ++ h) := by
  intro c hc
  rcases List.mem_append.mp hc with hc | hc
  · exact hg c hc
  · exact hh c hc

/-- A gap ends a word, if it is not empty. -/
theorem IsGap.endsWord {g : List Char} (hg : IsGap g) (hne : g ≠ []) (cs : List Char) :
    EndsWord (g ++ cs) := by
  cases g with
  | nil => exact absurd rfl hne
  | cons b g =>
    intro c hc
    obtain rfl : b = c := Option.some.inj hc
    -- The first character of a gap is a blank, and a blank is no letter or digit.
    cases h : b.isAlphanum with
    | false => rfl
    | true =>
      have hb := isBlank_of_isAlphanum h
      rw [hg b (by simp)] at hb
      cases hb

/-- A word is a letter with letters and digits after it. -/
theorem isWord_cons {c : Char} {cs : List Char} (hc : c.isAlpha = true)
    (hcs : cs.all Char.isAlphanum = true) : IsWord (c :: cs) :=
  ⟨c, cs, rfl, hc, List.all_eq_true.mp hcs⟩

/-- The reserved words are words. -/
theorem isWord_of_reserved {w : String} (h : w ∈ TokenKind.varWord :: TokenKind.typeWords) :
    IsWord w.toList := by
  simp only [TokenKind.varWord, TokenKind.typeWords, List.mem_cons, List.not_mem_nil,
    or_false] at h
  rcases h with rfl | rfl | rfl | rfl | rfl <;> exact isWord_cons (by decide) (by decide)

/-- What does not begin with a letter is no word. -/
theorem not_isWord_of_not_isAlpha {c : Char} {cs : List Char} (h : c.isAlpha = false) :
    ¬ IsWord (c :: cs) := by
  rintro ⟨d, ds, heq, hd, -⟩
  obtain ⟨rfl, -⟩ := List.cons.inj heq
  rw [h] at hd
  cases hd

/-- A word is a lexeme of the kind that is chosen for it. -/
theorem lexeme_ofWord {w : String} (h : IsWord w.toList) : Lexeme (.ofWord w) w.toList := by
  have hlexeme := Lexeme.word h
  rwa [String.ofList_toList] at hlexeme

theorem lexeme_of_mark {c : Char} (h : c ∈ [',', ':', ';']) : Lexeme (.ofSymbol c) [c] := by
  simp only [List.mem_cons, List.not_mem_nil, or_false] at h
  rcases h with rfl | rfl | rfl <;> exact .symbol (by decide) (by decide)

/-- A digit is a lexeme by itself, also where another one follows. -/
theorem lexeme_of_isDigit {c : Char} (h : c.isDigit = true) : Lexeme .digit [c] := by
  have hb : isBlank c = false := isBlank_of_isAlphanum (by rw [Char.isAlphanum, h, Bool.or_true])
  rw [← TokenKind.ofSymbol_eq_digit_iff.mpr h]
  exact .symbol hb (not_isAlpha_of_isDigit h)

theorem Lexeme.ne_nil {k : TokenKind} {x : List Char} (h : Lexeme k x) : x ≠ [] := by
  rintro rfl
  cases h with
  | word hw =>
    obtain ⟨_, _, hx, -⟩ := hw
    cases hx

/-- There is no blank in a lexeme. -/
theorem Lexeme.isBlank_of_mem {k : TokenKind} {x : List Char} {c : Char} (h : Lexeme k x)
    (hc : c ∈ x) : isBlank c = false := by
  cases h with
  | word hw =>
    obtain ⟨d, ds, rfl, hd, hds⟩ := hw
    rcases List.mem_cons.mp hc with rfl | hc
    · exact isBlank_of_isAlpha hd
    · exact isBlank_of_isAlphanum (hds c hc)
  | symbol hb => rwa [List.mem_singleton.mp hc]

/-- The kind of a lexeme is decided by its characters. -/
theorem Lexeme.kind_unique {k k' : TokenKind} {x : List Char} (h : Lexeme k x)
    (h' : Lexeme k' x) : k = k' := by
  -- A word begins with a letter and a symbol does not, so both are of one sort.
  cases h with
  | word hw =>
    cases h' with
    | word => rfl
    | symbol _ ha => exact absurd hw (not_isWord_of_not_isAlpha ha)
  | symbol _ ha =>
    cases h' with
    | word hw => exact absurd hw (not_isWord_of_not_isAlpha ha)
    | symbol => rfl

theorem takeWhile_of_endsWord {cs : List Char} (h : EndsWord cs) :
    cs.takeWhile Char.isAlphanum = [] := by
  cases cs with
  | nil => rfl
  | cons c cs =>
    have hc : c.isAlphanum = false := h c rfl
    rw [List.takeWhile_cons, hc]
    rfl

/-- Where a word has ended, nothing is dropped. -/
theorem dropWhile_of_endsWord {cs : List Char} (h : EndsWord cs) :
    cs.dropWhile Char.isAlphanum = cs := by
  cases cs with
  | nil => rfl
  | cons c cs =>
    have hc : c.isAlphanum = false := h c rfl
    rw [List.dropWhile_cons, hc]
    rfl

/-- A word has ended where all letters and digits have been dropped. -/
theorem endsWord_dropWhile (cs : List Char) : EndsWord (cs.dropWhile Char.isAlphanum) := by
  intro c hc
  have hne : cs.dropWhile Char.isAlphanum ≠ [] := by
    intro hnil
    rw [hnil] at hc
    cases hc
  have hhead := List.head_dropWhile_not Char.isAlphanum hne
  rw [List.head?_eq_some_head hne] at hc
  rw [← Option.some.inj hc]
  exact hhead

/-! ## Reading piece by piece -/

/-- A gap is passed over. -/
theorem scan_gap_append {g : List Char} (hg : IsGap g) (offset : Nat) (cs : List Char) :
    Token.scan offset (g ++ cs) = Token.scan (offset + g.length) cs := by
  induction g generalizing offset with
  | nil => rfl
  | cons b g ih =>
    have hb : isBlank b = true := hg b (by simp)
    have hg' : IsGap g := fun c hc => hg c (by simp [hc])
    rw [List.cons_append, Token.scan, if_pos hb, ih hg', List.length_cons, Nat.add_assoc,
      Nat.add_comm 1]

/-- A lexeme at the front is read, if it is not a word that goes on. -/
theorem scan_lexeme_append {k : TokenKind} {x cs : List Char} (hx : Lexeme k x)
    (hcs : IsWord x → EndsWord cs) (offset : Nat) :
    Token.scan offset (x ++ cs) =
      ⟨k, String.ofList x, offset⟩ :: Token.scan (offset + x.length) cs := by
  cases hx with
  | word hw =>
    have hend := hcs hw
    -- the longest run of letters and digits is the rest of the word, which ends here
    obtain ⟨c, w, rfl, hc, hw⟩ := hw
    have htake : (w ++ cs).takeWhile Char.isAlphanum = w := by
      rw [List.takeWhile_append_of_pos hw, takeWhile_of_endsWord hend, List.append_nil]
    have hdrop : (w ++ cs).dropWhile Char.isAlphanum = cs := by
      rw [List.dropWhile_append_of_pos hw, dropWhile_of_endsWord hend]
    rw [List.cons_append, Token.scan, if_neg (by simp [isBlank_of_isAlpha hc]), if_pos hc]
    simp only [htake, hdrop]
  | @symbol c hb ha =>
    rw [List.singleton_append, Token.scan, if_neg (by simp [hb]), if_neg (by simp [ha]),
      String.singleton_eq_ofList]
    rfl

/-! ## Both directions -/

/-- A gap can be put in front of a layout. -/
theorem LaidOut.gap_append {offset : Nat} {g cs : List Char} {ts : List Token} (hg : IsGap g)
    (h : LaidOut (offset + g.length) ts cs) : LaidOut offset ts (g ++ cs) := by
  cases h with
  | nil hcs => exact .nil (hg.append hcs)
  | @cons _ k g' x cs' ts hg' hx hend hrest =>
    rw [Nat.add_assoc offset, ← List.length_append] at hrest ⊢
    rw [← List.append_assoc]
    exact .cons (hg.append hg') hx hend hrest

/-- The tokens that are read are laid out in the text. -/
theorem laidOut_scan (offset : Nat) (cs : List Char) :
    LaidOut offset (Token.scan offset cs) cs := by
  fun_induction Token.scan offset cs with
  | case1 offset => exact .nil isGap_nil
  | case2 offset c cs hb ih =>
    refine LaidOut.gap_append (g := [c]) ?_ ih
    intro d hd
    rwa [List.mem_singleton.mp hd]
  | case3 offset c cs hb hc word ih =>
    -- What is taken is a word, and it ends because all that could go on with it was taken.
    have hword : IsWord word := ⟨c, _, rfl, hc, fun d hd => List.mem_takeWhile_imp hd⟩
    have hcons := LaidOut.cons isGap_nil (.word hword) (fun _ => endsWord_dropWhile cs) ih
    rwa [List.nil_append, List.cons_append, List.takeWhile_append_dropWhile] at hcons
  | case4 offset c cs hb hc ih =>
    have hsymbol : Lexeme (.ofSymbol c) [c] := .symbol (by simpa using hb) (by simpa using hc)
    -- A single symbol is no word, so nothing is asked of what follows.
    have hend : IsWord [c] → EndsWord cs := fun h =>
      absurd h (not_isWord_of_not_isAlpha (by simpa using hc))
    have hcons := LaidOut.cons isGap_nil hsymbol hend ih
    rwa [← String.singleton_eq_ofList] at hcons

/-- Whatever is laid out in a text is read from it. -/
theorem scan_of_laidOut {offset : Nat} {ts : List Token} {cs : List Char}
    (h : LaidOut offset ts cs) : Token.scan offset cs = ts := by
  induction h with
  | @nil offset g hg =>
    rw [← List.append_nil g, scan_gap_append hg, Token.scan]
  | cons hg hx hend _ ih =>
    rw [scan_gap_append hg, scan_lexeme_append hx hend, ih]

/-- **Reading is the function side of the layout**: the tokens of a text are those that are laid out
in it, and there is one list of them. -/
theorem scan_eq_iff {offset : Nat} {ts : List Token} {cs : List Char} :
    Token.scan offset cs = ts ↔ LaidOut offset ts cs :=
  ⟨fun h => h ▸ laidOut_scan offset cs, scan_of_laidOut⟩

end VarBlock
