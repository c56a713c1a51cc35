import VarBlock.Proofs.Grammar
import VarBlock.Proofs.Layout

/-!
# The grammar of blocks over characters

`block` is the language of declaration blocks as texts: which words and characters follow each
other, and where blanks may and must stand. A text is checked to be valid exactly if it is a block:

    check_isValid_iff : (check source).isValid ↔ source.toList ∈ block

As in `Grammar`, either direction follows the states: what completes a block from a state on is
closed under taking a lexeme off the front, and what is accepted from a state on is closed under
putting one there. A name or a reserved word can be put in front of a text only if the text does
not go on with it, which is why `ended` stands beside `accepted`.

A layout of the text stands between the two: its tokens are what is read, and its gaps are what the
grammar allows for blanks. So the proof is one induction over layouts (`mem_completions_of_run?`)
and, in the other direction, one lemma for each operator of the expression.
-/

namespace VarBlock

open Computability

namespace Spelling

/-- Just the characters of the word. -/
def spelled (word : String) : FormalLanguage Char := {cs | cs = word.toList}

/-- Possibly no blanks. -/
def gap : FormalLanguage Char := {g | IsGap g}

/-- At least one blank. -/
def separator : FormalLanguage Char := {g | IsGap g ∧ g ≠ []}

/-- A word that is not reserved. -/
def name : FormalLanguage Char :=
  {w | IsWord w ∧ String.ofList w ∉ TokenKind.varWord :: TokenKind.typeWords}

/-- One of the words that name a type. -/
def typeName : FormalLanguage Char := {w | String.ofList w ∈ TokenKind.typeWords}

/-- One more name of a declaration, with the comma before it. -/
def further : FormalLanguage Char := spelled "," * gap * name * gap

/-- A declaration, with the blanks that may stand in and after it. -/
def declaration : FormalLanguage Char :=
  name * gap * further∗ * spelled ":" * gap * typeName * gap * spelled ";" * gap

/-- A block: `var`, set off by blanks, then one or more declarations. -/
def block : FormalLanguage Char :=
  gap * spelled TokenKind.varWord * separator * declaration * declaration∗

/-- What may follow the first name of a declaration, up to the end of the block. -/
def afterName : FormalLanguage Char :=
  gap * (further∗ * (spelled ":" *
    (gap * (typeName * (gap * (spelled ";" * (gap * declaration∗)))))))

/-- A declaration with something behind it, taken apart from the left, as it is read. -/
theorem declaration_mul (l : FormalLanguage Char) :
    declaration * l =
      name * (gap * (further∗ * (spelled ":" *
        (gap * (typeName * (gap * (spelled ";" * (gap * l)))))))) := by
  simp only [declaration, mul_assoc]

theorem declarations_eq : declaration * declaration∗ = name * afterName := declaration_mul _

theorem block_eq :
    block = gap * (spelled TokenKind.varWord * (separator * (name * afterName))) := by
  rw [← declarations_eq]
  simp only [block, mul_assoc]

/-! ## Lexemes of each kind -/

/-- No single character has the kind of a name or of a type. -/
theorem isWord_of_lexeme {k : TokenKind} {x : List Char} (h : Lexeme k x)
    (hk : k = .identifier ∨ k = .type) : IsWord x ∧ TokenKind.ofWord (String.ofList x) = k := by
  cases h with
  | word hw => exact ⟨hw, rfl⟩
  | symbol =>
    obtain ⟨-, htype, hidentifier⟩ := TokenKind.ofSymbol_ne
    rcases hk with hk | hk
    · exact absurd hk hidentifier
    · exact absurd hk htype

/-- The names of the grammar are the lexemes of names. -/
theorem lexeme_identifier_iff {x : List Char} : Lexeme .identifier x ↔ x ∈ name := by
  constructor
  · intro h
    obtain ⟨hw, hk⟩ := isWord_of_lexeme h (.inl rfl)
    exact ⟨hw, TokenKind.ofWord_eq_identifier_iff.mp hk⟩
  · rintro ⟨hw, hx⟩
    rw [← TokenKind.ofWord_eq_identifier_iff.mpr hx]
    exact .word hw

theorem isWord_of_mem_typeName {x : List Char} (h : x ∈ typeName) : IsWord x := by
  have hw : IsWord (String.ofList x).toList := isWord_of_reserved (List.mem_cons_of_mem _ h)
  rwa [String.toList_ofList] at hw

/-- The names of types in the grammar are the lexemes of types. -/
theorem lexeme_type_iff {x : List Char} : Lexeme .type x ↔ x ∈ typeName := by
  constructor
  · intro h
    exact TokenKind.ofWord_eq_type_iff.mp (isWord_of_lexeme h (.inr rfl)).2
  · intro hx
    rw [← TokenKind.ofWord_eq_type_iff.mpr hx]
    exact .word (isWord_of_mem_typeName hx)

theorem isWord_varWord : IsWord TokenKind.varWord.toList := isWord_of_reserved List.mem_cons_self

/-- The word that opens a block is a lexeme of the keyword. -/
theorem lexeme_keyword {x : List Char} (h : x ∈ spelled TokenKind.varWord) :
    Lexeme .keyword x := by
  subst h
  exact .word isWord_varWord

/-- A lexeme of a mark is spelled as the grammar spells the mark. -/
theorem lexeme_mark {k : TokenKind} {x : List Char} (h : Lexeme k x) :
    (k = .delimiter → x ∈ spelled ",") ∧ (k = .colon → x ∈ spelled ":") ∧
      (k = .semicolon → x ∈ spelled ";") := by
  cases h with
  | word =>
    obtain ⟨hdelimiter, hcolon, hsemicolon, -⟩ := TokenKind.ofWord_ne
    exact ⟨fun hk => absurd hk hdelimiter, fun hk => absurd hk hcolon,
      fun hk => absurd hk hsemicolon⟩
  -- A symbol of one of these kinds is the character of it, and there is no other way to spell it.
  | symbol =>
    refine ⟨fun hk => ?_, fun hk => ?_, fun hk => ?_⟩
    · rw [TokenKind.ofSymbol_eq_delimiter_iff.mp hk]; rfl
    · rw [TokenKind.ofSymbol_eq_colon_iff.mp hk]; rfl
    · rw [TokenKind.ofSymbol_eq_semicolon_iff.mp hk]; rfl

/-! ## What may follow a state -/

/-- What completes a block from a state on. -/
def completions : State → FormalLanguage Char
  | .start => block
  | .var => gap * (name * afterName)
  | .identifier => afterName
  | .delimiter => gap * (name * afterName)
  | .colon => gap * (typeName * (gap * (spelled ";" * (gap * declaration∗))))
  | .type => gap * (spelled ";" * (gap * declaration∗))
  | .semicolon => gap * declaration∗

/-- Before a name a word ends only at a blank. -/
theorem mem_separator_mul {l : FormalLanguage Char} {cs : List Char}
    (hcs : cs ∈ gap * (name * l)) (hend : EndsWord cs) : cs ∈ separator * (name * l) := by
  obtain ⟨g, hg, _, ⟨x, hx, rest, hrest, rfl⟩, rfl⟩ := hcs
  refine Language.append_mem_mul ⟨hg, ?_⟩ (Language.append_mem_mul hx hrest)
  -- without a blank the name would go on with the word
  rintro rfl
  obtain ⟨⟨c, w, rfl, hc, -⟩, -⟩ := hx
  have hc' : c.isAlphanum = false := hend c rfl
  rw [isAlphanum_of_isAlpha hc] at hc'
  cases hc'

/-- One more name before the further names is one of them. -/
theorem comma_mul_le (l : FormalLanguage Char) :
    spelled "," * (gap * (name * (gap * (further∗ * l)))) ≤ further∗ * l := by
  calc spelled "," * (gap * (name * (gap * (further∗ * l))))
      = further * further∗ * l := by simp only [further, mul_assoc]
    _ ≤ further∗ * l := mul_le_mul' mul_kstar_le_kstar le_rfl

/-- A move takes the first lexeme off a completion, and the gap before it. -/
theorem append_mem_completions {s s' : State} {k : TokenKind} {g x cs : List Char} {offset : Nat}
    (hm : State.Move s ⟨k, String.ofList x, offset⟩ s') (hg : IsGap g) (hx : Lexeme k x)
    (hend : IsWord x → EndsWord cs) (hcs : cs ∈ completions s') :
    g ++ (x ++ cs) ∈ completions s := by
  -- One case for each move. The gap is put in front first, then the lexeme finds its place in the
  -- expression.
  cases hm with
  | start ht =>
    have hvar : x = TokenKind.varWord.toList := String.toList_ofList.symm.trans (congrArg _ ht)
    subst hvar
    show g ++ (TokenKind.varWord.toList ++ cs) ∈ block
    rw [block_eq]
    exact Language.append_mem_mul hg
      (Language.append_mem_mul rfl (mem_separator_mul hcs (hend isWord_varWord)))
  | first hk =>
    obtain rfl : k = .identifier := hk
    exact Language.append_mem_mul hg
      (Language.append_mem_mul (lexeme_identifier_iff.mp hx) hcs)
  | next hk =>
    obtain rfl : k = .identifier := hk
    exact Language.append_mem_mul hg
      (Language.append_mem_mul (lexeme_identifier_iff.mp hx) hcs)
  | again hk =>
    obtain rfl : k = .identifier := hk
    have hmem : x ++ cs ∈ declaration * declaration∗ := by
      rw [declarations_eq]
      exact Language.append_mem_mul (lexeme_identifier_iff.mp hx) hcs
    have hle : declaration * declaration∗ ≤ declaration∗ := mul_kstar_le_kstar
    exact Language.append_mem_mul hg (hle hmem)
  | delimiter hk =>
    have hmem : x ++ cs ∈ spelled "," * (gap * (name * afterName)) :=
      Language.append_mem_mul ((lexeme_mark hx).1 hk) hcs
    exact Language.append_mem_mul hg (comma_mul_le _ hmem)
  | colon hk =>
    -- After the last name there is no further round of the star.
    have hle : spelled ":" * completions .colon ≤ further∗ * (spelled ":" * completions .colon) :=
      le_mul_of_one_le_left' one_le_kstar
    exact Language.append_mem_mul hg
      (hle (Language.append_mem_mul ((lexeme_mark hx).2.1 hk) hcs))
  | type hk =>
    obtain rfl : k = .type := hk
    exact Language.append_mem_mul hg (Language.append_mem_mul (lexeme_type_iff.mp hx) hcs)
  | semicolon hk =>
    exact Language.append_mem_mul hg (Language.append_mem_mul ((lexeme_mark hx).2.2 hk) hcs)

/-- A text whose tokens are read without errors, up to the end of a declaration, is a
completion. -/
theorem mem_completions_of_run? {s : State} {offset : Nat} {ts : List Token} {cs : List Char}
    (hl : LaidOut offset ts cs) (h : s.run? ts = some .semicolon) : cs ∈ completions s := by
  induction hl generalizing s with
  | @nil _ g hg =>
    -- Without a token the state has not changed, so it is the one after a declaration.
    obtain rfl : s = .semicolon := Option.some.inj h
    have hmem : g ++ [] ∈ gap * declaration∗ :=
      Language.append_mem_mul hg (Language.nil_mem_kstar _)
    rwa [List.append_nil] at hmem
  | cons hg hx hend _ ih =>
    -- The induction is on the layout, and its head is a move.
    obtain ⟨s', hm, h'⟩ := State.run?_cons_eq_some_iff.mp h
    exact append_mem_completions hm hg hx hend (ih h')

/-! ## What is read from a state on -/

/-- The texts that are read without errors from a state on, up to the end of a declaration. -/
def accepted (s : State) : FormalLanguage Char :=
  {cs | ∀ offset, s.run? (Token.scan offset cs) = some .semicolon}

/-- The same for texts before which a word ends. -/
def ended (s : State) : FormalLanguage Char := {cs | cs ∈ accepted s ∧ EndsWord cs}

/-- A lexeme on which a state has a move can be put in front of what is accepted after the move, if
the text does not go on with it. -/
theorem lexeme_append_mem_accepted {k : TokenKind} {x cs : List Char} {s s' : State}
    (hx : Lexeme k x) (hend : IsWord x → EndsWord cs)
    (hm : ∀ offset, State.Move s ⟨k, String.ofList x, offset⟩ s') (hcs : cs ∈ accepted s') :
    x ++ cs ∈ accepted s := by
  intro offset
  rw [scan_lexeme_append hx hend, (hm offset).run?_cons]
  exact hcs _

/-- The same of all words of a language. What follows them must not go on with a word. -/
theorem word_mul_ended_le {l : FormalLanguage Char} {k : TokenKind} {s s' : State}
    (hl : ∀ x ∈ l, Lexeme k x) (hm : ∀ x ∈ l, ∀ o, State.Move s ⟨k, String.ofList x, o⟩ s') :
    l * ended s' ≤ accepted s := by
  rintro _ ⟨x, hx, cs, ⟨hcs, hend⟩, rfl⟩
  exact lexeme_append_mem_accepted (hl x hx) (fun _ => hend) (hm x hx) hcs

/-- A mark ends the word before it, and nothing is needed to end a mark. -/
theorem mark_mul_accepted_le {c : Char} {s s' : State} (hb : isBlank c = false)
    (hc : c.isAlphanum = false)
    (hm : ∀ o, State.Move s ⟨.ofSymbol c, String.ofList [c], o⟩ s') :
    spelled (String.ofList [c]) * accepted s' ≤ ended s := by
  have ha : c.isAlpha = false := by
    rw [Char.isAlphanum, Bool.or_eq_false_iff] at hc
    exact hc.1
  rintro _ ⟨x, hx, cs, hcs, rfl⟩
  obtain rfl : x = [c] := hx.trans String.toList_ofList
  refine ⟨lexeme_append_mem_accepted (.symbol hb ha) ?_ hm hcs, ?_⟩
  · -- A mark is no word, so it may be followed by anything.
    exact fun h => absurd h (not_isWord_of_not_isAlpha ha)
  · intro d hd
    obtain rfl : c = d := Option.some.inj hd
    exact hc

/-- Blanks can be put in front of what is accepted. -/
theorem gap_mul_accepted_le (s : State) : gap * accepted s ≤ accepted s := by
  rintro _ ⟨g, hg, cs, hcs, rfl⟩ offset
  rw [scan_gap_append hg]
  exact hcs _

theorem gap_mul_ended_le (s : State) : gap * ended s ≤ ended s := by
  rintro _ ⟨g, hg, cs, hcs, rfl⟩
  refine ⟨gap_mul_accepted_le s (Language.append_mem_mul hg hcs.1), ?_⟩
  by_cases hne : g = []
  · subst hne
    exact hcs.2
  · exact hg.endsWord hne cs

/-- With at least one blank in front, what is accepted does not go on with a word. -/
theorem separator_mul_accepted_le (s : State) : separator * accepted s ≤ ended s := by
  rintro _ ⟨g, ⟨hg, hne⟩, cs, hcs, rfl⟩
  exact ⟨gap_mul_accepted_le s (Language.append_mem_mul hg hcs), hg.endsWord hne cs⟩

/-- A name can be put in front where a name is waited for. -/
theorem name_mul_ended_le {s : State}
    (hs : ∀ t : Token, t.kind = .identifier → State.Move s t .identifier) :
    name * ended .identifier ≤ accepted s :=
  word_mul_ended_le (fun _ hx => lexeme_identifier_iff.mpr hx) fun _ _ _ => hs _ rfl

/-- After a name, further names and the rest of the declaration are read. -/
theorem afterName_accepted_le :
    gap * (further∗ * (spelled ":" *
      (gap * (typeName * (gap * (spelled ";" * (gap * accepted .semicolon))))))) ≤
        ended .identifier := by
  have hsemicolon : spelled ";" * accepted .semicolon ≤ ended .type :=
    mark_mul_accepted_le (c := ';') (by decide) (by decide) fun _ => .semicolon rfl
  have htype : typeName * ended .type ≤ accepted .colon :=
    word_mul_ended_le (fun _ hx => lexeme_type_iff.mpr hx) fun _ _ _ => .type rfl
  have hcolon : spelled ":" * accepted .colon ≤ ended .identifier :=
    mark_mul_accepted_le (c := ':') (by decide) (by decide) fun _ => .colon rfl
  have hcomma : spelled "," * accepted .delimiter ≤ ended .identifier :=
    mark_mul_accepted_le (c := ',') (by decide) (by decide) fun _ => .delimiter rfl
  have hname : name * ended .identifier ≤ accepted .delimiter :=
    name_mul_ended_le fun _ hk => .next hk
  -- a further name leads back to where it was met, hence any number of them does
  have hloop : further * ended .identifier ≤ ended .identifier := by
    calc further * ended .identifier
        = spelled "," * (gap * (name * (gap * ended .identifier))) := by
          simp only [further, mul_assoc]
      _ ≤ spelled "," * (gap * (name * ended .identifier)) :=
          mul_le_mul' le_rfl (mul_le_mul' le_rfl (mul_le_mul' le_rfl (gap_mul_ended_le _)))
      _ ≤ spelled "," * (gap * accepted .delimiter) :=
          mul_le_mul' le_rfl (mul_le_mul' le_rfl hname)
      _ ≤ spelled "," * accepted .delimiter := mul_le_mul' le_rfl (gap_mul_accepted_le _)
      _ ≤ ended .identifier := hcomma
  have hend : spelled ";" * (gap * accepted .semicolon) ≤ ended .type :=
    (mul_le_mul' le_rfl (gap_mul_accepted_le _)).trans hsemicolon
  have hrest : gap * (typeName * (gap * (spelled ";" * (gap * accepted .semicolon)))) ≤
      accepted .colon := by
    calc gap * (typeName * (gap * (spelled ";" * (gap * accepted .semicolon))))
        ≤ gap * (typeName * (gap * ended .type)) :=
          mul_le_mul' le_rfl (mul_le_mul' le_rfl (mul_le_mul' le_rfl hend))
      _ ≤ gap * (typeName * ended .type) :=
          mul_le_mul' le_rfl (mul_le_mul' le_rfl (gap_mul_ended_le _))
      _ ≤ gap * accepted .colon := mul_le_mul' le_rfl htype
      _ ≤ accepted .colon := gap_mul_accepted_le _
  refine (mul_le_mul' le_rfl ?_).trans (gap_mul_ended_le _)
  refine (mul_le_mul' le_rfl ?_).trans (kstar_mul_le_self hloop)
  exact (mul_le_mul' le_rfl hrest).trans hcolon

/-- A declaration can be put in front where a name is waited for. -/
theorem declaration_mul_accepted_le {s : State}
    (hs : ∀ t : Token, t.kind = .identifier → State.Move s t .identifier) :
    declaration * accepted .semicolon ≤ accepted s := by
  rw [declaration_mul]
  exact (mul_le_mul' le_rfl afterName_accepted_le).trans (name_mul_ended_le hs)

/-- Any number of declarations is accepted after a closed one. -/
theorem declarations_le_accepted : declaration∗ ≤ accepted .semicolon := by
  rw [← mul_one declaration∗]
  refine kstar_mul_le ?_ (declaration_mul_accepted_le fun _ hk => .again hk)
  rintro _ rfl offset
  rw [Token.scan]
  rfl

/-- Every block of the grammar is accepted from the start. -/
theorem block_le_accepted : block ≤ accepted .start := by
  have hbody : declaration * declaration∗ ≤ accepted .var :=
    (mul_le_mul' le_rfl declarations_le_accepted).trans
      (declaration_mul_accepted_le fun _ hk => .first hk)
  have hvar : spelled TokenKind.varWord * ended .var ≤ accepted .start :=
    word_mul_ended_le (fun _ hx => lexeme_keyword hx) fun x hx _ =>
      .start (by rw [show x = TokenKind.varWord.toList from hx, String.ofList_toList])
  -- From the right: the declarations, the blanks before them, the word, and the blanks before it.
  calc block
      = gap * (spelled TokenKind.varWord * (separator * (declaration * declaration∗))) := by
        simp only [block, mul_assoc]
    _ ≤ gap * (spelled TokenKind.varWord * (separator * accepted .var)) :=
        mul_le_mul' le_rfl (mul_le_mul' le_rfl (mul_le_mul' le_rfl hbody))
    _ ≤ gap * (spelled TokenKind.varWord * ended .var) :=
        mul_le_mul' le_rfl (mul_le_mul' le_rfl (separator_mul_accepted_le _))
    _ ≤ gap * accepted .start := mul_le_mul' le_rfl hvar
    _ ≤ accepted .start := gap_mul_accepted_le _

/-- The texts that are checked to be valid are the blocks, character by character. -/
theorem check_isValid_iff (source : String) :
    (check source).isValid = true ↔ source.toList ∈ block := by
  have hvalid : (check source).isValid = true ↔
      State.start.run? (tokenize source) = some .semicolon := by
    rw [Report.isValid, List.isEmpty_iff, check, diagnostics_eq_nil_iff]
  rw [hvalid]
  constructor
  · exact mem_completions_of_run? (scan_eq_iff.mp rfl)
  · intro h
    exact block_le_accepted h 0

end Spelling

end VarBlock
