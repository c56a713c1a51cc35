import VarBlock.Proofs.Layout
import VarBlock.Proofs.Matching

/-!
# Tokens and the places they name

Tokens carry their offsets, so what they say about a text can be said place by place, without
reading the text from the front. `Covers` is about the spans alone: they hold the texts of the
tokens, come in order, and leave out blanks only. `Tokenized` adds what single tokens look like. The
tokens that are read are the only ones with these properties:

    tokenized_tokenize : Tokenized source (tokenize source)
    Tokenized.eq_tokenize : Tokenized source ts → ts = tokenize source

Both go through `LaidOut`. The tokens of a layout cover the text and stand where they say
(`LaidOut.covers`, `LaidOut.stands`), and spans that cover the text cut it into gaps and lexemes,
which are a layout (`laidOut_of_covers`).
-/

namespace VarBlock

/-- The tokens cover the characters from `start` on: the text of a token is what its span holds, no
token begins before `start` or before an earlier token has ended, and all else is blank. -/
structure Covers (cs : List Char) (start : Nat) (ts : List Token) : Prop where
  text : ∀ t ∈ ts, cs.extract t.offset t.stop = t.text.toList
  start_le : ∀ t ∈ ts, start ≤ t.offset
  ordered : ts.Pairwise fun t u => t.stop ≤ u.offset
  blank : ∀ (i : Nat) (c : Char), start ≤ i → cs[i]? = some c →
    (∀ t ∈ ts, i < t.offset ∨ t.stop ≤ i) → isBlank c = true

/-- The characters before, between and after the tokens, from `start` on. -/
def gaps (cs : List Char) (start : Nat) : List Token → List (List Char)
  | [] => [cs.drop start]
  | t :: ts => cs.extract start t.offset :: gaps cs t.stop ts

/-- What the tokens of a kind look like. -/
def TokenKind.Describes : TokenKind → String → Prop
  | keyword, w => w = "var"
  | type, w => w ∈ ["integer", "real", "boolean", "char"]
  | identifier, w => IsWord w.toList ∧ w ∉ ["var", "integer", "real", "boolean", "char"]
  | delimiter, w => w = ","
  | colon, w => w = ":"
  | semicolon, w => w = ";"
  | digit, w => ∃ c, w.toList = [c] ∧ c.isDigit = true
  | unknown, w => ∃ c, w.toList = [c] ∧ isBlank c = false ∧ c.isAlpha = false ∧
      c ∉ [',', ':', ';'] ∧ c.isDigit = false

/-- The tokens cover the text, each is a word that ends where its letters and digits end or a single
character that is neither a blank nor a letter, and its kind is the one that its text decides. -/
structure Tokenized (source : String) (ts : List Token) : Prop where
  covers : Covers source.toList 0 ts
  shape : ∀ t ∈ ts, IsWord t.text.toList ∨
    ∃ c, t.text.toList = [c] ∧ isBlank c = false ∧ c.isAlpha = false
  longest : ∀ t ∈ ts, IsWord t.text.toList →
    ∀ c, source.toList[t.stop]? = some c → c.isAlphanum = false
  kind : ∀ t ∈ ts, ∀ k, t.kind = k ↔ k.Describes t.text

/-! ## Pieces of a text -/

section Pieces

variable {cs : List Char} {start stop : Nat}

/-- What comes after an offset is the piece up to a later one and what comes after that. -/
theorem drop_eq_extract_append (cs : List Char) (h : start ≤ stop) :
    cs.drop start = cs.extract start stop ++ cs.drop stop := by
  have hdrop : cs.drop stop = (cs.drop start).drop (stop - start) := by
    rw [List.drop_drop, Nat.add_sub_cancel' h]
  rw [hdrop]
  exact (List.take_append_drop _ _).symm

/-- The characters of a piece are those that stand between its ends. -/
theorem mem_extract_iff {c : Char} :
    c ∈ cs.extract start stop ↔ ∃ i, start ≤ i ∧ i < stop ∧ cs[i]? = some c := by
  rw [List.mem_iff_getElem?]
  constructor
  · -- A place in the piece is counted from its start.
    rintro ⟨i, hi⟩
    rw [List.getElem?_take] at hi
    split at hi
    · rw [List.getElem?_drop] at hi
      exact ⟨start + i, by omega, by omega, hi⟩
    · cases hi
  · rintro ⟨i, hle, hlt, hi⟩
    refine ⟨i - start, ?_⟩
    rwa [List.getElem?_take_of_lt (by omega), List.getElem?_drop, Nat.add_sub_cancel' hle]

theorem extract_append (a x b : List Char) :
    (a ++ (x ++ b)).extract a.length (a.length + x.length) = x := by
  rw [List.extract, List.drop_left, Nat.add_sub_cancel_left, List.take_left]

end Pieces

theorem Token.le_stop (t : Token) : t.offset ≤ t.stop := Nat.le_add_right _ _

namespace Covers

variable {cs : List Char} {start : Nat} {t : Token} {ts : List Token}

theorem nil (h : IsGap (cs.drop start)) : Covers cs start [] where
  text := by simp
  start_le := by simp
  ordered := .nil
  blank i c hi hc _ := by
    apply h c
    rw [List.mem_iff_getElem?]
    exact ⟨i - start, by rwa [List.getElem?_drop, Nat.add_sub_cancel' hi]⟩

/-- A token is put in front of tokens that cover what comes after it. -/
theorem cons (h : Covers cs t.stop ts) (hstart : start ≤ t.offset)
    (hgap : IsGap (cs.extract start t.offset))
    (htext : cs.extract t.offset t.stop = t.text.toList) : Covers cs start (t :: ts) where
  text := List.forall_mem_cons.mpr ⟨htext, h.text⟩
  start_le := by
    refine List.forall_mem_cons.mpr ⟨hstart, fun u hu => ?_⟩
    exact (hstart.trans t.le_stop).trans (h.start_le u hu)
  ordered := List.pairwise_cons.mpr ⟨h.start_le, h.ordered⟩
  blank i c hi hc hout := by
    obtain ⟨hfirst, hrest⟩ := List.forall_mem_cons.mp hout
    -- A place outside all tokens lies in front of the first one or behind it.
    rcases hfirst with hlt | hle
    · exact hgap c (mem_extract_iff.mpr ⟨i, hi, hlt, hc⟩)
    · exact h.blank i c hle hc hrest

theorem tail (h : Covers cs start (t :: ts)) : Covers cs t.stop ts where
  text u hu := h.text u (List.mem_cons_of_mem _ hu)
  start_le u hu := (List.pairwise_cons.mp h.ordered).1 u hu
  ordered := (List.pairwise_cons.mp h.ordered).2
  blank i c hi hc hout := by
    refine h.blank i c ?_ hc (List.forall_mem_cons.mpr ⟨.inr hi, hout⟩)
    exact ((h.start_le t List.mem_cons_self).trans t.le_stop).trans hi

/-- What lies before the first token is blank. -/
theorem isGap_extract (h : Covers cs start (t :: ts)) : IsGap (cs.extract start t.offset) := by
  intro c hc
  obtain ⟨i, hi, hlt, hget⟩ := mem_extract_iff.mp hc
  refine h.blank i c hi hget (List.forall_mem_cons.mpr ⟨.inl hlt, fun u hu => .inl ?_⟩)
  exact (hlt.trans_le t.le_stop).trans_le ((List.pairwise_cons.mp h.ordered).1 u hu)

/-- What no token covers is blank. -/
theorem isGap_drop (h : Covers cs start []) : IsGap (cs.drop start) := by
  intro c hc
  obtain ⟨i, hi⟩ := List.mem_iff_getElem?.mp hc
  rw [List.getElem?_drop] at hi
  exact h.blank _ c (Nat.le_add_right _ _) hi (by simp)

/-- The text from `start` on is a gap, the first token, and the text from the end of this token
on. -/
theorem drop_eq (h : Covers cs start (t :: ts)) :
    cs.drop start = cs.extract start t.offset ++ (t.text.toList ++ cs.drop t.stop) := by
  rw [drop_eq_extract_append cs (h.start_le t List.mem_cons_self),
    drop_eq_extract_append cs t.le_stop, h.text t List.mem_cons_self]

/-- The gaps are blank. -/
theorem isGap_of_mem_gaps (h : Covers cs start ts) : ∀ g ∈ gaps cs start ts, IsGap g := by
  induction ts generalizing start with
  | nil => exact List.forall_mem_singleton.mpr h.isGap_drop
  | cons t ts ih => exact List.forall_mem_cons.mpr ⟨h.isGap_extract, ih h.tail⟩

/-- Gaps and texts in turn are the whole text. -/
theorem flatten_gaps (h : Covers cs start ts) :
    (List.zipWith (· ++ ·) (gaps cs start ts)
      (ts.map (fun t => t.text.toList) ++ [[]])).flatten = cs.drop start := by
  induction ts generalizing start with
  | nil => simp [gaps]
  | cons t ts ih =>
    rw [gaps, List.map_cons, List.cons_append, List.zipWith_cons_cons, List.flatten_cons,
      ih h.tail, List.append_assoc, ← h.drop_eq]

end Covers

/-! ## Lexemes by their texts -/

/-- The kind that is chosen for a word describes it. -/
theorem describes_ofWord {w : String} (hw : IsWord w.toList) :
    (TokenKind.ofWord w).Describes w := by
  generalize hk : TokenKind.ofWord w = k
  obtain ⟨hdelimiter, hcolon, hsemicolon, hdigit, hunknown⟩ := @TokenKind.ofWord_ne w
  cases k with
  | keyword => exact TokenKind.ofWord_eq_keyword_iff.mp hk
  | type => exact TokenKind.ofWord_eq_type_iff.mp hk
  | identifier => exact ⟨hw, TokenKind.ofWord_eq_identifier_iff.mp hk⟩
  | delimiter => exact absurd hk hdelimiter
  | colon => exact absurd hk hcolon
  | semicolon => exact absurd hk hsemicolon
  | digit => exact absurd hk hdigit
  | unknown => exact absurd hk hunknown

/-- The kind that is chosen for a symbol describes it. -/
theorem describes_ofSymbol {w : String} {c : Char} (hw : w.toList = [c])
    (hb : isBlank c = false) (ha : c.isAlpha = false) : (TokenKind.ofSymbol c).Describes w := by
  generalize hk : TokenKind.ofSymbol c = k
  obtain ⟨hkeyword, htype, hidentifier⟩ := @TokenKind.ofSymbol_ne c
  -- A symbol of a known character is spelled in one way.
  have hmark : ∀ {d : Char}, c = d → w = String.singleton d := by
    rintro d rfl
    rw [← String.toList_inj, hw, String.toList_singleton]
  cases k with
  | keyword => exact absurd hk hkeyword
  | type => exact absurd hk htype
  | identifier => exact absurd hk hidentifier
  | delimiter => exact hmark (TokenKind.ofSymbol_eq_delimiter_iff.mp hk)
  | colon => exact hmark (TokenKind.ofSymbol_eq_colon_iff.mp hk)
  | semicolon => exact hmark (TokenKind.ofSymbol_eq_semicolon_iff.mp hk)
  | digit => exact ⟨c, hw, TokenKind.ofSymbol_eq_digit_iff.mp hk⟩
  | unknown => exact ⟨c, hw, hb, ha, TokenKind.ofSymbol_eq_unknown_iff.mp hk⟩

/-- The rules that make up lexemes and the description of each kind are about the same texts. -/
theorem lexeme_iff_describes {k : TokenKind} {w : String} :
    Lexeme k w.toList ↔ k.Describes w := by
  constructor
  · intro h
    generalize hx : w.toList = x at h
    cases h with
    | word hw =>
      rw [← hx] at hw ⊢
      rw [String.ofList_toList]
      exact describes_ofWord hw
    | symbol hb ha => exact describes_ofSymbol hx hb ha
  · intro h
    cases k with
    | keyword =>
      rw [← TokenKind.ofWord_eq_keyword_iff.mpr h]
      exact lexeme_ofWord (isWord_of_reserved (List.mem_cons.mpr (.inl h)))
    | type =>
      rw [← TokenKind.ofWord_eq_type_iff.mpr h]
      exact lexeme_ofWord (isWord_of_reserved (List.mem_cons_of_mem _ h))
    | identifier =>
      rw [← TokenKind.ofWord_eq_identifier_iff.mpr h.2]
      exact lexeme_ofWord h.1
    | delimiter =>
      obtain rfl : w = "," := h
      exact lexeme_of_mark (c := ',') (by simp)
    | colon =>
      obtain rfl : w = ":" := h
      exact lexeme_of_mark (c := ':') (by simp)
    | semicolon =>
      obtain rfl : w = ";" := h
      exact lexeme_of_mark (c := ';') (by simp)
    | digit =>
      obtain ⟨c, hw, hd⟩ := h
      rw [hw]
      exact lexeme_of_isDigit hd
    | unknown =>
      obtain ⟨c, hw, hb, ha, hc⟩ := h
      rw [hw, ← TokenKind.ofSymbol_eq_unknown_iff.mpr hc]
      exact .symbol hb ha

/-- A lexeme is a word or a single character. -/
theorem Lexeme.shape {k : TokenKind} {x : List Char} (h : Lexeme k x) :
    IsWord x ∨ ∃ c, x = [c] ∧ isBlank c = false ∧ c.isAlpha = false := by
  cases h with
  | word hw => exact .inl hw
  | symbol hb ha => exact .inr ⟨_, rfl, hb, ha⟩

/-- A token is a lexeme exactly if its kind is the one that describes its text. -/
theorem lexeme_iff_kind {t : Token} :
    Lexeme t.kind t.text.toList ↔ ∀ k, t.kind = k ↔ k.Describes t.text := by
  constructor
  · intro h k
    rw [← lexeme_iff_describes]
    exact ⟨fun hk => hk ▸ h, h.kind_unique⟩
  · intro h
    exact lexeme_iff_describes.mpr ((h t.kind).mp rfl)

/-! ## Layouts by places -/

/-- The token is a lexeme at the place that it names. -/
def Token.Stands (cs : List Char) (t : Token) : Prop :=
  ∃ a b, cs = a ++ (t.text.toList ++ b) ∧ t.offset = a.length ∧ Lexeme t.kind t.text.toList ∧
    (IsWord t.text.toList → EndsWord b)

namespace Token.Stands

variable {cs : List Char} {t : Token}

/-- A token that stands in a text has its own text there. -/
theorem extract_eq (h : t.Stands cs) : cs.extract t.offset t.stop = t.text.toList := by
  obtain ⟨a, b, rfl, ha, -⟩ := h
  rw [Token.stop, ← String.length_toList, ha]
  exact extract_append a _ b

/-- A word that stands in a text is not followed by a letter or digit. -/
theorem endsWord (h : t.Stands cs) (hw : IsWord t.text.toList) : EndsWord (cs.drop t.stop) := by
  obtain ⟨a, b, rfl, ha, -, hend⟩ := h
  rw [← List.append_assoc, Token.stop, ← String.length_toList, ha, ← List.length_append,
    List.drop_left]
  exact hend hw

theorem stop_le (h : t.Stands cs) : t.stop ≤ cs.length := by
  obtain ⟨a, b, rfl, ha, -⟩ := h
  rw [Token.stop, ← String.length_toList, ha, List.length_append, List.length_append]
  omega

theorem offset_lt_stop (h : t.Stands cs) : t.offset < t.stop := by
  obtain ⟨a, b, -, -, hx, -⟩ := h
  have hpos := List.length_pos_iff.mpr hx.ne_nil
  rw [String.length_toList] at hpos
  exact Nat.lt_add_of_pos_right hpos

end Token.Stands

/-- The tokens of a layout stand in the text. The characters `a` come before it. -/
theorem LaidOut.stands {offset : Nat} {ts : List Token} {cs a : List Char}
    (h : LaidOut offset ts cs) (ha : offset = a.length) : ∀ t ∈ ts, t.Stands (a ++ cs) := by
  induction h generalizing a with
  | nil => simp
  | @cons offset k g x cs ts hg hx hend _ ih =>
    -- The text in front of the first token is `a` and the gap. That of the others has this token
    -- besides.
    have hassoc : a ++ (g ++ (x ++ cs)) = a ++ g ++ (x ++ cs) := (List.append_assoc ..).symm
    refine List.forall_mem_cons.mpr ⟨?_, ?_⟩
    · refine ⟨a ++ g, cs, ?_, ?_, ?_, ?_⟩
      · rw [String.toList_ofList, hassoc]
      · rw [List.length_append, ha]
      · rwa [String.toList_ofList]
      · rwa [String.toList_ofList]
    · rw [hassoc, ← List.append_assoc]
      exact ih (by rw [List.length_append, List.length_append, ha])

/-- The tokens of a layout cover the text. -/
theorem LaidOut.covers {offset : Nat} {ts : List Token} {cs a : List Char}
    (h : LaidOut offset ts cs) (ha : offset = a.length) : Covers (a ++ cs) offset ts := by
  induction h generalizing a with
  | @nil offset g hg =>
    apply Covers.nil
    rwa [ha, List.drop_left]
  | @cons offset k g x cs ts hg hx hend hrest ih =>
    -- The first token stands in the whole text, and this gives what its span holds.
    have htoken : (⟨k, String.ofList x, offset + g.length⟩ : Token).Stands
        (a ++ (g ++ (x ++ cs))) :=
      (LaidOut.cons hg hx hend hrest).stands ha _ List.mem_cons_self
    refine Covers.cons ?_ (Nat.le_add_right _ _) ?_ htoken.extract_eq
    · have hcovers := ih (a := a ++ g ++ x)
        (by rw [List.length_append, List.length_append, ha])
      rw [List.append_assoc, List.append_assoc] at hcovers
      rwa [Token.stop, String.length_ofList]
    · rw [ha, extract_append]
      exact hg

/-- Spans that cover the characters from `start` on and hold lexemes cut them into a layout. -/
theorem laidOut_of_covers {cs : List Char} {start : Nat} {ts : List Token}
    (h : Covers cs start ts) (hlexeme : ∀ t ∈ ts, Lexeme t.kind t.text.toList)
    (hend : ∀ t ∈ ts, IsWord t.text.toList → EndsWord (cs.drop t.stop)) :
    LaidOut start ts (cs.drop start) := by
  induction ts generalizing start with
  | nil => exact .nil h.isGap_drop
  | cons t ts ih =>
    obtain ⟨hx, hlexeme⟩ := List.forall_mem_cons.mp hlexeme
    obtain ⟨hstop, hend⟩ := List.forall_mem_cons.mp hend
    -- A token beyond the end would have an empty text, and no lexeme is empty.
    have hle : t.offset ≤ cs.length := by
      refine Nat.le_of_not_lt fun hlt => hx.ne_nil ?_
      rw [← h.text t List.mem_cons_self, List.extract, List.drop_eq_nil_of_le hlt.le,
        List.take_nil]
    -- The gap in front of the token has the length that the offsets say, so that the layout numbers
    -- it alike.
    have hoffset : start + (cs.extract start t.offset).length = t.offset := by
      have hstart := h.start_le t List.mem_cons_self
      rw [List.extract, List.length_take, List.length_drop]
      omega
    have hstop' : t.offset + t.text.toList.length = t.stop := by
      rw [String.length_toList, Token.stop]
    have hlaid := LaidOut.cons h.isGap_extract hx hstop
      (by rw [hoffset, hstop']; exact ih h.tail hlexeme hend)
    rwa [hoffset, String.ofList_toList, ← h.drop_eq] at hlaid

/-! ## The tokens of a text -/

section Source

variable {source : String} {ts : List Token}

theorem laidOut_tokenize (source : String) : LaidOut 0 (tokenize source) source.toList :=
  scan_eq_iff.mp rfl

theorem covers_tokenize (source : String) : Covers source.toList 0 (tokenize source) :=
  (laidOut_tokenize source).covers (a := []) rfl

/-- Each token that is read from a text stands in it. -/
theorem stands_of_mem_tokenize {t : Token} (h : t ∈ tokenize source) :
    t.Stands source.toList :=
  (laidOut_tokenize source).stands (a := []) rfl t h

/-- The tokens of `tokenize` have the properties that determine them. -/
theorem tokenized_tokenize (source : String) : Tokenized source (tokenize source) where
  covers := covers_tokenize source
  shape t ht := by
    obtain ⟨_, _, -, -, hx, -⟩ := stands_of_mem_tokenize ht
    exact hx.shape
  longest t ht hw c hc := by
    apply (stands_of_mem_tokenize ht).endsWord hw c
    rwa [List.head?_drop]
  kind t ht := by
    obtain ⟨_, _, -, -, hx, -⟩ := stands_of_mem_tokenize ht
    exact lexeme_iff_kind.mp hx

/-- Tokens with these properties are the ones that `tokenize` reads. They are a layout of the text,
and a text has just one. -/
theorem Tokenized.eq_tokenize (h : Tokenized source ts) : ts = tokenize source := by
  have hend : ∀ t ∈ ts, IsWord t.text.toList → EndsWord (source.toList.drop t.stop) := by
    intro t ht hw c hc
    rw [List.head?_drop] at hc
    exact h.longest t ht hw c hc
  have hlexeme : ∀ t ∈ ts, Lexeme t.kind t.text.toList := fun t ht =>
    lexeme_iff_kind.mpr (h.kind t ht)
  exact (scan_eq_iff.mpr (laidOut_of_covers h.covers hlexeme hend)).symm

end Source

/-- **Nothing of a text is lost**: its tokens are not empty, each is what the text has at its span,
the spans come in order within the text, and the blanks between them and the texts of the tokens in
turn are the text. The offsets are those that counting the characters between the bytes of the
matches finds. -/
theorem tokenize_covers (source : String) :
    Covers source.toList 0 (tokenize source) ∧
      (∀ t ∈ tokenize source, t.text ≠ "" ∧ t.offset < t.stop ∧ t.stop ≤ source.length) ∧
      (∀ g ∈ gaps source.toList 0 (tokenize source), IsGap g) ∧
      (List.zipWith (· ++ ·) (gaps source.toList 0 (tokenize source))
        ((tokenize source).map (fun t => t.text.toList) ++ [[]])).flatten = source.toList ∧
      ∃ ms, Matched 0 source.toList ms ∧ Token.locate source 0 0 ms = tokenize source := by
  have hcovers := covers_tokenize source
  obtain ⟨ms, hms⟩ := exists_matched 0 source.toList
  refine ⟨hcovers, fun t ht => ?_, hcovers.isGap_of_mem_gaps, hcovers.flatten_gaps,
    ms, hms, locate_of_matched hms⟩
  have hstands := stands_of_mem_tokenize ht
  refine ⟨?_, hstands.offset_lt_stop, ?_⟩
  · -- An empty text would have an empty span.
    intro htext
    have hlt := hstands.offset_lt_stop
    rw [Token.stop, htext] at hlt
    simp at hlt
  · rw [← String.length_toList]
    exact hstands.stop_le

/-- **The tokens of a text are determined by it**: they are the only ones that cover the text, go as
far as their letters and digits do, and have the kinds that their texts decide. They are also what
the patterns find, the longest match before the higher priority. -/
theorem tokenize_unique (source : String) :
    Tokenized source (tokenize source) ∧ (∀ ts, Tokenized source ts → ts = tokenize source) ∧
      (∃ ms, Matched 0 source.toList ms) ∧
      ∀ ms, Matched 0 source.toList ms → Token.locate source 0 0 ms = tokenize source :=
  ⟨tokenized_tokenize source, fun _ h => h.eq_tokenize, exists_matched 0 source.toList,
    fun _ => locate_of_matched⟩

-- A longer word is no reserved one, and digits go with a word only after its first letter.
example : tokenize "ж variable 4x2" = [⟨.unknown, "ж", 0⟩, ⟨.identifier, "variable", 2⟩,
    ⟨.digit, "4", 11⟩, ⟨.identifier, "x2", 12⟩] := by cbv

end VarBlock
