import VarBlock.Proofs.Coverage
import VarBlock.Proofs.Run

/-!
# The ranges of diagnostics

A diagnostic names the characters that it is about. The range of a token that does not fit is the
span of the token, so it holds what the diagnostic says was found, and as the tokens come in order
the ranges do. Where the block ends too early the range is empty, just past the last character that
is no blank: the tokens leave out blanks only, and no token ends in one (`isTextEnd_endOffset`).

All of this is about texts that have been read. In a list of tokens that come from nowhere spans may
overlap and be empty, so each fact goes back to `covers_tokenize` or `stands_of_mem_tokenize` for
what the places of tokens have to do with the text.
-/

namespace VarBlock

/-- The offset is just past the last character that is no blank, 0 if there is none. -/
structure IsTextEnd (cs : List Char) (offset : Nat) : Prop where
  blank : ∀ (i : Nat) (c : Char), offset ≤ i → cs[i]? = some c → isBlank c = true
  last : offset = 0 ∨ ∃ c, cs[offset - 1]? = some c ∧ isBlank c = false

/-- The ranges of the diagnostics of a text are the characters that the diagnostics are about. -/
structure RangesExact (cs : List Char) (ds : List Diagnostic) : Prop where
  /-- The range of a token that does not fit is not empty and holds what was found. -/
  found : ∀ d ∈ ds, ∀ s m text, d.problem = .unexpectedToken s m text →
    d.range.start < d.range.stop ∧ cs.extract d.range.start d.range.stop = text.toList
  within : ∀ d ∈ ds, d.range.stop ≤ cs.length
  /-- No two ranges overlap, and they come in order. -/
  ordered : ds.Pairwise fun d e => d.range.stop ≤ e.range.start
  increasing : (ds.filter Diagnostic.isUnexpected).Pairwise fun d e =>
    d.range.start < e.range.start ∧ d.range.stop < e.range.stop
  /-- Only the last diagnostic is about the end of the block, and it points at the end of the
  text. -/
  ending : ∀ (i : Nat) (d : Diagnostic), ds[i]? = some d → d.isUnterminated = true →
    i + 1 = ds.length ∧ d.range.start = d.range.stop ∧ IsTextEnd cs d.range.stop

/-! ## The end of the text -/

/-- The end of the text is not past its length. -/
theorem IsTextEnd.le_length {cs : List Char} {offset : Nat} (h : IsTextEnd cs offset) :
    offset ≤ cs.length := by
  rcases h.last with hzero | ⟨c, hc, -⟩
  · omega
  · obtain ⟨hlt, -⟩ := List.getElem?_eq_some_iff.mp hc
    omega

theorem endOffset_concat (ts : List Token) (t : Token) : endOffset (ts ++ [t]) = t.stop := by
  simp [endOffset]

/-- No token ends later than the last. -/
theorem Covers.stop_le_endOffset {cs : List Char} {start : Nat} {ts : List Token}
    (h : Covers cs start ts) : ∀ t ∈ ts, t.stop ≤ endOffset ts := by
  rcases List.eq_nil_or_concat ts with rfl | ⟨us, u, rfl⟩
  · simp
  · rw [List.concat_eq_append] at h ⊢
    rw [endOffset_concat]
    intro t ht
    rcases List.mem_append.mp ht with ht | ht
    · -- A token before the last stops where the last begins or earlier.
      have hle := (List.pairwise_append.mp h.ordered).2.2 t ht u List.mem_cons_self
      exact hle.trans u.le_stop
    · rw [List.mem_singleton.mp ht]

/-- A token does not end in a blank. -/
theorem Token.Stands.exists_last {cs : List Char} {t : Token} (h : t.Stands cs) :
    ∃ c, cs[t.stop - 1]? = some c ∧ isBlank c = false := by
  have hlt := h.offset_lt_stop
  have hle := h.stop_le
  have hbound : t.stop - 1 < cs.length := by omega
  have hget : cs[t.stop - 1]? = some cs[t.stop - 1] := List.getElem?_eq_getElem hbound
  refine ⟨_, hget, ?_⟩
  -- The last character of the span is one of the token, and no lexeme has a blank in it.
  have hmem : cs[t.stop - 1] ∈ t.text.toList := by
    rw [← h.extract_eq, mem_extract_iff]
    exact ⟨t.stop - 1, by omega, by omega, hget⟩
  obtain ⟨_, _, -, -, hx, -⟩ := h
  exact hx.isBlank_of_mem hmem

/-- The last token ends where the text does. -/
theorem isTextEnd_endOffset {source : String} :
    IsTextEnd source.toList (endOffset (tokenize source)) where
  blank i c hi hc := by
    have hcovers := covers_tokenize source
    apply hcovers.blank i c (Nat.zero_le i) hc
    intro t ht
    -- What comes after the last token is covered by none, so it is blank.
    exact .inr ((hcovers.stop_le_endOffset t ht).trans hi)
  last := by
    -- Without tokens the end is the beginning of the text, where no character is the last.
    rcases List.eq_nil_or_concat (tokenize source) with hnil | ⟨ts, t, hts⟩
    · left
      rw [hnil]
      rfl
    · right
      rw [List.concat_eq_append] at hts
      have ht : t ∈ tokenize source := by simp [hts]
      rw [hts, endOffset_concat]
      exact (stands_of_mem_tokenize ht).exists_last

/-! ## The ranges of the diagnostics about tokens -/

/-- A complaint is about one of the tokens. -/
theorem exists_of_mem_map_complaints {ts : List Token} {d : Diagnostic}
    (h : d ∈ (complaints (validate ts).trace ts).map Prod.snd) :
    ∃ t ∈ ts, ∃ s m, d = .unexpected s m t := by
  obtain ⟨x, hx, rfl⟩ := List.mem_map.mp h
  rw [← located_validate] at hx
  obtain ⟨t, s, m, ht, hd⟩ := exists_of_mem_located hx
  exact ⟨t, List.mem_of_getElem? ht, s, m, hd⟩

/-- The diagnostics about tokens come in the order of the tokens. -/
theorem pairwise_complaints {steps : List Step} {ts : List Token}
    (hlen : steps.length = ts.length) (h : ts.Pairwise fun t u => t.stop ≤ u.offset) :
    ((complaints steps ts).map Prod.snd).Pairwise fun d e => d.range.stop ≤ e.range.start := by
  have hzip : (steps.zip ts).Pairwise fun x y => x.2.stop ≤ y.2.offset := by
    rw [← List.map_snd_zip hlen.ge] at h
    exact List.pairwise_map.mp h
  rw [complaints, List.map_map, List.pairwise_map]
  exact hzip.filter _

/-- What is reported at the end of a block is one empty range there. -/
theorem ending_of_mem {s : State} {offset : Nat} {d : Diagnostic} (h : d ∈ ending s offset) :
    d = .unterminated s offset ∧ ending s offset = [d] := by
  cases hs : s.isTerminal with
  | true => simp [ending, hs] at h
  | false =>
    have hending : ending s offset = [.unterminated s offset] := by simp [ending, hs]
    rw [hending] at h ⊢
    obtain rfl := List.mem_singleton.mp h
    exact ⟨rfl, rfl⟩

/-! ## Reports of texts -/

section Source

variable {source : String} {d : Diagnostic}

/-- A diagnostic is about one of the tokens, or about the end. -/
theorem exists_of_mem_diagnostics (h : d ∈ (check source).diagnostics) :
    (∃ t ∈ tokenize source, ∃ s m, d = .unexpected s m t) ∨
      ∃ s, d = .unterminated s (endOffset (tokenize source)) := by
  rw [check, diagnostics_validate] at h
  rcases List.mem_append.mp h with h | h
  · exact .inl (exists_of_mem_map_complaints h)
  · exact .inr ⟨_, (ending_of_mem h).1⟩

/-- The ranges come in order and do not overlap. That of the end comes last. -/
theorem pairwise_diagnostics (source : String) :
    (check source).diagnostics.Pairwise fun d e => d.range.stop ≤ e.range.start := by
  have hcovers := covers_tokenize source
  rw [check, diagnostics_validate, List.pairwise_append]
  refine ⟨pairwise_complaints (length_trace _) hcovers.ordered, ?_, ?_⟩
  · rw [ending]
    split
    · exact .nil
    · exact List.pairwise_singleton _ _
  · -- The end comes after every token, in particular after one that did not fit.
    intro d hd e he
    obtain ⟨t, ht, s, m, rfl⟩ := exists_of_mem_map_complaints hd
    rw [(ending_of_mem he).1]
    exact hcovers.stop_le_endOffset t ht

/-- The range of an unexpected token holds the text that the diagnostic says was found. -/
theorem found_of_mem_diagnostics (h : d ∈ (check source).diagnostics) {s : State} {m : Mismatch}
    {text : String} (hd : d.problem = .unexpectedToken s m text) :
    d.range.start < d.range.stop ∧
      source.toList.extract d.range.start d.range.stop = text.toList := by
  rcases exists_of_mem_diagnostics h with ⟨t, ht, s', m', rfl⟩ | ⟨s', rfl⟩
  · have hstands := stands_of_mem_tokenize ht
    cases hd
    exact ⟨hstands.offset_lt_stop, hstands.extract_eq⟩
  · cases hd

theorem within_of_mem_diagnostics (h : d ∈ (check source).diagnostics) :
    d.range.stop ≤ source.toList.length := by
  rcases exists_of_mem_diagnostics h with ⟨t, ht, s, m, rfl⟩ | ⟨s, rfl⟩
  · exact (stands_of_mem_tokenize ht).stop_le
  · exact isTextEnd_endOffset.le_length

/-- The range of an unexpected token is not empty. -/
theorem start_lt_stop_of_isUnexpected (h : d ∈ (check source).diagnostics)
    (hd : d.isUnexpected = true) : d.range.start < d.range.stop := by
  cases hp : d.problem with
  | unexpectedToken s m text => exact (found_of_mem_diagnostics h hp).1
  | unterminated s =>
    rw [Diagnostic.isUnexpected, hp] at hd
    cases hd

/-- A block that ends too early is reported last, by an empty range at the end of the text. -/
theorem ending_of_getElem? {i : Nat} (h : (check source).diagnostics[i]? = some d)
    (hd : d.isUnterminated = true) :
    i + 1 = (check source).diagnostics.length ∧ d.range.start = d.range.stop ∧
      IsTextEnd source.toList d.range.stop := by
  rw [check, diagnostics_validate] at h ⊢
  rw [List.getElem?_append] at h
  split at h
  · -- the diagnostics about tokens come first
    have hmem := isUnexpected_of_mem_complaints (List.mem_of_getElem? h)
    rw [Diagnostic.isUnterminated, hmem] at hd
    cases hd
  · next hle =>
    obtain ⟨rfl, hending⟩ := ending_of_mem (List.mem_of_getElem? h)
    refine ⟨?_, rfl, isTextEnd_endOffset⟩
    obtain ⟨hlt, -⟩ := List.getElem?_eq_some_iff.mp h
    rw [List.length_append]
    rw [hending, List.length_singleton] at hlt ⊢
    omega

end Source

/-- **The ranges of the diagnostics of a text are exact.** -/
theorem check_rangesExact (source : String) :
    RangesExact source.toList (check source).diagnostics where
  found d h s m text hd := found_of_mem_diagnostics h hd
  within d h := within_of_mem_diagnostics h
  ordered := pairwise_diagnostics source
  increasing := by
    refine ((pairwise_diagnostics source).filter _).imp_of_mem ?_
    intro d e hd he hle
    rw [List.mem_filter] at hd he
    -- Ranges that do not overlap and are not empty have ascending starts.
    have hd' := start_lt_stop_of_isUnexpected hd.1 hd.2
    have he' := start_lt_stop_of_isUnexpected he.1 he.2
    omega
  ending i d h hd := ending_of_getElem? h hd

-- Offsets count characters, and the blanks at the end of a text are behind its end.
example : (check "vär x \n").diagnostics.map Diagnostic.range = [⟨0, 1⟩, ⟨1, 2⟩, ⟨2, 3⟩, ⟨5, 5⟩] := by
  cbv

end VarBlock
