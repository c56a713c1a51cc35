import Mathlib
import VarBlock.Proofs.Run

/-!
# The grammar of blocks over tokens

`block` is the language of declaration blocks as a regular expression over tokens, stated without
the states. Reading a block without errors and belonging to it are the same:

    mem_block_iff : ts ∈ block ↔ State.start.run? ts = some .semicolon

Every state can still be completed to a block (`exists_run?_semicolon`), so the tokens that can be
read without errors are exactly the beginnings of blocks (`viable_iff`). Errors are therefore
reported at the first token with which the input stops being the beginning of a block, and a block
that is only unfinished is reported as such.

One direction follows the run from the front: a move on the first token and a completion of the rest
make up a completion (`cons_mem_completions`). The other follows the expression from the inside, one
operator at a time, with the language that is accepted from a state (`only_mul_accepted_le`,
`afterName_accepted_le`, `declaration_mul_accepted_le`). A star is dealt with by `kstar_mul_le`.
-/

/-- Sets of words over an alphabet. (A `VarBlock.Language` is what messages are written in.) -/
abbrev FormalLanguage (α : Type) : Type := Language α

namespace VarBlock

open Computability

namespace Grammar

/-- A single token of the kind `k`. -/
def only (k : TokenKind) : FormalLanguage Token := {ts | ∃ t, ts = [t] ∧ t.kind = k}

/-- A single token with the text `var`, of whatever kind. -/
def opening : FormalLanguage Token := {ts | ∃ t, ts = [t] ∧ t.text = TokenKind.varWord}

/-- A declaration: names with delimiters between them, a colon, a type, and a semicolon. -/
def declaration : FormalLanguage Token :=
  only .identifier * (only .delimiter * only .identifier)∗ *
    only .colon * only .type * only .semicolon

/-- A block: `var`, then one or more declarations. -/
def block : FormalLanguage Token := opening * (declaration * declaration∗)

/-- The tokens that some block begins with. -/
def Viable (ts : List Token) : Prop := ∃ rest, ts ++ rest ∈ block

/-- What may follow the first name of a declaration, up to the end of the block. -/
def afterName : FormalLanguage Token :=
  (only .delimiter * only .identifier)∗ *
    (only .colon * (only .type * (only .semicolon * declaration∗)))

/-- A token of the kind in question is put in front of a text of the language. -/
theorem cons_mem_only_mul {k : TokenKind} {l : FormalLanguage Token} {t : Token}
    {ts : List Token} (ht : t.kind = k) (hts : ts ∈ l) : t :: ts ∈ only k * l :=
  Language.append_mem_mul (a := [t]) ⟨t, rfl, ht⟩ hts

/-- A declaration with something behind it, taken apart from the left, as it is read. -/
theorem declaration_mul (l : FormalLanguage Token) :
    declaration * l =
      only .identifier * ((only .delimiter * only .identifier)∗ *
        (only .colon * (only .type * (only .semicolon * l)))) := by
  simp only [declaration, mul_assoc]

/-! ## What may follow a state -/

/-- What completes a block from a state on. -/
def completions : State → FormalLanguage Token
  | .start => block
  | .var => only .identifier * afterName
  | .identifier => afterName
  | .delimiter => only .identifier * afterName
  | .colon => only .type * (only .semicolon * declaration∗)
  | .type => only .semicolon * declaration∗
  | .semicolon => declaration∗

/-- A move takes the first token off a completion. -/
theorem cons_mem_completions {s s' : State} {t : Token} {ts : List Token}
    (h : State.Move s t s') (hts : ts ∈ completions s') : t :: ts ∈ completions s := by
  -- One case for each move. A move into a loop of the expression is put in front by unrolling the
  -- star once.
  cases h with
  | start ht =>
    show [t] ++ ts ∈ opening * (declaration * declaration∗)
    refine Language.append_mem_mul ⟨t, rfl, ht⟩ ?_
    rw [declaration_mul]
    exact hts
  | first hk => exact cons_mem_only_mul hk hts
  | next hk => exact cons_mem_only_mul hk hts
  | again hk =>
    have hmem : t :: ts ∈ declaration * declaration∗ := by
      rw [declaration_mul]
      exact cons_mem_only_mul hk hts
    have hle : declaration * declaration∗ ≤ declaration∗ := mul_kstar_le_kstar
    exact hle hmem
  | delimiter hk =>
    have hmem : t :: ts ∈ (only .delimiter * only .identifier) * afterName := by
      rw [mul_assoc]
      exact cons_mem_only_mul hk hts
    have hle : (only .delimiter * only .identifier) * afterName ≤ afterName := by
      rw [afterName, ← mul_assoc]
      exact mul_le_mul' mul_kstar_le_kstar le_rfl
    exact hle hmem
  | colon hk =>
    -- After the last name the star is left with no further round.
    have hle : only .colon * completions .colon ≤ afterName :=
      le_mul_of_one_le_left' one_le_kstar
    exact hle (cons_mem_only_mul hk hts)
  | type hk => exact cons_mem_only_mul hk hts
  | semicolon hk => exact cons_mem_only_mul hk hts

/-- What is read without errors, up to the end of a declaration, is a completion. -/
theorem mem_completions_of_run? {s : State} {ts : List Token}
    (h : s.run? ts = some .semicolon) : ts ∈ completions s := by
  induction ts generalizing s with
  | nil =>
    obtain rfl : s = .semicolon := Option.some.inj h
    exact Language.nil_mem_kstar _
  | cons t ts ih =>
    obtain ⟨s', hm, h'⟩ := State.run?_cons_eq_some_iff.mp h
    exact cons_mem_completions hm (ih h')

/-! ## What is read from a state on -/

/-- The tokens that are read without errors from a state on, up to the end of a declaration. -/
def accepted (s : State) : FormalLanguage Token := {ts | s.run? ts = some .semicolon}

/-- A kind that always leads from one state to another can be put in front of what is accepted from
the other. -/
theorem only_mul_accepted_le {k : TokenKind} {s s' : State}
    (h : ∀ t : Token, t.kind = k → State.Move s t s') :
    only k * accepted s' ≤ accepted s := by
  rintro _ ⟨_, ⟨t, rfl, hk⟩, ts, hts, rfl⟩
  show s.run? (t :: ts) = some .semicolon
  rw [(h t hk).run?_cons]
  exact hts

/-- After a name, further names and the rest of the declaration are read. -/
theorem afterName_accepted_le :
    (only .delimiter * only .identifier)∗ *
      (only .colon * (only .type * (only .semicolon * accepted .semicolon))) ≤
        accepted .identifier := by
  have htype : only .semicolon * accepted .semicolon ≤ accepted .type :=
    only_mul_accepted_le fun _ hk => .semicolon hk
  have hcolon : only .type * accepted .type ≤ accepted .colon :=
    only_mul_accepted_le fun _ hk => .type hk
  have hname : only .colon * accepted .colon ≤ accepted .identifier :=
    only_mul_accepted_le fun _ hk => .colon hk
  have hnext : only .identifier * accepted .identifier ≤ accepted .delimiter :=
    only_mul_accepted_le fun _ hk => .next hk
  have hcomma : only .delimiter * accepted .delimiter ≤ accepted .identifier :=
    only_mul_accepted_le fun _ hk => .delimiter hk
  -- a further name leads back to where it was met, hence any number of them does
  have hloop : (only .delimiter * only .identifier) * accepted .identifier ≤
      accepted .identifier := by
    rw [mul_assoc]
    exact (mul_le_mul' le_rfl hnext).trans hcomma
  refine (mul_le_mul' le_rfl ?_).trans (kstar_mul_le_self hloop)
  calc only .colon * (only .type * (only .semicolon * accepted .semicolon))
      ≤ only .colon * (only .type * accepted .type) := mul_le_mul' le_rfl (mul_le_mul' le_rfl htype)
    _ ≤ only .colon * accepted .colon := mul_le_mul' le_rfl hcolon
    _ ≤ accepted .identifier := hname

/-- A declaration is read from every state that waits for a name. -/
theorem declaration_mul_accepted_le {s : State}
    (h : ∀ t : Token, t.kind = .identifier → State.Move s t .identifier) :
    declaration * accepted .semicolon ≤ accepted s := by
  rw [declaration_mul]
  exact (mul_le_mul' le_rfl afterName_accepted_le).trans (only_mul_accepted_le h)

/-- Any number of declarations is read after one has been closed. -/
theorem declarations_le_accepted : declaration∗ ≤ accepted .semicolon := by
  rw [← mul_one declaration∗]
  refine kstar_mul_le ?_ (declaration_mul_accepted_le fun _ hk => .again hk)
  rintro _ rfl
  rfl

/-- Every block of the grammar is read from the start without an error. -/
theorem block_le_accepted : block ≤ accepted .start := by
  have hbody : declaration * declaration∗ ≤ accepted .var :=
    (mul_le_mul' le_rfl declarations_le_accepted).trans
      (declaration_mul_accepted_le fun _ hk => .first hk)
  rintro _ ⟨_, ⟨t, rfl, ht⟩, ts, hts, rfl⟩
  show State.start.run? (t :: ts) = some .semicolon
  rw [(State.Move.start ht).run?_cons]
  exact hbody hts

/-- The grammar and the states agree on what a block is. -/
theorem mem_block_iff {ts : List Token} :
    ts ∈ block ↔ State.start.run? ts = some .semicolon :=
  ⟨fun h => block_le_accepted h, fun h => mem_completions_of_run? h⟩

end Grammar

/-! ## Beginnings of blocks -/

namespace State

/-- A token at `offset` by which a state is entered, wherever it can be entered from. No token
leads to the start. -/
def entry (s : State) (offset : Nat) : Token :=
  match s with
  | start => ⟨.unknown, "", offset⟩
  | var => ⟨.keyword, TokenKind.varWord, offset⟩
  | identifier => ⟨.identifier, "x", offset⟩
  | type => ⟨.type, "real", offset⟩
  | delimiter => ⟨.delimiter, ",", offset⟩
  | colon => ⟨.colon, ":", offset⟩
  | semicolon => ⟨.semicolon, ";", offset⟩

/-- Every state is on the way to the end of a declaration. -/
theorem exists_run?_semicolon (s : State) : ∃ rest, s.run? rest = some .semicolon := by
  have hstep : ∀ {s s' : State}, Move s (s'.entry 0) s' →
      (∃ rest, s'.run? rest = some .semicolon) → ∃ rest, s.run? rest = some .semicolon := by
    rintro s s' hm ⟨rest, h⟩
    exact ⟨s'.entry 0 :: rest, by rw [hm.run?_cons, h]⟩
  -- from the end of a declaration backwards, one move at a time
  have hsemicolon : ∃ rest, State.semicolon.run? rest = some .semicolon := ⟨[], rfl⟩
  have htype := hstep (.semicolon rfl) hsemicolon
  have hcolon := hstep (.type rfl) htype
  have hidentifier := hstep (.colon rfl) hcolon
  have hvar := hstep (.first rfl) hidentifier
  cases s with
  | start => exact hstep (.start rfl) hvar
  | var => exact hvar
  | identifier => exact hidentifier
  | type => exact htype
  | delimiter => exact hstep (.next rfl) hidentifier
  | colon => exact hcolon
  | semicolon => exact hsemicolon

end State

namespace Grammar

/-- A block begins with the tokens exactly where all of them fit. -/
theorem viable_iff {ts : List Token} : Viable ts ↔ ∃ s, State.start.run? ts = some s := by
  constructor
  · rintro ⟨rest, h⟩
    rw [mem_block_iff, State.run?_append] at h
    obtain ⟨s, hs, -⟩ := Option.bind_eq_some_iff.mp h
    exact ⟨s, hs⟩
  · rintro ⟨s, hs⟩
    obtain ⟨rest, h⟩ := s.exists_run?_semicolon
    exact ⟨rest, by rw [mem_block_iff, State.run?_append, hs, Option.bind_some, h]⟩

/-- What cannot be completed to a block is refused on the way. -/
theorem not_viable_iff {ts : List Token} : ¬ Viable ts ↔ State.start.run? ts = none := by
  rw [viable_iff, Option.eq_none_iff_forall_ne_some, not_exists]

/-! ## The first diagnostic -/

/-- The beginning of a block is reported for its end, if at all. -/
theorem diagnostics_of_viable {ts : List Token} (h : Viable ts) :
    ∃ s, State.start.run? ts = some s ∧ (validate ts).diagnostics = ending s (endOffset ts) := by
  obtain ⟨s, hs⟩ := viable_iff.mp h
  exact ⟨s, hs, diagnostics_of_run? hs⟩

/-- Where the tokens are no beginning of a block, the first diagnostic is about the first token
after the longest beginning of a block. -/
theorem head?_of_not_viable {ts : List Token} (h : ¬ Viable ts) :
    ∃ a t b s, ts = a ++ t :: b ∧ Viable a ∧ ¬ Viable (a ++ [t]) ∧
      (validate ts).recovered.head? = some a.length ∧
      (validate ts).diagnostics.head? = some (.unexpected s ⟨s.expectation, t.kind⟩ t) := by
  obtain ⟨a, t, b, s, rfl, ha, ht⟩ := State.run?_eq_none_iff.mp (not_viable_iff.mp h)
  obtain ⟨rest, hrest⟩ := complaints_of_rejects (b := b) ha ht
  refine ⟨a, t, b, s, rfl, viable_iff.mpr ⟨s, ha⟩, ?_, ?_, ?_⟩
  · rw [not_viable_iff, State.run?_append, ha, Option.bind_some, State.run?_cons_of_rejects ht]
  · rw [recovered_validate, hrest]
    rfl
  · rw [diagnostics_validate, hrest]
    rfl

/-- The beginning of a beginning of a block is one too. -/
theorem Viable.of_append {a b : List Token} (h : Viable (a ++ b)) : Viable a := by
  obtain ⟨rest, hrest⟩ := h
  exact ⟨b ++ rest, by rwa [← List.append_assoc]⟩

theorem Viable.take {ts : List Token} (h : Viable ts) (i : Nat) : Viable (ts.take i) := by
  rw [← List.take_append_drop i ts] at h
  exact h.of_append

/-- Once the input is no beginning of a block it stays so, hence it stops being one only once. -/
theorem eq_of_viable_take {ts : List Token} {i j : Nat}
    (hi : Viable (ts.take i)) (hi' : ¬ Viable (ts.take (i + 1)))
    (hj : Viable (ts.take j)) (hj' : ¬ Viable (ts.take (j + 1))) : i = j := by
  have hmono : ∀ {m n : Nat}, m ≤ n → Viable (ts.take n) → Viable (ts.take m) := by
    intro m n hmn h
    have hm := h.take m
    rwa [List.take_take, Nat.min_eq_left hmn] at hm
  rcases Nat.lt_trichotomy i j with hlt | heq | hlt
  · exact absurd (hmono hlt hj) hi'
  · exact heq
  · exact absurd (hmono hlt hi) hj'

/-- What is reported about the end is not about a token. -/
theorem ne_unexpected_of_mem_ending {s s' : State} {m : Mismatch} {t : Token} {offset : Nat} :
    .unexpected s' m t ∉ ending s offset := by
  cases s <;> simp [ending, State.isTerminal, Diagnostic.unexpected, Diagnostic.unterminated]

/-- The first diagnostic is about the token with which the input stops being the beginning of a
block. -/
theorem head?_unexpected_iff (ts : List Token) (i : Nat) :
    (∃ s m t, ts[i]? = some t ∧ (validate ts).recovered.head? = some i ∧
        (validate ts).diagnostics.head? = some (.unexpected s m t)) ↔
      Viable (ts.take i) ∧ ¬ Viable (ts.take (i + 1)) := by
  by_cases hv : Viable ts
  -- a beginning of a block gets no diagnostic but that of the end, and all its prefixes are viable
  · refine iff_of_false ?_ fun h => h.2 (hv.take _)
    rintro ⟨s, m, t, -, -, hd⟩
    obtain ⟨s', -, hdiag⟩ := diagnostics_of_viable hv
    rw [hdiag] at hd
    exact ne_unexpected_of_mem_ending (List.mem_of_head? hd)
  · obtain ⟨a, t, b, s, rfl, ha, hat, hrec, hdiag⟩ := head?_of_not_viable hv
    have htake : (a ++ t :: b).take (a.length + 1) = a ++ [t] := by
      rw [List.take_append]
      simp
    constructor
    · rintro ⟨_, _, _, -, hi, -⟩
      obtain rfl : a.length = i := Option.some.inj (hrec.symm.trans hi)
      rw [htake, List.take_left]
      exact ⟨ha, hat⟩
    · rintro ⟨hi, hi'⟩
      obtain rfl : i = a.length := by
        apply eq_of_viable_take hi hi'
        · rwa [List.take_left]
        · rwa [htake]
      exact ⟨s, _, t, by simp, hrec, hdiag⟩

/-- Only the end of the block is reported where the input is the beginning of a block, and no
block. -/
theorem diagnostics_eq_unterminated_iff (ts : List Token) :
    (∃ s offset, (validate ts).diagnostics = [.unterminated s offset]) ↔
      Viable ts ∧ ts ∉ block := by
  rw [mem_block_iff, ← diagnostics_eq_nil_iff]
  by_cases hv : Viable ts
  · -- Of the beginning of a block only the end can be reported, and it is unless the last state is
    -- terminal.
    obtain ⟨s, hs, hdiag⟩ := diagnostics_of_viable hv
    rw [hdiag]
    cases s <;> simp [ending, State.isTerminal, hv]
  · -- Otherwise the first diagnostic is about a token, and there is no second one that could come
    -- before it.
    obtain ⟨a, t, b, s, rfl, -, -, -, hdiag⟩ := head?_of_not_viable hv
    refine iff_of_false ?_ fun h => hv h.1
    rintro ⟨s', offset, h⟩
    rw [h] at hdiag
    cases hdiag

/-- The end is reported first only where nothing else is reported. -/
theorem head?_unterminated_iff (ts : List Token) :
    (∃ s offset, (validate ts).diagnostics.head? = some (.unterminated s offset)) ↔
      ∃ s offset, (validate ts).diagnostics = [.unterminated s offset] := by
  constructor
  · rintro ⟨s, offset, h⟩
    -- What is not the beginning of a block has a token reported first, so the list can only be that
    -- of a beginning.
    by_cases hv : Viable ts
    · rw [diagnostics_eq_unterminated_iff]
      refine ⟨hv, fun hb => ?_⟩
      rw [mem_block_iff, ← diagnostics_eq_nil_iff] at hb
      rw [hb] at h
      cases h
    · obtain ⟨a, t, b, s', -, -, -, -, hdiag⟩ := head?_of_not_viable hv
      rw [h] at hdiag
      cases hdiag
  · rintro ⟨s, offset, h⟩
    exact ⟨s, offset, by rw [h, List.head?_cons]⟩

/-- **Errors are reported as early as possible and never too early**: nothing is reported for a
block, the first token to be reported is the one with which the input stops being the beginning of
a block, and an unfinished block gets its one diagnostic at the end. -/
theorem validate_reports_earliest (ts : List Token) :
    ((validate ts).diagnostics = [] ↔ ts ∈ block) ∧
    (∀ i, (∃ s m t, ts[i]? = some t ∧ (validate ts).recovered.head? = some i ∧
        (validate ts).diagnostics.head? = some (.unexpected s m t)) ↔
      Viable (ts.take i) ∧ ¬ Viable (ts.take (i + 1))) ∧
    ((∃ s offset, (validate ts).diagnostics.head? = some (.unterminated s offset)) ↔
      Viable ts ∧ ts ∉ block) ∧
    ((∃ s offset, (validate ts).diagnostics.head? = some (.unterminated s offset)) ↔
      ∃ s offset, (validate ts).diagnostics = [.unterminated s offset]) := by
  refine ⟨?_, head?_unexpected_iff ts, ?_, head?_unterminated_iff ts⟩
  · rw [diagnostics_eq_nil_iff, mem_block_iff]
  · rw [head?_unterminated_iff, diagnostics_eq_unterminated_iff]

end Grammar

end VarBlock
