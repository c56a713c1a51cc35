import VarBlock.Proofs.Consistency
import VarBlock.Proofs.Coverage

/-!
# The opening of a block

A block opens with `var` and a name. How far reading has come with these two, its `depth`, grows
with every token until they are passed, whether the tokens fit or not, and never falls back:

    depth_advance : (s.advance t next).depth = min (s.depth + 1) 2

Hence the depth of a state says how many tokens were read before it (`depth_run`). Recovery leads
forward like any other step: the start is left with the first token and never met again, so no
later `var` is taken for the one that opens a block, and what has no place behind it is reported
wherever it stands (`rejects_of_misplaced`).

A depth is a number, so all that is said about the two states in front of a block is arithmetic
once the depth of a step is known from its place (`depth_of_mem_trace`).
-/

namespace VarBlock

namespace State

/-- How much of the opening has been read: nothing, the first token, or all of it. -/
def depth : State → Nat
  | start => 0
  | var => 1
  | _ => 2

@[simp] theorem depth_eq_zero_iff {s : State} : s.depth = 0 ↔ s = .start := by
  cases s <;> simp [depth]

@[simp] theorem depth_eq_one_iff {s : State} : s.depth = 1 ↔ s = .var := by
  cases s <;> simp [depth]

theorem depth_le (s : State) : s.depth ≤ 2 := by
  cases s <;> simp [depth]

/-! ## One token -/

/-- After a name there is no way back to the opening. -/
theorem depth_advance_identifier (t : Token) (next : Option Token) :
    (State.identifier.advance t next).depth = 2 := by
  cases hr : State.identifier.rejects t with
  | true =>
    rw [advance_of_rejects hr]
    rcases predict_identifier_cases next with ⟨u, -, -, hp⟩ | ⟨u, -, -, hp⟩ | hp <;> rw [hp] <;> rfl
  | false =>
    obtain ⟨s, hm⟩ := move_of_not_rejects hr
    rw [hm.advance_eq]
    cases hm <;> rfl

/-- Every token, fitting or not, takes reading one step further into the opening. -/
theorem depth_advance (s : State) (t : Token) (next : Option Token) :
    (s.advance t next).depth = min (s.depth + 1) 2 := by
  by_cases hs : s = .identifier
  · subst hs
    exact depth_advance_identifier t next
  · rw [advance_of_ne_identifier hs]
    cases s with
    | identifier => exact absurd rfl hs
    | _ => rfl

/-- A second `var`, a digit and a foreign character have no place behind the first token. -/
theorem rejects_of_misplaced {s : State} {t : Token} (hs : s ≠ .start)
    (hk : t.kind ∈ [TokenKind.keyword, .digit, .unknown]) : s.rejects t = true := by
  refine Bool.of_not_eq_false fun hr => ?_
  obtain ⟨s', hm⟩ := move_of_not_rejects hr
  cases hm with
  | start => exact hs rfl
  | _ h => simp [h] at hk

/-! ## Runs -/

/-- How deep a run has come is how many tokens it has read, up to two. -/
theorem depth_run (s : State) (ts : List Token) :
    (s.run ts).depth = min (s.depth + ts.length) 2 := by
  induction ts generalizing s with
  | nil =>
    have hle := s.depth_le
    simp only [run, List.length_nil]
    omega
  | cons t ts ih =>
    rw [run, ih, depth_advance, List.length_cons]
    omega

/-- The depth before and after each step is known from its place in the run. -/
theorem depth_of_getElem?_steps {s : State} {i k : Nat} {ts : List Token} {step : Step}
    (h : (s.steps i ts)[k]? = some step) :
    step.source.depth = min (s.depth + k) 2 ∧ step.target.depth = min (s.depth + k + 1) 2 := by
  induction ts generalizing s i k with
  | nil => cases h
  | cons t ts ih =>
    cases k with
    | zero =>
      obtain rfl := Option.some.inj h
      have hle := s.depth_le
      refine ⟨?_, depth_advance s t ts.head?⟩
      dsimp only
      omega
    -- One token further on the depth is one more, and the place in the rest is one less.
    | succ k =>
      have hrest := ih h
      rw [depth_advance] at hrest
      omega

end State

/-! ## Reports -/

/-- The same of the steps of a trace, by their numbers. -/
theorem depth_of_mem_trace {ts : List Token} {step : Step} (h : step ∈ (validate ts).trace) :
    step.source.depth = min step.index 2 ∧ step.target.depth = min (step.index + 1) 2 := by
  have hdepth := State.depth_of_getElem?_steps (getElem?_index_of_mem h)
  have hstart : State.start.depth = 0 := rfl
  rwa [hstart, Nat.zero_add] at hdepth

/-- The depth of the final state tells whether there were no tokens, one, or more. -/
theorem depth_finalState (ts : List Token) :
    (validate ts).finalState.depth = min ts.length 2 := by
  have hdepth := State.depth_run .start ts
  have hstart : State.start.depth = 0 := rfl
  rwa [hstart, Nat.zero_add] at hdepth

namespace Report

/-- Among the diagnostics about tokens exactly one is about the token numbered `i`. It is that of
`t`, over the span of `t` and with its text. -/
def RefusesOnce (r : Report) (i : Nat) (t : Token) : Prop :=
  ∃ s, r.located.filter (fun x => x.1 = i) = [(i, .unexpected s ⟨s.expectation, t.kind⟩ t)]

end Report

/-- A keyword, a digit or an unknown character after the first token is reported once, and the state
it leads to is that of recovery. -/
theorem refusesOnce_of_misplaced {ts : List Token} {i : Nat} {t : Token} (ht : ts[i]? = some t)
    (hi : 0 < i) (hk : t.kind ∈ [TokenKind.keyword, .digit, .unknown]) :
    (validate ts).RefusesOnce i t := by
  obtain ⟨step, hstep, -, hrecovered⟩ := exists_step_of_token ht
  -- Only the first step starts at the start, and this one is not the first.
  have hsource : step.source ≠ .start := by
    have hdepth := (depth_of_mem_trace (List.mem_of_getElem? hstep)).1
    rw [index_of_getElem?_trace hstep] at hdepth
    intro hstart
    rw [State.depth_eq_zero_iff.mpr hstart] at hdepth
    omega
  rw [State.rejects_of_misplaced hsource hk] at hrecovered
  refine ⟨step.source, ?_⟩
  rw [filter_located hstep ht, if_pos hrecovered]
  rfl

/-- Among the tokens of a source the word `var` is always the keyword. -/
theorem kind_of_varWord {source : String} {t : Token} (ht : t ∈ tokenize source)
    (htext : t.text = TokenKind.varWord) : t.kind = .keyword :=
  ((tokenized_tokenize source).kind t ht .keyword).mpr htext

/-- **A block is opened once**: the start is left with the first token for the state behind `var`,
that one with the second token, and neither is met again, whatever the tokens are. Behind the first
token every keyword, digit and foreign character is reported, once each; hence so is every `var` of
a source but the one that comes first. -/
theorem validate_opens_once (ts : List Token) :
    (∀ step ∈ (validate ts).trace,
      (step.source = .start ↔ step.index = 0) ∧ (step.target = .var ↔ step.index = 0) ∧
        (step.source = .var ↔ step.index = 1) ∧ step.target ≠ .start) ∧
      ((validate ts).finalState = .start ↔ ts = []) ∧
      ((validate ts).finalState = .var ↔ ts.length = 1) ∧
      (validate ts).located.map Prod.snd =
        (validate ts).diagnostics.filter Diagnostic.isUnexpected ∧
      (∀ (i : Nat) (t : Token), ts[i]? = some t → 0 < i →
        t.kind ∈ [TokenKind.keyword, .digit, .unknown] → (validate ts).RefusesOnce i t) ∧
      ∀ source, ts = tokenize source → ∀ (i : Nat) (t : Token), ts[i]? = some t → 0 < i →
        t.text = TokenKind.varWord → (validate ts).RefusesOnce i t := by
  refine ⟨fun step hstep => ?_, ?_, ?_, map_snd_located ts, fun i t => refusesOnce_of_misplaced, ?_⟩
  · -- All four follow from the depths, which for these states determine the state.
    obtain ⟨hsource, htarget⟩ := depth_of_mem_trace hstep
    simp only [← State.depth_eq_zero_iff, ← State.depth_eq_one_iff, ne_eq]
    omega
  · rw [← State.depth_eq_zero_iff, depth_finalState, ← List.length_eq_zero_iff]
    omega
  · rw [← State.depth_eq_one_iff, depth_finalState]
    omega
  · -- In a source a token with the text of `var` is a keyword. In a list of tokens it might be of
    -- another kind.
    intro source hts i t ht hi htext
    apply refusesOnce_of_misplaced ht hi
    rw [kind_of_varWord (hts ▸ List.mem_of_getElem? ht) htext]
    simp

-- Neither the second `var` nor the digits bring the first state back.
example : (validate (tokenize "vr var 1 2")).located.map Prod.fst = [0, 1, 2, 3] ∧
    (validate (tokenize "vr var 1 2")).finalState = .identifier := by cbv

end VarBlock
