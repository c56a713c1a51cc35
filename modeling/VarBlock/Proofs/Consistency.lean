import Mathlib.Data.List.Chain
import VarBlock.Proofs.Run

/-!
# The parts of a report fit together

The final state, the trace and the diagnostics of a report are put together by recursions of their
own. `Consistent` says how they belong together without any of these recursions: step by step
through the trace (`Step.Obeys`), with the rest read off the trace. The report of a list of tokens
is the only one that is consistent with it:

    consistent_validate : Consistent ts (validate ts)
    Consistent.eq_validate : Consistent ts r → r = validate ts

That a block is valid exactly if no step is recovered and a declaration has been closed holds of
every consistent report (`Consistent.isValid_iff`).

The induction is in `eq_steps`: a chain of steps that obey the rules, and start at the start, is the
list that `steps` computes. Indices are part of the chain, so that no step can be left out or said
twice.
-/

namespace VarBlock

/-- A step of the token `t` does what the states say: an ordinary step follows the transition, a
recovered one the prediction, which looks at the token `next` after `t`. -/
structure Step.Obeys (step : Step) (t : Token) (next : Option Token) : Prop where
  fits : step.recovered = false ↔ step.source.transition t = .ok step.target
  recovers : step.recovered = true →
    step.source.transition t = .error ⟨step.source.expectation, t.kind⟩ ∧
      step.target = step.source.predict next

/-- The parts of the report of `ts` agree with each other, with the tokens and with the states. -/
structure Consistent (ts : List Token) (r : Report) : Prop where
  /-- Every token has one step, numbered by its position. -/
  index : r.trace.map Step.index = List.range ts.length
  first : ∀ step ∈ r.trace.head?, step.source = .start
  chain : r.trace.IsChain fun step next => step.target = next.source
  last : r.finalState = (r.trace.getLast?.map Step.target).getD .start
  obeys : ∀ (i : Nat) (step : Step) (t : Token), r.trace[i]? = some step → ts[i]? = some t →
    step.Obeys t ts[i + 1]?
  /-- Every recovered step has a diagnostic, in order, and then the end of the block may have
  one. -/
  diagnostics : r.diagnostics =
    ((r.trace.zip ts).filter fun x => x.1.recovered).map (fun x =>
        ⟨.unexpectedToken x.1.source ⟨x.1.source.expectation, x.2.kind⟩ x.2.text, x.2.span⟩) ++
      if r.finalState = .semicolon then []
      else [⟨.unterminated r.finalState, ⟨endOffset ts, endOffset ts⟩⟩]

/-! ## Single steps -/

/-- `Obeys` says of a step, in the words of `transition` and `predict`, what `steps` computes for it
with `advance` and `rejects`. -/
theorem Step.obeys_iff {step : Step} {t : Token} {next : Option Token} :
    step.Obeys t next ↔
      step.target = step.source.advance t next ∧ step.recovered = step.source.rejects t := by
  cases hr : step.source.rejects t with
  | false =>
    obtain ⟨s, hm⟩ := State.move_of_not_rejects hr
    rw [hm.advance_eq]
    constructor
    · intro h
      have hrec : step.recovered = false := by
        refine Bool.eq_false_iff.mpr fun hrec => ?_
        have herr := (h.recovers hrec).1
        rw [hm.transition_eq] at herr
        cases herr
      have hok := h.fits.mp hrec
      rw [hm.transition_eq] at hok
      exact ⟨(Except.ok.inj hok).symm, hrec⟩
    · rintro ⟨htarget, hrec⟩
      refine ⟨⟨fun _ => ?_, fun _ => hrec⟩, fun hrec' => ?_⟩
      · rw [hm.transition_eq, htarget]
      · rw [hrec] at hrec'; cases hrec'
  | true =>
    have herr := State.transition_of_rejects hr
    rw [State.advance_of_rejects hr]
    constructor
    · intro h
      have hrec : step.recovered = true := by
        refine Bool.of_not_eq_false fun hrec => ?_
        have hok := h.fits.mp hrec
        rw [herr] at hok
        cases hok
      exact ⟨(h.recovers hrec).2, hrec⟩
    · rintro ⟨htarget, hrec⟩
      refine ⟨⟨fun hrec' => ?_, fun hok => ?_⟩, fun _ => ⟨herr, htarget⟩⟩
      · rw [hrec] at hrec'; cases hrec'
      · rw [herr] at hok; cases hok

namespace State

/-! ## Traces -/

variable {s : State} {i : Nat} {ts : List Token}

/-- The first step begins where the run does. -/
theorem source_of_head?_steps {step : Step} (h : step ∈ (s.steps i ts).head?) :
    step.source = s := by
  cases ts with
  | nil => cases h
  | cons t ts =>
    obtain rfl := Option.some.inj h
    rfl

/-- Each step begins where the one before it has ended. -/
theorem isChain_steps (s : State) (i : Nat) (ts : List Token) :
    (s.steps i ts).IsChain fun step next => step.target = next.source := by
  induction ts generalizing s i with
  | nil => exact .nil
  | cons t ts ih =>
    rw [steps, List.isChain_cons]
    exact ⟨fun next hnext => (source_of_head?_steps hnext).symm, ih _ _⟩

/-- Every step of a run obeys the rules for its token, with the next token of the list in sight. -/
theorem obeys_of_getElem?_steps {k : Nat} {step : Step} {t : Token}
    (hstep : (s.steps i ts)[k]? = some step) (ht : ts[k]? = some t) :
    step.Obeys t ts[k + 1]? := by
  induction ts generalizing s i k with
  | nil => cases ht
  | cons u ts ih =>
    rw [List.getElem?_cons_succ]
    -- The next token is the head of the rest, which is what `steps` has in sight.
    cases k with
    | zero =>
      obtain rfl := Option.some.inj hstep
      obtain rfl := Option.some.inj ht
      rw [Step.obeys_iff, ← List.head?_eq_getElem?]
      exact ⟨rfl, rfl⟩
    | succ k => exact ih hstep ht

/-- A trace is determined by its first state and by what its steps obey. -/
theorem eq_steps {path : List Step} (hindex : path.map Step.index = List.range' i ts.length)
    (hfirst : ∀ step ∈ path.head?, step.source = s)
    (hchain : path.IsChain fun step next => step.target = next.source)
    (hobeys : ∀ (k : Nat) (step : Step) (t : Token), path[k]? = some step → ts[k]? = some t →
      step.Obeys t ts[k + 1]?) : path = s.steps i ts := by
  -- The source of the first step is given by `hfirst`, and this makes the whole step known. The
  -- chain hands its target on as the source of the next.
  induction ts generalizing s i path with
  | nil => exact List.map_eq_nil_iff.mp hindex
  | cons t ts ih =>
    cases path with
    | nil => cases hindex
    | cons step path =>
      rw [List.length_cons, List.range'_succ, List.map_cons, List.cons.injEq] at hindex
      rw [List.isChain_cons] at hchain
      have hsource : step.source = s := hfirst step rfl
      obtain ⟨htarget, hrecovered⟩ := Step.obeys_iff.mp (hobeys 0 step t rfl rfl)
      rw [List.getElem?_cons_succ, ← List.head?_eq_getElem?] at htarget
      have hstep : step = ⟨i, s, s.advance t ts.head?, s.rejects t⟩ := by
        rw [← hsource, ← htarget, ← hrecovered, ← hindex.1]
      have hrest : path = (s.advance t ts.head?).steps (i + 1) ts := by
        apply ih hindex.2
        · intro next hnext
          rw [← hchain.1 next hnext, hstep]
        · exact hchain.2
        · exact fun k => hobeys (k + 1)
      rw [steps, hrest, hstep]

end State

/-! ## Reports -/

/-- The diagnostics, written out from the pairs of a step and its token and from the final state. -/
theorem diagnostics_validate_eq (ts : List Token) :
    (validate ts).diagnostics =
      (((validate ts).trace.zip ts).filter fun x => x.1.recovered).map (fun x =>
          ⟨.unexpectedToken x.1.source ⟨x.1.source.expectation, x.2.kind⟩ x.2.text, x.2.span⟩) ++
        if (validate ts).finalState = .semicolon then []
        else [⟨.unterminated (validate ts).finalState, ⟨endOffset ts, endOffset ts⟩⟩] := by
  rw [diagnostics_validate, complaints, List.map_map]
  congr 1
  cases (validate ts).finalState <;> rfl

/-- The report of `validate` fits together. -/
theorem consistent_validate (ts : List Token) : Consistent ts (validate ts) where
  index := by rw [map_index_trace, List.range_eq_range']
  first _ hstep := State.source_of_head?_steps hstep
  chain := State.isChain_steps .start 0 ts
  last := State.run_eq_target_getLast? .start 0 ts
  obeys _ _ _ := State.obeys_of_getElem?_steps
  diagnostics := diagnostics_validate_eq ts

/-! ### Tokens and their steps -/

section Steps

variable {ts : List Token} {i : Nat} {t : Token} {step next : Step}

/-- A step of the trace comes with its token, and is what `advance` and `rejects` make of it. -/
theorem exists_token_of_step (hstep : (validate ts).trace[i]? = some step) :
    ∃ t, ts[i]? = some t ∧ step.target = step.source.advance t ts[i + 1]? ∧
      step.recovered = step.source.rejects t := by
  have hlt : i < ts.length := by
    rw [← length_trace]
    exact (List.getElem?_eq_some_iff.mp hstep).1
  have ht := List.getElem?_eq_getElem hlt
  exact ⟨_, ht, Step.obeys_iff.mp ((consistent_validate ts).obeys i step _ hstep ht)⟩

/-- The same from the side of the token: each one has its step. -/
theorem exists_step_of_token (ht : ts[i]? = some t) :
    ∃ step, (validate ts).trace[i]? = some step ∧
      step.target = step.source.advance t ts[i + 1]? ∧
      step.recovered = step.source.rejects t := by
  have hlt : i < (validate ts).trace.length := by
    rw [length_trace]
    exact (List.getElem?_eq_some_iff.mp ht).1
  have hstep := List.getElem?_eq_getElem hlt
  exact ⟨_, hstep, Step.obeys_iff.mp ((consistent_validate ts).obeys i _ t hstep ht)⟩

/-- A step begins where the one before it ended. -/
theorem target_eq_source (hstep : (validate ts).trace[i]? = some step)
    (hnext : (validate ts).trace[i + 1]? = some next) : step.target = next.source := by
  obtain ⟨hlt, rfl⟩ := List.getElem?_eq_some_iff.mp hnext
  obtain ⟨-, rfl⟩ := List.getElem?_eq_some_iff.mp hstep
  exact List.isChain_iff_getElem.mp (consistent_validate ts).chain i hlt

end Steps

namespace Consistent

variable {ts : List Token} {r : Report}

/-- A report that fits together is the one that `validate` gives. Its trace is determined by
`eq_steps`, and the other parts are read off the trace. -/
theorem eq_validate (h : Consistent ts r) : r = validate ts := by
  have htrace : r.trace = (validate ts).trace := by
    have hindex := h.index
    rw [List.range_eq_range'] at hindex
    exact State.eq_steps hindex h.first h.chain h.obeys
  have hfinal : r.finalState = (validate ts).finalState := by
    rw [h.last, htrace]
    exact (State.run_eq_target_getLast? .start 0 ts).symm
  have hdiagnostics : r.diagnostics = (validate ts).diagnostics := by
    rw [h.diagnostics, diagnostics_validate_eq, htrace, hfinal]
  -- Four parts make up a report. Three have been compared, and the tokens recovered are read off
  -- the trace.
  cases r
  cases htrace
  cases hfinal
  cases hdiagnostics
  rfl

theorem length_trace (h : Consistent ts r) : r.trace.length = ts.length := by
  rw [← List.length_map Step.index, h.index, List.length_range]

/-- Nothing is wrong with a block exactly if no step is recovered and a declaration is closed. -/
theorem isValid_iff (h : Consistent ts r) :
    r.isValid = true ↔
      (∀ step ∈ r.trace, step.recovered = false) ∧ r.finalState = .semicolon := by
  -- The diagnostics speak of pairs of a step and a token, the statement of steps alone.
  have hzip : r.trace = (r.trace.zip ts).map Prod.fst := by
    rw [List.map_fst_zip h.length_trace.le]
  rw [Report.isValid, List.isEmpty_iff, h.diagnostics, List.append_eq_nil_iff,
    List.map_eq_nil_iff, List.filter_eq_nil_iff]
  refine and_congr ⟨fun hnone step hstep => ?_, fun hnone x hx => ?_⟩ ?_
  · rw [hzip] at hstep
    obtain ⟨x, hx, rfl⟩ := List.mem_map.mp hstep
    exact Bool.eq_false_iff.mpr (hnone x hx)
  · rw [hnone x.1 (List.of_mem_zip hx).1]
    exact Bool.false_ne_true
  · split <;> simp [*]

end Consistent

/-- **A report is consistent**, no other report of the tokens is, and a block is valid exactly if no
step is recovered and the last one closes a declaration. -/
theorem validate_consistent (ts : List Token) :
    Consistent ts (validate ts) ∧ (∀ r, Consistent ts r → r = validate ts) ∧
      ((validate ts).isValid = true ↔
        (∀ step ∈ (validate ts).trace, step.recovered = false) ∧
          (validate ts).finalState = .semicolon) :=
  ⟨consistent_validate ts, fun _ h => h.eq_validate, (consistent_validate ts).isValid_iff⟩

end VarBlock
