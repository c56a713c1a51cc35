import VarBlock.Proofs.Run

/-!
# Wrong tokens in a valid block

Tokens of a valid block are exchanged for tokens that do not fit where they stand, never two
neighbours. Then each of them is reported, in the state in which the right token was met, and
nothing else is: the trace is that of the valid block, with the steps of the wrong tokens marked as
recovered.

The run over the wrong tokens keeps step with the run over the right ones because the prediction
leads where the right token would have led (`predict_of_move`). After a name that is so only because
the token in sight is a right one, hence the wrong tokens may not be neighbours.

The main induction is `steps_exchanged`. Its hypothesis is a run without recovery over the right
tokens, which tells at every place which token would have been right and hence where a wrong one
leads. The diagnostics are then read off the trace, as everywhere (`Run`).
-/

namespace VarBlock

/-- The tokens, numbered from `index`, with the token `wrong i` in the place of the one numbered
`i`, where there is such a token. -/
def exchanged (wrong : Nat → Option Token) (index : Nat) (ts : List Token) : List Token :=
  (ts.zipIdx index).map fun x => (wrong x.2).getD x.1

/-- The step of the token that stands in the place of the right one: from and to the same states,
and recovered if the token is a wrong one. -/
def Step.exchanged (wrong : Nat → Option Token) (step : Step) : Step :=
  { step with recovered := (wrong step.index).isSome }

section Exchange

variable {wrong : Nat → Option Token} {i : Nat} {t : Token} {ts : List Token}

theorem exchanged_cons :
    exchanged wrong i (t :: ts) = (wrong i).getD t :: exchanged wrong (i + 1) ts := rfl

/-- A token that is kept is the one in sight. -/
theorem head?_exchanged_of_none (h : wrong i = none) :
    (exchanged wrong i ts).head? = ts.head? := by
  cases ts with
  | nil => rfl
  | cons t ts => rw [exchanged_cons, h, Option.getD_none, List.head?_cons, List.head?_cons]

namespace State

variable {s s' : State}

/-- Where the rest of the block is right, the prediction leads where the right token leads. -/
theorem predict_of_move (hm : Move s t s') (h : s'.run? ts = some .semicolon) :
    s.predict ts.head? = s' := by
  -- Only after a name is there a choice between two states. There the next right token tells which,
  -- for a name follows a comma and a type follows a colon.
  cases hm with
  | start => rfl
  | first => rfl
  | next => rfl
  | again => rfl
  | type => rfl
  | semicolon => rfl
  | delimiter =>
    cases ts with
    | nil => cases h
    | cons u ts =>
      obtain ⟨_, hu, -⟩ := run?_cons_eq_some_iff.mp h
      cases hu with
      | next hk => simp [predict, hk]
  | colon =>
    cases ts with
    | nil => cases h
    | cons u ts =>
      obtain ⟨_, hu, -⟩ := run?_cons_eq_some_iff.mp h
      cases hu with
      | type hk => simp [predict, hk]

/-- The step on the token in the place of a right one leads where the right one leads, and is
recovered if the token is a wrong one. -/
theorem advance_exchanged (hm : Move s t s') (h : s'.run? ts = some .semicolon)
    (hapart : (wrong i).isSome → wrong (i + 1) = none)
    (hwrong : ∀ u ∈ wrong i, s.rejects u = true) :
    s.advance ((wrong i).getD t) (exchanged wrong (i + 1) ts).head? = s' ∧
      s.rejects ((wrong i).getD t) = (wrong i).isSome := by
  cases hi : wrong i with
  | none => exact ⟨hm.advance_eq _, hm.rejects_eq⟩
  | some u =>
    have hu : s.rejects u = true := hwrong u hi
    have hnext : wrong (i + 1) = none := hapart (by rw [hi, Option.isSome_some])
    rw [Option.getD_some, advance_of_rejects hu, head?_exchanged_of_none hnext]
    exact ⟨predict_of_move hm h, hu⟩

/-- The run over the wrong tokens keeps step with the run over the right ones. -/
theorem steps_exchanged (h : s.run? ts = some .semicolon)
    (hapart : ∀ i, (wrong i).isSome → wrong (i + 1) = none)
    (hwrong : ∀ step ∈ s.steps i ts, ∀ u ∈ wrong step.index, step.source.rejects u = true) :
    s.steps i (exchanged wrong i ts) = (s.steps i ts).map (Step.exchanged wrong) := by
  induction ts generalizing s i with
  | nil => rfl
  | cons t ts ih =>
    obtain ⟨s', hm, h'⟩ := run?_cons_eq_some_iff.mp h
    rw [steps, hm.advance_eq] at hwrong ⊢
    -- The wrong token leads where the right one does. This needs the next one to be right, which
    -- `hapart` says.
    obtain ⟨hadvance, hrejects⟩ :=
      advance_exchanged hm h' (hapart i) (hwrong _ List.mem_cons_self)
    have hrest := ih h' fun step hstep => hwrong step (List.mem_cons_of_mem _ hstep)
    rw [exchanged_cons, steps, hadvance, hrejects, hrest]
    rfl

/-- The states of the steps do not change, so the final state does not either. -/
theorem run_eq_of_steps_exchanged
    (h : s.steps i (exchanged wrong i ts) = (s.steps i ts).map (Step.exchanged wrong)) :
    s.run (exchanged wrong i ts) = s.run ts := by
  have htarget : Step.target ∘ Step.exchanged wrong = Step.target := rfl
  rw [run_eq_target_getLast? s i, run_eq_target_getLast? s i ts, h, List.getLast?_map,
    Option.map_map, htarget]

end State

/-- With the steps of the wrong tokens recovered, one diagnostic for each wrong token. -/
theorem complaints_exchanged (wrong : Nat → Option Token) (s : State) (i : Nat)
    (ts : List Token) :
    complaints ((s.steps i ts).map (Step.exchanged wrong)) (exchanged wrong i ts) =
      (s.steps i ts).filterMap fun step => (wrong step.index).map fun u =>
        (step.index, step.diagnostic u) := by
  induction ts generalizing s i with
  | nil => rfl
  | cons t ts ih =>
    rw [State.steps, List.map_cons, exchanged_cons, complaints_cons, ih, List.filterMap_cons]
    cases hi : wrong i <;> simp [Step.exchanged, hi, Step.diagnostic]

/-- The recovered steps are those of the wrong tokens. -/
theorem recovered_of_trace_eq {us : List Token}
    (h : (validate us).trace = (validate ts).trace.map (Step.exchanged wrong)) :
    (validate us).recovered = (List.range ts.length).filter fun i => (wrong i).isSome := by
  rw [Report.recovered, h, List.range_eq_range', ← map_index_trace, List.filter_map,
    List.filter_map, List.map_map]
  rfl

end Exchange

/-- **Independent errors are each reported once**: where wrong tokens stand in the places of tokens
of a valid block, no two of them neighbours, the diagnostics are those of the wrong tokens, in
order, each in the state in which the right token was met, the steps lead from and to the same
states as before, and the recovered ones are those of the wrong tokens. -/
theorem validate_exchanged (ts : List Token) (wrong : Nat → Option Token)
    (hvalid : (validate ts).isValid = true)
    (hapart : ∀ i, (wrong i).isSome → wrong (i + 1) = none)
    (hwrong : ∀ step ∈ (validate ts).trace, ∀ u ∈ wrong step.index,
      step.source.rejects u = true) :
    (validate (exchanged wrong 0 ts)).diagnostics =
        ((validate ts).trace.filterMap fun step => (wrong step.index).map fun u =>
          .unexpected step.source ⟨step.source.expectation, u.kind⟩ u) ∧
      (validate (exchanged wrong 0 ts)).trace =
        (validate ts).trace.map (fun step =>
          { step with recovered := (wrong step.index).isSome }) ∧
      (validate (exchanged wrong 0 ts)).recovered =
        (List.range ts.length).filter (fun i => (wrong i).isSome) ∧
      (validate (exchanged wrong 0 ts)).finalState = .semicolon := by
  have hrun : State.start.run? ts = some .semicolon := by
    rwa [← diagnostics_eq_nil_iff, ← List.isEmpty_iff]
  have htrace : (validate (exchanged wrong 0 ts)).trace =
      (validate ts).trace.map (Step.exchanged wrong) :=
    State.steps_exchanged hrun hapart hwrong
  have hfinal : (validate (exchanged wrong 0 ts)).finalState = .semicolon :=
    (State.run_eq_of_steps_exchanged htrace).trans (State.run_of_run? hrun)
  refine ⟨?_, htrace, recovered_of_trace_eq htrace, hfinal⟩
  -- The complaints are those of the marked steps, and the marks are known from `htrace`.
  have hcomplaints := complaints_exchanged wrong .start 0 ts
  rw [diagnostics_validate, hfinal, htrace, ending_eq_nil_iff.mpr rfl, List.append_nil]
  show (complaints ((State.start.steps 0 ts).map (Step.exchanged wrong)) _).map Prod.snd = _
  rw [hcomplaints, List.map_filterMap]
  simp only [Option.map_map]
  rfl

/-- The block `var a, b: real; c: char;`. -/
def twoDeclarations : List Token :=
  [⟨.keyword, "var", 0⟩, ⟨.identifier, "a", 4⟩, ⟨.delimiter, ",", 5⟩, ⟨.identifier, "b", 7⟩,
    ⟨.colon, ":", 8⟩, ⟨.type, "real", 10⟩, ⟨.semicolon, ";", 14⟩, ⟨.identifier, "c", 16⟩,
    ⟨.colon, ":", 17⟩, ⟨.type, "char", 19⟩, ⟨.semicolon, ";", 23⟩]

/-- A type for the comma, a name for the first type, `=` for the second colon, and a comma for the
last semicolon. -/
def slips : Nat → Option Token
  | 2 => some ⟨.type, "char", 5⟩
  | 5 => some ⟨.identifier, "int", 10⟩
  | 8 => some ⟨.unknown, "=", 17⟩
  | 10 => some ⟨.delimiter, ",", 23⟩
  | _ => none

/-- Four slips in two declarations, three of them after a name or before a type, are reported where
they are made. -/
theorem validate_exchanged_slips :
    (validate twoDeclarations).isValid = true ∧
      (∀ i, (slips i).isSome → slips (i + 1) = none) ∧
      (∀ step ∈ (validate twoDeclarations).trace, ∀ u ∈ slips step.index,
        step.source.rejects u = true) ∧
      (validate (exchanged slips 0 twoDeclarations)).diagnostics =
        [.unexpected .identifier ⟨.colonOrDelimiter, .type⟩ ⟨.type, "char", 5⟩,
          .unexpected .colon ⟨.type, .identifier⟩ ⟨.identifier, "int", 10⟩,
          .unexpected .identifier ⟨.colonOrDelimiter, .unknown⟩ ⟨.unknown, "=", 17⟩,
          .unexpected .type ⟨.semicolon, .delimiter⟩ ⟨.delimiter, ",", 23⟩] ∧
      (validate (exchanged slips 0 twoDeclarations)).finalState = .semicolon := by
  have hvalid : (validate twoDeclarations).isValid = true := by decide
  -- The four places are not neighbours. At every other place there is no slip.
  have hapart : ∀ i, (slips i).isSome → slips (i + 1) = none := by
    intro i hi
    rw [slips.eq_def] at hi
    split at hi
    case h_5 => cases hi
    all_goals rfl
  have hwrong : ∀ step ∈ (validate twoDeclarations).trace, ∀ u ∈ slips step.index,
      step.source.rejects u = true := by
    decide
  obtain ⟨hdiagnostics, -, -, hfinal⟩ :=
    validate_exchanged twoDeclarations slips hvalid hapart hwrong
  exact ⟨hvalid, hapart, hwrong, hdiagnostics.trans (by decide), hfinal⟩

end VarBlock
