import VarBlock.Proofs.Run

/-!
# Tokens that follow

Reading goes from the front, so the report of `a ++ b` begins as the report of `a` does. Only the
prediction after a name looks ahead, hence only the last step of `a` may turn out otherwise when
`b` follows: it may lead on to a delimiter or a colon where it stayed after the name before
(`Step.revised`). What it says about its token does not change, so no diagnostic about a token is
taken back (`validate_append`).

After a closed declaration nothing looks ahead. Reading then goes on as it does after `var`, because
both states wait for a name (`validate_append_of_closed`).

Both results come from the cut of a run (`run_append`, `steps_append`), which keeps the token in
sight at the seam. A step is revised if it went by that token, and after a closed declaration there
is none that could.
-/

namespace VarBlock

/-- The step of a last token, when the token `next` turns out to follow it. A token that did not fit
after a name is taken for a delimiter if a name follows, and for a colon if a type does. -/
def Step.revised (next : Option Token) (step : Step) : Step :=
  if step.recovered ∧ step.source = .identifier then
    match next.map Token.kind with
    | some .identifier => { step with target := .delimiter }
    | some .type => { step with target := .colon }
    | _ => step
  else step

/-! ## The last step -/

namespace Step

/-- A step is revised only after a name, and for a name or a type in sight. -/
theorem eq_or_revised (next : Option Token) (step : Step) :
    step.revised next = step ∨
      step.recovered = true ∧ step.source = .identifier ∧ ∃ t, next = some t ∧
        (t.kind = .identifier ∧ step.revised next = { step with target := .delimiter } ∨
          t.kind = .type ∧ step.revised next = { step with target := .colon }) := by
  by_cases h : step.recovered ∧ step.source = .identifier
  · -- A recovered step after a name: what is in sight decides.
    cases next with
    | none => exact .inl (by simp [revised])
    | some t =>
      cases hk : t.kind with
      | identifier => exact .inr ⟨h.1, h.2, t, rfl, .inl ⟨hk, by simp [revised, h, hk]⟩⟩
      | type => exact .inr ⟨h.1, h.2, t, rfl, .inr ⟨hk, by simp [revised, h, hk]⟩⟩
      | _ => exact .inl (by simp [revised, hk])
  · exact .inl (if_neg h)

/-- Nothing but the target of a step is revised. -/
theorem exists_revised_eq (next : Option Token) (step : Step) :
    ∃ s, step.revised next = { step with target := s } := by
  rcases step.eq_or_revised next with h | ⟨-, -, t, -, ⟨-, h⟩ | ⟨-, h⟩⟩
  · exact ⟨step.target, h⟩
  · exact ⟨.delimiter, h⟩
  · exact ⟨.colon, h⟩

end Step

namespace State

/-- The step on a token with another in sight is the step on it as the last token, revised. -/
theorem revised_advance (s : State) (i : Nat) (t : Token) (next : Option Token) :
    (Step.mk i s (s.advance t none) (s.rejects t)).revised next =
      ⟨i, s, s.advance t next, s.rejects t⟩ := by
  -- Recovery after a name is the one case in which the token in sight counts. Elsewhere both sides
  -- ignore it, for one of two reasons.
  by_cases h : s.rejects t = true ∧ s = .identifier
  · obtain ⟨hr, rfl⟩ := h
    rw [advance_of_rejects hr, advance_of_rejects hr, hr]
    cases next with
    | none => rfl
    | some u => cases hk : u.kind <;> simp [Step.revised, predict, hk]
  · rw [Step.revised, if_neg h]
    congr 1
    cases hr : s.rejects t with
    | true =>
      have hs : s ≠ .identifier := fun hs => h ⟨hr, hs⟩
      rw [advance_of_ne_identifier hs, advance_of_ne_identifier hs]
    | false =>
      obtain ⟨s', hm⟩ := move_of_not_rejects hr
      rw [hm.advance_eq, hm.advance_eq]

/-- A token in sight shows in the last step only. -/
theorem stepsTo_eq_map (s : State) (next : Option Token) (i : Nat) (ts : List Token) :
    s.stepsTo next i ts = (s.steps i ts).map fun step =>
      if step.index + 1 = i + ts.length then step.revised next else step := by
  induction ts generalizing s i with
  | nil => rfl
  | cons t ts ih =>
    have hlen : i + (t :: ts).length = i + 1 + ts.length := by
      rw [List.length_cons]
      omega
    rw [stepsTo, steps, List.map_cons, hlen]
    cases ts with
    | nil => simp [steps, stepsTo, revised_advance]
    | cons u ts =>
      -- the step on `t` sees `u`, with or without a token after the last
      rw [if_neg (by simp), List.head?_cons, Option.some_or, ih]

end State

/-- What is said about a token does not depend on where its step leads. -/
theorem complaints_map {f : Step → Step} (hf : ∀ step, ∃ s, f step = { step with target := s })
    (steps : List Step) (ts : List Token) :
    complaints (steps.map f) ts = complaints steps ts := by
  -- Of a step only its target is replaced, and neither the mark nor the diagnostic is made of that.
  have hrecovered : ∀ step, (f step).recovered = step.recovered := by
    intro step
    obtain ⟨s, hs⟩ := hf step
    rw [hs]
  have hdiagnostic : ∀ step t,
      ((f step).index, (f step).diagnostic t) = (step.index, step.diagnostic t) := by
    intro step t
    obtain ⟨s, hs⟩ := hf step
    rw [hs]
    rfl
  simp [complaints, List.zip_map_left, List.filter_map, Function.comp_def, hrecovered, hdiagnostic]

/-- What is in sight at the end has no say in the complaints, for a step is recovered or not by its
own token. -/
theorem State.complaints_stepsTo (s : State) (next : Option Token) (i : Nat) (ts : List Token) :
    complaints (s.stepsTo next i ts) ts = complaints (s.steps i ts) ts := by
  rw [stepsTo_eq_map]
  apply complaints_map
  intro step
  split
  · exact step.exists_revised_eq next
  · exact ⟨step.target, rfl⟩

/-! ## More tokens -/

section Append

variable (a b : List Token)

/-- The trace of the longer list begins as that of the shorter, with its last step revised. -/
theorem take_trace_append :
    (validate (a ++ b)).trace.take a.length = (validate a).trace.map fun step =>
      if step.index + 1 = a.length then step.revised b.head? else step := by
  have hsteps := State.stepsTo_eq_map .start b.head? 0 a
  rw [Nat.zero_add] at hsteps
  rw [trace_append, List.take_left' (State.length_stepsTo _ _ _ _), hsteps]
  rfl

/-- The complaints about the first tokens come first, and stay as they are. -/
theorem complaints_append_validate :
    complaints (validate (a ++ b)).trace (a ++ b) =
      complaints (validate a).trace a ++
        complaints ((State.start.runTo b.head? a).steps a.length b) b := by
  rw [trace_append, complaints_append (State.length_stepsTo _ _ _ _), State.complaints_stepsTo]
  rfl

/-- The diagnostics of the longer list: those about the tokens of the first part, those about the
second part, and the one about the end. -/
theorem diagnostics_append :
    (validate (a ++ b)).diagnostics = (complaints (validate a).trace a).map Prod.snd ++
      ((State.start.runTo b.head? a).unexpected b ++
        ending (validate (a ++ b)).finalState (endOffset (a ++ b))) := by
  rw [diagnostics_validate, complaints_append_validate, List.map_append, ← State.unexpected_eq,
    List.append_assoc]

/-- **What has been reported stays reported**: with more tokens, the diagnostics about tokens are
where they were, and so are the steps, but for the last one, which leads elsewhere only if its token
did not fit after a name and a name or a type follows. -/
theorem validate_append :
    (validate a).diagnostics.filter Diagnostic.isUnexpected <+: (validate (a ++ b)).diagnostics ∧
    (validate (a ++ b)).trace.take a.length = (validate a).trace.map (fun step =>
      if step.index + 1 = a.length then step.revised b.head? else step) ∧
    ∀ (i : Nat) (step step' : Step), (validate a).trace[i]? = some step →
      (validate (a ++ b)).trace[i]? = some step' → step' ≠ step →
        i + 1 = a.length ∧ step.recovered = true ∧ step.source = .identifier ∧
          ∃ t, b.head? = some t ∧
            (t.kind = .identifier ∧ step' = { step with target := .delimiter } ∨
              t.kind = .type ∧ step' = { step with target := .colon }) := by
  refine ⟨?_, take_trace_append a b, ?_⟩
  · rw [filter_isUnexpected_validate, diagnostics_append]
    exact List.prefix_append _ _
  · intro i step step' hstep hstep' hne
    obtain ⟨hlt, -⟩ := List.getElem?_eq_some_iff.mp hstep
    rw [length_trace] at hlt
    have hindex : step.index = i := index_of_getElem?_trace hstep
    have hget : (validate (a ++ b)).trace[i]? =
        some (if i + 1 = a.length then step.revised b.head? else step) := by
      rw [← List.getElem?_take_of_lt hlt, take_trace_append, List.getElem?_map, hstep,
        Option.map_some, hindex]
    obtain rfl := Option.some.inj (hget.symm.trans hstep')
    -- Only the last step can differ, and it differs as `eq_or_revised` says.
    by_cases hlast : i + 1 = a.length
    · rw [if_pos hlast] at hne ⊢
      exact ⟨hlast, (step.eq_or_revised b.head?).resolve_left hne⟩
    · rw [if_neg hlast] at hne
      exact absurd rfl hne

end Append

/-! ## After a closed declaration -/

/-- What is said about the token `t`, if anything, in a state `s` that waits for a name. -/
def State.unlessName (s : State) (t : Token) : List Diagnostic :=
  if t.kind = .identifier then [] else [.unexpected s ⟨.identifier, t.kind⟩ t]

namespace State

/-- Only a step that stays after a name may lead elsewhere when another token is in sight. -/
theorem advance_of_advance_ne {s : State} {t : Token} (h : s.advance t none ≠ .identifier)
    (next : Option Token) : s.advance t next = s.advance t none := by
  have hstep := s.revised_advance 0 t next
  rcases (Step.mk 0 s (s.advance t none) (s.rejects t)).eq_or_revised next with
    heq | ⟨hr, hs, -⟩
  · rw [heq] at hstep
    exact (Step.mk.inj hstep).2.2.1.symm
  · dsimp only at hr hs
    rw [advance_of_rejects hr, hs] at h
    exact absurd rfl h

/-- Tokens that do not end after a name are read alike, whatever follows them. -/
theorem runTo_of_run_ne {s : State} {ts : List Token} (h : s.run ts ≠ .identifier)
    (next : Option Token) :
    s.runTo next ts = s.run ts ∧ ∀ i, s.stepsTo next i ts = s.steps i ts := by
  simp only [run_eq_runTo, steps_eq_stepsTo] at h ⊢
  apply runTo_congr
  intro s' t hlast
  rw [hlast] at h
  exact advance_of_advance_ne h next

/-- Where a name is expected, the states differ in nothing else. -/
theorem rejects_of_expectation {s : State} (hs : s.expectation = .identifier) (t : Token) :
    s.rejects t = decide (t.kind ≠ .identifier) := by
  by_cases hk : t.kind = .identifier
  · rw [(move_of_expectation hs hk).rejects_eq]
    simp [hk]
  · cases hr : s.rejects t with
    | true => simp [hk]
    | false =>
      -- Were it not rejected, the token would make one of the three moves on a name.
      obtain ⟨s', hm⟩ := move_of_not_rejects hr
      cases hm with
      | first h => exact absurd h hk
      | next h => exact absurd h hk
      | again h => exact absurd h hk
      | _ => cases hs

end State

section Resume

variable {a d : List Token} {x : Token} {s : State}

/-! ### A state that waits for a name

Whichever of these states is reached with the tokens `a`, what follows is read as it is after a
name, but for what is said about the first token. -/

/-- Where a name is expected at the seam, the next token leads to the state after a name, be it
accepted or not, and the rest is read from there. -/
theorem trace_of_expectation (hs : s.expectation = .identifier)
    (ha : State.start.runTo (some x) a = s) :
    (validate (a ++ x :: d)).trace = State.start.stepsTo (some x) 0 a ++
      ⟨a.length, s, .identifier, s.rejects x⟩ :: State.identifier.steps (a.length + 1) d := by
  rw [trace_append, List.head?_cons, ha, State.steps, State.advance_of_expectation hs]

theorem finalState_of_expectation (hs : s.expectation = .identifier)
    (ha : State.start.runTo (some x) a = s) :
    (validate (a ++ x :: d)).finalState = State.identifier.run d := by
  rw [finalState_append, List.head?_cons, ha, State.run, State.advance_of_expectation hs]

/-- Where a name is expected at the seam, the token there is complained about unless it is a
name, and what follows is read as after a name. -/
theorem diagnostics_of_expectation (hs : s.expectation = .identifier)
    (ha : State.start.runTo (some x) a = s) :
    (validate (a ++ x :: d)).diagnostics = (complaints (validate a).trace a).map Prod.snd ++
      (s.unlessName x ++ (State.identifier.unexpected d ++
        ending (State.identifier.run d) (endOffset (x :: d)))) := by
  have hfirst : s.unexpected (x :: d) = s.unlessName x ++ State.identifier.unexpected d := by
    rw [State.unexpected_eq s 0, State.unexpected_eq .identifier 1, State.steps, complaints_cons,
      State.advance_of_expectation hs, State.rejects_of_expectation hs, State.unlessName]
    by_cases hk : x.kind = .identifier <;> simp [hk, Step.diagnostic, hs]
  rw [diagnostics_append, List.head?_cons, ha, finalState_of_expectation hs ha, hfirst,
    endOffset_append_of_ne_nil a (List.cons_ne_nil x d), List.append_assoc]

/-! ### Behind `var`, and behind a closed declaration -/

section Opened

variable {v : Token}

/-- The word `var` alone leads to the state after it. -/
theorem runTo_of_opening (hv : State.Move .start v .var) (next : Option Token) :
    State.start.runTo next [v] = .var :=
  State.runTo_of_run? hv.run?_singleton next

/-- The trace of an opening word with more behind it, as `trace_of_expectation` gives it. -/
theorem trace_of_opening (hv : State.Move .start v .var) (x : Token) (d : List Token) :
    (validate (v :: x :: d)).trace =
      ⟨0, .start, .var, false⟩ :: ⟨1, .var, .identifier, State.var.rejects x⟩ ::
        State.identifier.steps 2 d := by
  have htrace := trace_of_expectation (d := d) rfl (runTo_of_opening hv (some x))
  rwa [State.stepsTo, hv.advance_eq, hv.rejects_eq] at htrace

/-- The diagnostics of an opening word with more behind it. The word itself gives none. -/
theorem diagnostics_of_opening (hv : State.Move .start v .var) (x : Token) (d : List Token) :
    (validate (v :: x :: d)).diagnostics = State.var.unlessName x ++
      (State.identifier.unexpected d ++
        ending (State.identifier.run d) (endOffset (x :: d))) := by
  have hdiag := diagnostics_of_expectation (d := d) rfl (runTo_of_opening hv (some x))
  rwa [complaints_of_run? hv.run?_singleton, List.map_nil, List.nil_append] at hdiag

end Opened

/-- Where the run ends in a closed declaration, nothing that follows could have changed its last
step. -/
theorem runTo_of_closed (ha : (validate a).finalState = .semicolon) (next : Option Token) :
    State.start.runTo next a = .semicolon ∧
      ∀ i, State.start.stepsTo next i a = State.start.steps i a := by
  have hrun : State.start.run a = .semicolon := ha
  have hne : State.start.run a ≠ .identifier := by
    rw [hrun]
    decide
  rw [← hrun]
  exact State.runTo_of_run_ne hne next

/-- The trace of what follows a closed declaration stands behind that of the declaration. -/
theorem trace_of_closed (ha : (validate a).finalState = .semicolon) (x : Token)
    (d : List Token) :
    (validate (a ++ x :: d)).trace = (validate a).trace ++
      ⟨a.length, .semicolon, .identifier, State.semicolon.rejects x⟩ ::
        State.identifier.steps (a.length + 1) d := by
  obtain ⟨hrun, hsteps⟩ := runTo_of_closed ha (some x)
  rw [trace_of_expectation rfl hrun, hsteps]
  rfl

/-- A closed declaration needs no more tokens, so nothing is said about the end of the block. -/
theorem diagnostics_of_closed (ha : (validate a).finalState = .semicolon) (x : Token)
    (d : List Token) :
    (validate (a ++ x :: d)).diagnostics = (validate a).diagnostics ++
      (State.semicolon.unlessName x ++ (State.identifier.unexpected d ++
        ending (State.identifier.run d) (endOffset (x :: d)))) := by
  rw [diagnostics_of_expectation rfl (runTo_of_closed ha (some x)).1, diagnostics_validate a, ha,
    ending_eq_nil_iff.mpr rfl, List.append_nil]

end Resume

/-- **Errors stay within a closed declaration**: whatever was wrong before it, the tokens after it
are read as they are after `var`. Only the state differs, in which the first of them is met. -/
theorem validate_append_of_closed (a d : List Token) (v x : Token)
    (ha : (validate a).finalState = .semicolon)
    (hv : ∃ s, State.start.transition v = .ok s) :
    (∃ step rest,
      (validate (v :: x :: d)).trace = ⟨0, .start, .var, false⟩ :: step :: rest ∧
        step.source = .var ∧
        (validate (a ++ x :: d)).trace = (validate a).trace ++
          ({ step with source := .semicolon } :: rest).map (Step.reindex (· + a.length - 1))) ∧
    (∃ rest,
      (validate (v :: x :: d)).diagnostics = State.var.unlessName x ++ rest ∧
        (validate (a ++ x :: d)).diagnostics =
          (validate a).diagnostics ++ (State.semicolon.unlessName x ++ rest)) ∧
    (validate (a ++ x :: d)).finalState = (validate (v :: x :: d)).finalState := by
  obtain ⟨s, hs⟩ := hv
  cases State.transition_eq_ok_iff.mp hs with
  | start hv =>
    have hmove : State.Move .start v .var := .start hv
    refine ⟨⟨_, _, trace_of_opening hmove x d, rfl, ?_⟩,
      ⟨_, diagnostics_of_opening hmove x d, diagnostics_of_closed ha x d⟩, ?_⟩
    · -- The traces agree after their first tokens up to a shift of the numbers, which is `reindex`.
      have hshift : ∀ k, 2 + k + a.length - 1 = a.length + 1 + k := by
        intro k
        omega
      have hfirst : 1 + a.length - 1 = a.length := Nat.add_sub_cancel_left 1 a.length
      have hrejects : State.semicolon.rejects x = State.var.rejects x := by
        rw [State.rejects_of_expectation rfl, State.rejects_of_expectation rfl]
      rw [trace_of_closed ha, List.map_cons, State.map_reindex_steps hshift, hrejects]
      simp only [Step.reindex, hfirst]
    · have hclosed := finalState_of_expectation (d := d) rfl (runTo_of_closed ha (some x)).1
      have hopened := finalState_of_expectation (d := d) rfl (runTo_of_opening hmove (some x))
      exact hclosed.trans hopened.symm

/-- In `vr a: real;` the opening word is misspelt. -/
def misspeltOpening : List Token :=
  [⟨.identifier, "vr", 0⟩, ⟨.identifier, "a", 3⟩, ⟨.colon, ":", 4⟩, ⟨.type, "real", 6⟩,
    ⟨.semicolon, ";", 10⟩]

/-- A block with a misspelt opening is closed all the same. A digit and a comma behind it are
reported as they are behind `var`. -/
theorem validate_append_of_closed_misspelt :
    (validate misspeltOpening).finalState = .semicolon ∧
      (∃ s, State.start.transition ⟨.keyword, "var", 0⟩ = .ok s) ∧
      (validate (misspeltOpening ++ [⟨.digit, "1", 12⟩, ⟨.delimiter, ",", 13⟩])).diagnostics =
        [.unexpected .start ⟨.varKeyword, .identifier⟩ ⟨.identifier, "vr", 0⟩,
          .unexpected .semicolon ⟨.identifier, .digit⟩ ⟨.digit, "1", 12⟩,
          .unterminated .delimiter 14] ∧
      (validate (misspeltOpening ++ [⟨.digit, "1", 12⟩, ⟨.delimiter, ",", 13⟩])).finalState =
        .delimiter := by
  have hclosed : (validate misspeltOpening).finalState = .semicolon := by decide
  have hopens : ∃ s, State.start.transition ⟨.keyword, "var", 0⟩ = .ok s := ⟨.var, rfl⟩
  obtain ⟨-, ⟨rest, hfresh, hresumed⟩, hfinal⟩ := validate_append_of_closed misspeltOpening
    [⟨.delimiter, ",", 13⟩] ⟨.keyword, "var", 0⟩ ⟨.digit, "1", 12⟩ hclosed hopens
  -- behind `var` the digit is met in another state, and the rest is the same
  have hrest : rest = [.unterminated .delimiter 14] := (List.cons.inj hfresh).2.symm
  rw [hrest] at hresumed
  exact ⟨hclosed, hopens, hresumed.trans (by decide), hfinal.trans (by decide)⟩

end VarBlock
