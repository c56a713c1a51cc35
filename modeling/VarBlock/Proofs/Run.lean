import VarBlock.Report

/-!
# Runs over a list of tokens

A report is put together by three recursions over the tokens: the final state, the trace, and the
diagnostics. Here all three are brought down to the trace, and the trace is cut into pieces.

* `transition_eq_ok_iff`: the moves on a fitting token are the eight rules of `Move`.
* `steps_append`, `run_append`: a run over `a ++ b` is a run over `a` that has the first token of
  `b` in sight, followed by a run over `b`.
* `located_validate`: the diagnostics about tokens are those of the recovered steps, in order.
* `run?`: reading that gives up at the first token that does not fit, and what it says about a
  report (`diagnostics_of_run?`, `complaints_of_rejects`).
-/

namespace VarBlock

namespace State

/-! ## Moves -/

/-- The moves on a token that fits, one constructor for each arrow of the diagram of states. At the
start only the text of the token counts, later only its kind. -/
inductive Move : State → Token → State → Prop
  | start {t : Token} : t.text = TokenKind.varWord → Move .start t .var
  | first {t : Token} : t.kind = .identifier → Move .var t .identifier
  | next {t : Token} : t.kind = .identifier → Move .delimiter t .identifier
  | again {t : Token} : t.kind = .identifier → Move .semicolon t .identifier
  | delimiter {t : Token} : t.kind = .delimiter → Move .identifier t .delimiter
  | colon {t : Token} : t.kind = .colon → Move .identifier t .colon
  | type {t : Token} : t.kind = .type → Move .colon t .type
  | semicolon {t : Token} : t.kind = .semicolon → Move .type t .semicolon

/-- A move is what `transition` accepts. The other direction is `transition_eq_ok_iff`. -/
theorem Move.transition_eq {s s' : State} {t : Token} (h : Move s t s') :
    s.transition t = .ok s' := by
  cases h <;> simp [transition, *]

/-- A step of the table either is a move or refuses the token, and names what was expected. -/
theorem move_or_mismatch (s : State) (t : Token) :
    (∃ s', Move s t s') ∨ s.transition t = .error ⟨s.expectation, t.kind⟩ := by
  -- One case for each state, and in it one for each constructor of `Move` from there. Every other
  -- token is a mismatch.
  cases s with
  | start =>
    by_cases ht : t.text = TokenKind.varWord
    · exact .inl ⟨_, .start ht⟩
    · exact .inr (by simp [transition, transition.mismatch, ht])
  | var =>
    cases hk : t.kind with
    | identifier => exact .inl ⟨_, .first hk⟩
    | _ => exact .inr (by simp [transition, transition.mismatch, hk])
  | delimiter =>
    cases hk : t.kind with
    | identifier => exact .inl ⟨_, .next hk⟩
    | _ => exact .inr (by simp [transition, transition.mismatch, hk])
  | semicolon =>
    cases hk : t.kind with
    | identifier => exact .inl ⟨_, .again hk⟩
    | _ => exact .inr (by simp [transition, transition.mismatch, hk])
  | identifier =>
    cases hk : t.kind with
    | delimiter => exact .inl ⟨_, .delimiter hk⟩
    | colon => exact .inl ⟨_, .colon hk⟩
    | _ => exact .inr (by simp [transition, transition.mismatch, hk])
  | colon =>
    cases hk : t.kind with
    | type => exact .inl ⟨_, .type hk⟩
    | _ => exact .inr (by simp [transition, transition.mismatch, hk])
  | type =>
    cases hk : t.kind with
    | semicolon => exact .inl ⟨_, .semicolon hk⟩
    | _ => exact .inr (by simp [transition, transition.mismatch, hk])

/-- `Move` is the graph of `transition` where it succeeds. -/
theorem transition_eq_ok_iff {s s' : State} {t : Token} :
    s.transition t = .ok s' ↔ Move s t s' := by
  constructor
  · intro h
    rcases move_or_mismatch s t with ⟨s'', hm⟩ | he
    · have heq : s'' = s' := by simpa [hm.transition_eq] using h
      exact heq ▸ hm
    · rw [he] at h; cases h
  · exact Move.transition_eq

theorem Move.rejects_eq {s s' : State} {t : Token} (h : Move s t s') : s.rejects t = false := by
  simp [rejects, h.transition_eq]

/-- On a token that is accepted the next one is not looked at. -/
theorem Move.advance_eq {s s' : State} {t : Token} (h : Move s t s') (next : Option Token) :
    s.advance t next = s' := by
  simp [advance, h.transition_eq]

/-- What is expected in a complaint depends on the state alone. -/
theorem transition_of_rejects {s : State} {t : Token} (h : s.rejects t = true) :
    s.transition t = .error ⟨s.expectation, t.kind⟩ := by
  rcases move_or_mismatch s t with ⟨s', hm⟩ | he
  · rw [hm.rejects_eq] at h; cases h
  · exact he

/-- A token that is not rejected moves the machine. With `Move.rejects_eq` the two cases exclude
each other. -/
theorem move_of_not_rejects {s : State} {t : Token} (h : s.rejects t = false) :
    ∃ s', Move s t s' := by
  rcases move_or_mismatch s t with hm | he
  · exact hm
  · simp [rejects, he] at h

/-- After a rejected token the state depends on the token in sight and on the state before, and not
on the token rejected. -/
theorem advance_of_rejects {s : State} {t : Token} (h : s.rejects t = true)
    (next : Option Token) : s.advance t next = s.predict next := by
  simp [advance, transition_of_rejects h]

/-- Only after a name is there a choice: every other state is always left for the same one, whether
the token fits or not. -/
theorem advance_of_ne_identifier {s : State} (hs : s ≠ .identifier) (t : Token)
    (next : Option Token) : s.advance t next = s.predict none := by
  cases hr : s.rejects t with
  | true =>
    rw [advance_of_rejects hr]
    cases s <;> first | rfl | exact absurd rfl hs
  | false =>
    obtain ⟨s', hm⟩ := move_of_not_rejects hr
    rw [hm.advance_eq]
    -- the only move from such a state goes where the prediction goes
    cases hm <;> first | rfl | exact absurd rfl hs

/-- Where a name is expected, a name is read. -/
theorem move_of_expectation {s : State} {t : Token} (hs : s.expectation = .identifier)
    (ht : t.kind = .identifier) : Move s t .identifier := by
  cases s with
  | var => exact .first ht
  | delimiter => exact .next ht
  | semicolon => exact .again ht
  | start => cases hs
  | identifier => cases hs
  | colon => cases hs
  | type => cases hs

/-- Where a name is expected, anything is taken for one. -/
theorem advance_of_expectation {s : State} (hs : s.expectation = .identifier) (t : Token)
    (next : Option Token) : s.advance t next = .identifier := by
  have hne : s ≠ .identifier := by
    rintro rfl
    cases hs
  -- Only after a name would the next token matter.
  rw [advance_of_ne_identifier hne]
  cases s with
  | var => rfl
  | delimiter => rfl
  | semicolon => rfl
  | identifier => exact absurd rfl hne
  | start => cases hs
  | colon => cases hs
  | type => cases hs

/-- After a name the token in sight decides: a name stands for a forgotten delimiter, a type for a
forgotten colon, and anything else or nothing leaves the state as it is. -/
theorem predict_identifier_cases (next : Option Token) :
    (∃ t, next = some t ∧ t.kind = .identifier ∧ identifier.predict next = .delimiter) ∨
      (∃ t, next = some t ∧ t.kind = .type ∧ identifier.predict next = .colon) ∨
        identifier.predict next = .identifier := by
  cases next with
  | none => exact .inr (.inr rfl)
  | some t =>
    cases hk : t.kind with
    | identifier => exact .inl ⟨t, rfl, hk, by simp [predict, hk]⟩
    | type => exact .inr (.inl ⟨t, rfl, hk, by simp [predict, hk]⟩)
    | _ => exact .inr (.inr (by simp [predict, hk]))

/-- Only a name or a type in sight makes recovery lead on from a name. -/
theorem predict_identifier_ne_iff {next : Option Token} :
    State.identifier.predict next ≠ .identifier ↔
      ∃ u, next = some u ∧ (u.kind = .identifier ∨ u.kind = .type) := by
  constructor
  · intro h
    rcases predict_identifier_cases next with ⟨u, hu, hk, -⟩ | ⟨u, hu, hk, -⟩ | hp
    · exact ⟨u, hu, .inl hk⟩
    · exact ⟨u, hu, .inr hk⟩
    · exact absurd hp h
  · rintro ⟨u, rfl, hk | hk⟩ <;> simp [predict, hk]

/-- After a name only a delimiter and a colon fit. -/
theorem rejects_identifier_iff {t : Token} :
    State.identifier.rejects t = true ↔ ¬ (t.kind = .colon ∨ t.kind = .delimiter) := by
  constructor
  · intro hr
    rintro (hk | hk)
    · rw [(Move.colon hk).rejects_eq] at hr
      cases hr
    · rw [(Move.delimiter hk).rejects_eq] at hr
      cases hr
  · intro hk
    -- If the token were not rejected it would make a move, and there are two from here.
    refine Bool.of_not_eq_false fun hr => hk ?_
    obtain ⟨s, hm⟩ := move_of_not_rejects hr
    cases hm with
    | colon h => exact .inl h
    | delimiter h => exact .inr h

end State

/-- The same step as a step of another token. -/
def Step.reindex (f : Nat → Nat) (step : Step) : Step := { step with index := f step.index }

namespace State

/-! ## Runs with a token in sight

The step on the last of some tokens may depend on the token that follows. `runTo` and `stepsTo` are
`run` and `steps` with that token given. -/

/-- The state after the tokens, where `next` is the token that follows them. -/
def runTo (s : State) (next : Option Token) : List Token → State
  | [] => s
  | t :: ts => runTo (s.advance t (ts.head?.or next)) next ts

/-- The steps of the tokens, numbered from `index`, where `next` is the token that follows them. -/
def stepsTo (s : State) (next : Option Token) (index : Nat) : List Token → List Step
  | [] => []
  | t :: ts =>
    let s' := s.advance t (ts.head?.or next)
    ⟨index, s, s', s.rejects t⟩ :: s'.stepsTo next (index + 1) ts

/-- A whole run has nothing in sight at its end. -/
theorem run_eq_runTo (s : State) (ts : List Token) : s.run ts = s.runTo none ts := by
  induction ts generalizing s with
  | nil => rfl
  | cons t ts ih =>
    rw [run, runTo, Option.or_none]
    exact ih _

/-- The steps of a whole run have nothing in sight at their end. -/
theorem steps_eq_stepsTo (s : State) (i : Nat) (ts : List Token) :
    s.steps i ts = s.stepsTo none i ts := by
  induction ts generalizing s i with
  | nil => rfl
  | cons t ts ih =>
    simp only [steps, stepsTo, Option.or_none]
    rw [ih]

/-- A run is cut in two. The first part has the first token of the second in sight. -/
theorem run_append (s : State) (a b : List Token) :
    s.run (a ++ b) = (s.runTo b.head? a).run b := by
  induction a generalizing s with
  | nil => rfl
  | cons t a ih =>
    rw [List.cons_append, run, List.head?_append]
    exact ih _

/-- The steps are cut in two in the same way, and those of the second part are numbered on. -/
theorem steps_append (s : State) (i : Nat) (a b : List Token) :
    s.steps i (a ++ b) =
      s.stepsTo b.head? i a ++ (s.runTo b.head? a).steps (i + a.length) b := by
  induction a generalizing s i with
  | nil => rfl
  | cons t a ih =>
    simp only [List.cons_append, steps, stepsTo, List.head?_append]
    rw [ih, List.length_cons, Nat.add_right_comm i 1, Nat.add_assoc i, runTo]

/-- Only the last step sees the token that follows. If that step does not tell two such tokens
apart, the run does not either. -/
theorem runTo_congr {s : State} {next next' : Option Token} {ts : List Token}
    (h : ∀ (s' : State) (t : Token), s.runTo next ts = s'.advance t next →
      s'.advance t next' = s'.advance t next) :
    s.runTo next' ts = s.runTo next ts ∧
      ∀ i, s.stepsTo next' i ts = s.stepsTo next i ts := by
  induction ts generalizing s with
  | nil => exact ⟨rfl, fun _ => rfl⟩
  | cons t ts ih =>
    have hadv : s.advance t (ts.head?.or next') = s.advance t (ts.head?.or next) := by
      -- The token in sight is used for the last token only, and `h` speaks of it.
      cases ts with
      | nil => exact h s t rfl
      | cons u ts => rfl
    obtain ⟨hrun, hsteps⟩ := ih h
    constructor
    · rw [runTo, hadv, hrun]
      rfl
    · intro i
      rw [stepsTo, hadv, hsteps]
      rfl

/-- The state after the tokens is where the last step leads. -/
theorem run_eq_target_getLast? (s : State) (i : Nat) (ts : List Token) :
    s.run ts = ((s.steps i ts).getLast?.map Step.target).getD s := by
  induction ts generalizing s i with
  | nil => rfl
  | cons t ts ih =>
    rw [run, ih _ (i + 1), steps, List.getLast?_cons]
    cases ((s.advance t ts.head?).steps (i + 1) ts).getLast? <;> rfl

@[simp] theorem length_stepsTo (s : State) (next : Option Token) (i : Nat) (ts : List Token) :
    (s.stepsTo next i ts).length = ts.length := by
  induction ts generalizing s i with
  | nil => rfl
  | cons t ts ih => simp [stepsTo, ih]

@[simp] theorem length_steps (s : State) (i : Nat) (ts : List Token) :
    (s.steps i ts).length = ts.length := by
  rw [steps_eq_stepsTo, length_stepsTo]

/-- The steps are numbered one after the other. -/
theorem map_index_stepsTo (s : State) (next : Option Token) (i : Nat) (ts : List Token) :
    (s.stepsTo next i ts).map Step.index = List.range' i ts.length := by
  induction ts generalizing s i with
  | nil => rfl
  | cons t ts ih => simp [stepsTo, ih, List.range'_succ]

/-- The steps depend on the first index only through their own indices. -/
theorem map_reindex_steps {f : Nat → Nat} {i j : Nat} (hf : ∀ k, f (i + k) = j + k) (s : State)
    (ts : List Token) : (s.steps i ts).map (Step.reindex f) = s.steps j ts := by
  induction ts generalizing s i j with
  | nil => rfl
  | cons t ts ih =>
    have hf' : ∀ k, f (i + 1 + k) = j + 1 + k := by
      intro k
      rw [Nat.add_assoc, hf, Nat.add_assoc]
    have hi : f i = j := hf 0
    simp only [steps, List.map_cons, ih hf', Step.reindex, hi]

/-! ## Reading without errors -/

/-- The state after the tokens, none if one of them does not fit. -/
def run? (s : State) : List Token → Option State
  | [] => some s
  | t :: ts =>
    match s.transition t with
    | .ok s' => s'.run? ts
    | .error _ => none

/-- A run without recovery takes a move as its first step. -/
theorem Move.run?_cons {s s' : State} {t : Token} (h : Move s t s') (ts : List Token) :
    s.run? (t :: ts) = s'.run? ts := by
  simp only [run?, h.transition_eq]

theorem Move.run?_singleton {s s' : State} {t : Token} (h : Move s t s') :
    s.run? [t] = some s' := by
  rw [h.run?_cons]
  rfl

/-- A run without recovery ends at the first token that is rejected. -/
theorem run?_cons_of_rejects {s : State} {t : Token} (h : s.rejects t = true) (ts : List Token) :
    s.run? (t :: ts) = none := by
  simp only [run?, transition_of_rejects h]

/-- A run without recovery is cut in two. No token has to be in sight, since none is rejected. -/
theorem run?_append (s : State) (a b : List Token) :
    s.run? (a ++ b) = (s.run? a).bind fun s' => s'.run? b := by
  induction a generalizing s with
  | nil => rfl
  | cons t a ih =>
    rw [List.cons_append]
    -- Where the first token is rejected both sides give up. Otherwise it moves the machine on both.
    cases h : s.rejects t with
    | true => rw [run?_cons_of_rejects h, run?_cons_of_rejects h, Option.bind_none]
    | false =>
      obtain ⟨s', hm⟩ := move_of_not_rejects h
      rw [hm.run?_cons, hm.run?_cons, ih]

/-- A run without recovery over a token and more is a move and such a run. -/
theorem run?_cons_eq_some_iff {s s' : State} {t : Token} {ts : List Token} :
    s.run? (t :: ts) = some s' ↔ ∃ s₁, Move s t s₁ ∧ s₁.run? ts = some s' := by
  constructor
  · intro h
    cases hr : s.rejects t with
    | true => rw [run?_cons_of_rejects hr] at h; cases h
    | false =>
      obtain ⟨s₁, hm⟩ := move_of_not_rejects hr
      exact ⟨s₁, hm, by rwa [hm.run?_cons] at h⟩
  · rintro ⟨s₁, hm, h⟩
    rwa [hm.run?_cons]

/-- Reading with errors stops at the first token that does not fit. -/
theorem run?_eq_none_iff {s : State} {ts : List Token} :
    s.run? ts = none ↔
      ∃ a t b s', ts = a ++ t :: b ∧ s.run? a = some s' ∧ s'.rejects t = true := by
  constructor
  · intro h
    induction ts generalizing s with
    | nil => cases h
    | cons t ts ih =>
      -- Either the first token is the one that is rejected, or a move is made and it comes later.
      cases hr : s.rejects t with
      | true => exact ⟨[], t, ts, s, rfl, rfl, hr⟩
      | false =>
        obtain ⟨s₁, hm⟩ := move_of_not_rejects hr
        rw [hm.run?_cons] at h
        obtain ⟨a, u, b, s', rfl, ha, hu⟩ := ih h
        exact ⟨t :: a, u, b, s', rfl, by rw [hm.run?_cons, ha], hu⟩
  · rintro ⟨a, t, b, s', rfl, ha, ht⟩
    rw [run?_append, ha, Option.bind_some, run?_cons_of_rejects ht]

/-- Where all tokens fit, the token in sight does not matter. -/
theorem runTo_of_run? {s s' : State} {ts : List Token} (h : s.run? ts = some s')
    (next : Option Token) : s.runTo next ts = s' := by
  induction ts generalizing s with
  | nil => exact Option.some.inj h
  | cons t ts ih =>
    obtain ⟨s₁, hm, h₁⟩ := run?_cons_eq_some_iff.mp h
    rw [runTo, hm.advance_eq]
    exact ih h₁

/-- Where no recovery is needed, the run with recovery is the same. -/
theorem run_of_run? {s s' : State} {ts : List Token} (h : s.run? ts = some s') :
    s.run ts = s' := by
  rw [run_eq_runTo, runTo_of_run? h]

/-- No step of a run without recovery is marked as recovered. -/
theorem stepsTo_of_run? {s s' : State} {ts : List Token} (h : s.run? ts = some s')
    (next : Option Token) (i : Nat) : ∀ step ∈ s.stepsTo next i ts, step.recovered = false := by
  induction ts generalizing s i with
  | nil => intro step hs; cases hs
  | cons t ts ih =>
    -- The run without recovery tells that the first token makes a move, so its step is no recovery.
    obtain ⟨s₁, hm, h₁⟩ := run?_cons_eq_some_iff.mp h
    intro step hs
    simp only [stepsTo, hm.advance_eq, List.mem_cons] at hs
    rcases hs with rfl | hs
    · exact hm.rejects_eq
    · exact ih h₁ _ step hs

theorem steps_of_run? {s s' : State} {ts : List Token} (h : s.run? ts = some s') (i : Nat) :
    ∀ step ∈ s.steps i ts, step.recovered = false := by
  rw [steps_eq_stepsTo]
  exact stepsTo_of_run? h none i

end State

/-! ## From the trace to the diagnostics -/

/-- What a step says about its token when the token does not fit. -/
def Step.diagnostic (step : Step) (t : Token) : Diagnostic :=
  .unexpected step.source ⟨step.source.expectation, t.kind⟩ t

/-- The diagnostics of the recovered steps, each with the index of the token it is about. -/
def complaints (steps : List Step) (ts : List Token) : List (Nat × Diagnostic) :=
  ((steps.zip ts).filter fun x => x.1.recovered).map fun x => (x.1.index, x.1.diagnostic x.2)

/-- The complaint of the first step, if it has one, comes first. -/
theorem complaints_cons (step : Step) (steps : List Step) (t : Token) (ts : List Token) :
    complaints (step :: steps) (t :: ts) =
      if step.recovered then (step.index, step.diagnostic t) :: complaints steps ts
      else complaints steps ts := by
  cases h : step.recovered <;> simp [complaints, h]

/-- The complaints of two parts follow each other, if there is a step for each token of the
first. -/
theorem complaints_append {steps : List Step} {ts : List Token} (h : steps.length = ts.length)
    (steps' : List Step) (ts' : List Token) :
    complaints (steps ++ steps') (ts ++ ts') = complaints steps ts ++ complaints steps' ts' := by
  rw [complaints, List.zip_append h, List.filter_append, List.map_append]
  rfl

/-- Without a recovery there is no complaint. -/
theorem complaints_eq_nil {steps : List Step} (h : ∀ step ∈ steps, step.recovered = false)
    (ts : List Token) : complaints steps ts = [] := by
  have hnone : (steps.zip ts).filter (fun x => x.1.recovered) = [] := by
    rw [List.filter_eq_nil_iff]
    intro x hx
    simp [h x.1 (List.of_mem_zip hx).1]
  rw [complaints, hnone, List.map_nil]

/-- A complaint is about a recovered step, and says where this came from. -/
theorem exists_step_of_mem_complaints {steps : List Step} {ts : List Token} {d : Diagnostic}
    (h : d ∈ (complaints steps ts).map Prod.snd) :
    ∃ step ∈ steps, step.recovered = true ∧ d.problem.state = step.source := by
  rw [complaints, List.map_map] at h
  obtain ⟨⟨step, t⟩, hmem, rfl⟩ := List.mem_map.mp h
  obtain ⟨hzip, hrecovered⟩ := List.mem_filter.mp hmem
  exact ⟨step, (List.of_mem_zip hzip).1, hrecovered, rfl⟩

/-- A complaint of a step is about an unexpected token, never about an input that ends too early. -/
theorem isUnexpected_of_mem_complaints {steps : List Step} {ts : List Token} {d : Diagnostic}
    (h : d ∈ (complaints steps ts).map Prod.snd) : d.isUnexpected = true := by
  rw [complaints, List.map_map] at h
  obtain ⟨x, -, rfl⟩ := List.mem_map.mp h
  rfl

/-- The complaints are placed where the recovered steps are. -/
theorem map_fst_complaints {steps : List Step} {ts : List Token} (h : steps.length = ts.length) :
    (complaints steps ts).map Prod.fst = (steps.filter Step.recovered).map Step.index := by
  induction steps generalizing ts with
  | nil => rfl
  | cons step steps ih =>
    cases ts with
    | nil => cases h
    | cons t ts =>
      have hlen : steps.length = ts.length := Nat.succ.inj h
      rw [complaints_cons, List.filter_cons]
      split
      · rw [List.map_cons, List.map_cons, ih hlen]
      · exact ih hlen

/-- There are as many complaints as recovered steps. -/
theorem length_complaints {steps : List Step} {ts : List Token} (h : steps.length = ts.length) :
    (complaints steps ts).length = steps.countP Step.recovered := by
  rw [← List.length_map Prod.fst, map_fst_complaints h, List.length_map,
    List.countP_eq_length_filter]

/-- The complaints of a run are about tokens of the run. -/
theorem exists_of_mem_complaints {s : State} {next : Option Token} {i : Nat} {ts : List Token}
    {x : Nat × Diagnostic} (h : x ∈ complaints (s.stepsTo next i ts) ts) :
    ∃ k t s' m, ts[k]? = some t ∧ x = (i + k, .unexpected s' m t) := by
  induction ts generalizing s i with
  | nil => cases h
  | cons t ts ih =>
    have hcases :
        x = (i, (Step.mk i s (s.advance t (ts.head?.or next)) (s.rejects t)).diagnostic t) ∨
        x ∈ complaints ((s.advance t (ts.head?.or next)).stepsTo next (i + 1) ts) ts := by
      rw [State.stepsTo, complaints_cons] at h
      split at h
      · exact List.mem_cons.mp h
      · exact .inr h
    rcases hcases with rfl | h
    · exact ⟨0, t, _, _, rfl, rfl⟩
    · obtain ⟨k, u, s', m, hk, rfl⟩ := ih h
      exact ⟨k + 1, u, s', m, hk, by rw [Nat.add_right_comm, Nat.add_assoc]⟩

/-- A complaint is placed within the tokens that the steps have read. -/
theorem index_of_mem_complaints {s : State} {next : Option Token} {i : Nat} {ts : List Token}
    {x : Nat × Diagnostic} (h : x ∈ complaints (s.stepsTo next i ts) ts) :
    i ≤ x.1 ∧ x.1 < i + ts.length := by
  obtain ⟨k, t, s', m, hk, rfl⟩ := exists_of_mem_complaints h
  obtain ⟨hlt, -⟩ := List.getElem?_eq_some_iff.mp hk
  exact ⟨Nat.le_add_right i k, Nat.add_lt_add_left hlt i⟩

/-- About one token there is one complaint if its step is recovered, and otherwise none. -/
theorem filter_complaints {s : State} {next : Option Token} {i k : Nat} {ts : List Token}
    {step : Step} {t : Token} (hstep : (s.stepsTo next i ts)[k]? = some step)
    (ht : ts[k]? = some t) :
    (complaints (s.stepsTo next i ts) ts).filter (fun x => x.1 = i + k) =
      if step.recovered then [(i + k, step.diagnostic t)] else [] := by
  induction ts generalizing s i k with
  | nil => cases ht
  | cons u us ih =>
    rw [State.stepsTo, complaints_cons]
    cases k with
    | zero =>
      obtain rfl := Option.some.inj hstep
      obtain rfl := Option.some.inj ht
      -- the complaints about the tokens behind it have greater indices
      have hrest : ∀ s' : State, (complaints (s'.stepsTo next (i + 1) us) us).filter
          (fun x => x.1 = i + 0) = [] := by
        intro s'
        rw [List.filter_eq_nil_iff]
        intro x hx
        have hle := (index_of_mem_complaints hx).1
        simp
        omega
      split
      · rw [List.filter_cons_of_pos (by simp), hrest]
        rfl
      · exact hrest _
    | succ k =>
      have hih := ih (i := i + 1) hstep ht
      rw [Nat.add_right_comm, Nat.add_assoc] at hih
      split
      · rw [List.filter_cons_of_neg (by simp), hih]
      · exact hih

namespace Report

/-- The diagnostics about tokens, each with the index of its token. The tokens that did not fit are
the first to be reported, in order. -/
def located (r : Report) : List (Nat × Diagnostic) := r.recovered.zip r.diagnostics

end Report

/-- What is reported at the end of a block that ends in the state `s` at `offset`. -/
def ending (s : State) (offset : Nat) : List Diagnostic :=
  if s.isTerminal then [] else [.unterminated s offset]

/-- The end of an input is where its last token ends, so what stands before does not matter. -/
theorem endOffset_append_of_ne_nil (a : List Token) {b : List Token} (hb : b ≠ []) :
    endOffset (a ++ b) = endOffset b := by
  rw [endOffset, endOffset, List.getLast?_append, List.getLast?_eq_some_getLast hb, Option.some_or]

/-- `unexpected` reads the complaints off the tokens. It is the same to read them off the steps. -/
theorem State.unexpected_eq (s : State) (i : Nat) (ts : List Token) :
    s.unexpected ts = (complaints (s.steps i ts) ts).map Prod.snd := by
  induction ts generalizing s i with
  | nil => rfl
  | cons t ts ih =>
    simp only [unexpected, steps, complaints_cons]
    -- The table is asked on the left and `rejects` on the right, which is the same question.
    cases h : s.rejects t with
    | true =>
      rw [transition_of_rejects h, ih _ (i + 1)]
      rfl
    | false =>
      obtain ⟨s', hm⟩ := move_of_not_rejects h
      rw [hm.transition_eq, ih _ (i + 1)]
      rfl

/-- A report has the complaints of the trace, and after them at most the one about the end. -/
theorem diagnostics_validate (ts : List Token) :
    (validate ts).diagnostics =
      (complaints (validate ts).trace ts).map Prod.snd ++
        ending (validate ts).finalState (endOffset ts) := by
  rw [validate, State.unexpected_eq _ 0]
  rfl

/-- The input is reported as ending too early in a state that is not terminal, and the report names
this state. -/
theorem state_of_mem_ending {s : State} {offset : Nat} {d : Diagnostic} (h : d ∈ ending s offset) :
    s.isTerminal = false ∧ d.problem.state = s := by
  rw [ending] at h
  split at h
  · cases h
  · next hterminal =>
    obtain rfl := List.mem_singleton.mp h
    exact ⟨Bool.eq_false_iff.mpr hterminal, rfl⟩

/-- **The state that a diagnostic names** is the one in which its token was met, or the one in which
the block ends and may not end. -/
theorem state_of_mem_diagnostics {ts : List Token} {d : Diagnostic}
    (h : d ∈ (validate ts).diagnostics) :
    (∃ step ∈ (validate ts).trace, step.recovered = true ∧ d.problem.state = step.source) ∨
      (validate ts).finalState.isTerminal = false ∧
        d.problem.state = (validate ts).finalState := by
  rw [diagnostics_validate] at h
  exact (List.mem_append.mp h).imp exists_step_of_mem_complaints state_of_mem_ending

/-- What is reported about the end is no complaint about a token. -/
theorem filter_isUnexpected_ending (s : State) (offset : Nat) :
    (ending s offset).filter Diagnostic.isUnexpected = [] := by
  cases s <;> rfl

/-- Without the one about the end the diagnostics are the complaints of the trace. -/
theorem filter_isUnexpected_validate (ts : List Token) :
    (validate ts).diagnostics.filter Diagnostic.isUnexpected =
      (complaints (validate ts).trace ts).map Prod.snd := by
  rw [diagnostics_validate, List.filter_append, filter_isUnexpected_ending, List.append_nil,
    List.filter_eq_self]
  intro d hd
  exact isUnexpected_of_mem_complaints hd

@[simp] theorem length_trace (ts : List Token) : (validate ts).trace.length = ts.length :=
  State.length_steps _ _ _

/-- The recovered tokens of a report are those of the complaints. -/
theorem recovered_validate (ts : List Token) :
    (validate ts).recovered = (complaints (validate ts).trace ts).map Prod.fst := by
  rw [map_fst_complaints (length_trace ts)]
  rfl

/-- The two lists that `located` puts together have been taken from one list of complaints. -/
theorem located_validate (ts : List Token) :
    (validate ts).located = complaints (validate ts).trace ts := by
  rw [Report.located, recovered_validate, diagnostics_validate]
  -- the zip stops where the complaints end, so the ending is left out
  generalize complaints (validate ts).trace ts = xs
  rw [← List.append_nil (xs.map Prod.fst), List.zip_append (by simp)]
  simp [List.zip_map']

/-- The diagnostics about tokens are those that are not about the end of the block. -/
theorem map_snd_located (ts : List Token) :
    (validate ts).located.map Prod.snd =
      (validate ts).diagnostics.filter Diagnostic.isUnexpected := by
  rw [located_validate, filter_isUnexpected_validate]

/-- At a token there is one complaint if the step was recovered, and none otherwise. -/
theorem filter_located {ts : List Token} {i : Nat} {step : Step} {t : Token}
    (hstep : (validate ts).trace[i]? = some step) (ht : ts[i]? = some t) :
    (validate ts).located.filter (fun x => x.1 = i) =
      if step.recovered then [(i, step.diagnostic t)] else [] := by
  have hsteps : (validate ts).trace = State.start.stepsTo none 0 ts := State.steps_eq_stepsTo _ _ _
  rw [hsteps] at hstep
  have hfilter := filter_complaints hstep ht
  rwa [Nat.zero_add, ← hsteps, ← located_validate] at hfilter

/-- A located complaint is about the token at its place. -/
theorem exists_of_mem_located {ts : List Token} {x : Nat × Diagnostic}
    (h : x ∈ (validate ts).located) :
    ∃ t s m, ts[x.1]? = some t ∧ x.2 = .unexpected s m t := by
  rw [located_validate] at h
  have hmem : x ∈ complaints (State.start.stepsTo none 0 ts) ts := by
    rwa [← State.steps_eq_stepsTo]
  obtain ⟨k, t, s, m, hk, rfl⟩ := exists_of_mem_complaints hmem
  exact ⟨t, s, m, by rwa [Nat.zero_add], rfl⟩

/-! ## The report of two pieces -/

/-- The trace of two token lists is that of the first, with a token in sight, and that of the second
from the state reached. -/
theorem trace_append (a b : List Token) :
    (validate (a ++ b)).trace =
      State.start.stepsTo b.head? 0 a ++ (State.start.runTo b.head? a).steps a.length b := by
  show State.start.steps 0 (a ++ b) = _
  rw [State.steps_append, Nat.zero_add]

/-- The final state is that of the second list from the state that the first leads to. -/
theorem finalState_append (a b : List Token) :
    (validate (a ++ b)).finalState = (State.start.runTo b.head? a).run b :=
  State.run_append .start a b

/-! ## The steps of a report -/

theorem map_index_trace (ts : List Token) :
    (validate ts).trace.map Step.index = List.range' 0 ts.length := by
  show (State.start.steps 0 ts).map Step.index = _
  rw [State.steps_eq_stepsTo, State.map_index_stepsTo]

theorem index_lt_of_mem {ts : List Token} {step : Step} (h : step ∈ (validate ts).trace) :
    step.index < ts.length := by
  have hmem : step.index ∈ (validate ts).trace.map Step.index := List.mem_map_of_mem h
  rw [map_index_trace, List.mem_range'_1] at hmem
  omega

/-- A step is numbered by its place in the trace. -/
theorem index_of_getElem?_trace {ts : List Token} {k : Nat} {step : Step}
    (h : (validate ts).trace[k]? = some step) : step.index = k := by
  have hindex : ((validate ts).trace.map Step.index)[k]? = some step.index := by
    rw [List.getElem?_map, h, Option.map_some]
  rw [map_index_trace, List.getElem?_eq_some_iff] at hindex
  obtain ⟨_, hindex⟩ := hindex
  rw [List.getElem_range', Nat.zero_add, Nat.one_mul] at hindex
  exact hindex.symm

/-- A step stands in the trace where its index says. -/
theorem getElem?_index_of_mem {ts : List Token} {step : Step} (h : step ∈ (validate ts).trace) :
    (validate ts).trace[step.index]? = some step := by
  obtain ⟨k, hk⟩ := List.mem_iff_getElem?.mp h
  rwa [index_of_getElem?_trace hk]

/-! ## Reports of readings without errors, and of the first error -/

/-- Tokens that are accepted one after the other give no complaint. -/
theorem complaints_of_run? {ts : List Token} {s : State} (h : State.start.run? ts = some s) :
    complaints (validate ts).trace ts = [] :=
  complaints_eq_nil (State.steps_of_run? h 0) ts

/-- Where all tokens fit, only the end of the block is reported. -/
theorem diagnostics_of_run? {ts : List Token} {s : State} (h : State.start.run? ts = some s) :
    (validate ts).diagnostics = ending s (endOffset ts) := by
  rw [diagnostics_validate, complaints_of_run? h]
  show ending (State.start.run ts) _ = _
  rw [State.run_of_run? h]

/-- The first token that does not fit is the first to be reported. -/
theorem complaints_of_rejects {a b : List Token} {t : Token} {s : State}
    (ha : State.start.run? a = some s) (ht : s.rejects t = true) :
    ∃ rest, complaints (validate (a ++ t :: b)).trace (a ++ t :: b) =
      (a.length, .unexpected s ⟨s.expectation, t.kind⟩ t) :: rest := by
  have htrace : (validate (a ++ t :: b)).trace =
      State.start.stepsTo (some t) 0 a ++ s.steps a.length (t :: b) := by
    rw [trace_append, List.head?_cons, State.runTo_of_run? ha]
  have hclean := State.stepsTo_of_run? ha (some t) 0
  rw [htrace, complaints_append (by simp), complaints_eq_nil hclean, List.nil_append,
    State.steps, complaints_cons, ht]
  exact ⟨_, rfl⟩

/-- Nothing is said about the end if and only if a declaration has just been closed. -/
theorem ending_eq_nil_iff {s : State} {offset : Nat} :
    ending s offset = [] ↔ s = .semicolon := by
  cases s <;> simp [ending, State.isTerminal]

/-- Nothing is reported exactly where all tokens fit and the last closes a declaration. -/
theorem diagnostics_eq_nil_iff {ts : List Token} :
    (validate ts).diagnostics = [] ↔ State.start.run? ts = some .semicolon := by
  constructor
  · intro h
    cases hr : State.start.run? ts with
    | some s =>
      rw [diagnostics_of_run? hr, ending_eq_nil_iff] at h
      rw [h]
    | none =>
      -- A token that is rejected leaves a complaint behind, so the list would not be empty.
      obtain ⟨a, t, b, s, rfl, ha, ht⟩ := State.run?_eq_none_iff.mp hr
      obtain ⟨rest, hrest⟩ := complaints_of_rejects (b := b) ha ht
      rw [diagnostics_validate, hrest] at h
      cases h
  · intro h
    rw [diagnostics_of_run? h, ending_eq_nil_iff]

/-- A valid block is read without recovery, and a semicolon comes last. -/
theorem run?_of_isValid {ts : List Token} (h : (validate ts).isValid = true) :
    State.start.run? ts = some .semicolon :=
  diagnostics_eq_nil_iff.mp (List.isEmpty_iff.mp h)

end VarBlock
