import VarBlock.Proofs.Consistency

/-!
# One token in sight

After a name, recovery looks at the token that follows the rejected one and takes it at its word: a
name in sight means that the rejected token stands for a delimiter, a type that it stands for a
colon. The token in sight is not checked there, and need not be: the state that recovery leads to is
the one that has a move on it (`exists_move_of_sight`).

So in a trace a step that went by the token in sight is followed by an ordinary one on that very
token, and of two recovered steps in a row the first has not moved on from the name.

Both are read off two neighbouring steps of the trace (`exists_next_of_goesBySight`), of which the
second starts where the first has led and is about the token that was in sight.
-/

namespace VarBlock

/-- A recovered step that leads elsewhere than it would with no token in sight. -/
def Step.GoesBySight (step : Step) : Prop :=
  step.recovered = true ∧ step.target ≠ step.source.predict none

namespace State

variable {s : State} {t : Token} {next : Option Token}

/-! ## One step -/

/-- After any other state than that after a name, recovery does not look ahead. -/
theorem predict_of_ne_identifier (hs : s ≠ .identifier) (next : Option Token) :
    s.predict next = s.predict none := by
  cases s with
  | identifier => exact absurd rfl hs
  | _ => rfl

/-- The state that recovery leads to has a move on the token that it went by. -/
theorem exists_move_of_sight (h : State.identifier.predict next ≠ .identifier) :
    ∃ u s, next = some u ∧ Move (State.identifier.predict next) u s ∧
      (u.kind = .identifier ∧ State.identifier.predict next = .delimiter ∨
        u.kind = .type ∧ State.identifier.predict next = .colon) := by
  rcases predict_identifier_cases next with ⟨u, hu, hk, hp⟩ | ⟨u, hu, hk, hp⟩ | hp
  · exact ⟨u, .identifier, hu, by rw [hp]; exact .next hk, .inl ⟨hk, hp⟩⟩
  · exact ⟨u, .type, hu, by rw [hp]; exact .type hk, .inr ⟨hk, hp⟩⟩
  · exact absurd hp h

/-- The state after a name is left with a token that fits, or by what is in sight. -/
theorem advance_identifier_ne_iff :
    State.identifier.advance t next ≠ .identifier ↔
      (t.kind = .colon ∨ t.kind = .delimiter) ∨
        State.identifier.rejects t = true ∧ ∃ u, next = some u ∧
          (u.kind = .identifier ∧ State.identifier.advance t next = .delimiter ∨
            u.kind = .type ∧ State.identifier.advance t next = .colon) := by
  -- A rejected token is never a colon or a comma, and an accepted one is nothing else, so each side
  -- has one part left.
  cases hr : State.identifier.rejects t with
  | true =>
    rw [advance_of_rejects hr]
    constructor
    · intro h
      obtain ⟨u, s, hu, -, hkind⟩ := exists_move_of_sight h
      exact .inr ⟨rfl, u, hu, hkind⟩
    · rintro (hk | ⟨-, u, -, ⟨-, hp⟩ | ⟨-, hp⟩⟩)
      · exact absurd hk (rejects_identifier_iff.mp hr)
      · simp [hp]
      · simp [hp]
  | false =>
    obtain ⟨s, hm⟩ := move_of_not_rejects hr
    rw [hm.advance_eq]
    cases hm with
    | delimiter hk => simp [hk]
    | colon hk => simp [hk]

end State

/-! ## Two steps in a row -/

section Trace

variable {ts : List Token} {i : Nat} {step : Step}

/-- When a step leaves the state after a name: on a colon or a comma, or else in recovery with a
name or a type in sight. -/
theorem target_ne_identifier_iff (hstep : (validate ts).trace[i]? = some step)
    (hsource : step.source = .identifier) :
    step.target ≠ .identifier ↔
      (∃ t, ts[i]? = some t ∧ (t.kind = .colon ∨ t.kind = .delimiter)) ∨
        step.recovered = true ∧ ∃ u, ts[i + 1]? = some u ∧
          (u.kind = .identifier ∧ step.target = .delimiter ∨
            u.kind = .type ∧ step.target = .colon) := by
  obtain ⟨t, ht, htarget, hrecovered⟩ := exists_token_of_step hstep
  rw [htarget, hrecovered, hsource, State.advance_identifier_ne_iff, ht]
  simp

/-- The token that a recovery went by is the next to be read, and it fits. -/
theorem exists_next_of_goesBySight (hstep : (validate ts).trace[i]? = some step)
    (h : step.GoesBySight) :
    step.source = .identifier ∧ ∃ u next, ts[i + 1]? = some u ∧
      (validate ts).trace[i + 1]? = some next ∧ next.recovered = false ∧
      (u.kind = .identifier ∧ step.target = .delimiter ∨
        u.kind = .type ∧ step.target = .colon) := by
  obtain ⟨hr, hne⟩ := h
  obtain ⟨t, -, htarget, hrecovered⟩ := exists_token_of_step hstep
  rw [hr] at hrecovered
  rw [State.advance_of_rejects hrecovered.symm] at htarget
  have hsource : step.source = .identifier := by
    refine Decidable.byContradiction fun hs => hne ?_
    rw [htarget, State.predict_of_ne_identifier hs]
  rw [hsource] at htarget hne
  obtain ⟨u, s, hu, hm, hkind⟩ := State.exists_move_of_sight (htarget ▸ hne)
  rw [← htarget] at hm hkind
  -- the next step starts in the state that has a move on its token
  obtain ⟨next, hnext, -, hfits⟩ := exists_step_of_token hu
  refine ⟨hsource, u, next, hu, hnext, ?_, hkind⟩
  rw [hfits, ← target_eq_source hstep hnext, hm.rejects_eq]

end Trace

/-- **Recovery may trust the token in sight**: the state after a name is left with a delimiter or a
colon, or where another token is rejected and a name or a type is in sight. Then the token in sight
is read next and fits, so no diagnostic is about it; and where two tokens in a row are rejected
after a name, the first has not led on. -/
theorem validate_trusts_sight (ts : List Token) :
    (∀ (i : Nat) (step : Step), (validate ts).trace[i]? = some step →
      step.source = .identifier →
        (step.target ≠ .identifier ↔
          (∃ t, ts[i]? = some t ∧ (t.kind = .colon ∨ t.kind = .delimiter)) ∨
            step.recovered = true ∧ ∃ u, ts[i + 1]? = some u ∧
              (u.kind = .identifier ∧ step.target = .delimiter ∨
                u.kind = .type ∧ step.target = .colon))) ∧
      (∀ (i : Nat) (step : Step), (validate ts).trace[i]? = some step → step.GoesBySight →
        step.source = .identifier ∧
          (∃ u next, ts[i + 1]? = some u ∧ (validate ts).trace[i + 1]? = some next ∧
            next.recovered = false ∧
            (u.kind = .identifier ∧ step.target = .delimiter ∨
              u.kind = .type ∧ step.target = .colon)) ∧
          (validate ts).located.filter (fun x => x.1 = i + 1) = []) ∧
      ∀ (i : Nat) (step next : Step), (validate ts).trace[i]? = some step →
        (validate ts).trace[i + 1]? = some next → step.source = .identifier →
          step.recovered = true → next.recovered = true → step.target = .identifier := by
  refine ⟨fun i step => target_ne_identifier_iff, fun i step hstep h => ?_,
    fun i step next hstep hnext hsource hr hr' => ?_⟩
  · obtain ⟨hsource, u, next, hu, hnext, hfits, hkind⟩ := exists_next_of_goesBySight hstep h
    refine ⟨hsource, ⟨u, next, hu, hnext, hfits, hkind⟩, ?_⟩
    rw [filter_located hnext hu, hfits]
    rfl
  · -- Had the first step moved on, it would have gone by what is in sight. The second would then
    -- not be recovered.
    refine Decidable.byContradiction fun hne => ?_
    have hsight : step.GoesBySight := ⟨hr, by rwa [hsource]⟩
    obtain ⟨-, u, next', -, hnext', hfits, -⟩ := exists_next_of_goesBySight hstep hsight
    obtain rfl : next' = next := Option.some.inj (hnext'.symm.trans hnext)
    rw [hfits] at hr'
    cases hr'

-- With a name in sight the rejected one stands for a comma; with none both digits are rejected.
example : (validate (tokenize "var a b c: real;")).located.map Prod.fst = [2] ∧
    (validate (tokenize "var a 1 2: real;")).located.map Prod.fst = [2, 3] := by cbv

end VarBlock
