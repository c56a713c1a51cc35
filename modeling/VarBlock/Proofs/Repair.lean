import VarBlock.Proofs.Grammar

/-!
# Repairing single errors

A step on a token that does not fit can be repaired: where the step stays after a name its token is
taken out, elsewhere the token is exchanged for one that leads where the step went. The repair of a
step removes its diagnostic and no other (`Mended`), although the step before may have looked at
the token.

The reason is that looking ahead is harmless. A token that does not fit was of no help to the step
before it: seen from a name, a following name or type leads into a state that accepts it. So the
repaired token has to leave the step before it where it was only after a name, and there it does
(`runTo_of_sight`).

All repairs at once leave a beginning of a block, hence the number of complaints bounds the number
of edits (`Edits`) from a beginning of a block.

A trace is looked at around one of its steps, as the tokens `a` before it, its own token and the
tokens `b` behind it. All lemmas of the middle part have this form, and only at the end is the step
one of the trace again (`exists_around`).
-/

namespace VarBlock

/-- What may stand in the place of the token `t` of a step: the token itself where it fits, nothing
where the step stays after a name, and else a token at the same offset that leads where the step
went. -/
inductive Step.Repair (step : Step) (t : Token) : List Token → Prop
  | keep : step.recovered = false → Repair step t [t]
  | delete : step.recovered = true → step.source = .identifier → step.target = .identifier →
      Repair step t []
  | replace {u : Token} : step.recovered = true →
      ¬ (step.source = .identifier ∧ step.target = .identifier) → u.offset = t.offset →
      step.source.transition u = .ok step.target → Repair step t [u]

/-- The diagnostic for a block that ends at `offset`. -/
def Diagnostic.endingAt (offset : Nat) (d : Diagnostic) : Diagnostic :=
  if d.isUnterminated then { d with range := ⟨offset, offset⟩ } else d

/-- The report of `ts'`, which has the tokens `patch` in the place of the token `t` of a recovered
step of `ts`, differs from the report of `ts` by the diagnostic of that token only. -/
structure Mended (ts ts' : List Token) (step : Step) (t : Token) (patch : List Token) : Prop where
  /-- The step is not recovered any more, or gone. The others keep all but their index. -/
  trace : (validate ts').trace =
    (validate ts).trace.take step.index ++ patch.map (fun _ => { step with recovered := false }) ++
      ((validate ts).trace.drop (step.index + 1)).map (Step.reindex (· + patch.length - 1))
  finalState : (validate ts').finalState = (validate ts).finalState
  /-- The diagnostic of the token stands where the token stands among the recovered ones. -/
  complaint : (validate ts).diagnostics[(validate ts).recovered.idxOf step.index]? =
    some (.unexpected step.source ⟨step.source.expectation, t.kind⟩ t)
  /-- That diagnostic is gone, the others are the same, but the end may have moved. -/
  diagnostics : (validate ts').diagnostics =
    ((validate ts).diagnostics.eraseIdx ((validate ts).recovered.idxOf step.index)).map
      (Diagnostic.endingAt (endOffset ts'))
  /-- The end moves only with the last token. -/
  diagnostics_of_lt : step.index + 1 < ts.length → (validate ts').diagnostics =
    (validate ts).diagnostics.eraseIdx ((validate ts).recovered.idxOf step.index)

namespace State

/-! ## The token in sight -/

/-- After a recovered step comes a move, or the step stays after a name, or a token was expected
where the next one does not count. -/
theorem advance_of_sight {s : State} {u t : Token} {next : Option Token}
    (ht : (s.advance u (some t)).rejects t = true)
    (hnext : s.advance u (some t) = .identifier → State.identifier.predict next = .identifier) :
    s.advance u next = s.advance u (some t) := by
  cases hu : s.rejects u with
  | false =>
    obtain ⟨s', hm⟩ := move_of_not_rejects hu
    rw [hm.advance_eq, hm.advance_eq]
  | true =>
    rw [advance_of_rejects hu] at ht hnext ⊢
    rw [advance_of_rejects hu]
    cases s with
    | identifier =>
      -- a name or a type in sight would have been accepted
      rcases predict_identifier_cases (some t) with ⟨v, hv, hk, hp⟩ | ⟨v, hv, hk, hp⟩ | hp
      · obtain rfl := Option.some.inj hv
        rw [hp, (Move.next hk).rejects_eq] at ht
        cases ht
      · obtain rfl := Option.some.inj hv
        rw [hp, (Move.type hk).rejects_eq] at ht
        cases ht
      · rw [hp]
        exact hnext hp
    | _ => rfl

/-- If the token in sight will not fit, it may be exchanged for another, provided that after a name
the other one keeps a recovered step there. -/
theorem runTo_of_sight {s : State} {a : List Token} {t : Token} {next : Option Token}
    (ht : (s.runTo (some t) a).rejects t = true)
    (hnext : s.runTo (some t) a = .identifier → State.identifier.predict next = .identifier) :
    s.runTo next a = s.runTo (some t) a ∧
      ∀ i, s.stepsTo next i a = s.stepsTo (some t) i a := by
  apply runTo_congr
  intro s' u hlast
  rw [hlast] at ht hnext
  exact advance_of_sight ht hnext

/-! ## Repairs of single steps -/

/-- A predicted state is entered by a token that fits, unless the prediction stays after a name. -/
theorem move_of_predict {s : State} {next : Option Token} (offset : Nat)
    (h : ¬ (s = .identifier ∧ s.predict next = .identifier)) :
    Move s ((s.predict next).entry offset) (s.predict next) := by
  cases s with
  | start => exact .start rfl
  | var => exact .first rfl
  | delimiter => exact .next rfl
  | semicolon => exact .again rfl
  | colon => exact .type rfl
  | type => exact .semicolon rfl
  | identifier =>
    -- After a name there are three predictions, of which the last is to stay.
    rcases predict_identifier_cases next with ⟨_, -, -, hp⟩ | ⟨_, -, -, hp⟩ | hp
    · rw [hp]
      exact .delimiter rfl
    · rw [hp]
      exact .colon rfl
    · exact absurd ⟨rfl, hp⟩ h

/-- Every step has a repair, whatever it is about. -/
theorem exists_repair (s : State) (i : Nat) (t : Token) (next : Option Token) :
    ∃ patch, (Step.mk i s (s.advance t next) (s.rejects t)).Repair t patch := by
  cases hr : s.rejects t with
  | false => exact ⟨[t], .keep rfl⟩
  | true =>
    rw [advance_of_rejects hr]
    -- To stay after a name the token has to go. To lead elsewhere it is exchanged for one that
    -- leads there, which exists unless the step stays.
    by_cases h : s = .identifier ∧ s.predict next = .identifier
    · exact ⟨[], .delete rfl h.1 h.2⟩
    · refine ⟨[(s.predict next).entry t.offset], .replace rfl h ?_ ?_⟩
      · cases s.predict next <;> rfl
      · exact (move_of_predict t.offset h).transition_eq

/-- A repair leads where the step went, without errors. -/
theorem run?_of_repair {s : State} {i : Nat} {t : Token} {next : Option Token}
    {patch : List Token}
    (h : (Step.mk i s (s.advance t next) (s.rejects t)).Repair t patch) :
    s.run? patch = some (s.advance t next) := by
  cases h with
  | keep hr =>
    obtain ⟨s', hm⟩ := move_of_not_rejects hr
    rw [hm.run?_cons, hm.advance_eq]
    rfl
  -- Without the token nothing is read, and the step had not left its state.
  | delete _ hs hs' =>
    dsimp only at hs hs'
    rw [hs', hs]
    rfl
  | replace _ _ _ hu =>
    rw [(transition_eq_ok_iff.mp hu).run?_cons]
    rfl

/-- Where a repair is made after a name, the first token after the place of the repair keeps a
recovered step there. -/
theorem predict_of_repair {s : State} {i : Nat} {t : Token} {patch b : List Token}
    (hr : s.rejects t = true)
    (h : (Step.mk i s (s.advance t b.head?) (s.rejects t)).Repair t patch)
    (hs : s = .identifier) : State.identifier.predict (patch ++ b).head? = .identifier := by
  subst hs
  cases h with
  | keep hk => rw [hr] at hk; cases hk
  | delete _ _ hs' =>
    rw [advance_of_rejects hr] at hs'
    exact hs'
  | @replace u _ _ _ hu =>
    have hm := transition_eq_ok_iff.mp hu
    -- what leads on from a name is neither a name nor a type
    have hkind : u.kind = .delimiter ∨ u.kind = .colon := by
      generalize State.identifier.advance t b.head? = s' at hm
      cases hm with
      | delimiter hk => exact .inl hk
      | colon hk => exact .inr hk
    rcases hkind with hk | hk <;> simp [predict, hk]

/-- A repair takes no step or one, which is no recovery. -/
theorem stepsTo_of_repair {s : State} {i : Nat} {t : Token} {next : Option Token}
    {patch : List Token}
    (h : (Step.mk i s (s.advance t next) (s.rejects t)).Repair t patch) (j : Nat) :
    s.stepsTo next j patch = patch.map fun _ => ⟨j, s, s.advance t next, false⟩ := by
  have hrun := run?_of_repair h
  -- With at most one token there is none between them that could look ahead.
  have hone : patch = [] ∨ ∃ u, patch = [u] := by
    cases h with
    | keep => exact .inr ⟨t, rfl⟩
    | delete => exact .inl rfl
    | replace => exact .inr ⟨_, rfl⟩
  rcases hone with rfl | ⟨u, rfl⟩
  · rfl
  · obtain ⟨s', hm, hs'⟩ := run?_cons_eq_some_iff.mp hrun
    obtain rfl := Option.some.inj hs'
    simp [stepsTo, hm.advance_eq, hm.rejects_eq]

end State

/-! ## The report around a token -/

section Around

variable {a b : List Token} {t : Token} {s : State}

/-- The trace around a token: `s` is the state in which the token is met. -/
theorem trace_around (hs : s = State.start.runTo (some t) a) :
    (validate (a ++ t :: b)).trace = State.start.stepsTo (some t) 0 a ++
      ⟨a.length, s, s.advance t b.head?, s.rejects t⟩ ::
        (s.advance t b.head?).steps (a.length + 1) b := by
  rw [trace_append, List.head?_cons, ← hs]
  rfl

theorem finalState_around (hs : s = State.start.runTo (some t) a) :
    (validate (a ++ t :: b)).finalState = (s.advance t b.head?).run b := by
  rw [finalState_append, List.head?_cons, ← hs]
  rfl

variable {patch : List Token}

/-- The tokens before a recovered one do not notice its repair, although the last of them may have
looked at it. -/
theorem sight_of_repair (hs : s = State.start.runTo (some t) a) (hr : s.rejects t = true)
    (h : (Step.mk a.length s (s.advance t b.head?) (s.rejects t)).Repair t patch) :
    State.start.runTo (patch ++ b).head? a = s ∧
      ∀ i, State.start.stepsTo (patch ++ b).head? i a = State.start.stepsTo (some t) i a := by
  subst hs
  exact State.runTo_of_sight hr (State.predict_of_repair hr h)

/-- The trace after a repair: that of the tokens before, the step on the token that was put in, if
one was, and that of the tokens after. -/
theorem trace_of_repair (hs : s = State.start.runTo (some t) a) (hr : s.rejects t = true)
    (h : (Step.mk a.length s (s.advance t b.head?) (s.rejects t)).Repair t patch) :
    (validate (a ++ (patch ++ b))).trace = State.start.stepsTo (some t) 0 a ++
      (patch.map (fun _ => ⟨a.length, s, s.advance t b.head?, false⟩) ++
        (s.advance t b.head?).steps (a.length + patch.length) b) := by
  obtain ⟨hrun, hsteps⟩ := sight_of_repair hs hr h
  rw [trace_append, hrun, hsteps, State.steps_append,
    State.runTo_of_run? (State.run?_of_repair h), State.stepsTo_of_repair h]

/-- A repair does not change where reading ends. -/
theorem finalState_of_repair (hs : s = State.start.runTo (some t) a) (hr : s.rejects t = true)
    (h : (Step.mk a.length s (s.advance t b.head?) (s.rejects t)).Repair t patch) :
    (validate (a ++ (patch ++ b))).finalState = (s.advance t b.head?).run b := by
  rw [finalState_append, (sight_of_repair hs hr h).1, State.run_append,
    State.runTo_of_run? (State.run?_of_repair h)]

/-! ### Diagnostics -/

/-- The complaints, with the one about the token in the middle set apart. -/
theorem complaints_around (hs : s = State.start.runTo (some t) a) (hr : s.rejects t = true) :
    complaints (validate (a ++ t :: b)).trace (a ++ t :: b) =
      complaints (State.start.stepsTo (some t) 0 a) a ++
        (a.length, .unexpected s ⟨s.expectation, t.kind⟩ t) ::
          complaints ((s.advance t b.head?).steps (a.length + 1) b) b := by
  rw [trace_around hs, complaints_append (by simp), complaints_cons, hr]
  rfl

/-- A token that does not fit is counted after those before it. -/
theorem idxOf_recovered (hs : s = State.start.runTo (some t) a) (hr : s.rejects t = true) :
    (validate (a ++ t :: b)).recovered.idxOf a.length =
      (complaints (State.start.stepsTo (some t) 0 a) a).length := by
  -- the complaints before the token have smaller indices
  have hbefore : a.length ∉ (complaints (State.start.stepsTo (some t) 0 a) a).map Prod.fst := by
    intro h
    obtain ⟨x, hx, hindex⟩ := List.mem_map.mp h
    have hlt := (index_of_mem_complaints hx).2
    omega
  rw [recovered_validate, complaints_around hs hr, List.map_append, List.map_cons,
    List.idxOf_append_of_notMem hbefore, List.idxOf_cons_self, List.length_map, Nat.add_zero]

/-- The diagnostics, with the one about the token in the middle set apart. -/
theorem diagnostics_around (hs : s = State.start.runTo (some t) a) (hr : s.rejects t = true) :
    (validate (a ++ t :: b)).diagnostics =
      (complaints (State.start.stepsTo (some t) 0 a) a).map Prod.snd ++
        .unexpected s ⟨s.expectation, t.kind⟩ t :: ((s.advance t b.head?).unexpected b ++
          ending ((s.advance t b.head?).run b) (endOffset (a ++ t :: b))) := by
  rw [diagnostics_validate, complaints_around hs hr, finalState_around hs, List.map_append,
    List.map_cons, ← State.unexpected_eq, List.append_assoc]
  rfl

/-- After the repair all are there but this one. -/
theorem diagnostics_of_repair (hs : s = State.start.runTo (some t) a) (hr : s.rejects t = true)
    (h : (Step.mk a.length s (s.advance t b.head?) (s.rejects t)).Repair t patch) :
    (validate (a ++ (patch ++ b))).diagnostics =
      (complaints (State.start.stepsTo (some t) 0 a) a).map Prod.snd ++
        ((s.advance t b.head?).unexpected b ++
          ending ((s.advance t b.head?).run b) (endOffset (a ++ (patch ++ b)))) := by
  have hclean : ∀ step ∈ s.stepsTo b.head? a.length patch, step.recovered = false :=
    State.stepsTo_of_run? (State.run?_of_repair h) _ _
  rw [State.stepsTo_of_repair h] at hclean
  rw [diagnostics_validate, trace_of_repair hs hr h, finalState_of_repair hs hr h,
    complaints_append (by simp), complaints_append (by simp), complaints_eq_nil hclean,
    List.nil_append, List.map_append, ← State.unexpected_eq, List.append_assoc]

end Around

namespace Diagnostic

/-- A diagnostic about a token does not move with the end of the text. -/
theorem endingAt_of_isUnexpected {d : Diagnostic} (h : d.isUnexpected = true) (offset : Nat) :
    d.endingAt offset = d := by
  simp [endingAt, isUnterminated, h]

/-- The diagnostic about the end moves with it. -/
theorem map_endingAt_ending (s : State) (offset offset' : Nat) :
    (ending s offset).map (endingAt offset') = ending s offset' := by
  cases s <;> rfl

/-- Complaints about tokens do not move with the end. -/
theorem map_endingAt_complaints (steps : List Step) (ts : List Token) (offset : Nat) :
    ((complaints steps ts).map Prod.snd).map (endingAt offset) =
      (complaints steps ts).map Prod.snd := by
  have hid : ∀ d ∈ (complaints steps ts).map Prod.snd, d.endingAt offset = id d := fun d hd =>
    endingAt_of_isUnexpected (isUnexpected_of_mem_complaints hd) offset
  rw [List.map_congr_left hid, List.map_id]

end Diagnostic

/-! ## The repair of one step -/

/-- A step of a trace splits the tokens before and after its own. -/
theorem exists_around {ts : List Token} {step : Step} (hstep : step ∈ (validate ts).trace) :
    ∃ a t b s, ts = a ++ t :: b ∧ s = State.start.runTo (some t) a ∧
      step = ⟨a.length, s, s.advance t b.head?, s.rejects t⟩ := by
  have hlt := index_lt_of_mem hstep
  obtain ⟨a, t, b, hts, hlen⟩ : ∃ a t b, ts = a ++ t :: b ∧ a.length = step.index := by
    refine ⟨ts.take step.index, ts[step.index], ts.drop (step.index + 1), ?_, ?_⟩
    · rw [List.getElem_cons_drop, List.take_append_drop]
    · rw [List.length_take, Nat.min_eq_left hlt.le]
  subst hts
  refine ⟨a, t, b, _, rfl, rfl, ?_⟩
  -- The step is found in the trace by its number, and there the trace has this one.
  have hget := getElem?_index_of_mem hstep
  rw [trace_around rfl, ← hlen, List.getElem?_append_right (by simp), State.length_stepsTo,
    Nat.sub_self, List.getElem?_cons_zero] at hget
  exact (Option.some.inj hget).symm

/-- A repair of one recovered step mends its report. -/
theorem mended {a b : List Token} {t : Token} {s : State} {patch : List Token}
    (hs : s = State.start.runTo (some t) a) (hr : s.rejects t = true)
    (h : (Step.mk a.length s (s.advance t b.head?) (s.rejects t)).Repair t patch) :
    Mended (a ++ t :: b) (a ++ (patch ++ b))
      ⟨a.length, s, s.advance t b.head?, s.rejects t⟩ t patch := by
  -- What `Mended` compares is known piece by piece around the token. The rest is to find the pieces
  -- by their lengths.
  have hlen : (State.start.stepsTo (some t) 0 a).length = a.length :=
    State.length_stepsTo _ _ _ _
  have hdiag := diagnostics_of_repair hs hr h
  have herase : (validate (a ++ t :: b)).diagnostics.eraseIdx
      ((validate (a ++ t :: b)).recovered.idxOf a.length) =
        (complaints (State.start.stepsTo (some t) 0 a) a).map Prod.snd ++
          ((s.advance t b.head?).unexpected b ++
            ending ((s.advance t b.head?).run b) (endOffset (a ++ t :: b))) := by
    rw [diagnostics_around hs hr, idxOf_recovered hs hr,
      List.eraseIdx_append_of_length_le (by simp), List.length_map, Nat.sub_self,
      List.eraseIdx_cons_zero]
  constructor
  case trace =>
    have hshift : ∀ k, a.length + 1 + k + patch.length - 1 = a.length + patch.length + k := by
      intro k
      omega
    have hdrop : ∀ (step : Step) (steps : List Step),
        (State.start.stepsTo (some t) 0 a ++ step :: steps).drop (a.length + 1) = steps := by
      intro step steps
      rw [List.append_cons, List.drop_left' (by simp)]
    rw [trace_of_repair hs hr h, trace_around hs, List.take_left' hlen, hdrop,
      State.map_reindex_steps hshift, List.append_assoc]
  case finalState => rw [finalState_of_repair hs hr h, finalState_around hs]
  case complaint =>
    rw [diagnostics_around hs hr, idxOf_recovered hs hr, List.getElem?_append_right (by simp)]
    simp
  case diagnostics =>
    rw [hdiag, herase, List.map_append, List.map_append, Diagnostic.map_endingAt_complaints,
      Diagnostic.map_endingAt_ending, State.unexpected_eq _ 0, Diagnostic.map_endingAt_complaints]
  case diagnostics_of_lt =>
    intro hlt
    -- The end of the text is that of the last token, which the repair has not touched if one
    -- follows.
    have hb : b ≠ [] := by
      rintro rfl
      simp at hlt
    rw [hdiag, herase, ← List.append_assoc a, endOffset_append_of_ne_nil _ hb, List.append_cons,
      endOffset_append_of_ne_nil _ hb]

/-! ## All repairs at once -/

/-- The tokens that stand in the places of the tokens of `ts`, where every error is repaired. -/
def RepairAll (ts : List Token) (patches : List (List Token)) : Prop :=
  List.Forall₂ (fun (x : Step × Token) patch => x.1.Repair x.2 patch)
    ((validate ts).trace.zip ts) patches

/-- A token is taken out or exchanged for another. -/
inductive Edit : List Token → List Token → Prop
  | delete (a : List Token) (t : Token) (b : List Token) : Edit (a ++ t :: b) (a ++ b)
  | replace (a : List Token) (t u : Token) (b : List Token) : Edit (a ++ t :: b) (a ++ u :: b)

/-- Edits of single tokens, one after the other. -/
inductive Edits : Nat → List Token → List Token → Prop
  | refl (ts : List Token) : Edits 0 ts ts
  | step {n : Nat} {ts us vs : List Token} : Edit ts us → Edits n us vs → Edits (n + 1) ts vs

/-- An edit is one behind other tokens too. -/
theorem Edit.append_left {ts us : List Token} (h : Edit ts us) (a : List Token) :
    Edit (a ++ ts) (a ++ us) := by
  cases h with
  | delete c t b =>
    rw [← List.append_assoc, ← List.append_assoc]
    exact .delete _ t b
  | replace c t u b =>
    rw [← List.append_assoc, ← List.append_assoc]
    exact .replace _ t u b

theorem Edits.append_left {n : Nat} {ts us : List Token} (h : Edits n ts us) (a : List Token) :
    Edits n (a ++ ts) (a ++ us) := by
  induction h with
  | refl ts => exact .refl _
  | step he _ ih => exact .step (he.append_left a) ih

/-- The repair of a recovered step is one edit: a token is taken out or exchanged. -/
theorem Step.Repair.edit {step : Step} {t : Token} {patch : List Token} (h : step.Repair t patch)
    (hr : step.recovered = true) (ts : List Token) : Edit (t :: ts) (patch ++ ts) := by
  cases h with
  | keep hk => rw [hr] at hk; cases hk
  | delete => exact .delete [] t ts
  | replace => exact .replace [] t _ ts

namespace State

/-- All steps of a run can be repaired, each for itself. -/
theorem exists_repairAll (s : State) (i : Nat) (ts : List Token) :
    ∃ patches, List.Forall₂ (fun (x : Step × Token) patch => x.1.Repair x.2 patch)
      ((s.steps i ts).zip ts) patches := by
  induction ts generalizing s i with
  | nil => exact ⟨[], .nil⟩
  | cons t ts ih =>
    obtain ⟨patch, hpatch⟩ := exists_repair s i t ts.head?
    obtain ⟨patches, hpatches⟩ := ih (s.advance t ts.head?) (i + 1)
    exact ⟨patch :: patches, .cons hpatch hpatches⟩

/-- With every error repaired, reading goes where it went before. -/
theorem run?_flatten {s : State} {i : Nat} {ts : List Token} {patches : List (List Token)}
    (h : List.Forall₂ (fun (x : Step × Token) patch => x.1.Repair x.2 patch)
      ((s.steps i ts).zip ts) patches) : s.run? patches.flatten = some (s.run ts) := by
  induction ts generalizing s i patches with
  | nil =>
    cases h
    rfl
  | cons t ts ih =>
    rw [steps, List.zip_cons_cons] at h
    cases h with
    | cons hpatch hpatches =>
      -- The first repair leads where the first step went, and from there on `ih` applies.
      rw [List.flatten_cons, run?_append, run?_of_repair hpatch, Option.bind_some]
      exact ih hpatches

/-- There are as many edits as recovered steps. -/
theorem edits_flatten {s : State} {i : Nat} {ts : List Token} {patches : List (List Token)}
    (h : List.Forall₂ (fun (x : Step × Token) patch => x.1.Repair x.2 patch)
      ((s.steps i ts).zip ts) patches) :
    Edits ((s.steps i ts).countP Step.recovered) ts patches.flatten := by
  induction ts generalizing s i patches with
  | nil =>
    cases h
    exact .refl []
  | cons t ts ih =>
    rw [steps, List.zip_cons_cons] at h
    cases h with
    | @cons _ patch _ patches hpatch hpatches =>
      -- the head is edited first, then the rest behind its patch
      have hrest : Edits _ (patch ++ ts) (patch ++ patches.flatten) :=
        (ih hpatches).append_left patch
      rw [steps, List.countP_cons, List.flatten_cons]
      cases hr : s.rejects t with
      | true => exact .step (hpatch.edit hr ts) hrest
      | false =>
        obtain rfl : patch = [t] := by
          cases hpatch with
          | keep => rfl
          | delete hr' => rw [hr] at hr'; cases hr'
          | replace hr' => rw [hr] at hr'; cases hr'
        exact hrest

end State

/-- With all repairs made, nothing is reported but for the end, and reading ends where it did. -/
theorem report_of_repairAll {ts : List Token} {patches : List (List Token)}
    (h : RepairAll ts patches) :
    (∀ d ∈ (validate patches.flatten).diagnostics, d.isUnexpected = false) ∧
      (validate patches.flatten).finalState = (validate ts).finalState := by
  have hrun : State.start.run? patches.flatten = some (State.start.run ts) :=
    State.run?_flatten h
  constructor
  · intro d hd
    rw [diagnostics_of_run? hrun] at hd
    have hnone := List.filter_eq_nil_iff.mp (filter_isUnexpected_ending _ _) d hd
    exact Bool.eq_false_iff.mpr hnone
  · exact State.run_of_run? hrun

/-- As many edits as there are diagnostics about tokens lead to the beginning of a block. -/
theorem exists_edits_viable (ts : List Token) :
    ∃ us, Edits ((validate ts).diagnostics.filter Diagnostic.isUnexpected).length ts us ∧
      Grammar.Viable us := by
  obtain ⟨patches, h⟩ := State.exists_repairAll .start 0 ts
  refine ⟨patches.flatten, ?_, Grammar.viable_iff.mpr ⟨_, State.run?_flatten h⟩⟩
  rw [filter_isUnexpected_validate, List.length_map, length_complaints (length_trace ts)]
  exact State.edits_flatten h

/-- **Errors are independent of each other**: every recovered step has a repair, any repair of it
removes its diagnostic and no other, and all repairs at once leave tokens that fit and end where
the block ended. So a block with `k` tokens that do not fit is `k` edits away from the beginning of
a block. -/
theorem validate_repair (ts : List Token) :
    (∀ step ∈ (validate ts).trace, step.recovered = true →
      ∃ t, ts[step.index]? = some t ∧ (∃ patch, step.Repair t patch) ∧
        ∀ patch, step.Repair t patch →
          Mended ts (ts.take step.index ++ (patch ++ ts.drop (step.index + 1))) step t patch) ∧
    (∃ patches, RepairAll ts patches) ∧
    (∀ patches, RepairAll ts patches →
      (∀ d ∈ (validate patches.flatten).diagnostics, d.isUnexpected = false) ∧
        (validate patches.flatten).finalState = (validate ts).finalState) ∧
    ∃ us, Edits ((validate ts).diagnostics.filter Diagnostic.isUnexpected).length ts us ∧
      Grammar.Viable us := by
  refine ⟨?_, State.exists_repairAll .start 0 ts, fun _ => report_of_repairAll,
    exists_edits_viable ts⟩
  intro step hstep hr
  obtain ⟨a, t, b, s, rfl, hs, rfl⟩ := exists_around hstep
  refine ⟨t, by simp, s.exists_repair a.length t b.head?, ?_⟩
  intro patch hpatch
  -- The statement is about places in the list. With the token set apart they are the parts before
  -- and after it.
  have hdrop : (a ++ t :: b).drop (a.length + 1) = b := by
    rw [List.append_cons, List.drop_left' (by simp)]
  rw [List.take_left, hdrop]
  exact mended hs hr hpatch

/-- In `5 a b: real;` the digit stands for `var`, and `b` is one name too many. -/
def misspelt : List Token :=
  [⟨.digit, "5", 0⟩, ⟨.identifier, "a", 2⟩, ⟨.identifier, "b", 4⟩, ⟨.colon, ":", 5⟩,
    ⟨.type, "real", 7⟩, ⟨.semicolon, ";", 11⟩]

/-- One of the repairs exchanges a token and the other takes one out. The text they are about
misspells `var` and forgets a comma. -/
theorem validate_repair_misspelt :
    Mended misspelt (⟨.keyword, "var", 0⟩ :: misspelt.tail) ⟨0, .start, .var, true⟩
        ⟨.digit, "5", 0⟩ [⟨.keyword, "var", 0⟩] ∧
      Mended misspelt (misspelt.eraseIdx 2) ⟨2, .identifier, .identifier, true⟩
        ⟨.identifier, "b", 4⟩ [] ∧
      RepairAll misspelt [[⟨.keyword, "var", 0⟩], [⟨.identifier, "a", 2⟩], [],
        [⟨.colon, ":", 5⟩], [⟨.type, "real", 7⟩], [⟨.semicolon, ";", 11⟩]] ∧
      (validate (⟨.keyword, "var", 0⟩ :: misspelt.tail.eraseIdx 1)).finalState =
        (validate misspelt).finalState := by
  -- The second name is taken out, since a colon is in sight behind it. All other steps are kept or
  -- exchanged.
  have hall : RepairAll misspelt [[⟨.keyword, "var", 0⟩], [⟨.identifier, "a", 2⟩], [],
      [⟨.colon, ":", 5⟩], [⟨.type, "real", 7⟩], [⟨.semicolon, ";", 11⟩]] :=
    .cons (.replace rfl (by decide) rfl rfl) <| .cons (.keep rfl) <| .cons (.delete rfl rfl rfl) <|
      .cons (.keep rfl) <| .cons (.keep rfl) <| .cons (.keep rfl) .nil
  refine ⟨?_, ?_, hall, ((validate_repair misspelt).2.2.1 _ hall).2⟩
  · obtain ⟨t, ht, -, h⟩ :=
      (validate_repair misspelt).1 ⟨0, .start, .var, true⟩ (by decide) rfl
    obtain rfl := Option.some.inj ht
    exact h [⟨.keyword, "var", 0⟩] (.replace rfl (by decide) rfl rfl)
  · obtain ⟨t, ht, -, h⟩ :=
      (validate_repair misspelt).1 ⟨2, .identifier, .identifier, true⟩ (by decide) rfl
    obtain rfl := Option.some.inj ht
    exact h [] (.delete rfl rfl rfl)

end VarBlock
