import VarBlock.Proofs.Run

/-!
# Stray tokens after a name

After a name comes a delimiter or a colon. Whatever else stands there is reported token by token and
otherwise passed over: a second name where a comma was forgotten, a type too many, any run of junk.
Reading stays after the name as long as no name and no type is in sight behind a token that does not
fit, so a name or a type may come first among the stray tokens, but not later (`Strays`).

The run over a valid block with stray tokens therefore takes the steps of the block, and between
them, after a name, the steps of the stray tokens (`State.steps_strewn`).

Stray tokens change the numbers of the steps behind them, so the steps of both runs are compared
without their numbers and numbered afterwards (`numbered`).
-/

namespace VarBlock

/-- The tokens, numbered from `index`, with the tokens `stray i` behind the one numbered `i`. -/
def strewn (stray : Nat → List Token) (index : Nat) (ts : List Token) : List Token :=
  (ts.zipIdx index).flatMap fun x => x.1 :: stray x.2

/-- Tokens that are passed over after a name. -/
structure Strays (us : List Token) : Prop where
  /-- None of them goes on with the declaration. -/
  misfit : ∀ u ∈ us, u.kind ≠ .colon ∧ u.kind ≠ .delimiter
  /-- Behind the first, none makes the one before it stand for a delimiter or a colon. -/
  headOnly : ∀ u ∈ us.tail, u.kind ≠ .identifier ∧ u.kind ≠ .type

/-- The steps, numbered anew from `index`. -/
def numbered (index : Nat) (steps : List Step) : List Step :=
  (steps.zipIdx index).map fun x => { x.1 with index := x.2 }

/-- The steps of a token and of the stray tokens behind it, all with the number of the token. -/
def Step.strewn (stray : Nat → List Token) (step : Step) : List Step :=
  step :: (stray step.index).map fun _ => ⟨step.index, .identifier, .identifier, true⟩

/-- What is said about a stray token. -/
def Token.passedOver (u : Token) : Diagnostic :=
  .unexpected .identifier ⟨.colonOrDelimiter, u.kind⟩ u

theorem numbered_cons (index : Nat) (step : Step) (steps : List Step) :
    numbered index (step :: steps) = { step with index } :: numbered (index + 1) steps := rfl

theorem numbered_append (index : Nat) (steps steps' : List Step) :
    numbered index (steps ++ steps') =
      numbered index steps ++ numbered (index + steps.length) steps' := by
  simp [numbered, List.zipIdx_append]

@[simp] theorem length_numbered (index : Nat) (steps : List Step) :
    (numbered index steps).length = steps.length := by
  simp [numbered]

/-! ## After a name -/

theorem Strays.tail {u : Token} {us : List Token} (h : Strays (u :: us)) : Strays us where
  misfit v hv := h.misfit v (List.mem_cons_of_mem u hv)
  headOnly v hv := h.headOnly v (List.mem_of_mem_tail hv)

namespace State

variable {s s' : State} {t u : Token}

/-- After a name only a name or a type in sight lets recovery move on. -/
theorem predict_of_kind (hidentifier : t.kind ≠ .identifier) (htype : t.kind ≠ .type) :
    State.identifier.predict (some t) = .identifier := by
  refine Decidable.byContradiction fun hne => ?_
  obtain ⟨u, hu, hk⟩ := predict_identifier_ne_iff.mp hne
  obtain rfl := Option.some.inj hu
  exact hk.elim hidentifier htype

/-- In a valid block neither a name nor a type follows a name. -/
theorem predict_of_run? {ts : List Token} (h : State.identifier.run? ts = some .semicolon) :
    State.identifier.predict ts.head? = .identifier := by
  cases ts with
  | nil => rfl
  | cons t ts =>
    obtain ⟨s', hm, -⟩ := run?_cons_eq_some_iff.mp h
    cases hm with
    | delimiter hk => exact predict_of_kind (by simp [hk]) (by simp [hk])
    | colon hk => exact predict_of_kind (by simp [hk]) (by simp [hk])

/-- Stray tokens are passed over one by one, if the token behind them is neither a name nor a
type. -/
theorem runTo_strays {us : List Token} {next : Option Token} (h : Strays us)
    (hnext : State.identifier.predict next = .identifier) :
    State.identifier.runTo next us = .identifier ∧
      ∀ i j, State.identifier.stepsTo next j us =
        numbered j (us.map fun _ => ⟨i, .identifier, .identifier, true⟩) := by
  induction us with
  | nil => exact ⟨rfl, fun _ _ => rfl⟩
  | cons u us ih =>
    obtain ⟨hcolon, hdelimiter⟩ := h.misfit u List.mem_cons_self
    have hr : State.identifier.rejects u = true := by
      simp [rejects_identifier_iff, hcolon, hdelimiter]
    -- Behind a stray token stands another, which is neither a name nor a type unless it comes
    -- first, or else the token behind them all.
    have hsight : State.identifier.predict (us.head?.or next) = .identifier := by
      cases us with
      | nil => exact hnext
      | cons v us =>
        obtain ⟨hidentifier, htype⟩ := h.headOnly v List.mem_cons_self
        exact predict_of_kind hidentifier htype
    obtain ⟨hrun, hsteps⟩ := ih h.tail
    constructor
    · rw [runTo, advance_of_rejects hr, hsight, hrun]
    · intro i j
      rw [stepsTo, advance_of_rejects hr, hsight, hr, hsteps i, List.map_cons, numbered_cons]

/-! ## Valid blocks -/

/-- No move leads back to the start. -/
theorem Move.ne_start (h : Move s t s') : s' ≠ .start := by
  cases h <;> decide

/-- A name leads to the state after a name, but for a word at the start. -/
theorem Move.eq_identifier (h : Move s t s') (hs : s ≠ .start) (hk : t.kind = .identifier) :
    s' = .identifier := by
  cases h with
  | start => exact absurd rfl hs
  | first => rfl
  | next => rfl
  | again => rfl
  | _ h => rw [hk] at h; cases h

end State

section Strewn

variable {stray : Nat → List Token} {i : Nat}

theorem strewn_cons (t : Token) (ts : List Token) :
    strewn stray i (t :: ts) = t :: (stray i ++ strewn stray (i + 1) ts) := rfl

/-- Stray tokens stand behind others, so the first token is as it was. -/
theorem head?_strewn (ts : List Token) : (strewn stray i ts).head? = ts.head? := by
  cases ts <;> rfl

/-- With stray tokens after names, a valid block is read as before between them. -/
theorem State.steps_strewn {s : State} {ts : List Token} (hs : s ≠ .start)
    (h : s.run? ts = some .semicolon) (hstray : ∀ k, Strays (stray k))
    (hname : ∀ x ∈ ts.zipIdx i, stray x.2 ≠ [] → x.1.kind = .identifier) :
    s.run (strewn stray i ts) = .semicolon ∧ ∀ j, s.steps j (strewn stray i ts) =
      numbered j ((s.steps i ts).flatMap (Step.strewn stray)) := by
  induction ts generalizing s i with
  | nil => exact ⟨Option.some.inj h, fun _ => rfl⟩
  | cons t ts ih =>
    obtain ⟨s', hm, h'⟩ := run?_cons_eq_some_iff.mp h
    obtain ⟨hrun, hsteps⟩ := ih hm.ne_start h' fun x hx => hname x (List.mem_cons_of_mem _ hx)
    -- the stray tokens behind `t` leave the state where `t` led
    have hpass : s'.runTo (strewn stray (i + 1) ts).head? (stray i) = s' ∧
        ∀ j, s'.stepsTo (strewn stray (i + 1) ts).head? j (stray i) =
          numbered j ((stray i).map fun _ => ⟨i, .identifier, .identifier, true⟩) := by
      by_cases hnone : stray i = []
      · rw [hnone]
        exact ⟨rfl, fun _ => rfl⟩
      · have hk : t.kind = .identifier := hname (t, i) List.mem_cons_self hnone
        obtain rfl := hm.eq_identifier hs hk
        rw [head?_strewn]
        obtain ⟨hrun, hsteps⟩ := runTo_strays (hstray i) (predict_of_run? h')
        exact ⟨hrun, hsteps i⟩
    rw [strewn_cons]
    constructor
    · rw [run, hm.advance_eq, run_append, hpass.1, hrun]
    · intro j
      rw [steps, steps, hm.advance_eq, hm.advance_eq, hm.rejects_eq, steps_append, hpass.1,
        hpass.2, hsteps, List.flatMap_cons, Step.strewn, List.cons_append, numbered_cons,
        numbered_append, List.length_map]

/-! ## Reports -/

/-- Every stray token is reported. -/
theorem complaints_strays (us : List Token) (i j : Nat) :
    (complaints (numbered j (us.map fun _ => ⟨i, .identifier, .identifier, true⟩)) us).map
      Prod.snd = us.map Token.passedOver := by
  induction us generalizing j with
  | nil => rfl
  | cons u us ih =>
    rw [List.map_cons, numbered_cons, complaints_cons, if_pos rfl, List.map_cons, ih, List.map_cons]
    rfl

/-- The complaints are those about the stray tokens, in order, if the block itself gives none. -/
theorem complaints_strewn {s : State} {ts : List Token}
    (hclean : ∀ step ∈ s.steps i ts, step.recovered = false) (j : Nat) :
    (complaints (numbered j ((s.steps i ts).flatMap (Step.strewn stray)))
      (strewn stray i ts)).map Prod.snd =
        ((List.range' i ts.length).flatMap stray).map Token.passedOver := by
  induction ts generalizing s i j with
  | nil => rfl
  | cons t ts ih =>
    rw [State.steps] at hclean ⊢
    obtain ⟨hr, hclean⟩ := List.forall_mem_cons.mp hclean
    -- The complaints are cut where the stray steps and the stray tokens end, so these have to be as
    -- many.
    have hlen : (numbered (j + 1) ((stray i).map fun _ =>
        (⟨i, .identifier, .identifier, true⟩ : Step))).length = (stray i).length := by
      simp
    rw [List.flatMap_cons, Step.strewn, List.cons_append, numbered_cons, numbered_append,
      strewn_cons, complaints_cons, if_neg (by simpa using hr), complaints_append hlen,
      List.map_append, complaints_strays, ih hclean, List.length_cons, List.range'_succ,
      List.flatMap_cons, List.map_append]

/-- The steps of a valid block with stray tokens after names, none of them behind its first word. -/
theorem trace_strewn {ts : List Token} (hvalid : State.start.run? ts = some .semicolon)
    (hstray : ∀ k, Strays (stray k))
    (hname : ∀ k, stray k ≠ [] → 0 < k ∧ ∃ t, ts[k]? = some t ∧ t.kind = .identifier) :
    (validate (strewn stray 0 ts)).finalState = .semicolon ∧
      (validate (strewn stray 0 ts)).trace =
        numbered 0 ((validate ts).trace.flatMap (Step.strewn stray)) := by
  cases ts with
  | nil => cases hvalid
  | cons v ts =>
    obtain ⟨s, hm, h⟩ := State.run?_cons_eq_some_iff.mp hvalid
    -- The first token is `var`, no name, so there are no stray tokens behind it. After it the state
    -- is never the start, as `steps_strewn` asks.
    have hnone : stray 0 = [] := Decidable.byContradiction fun hne =>
      Nat.lt_irrefl 0 (hname 0 hne).1
    have hrest : ∀ x ∈ ts.zipIdx 1, stray x.2 ≠ [] → x.1.kind = .identifier := by
      intro x hx hne
      obtain ⟨-, t, ht, hk⟩ := hname x.2 hne
      have hget : (v :: ts)[x.2]? = some x.1 :=
        List.mem_zipIdx_iff_getElem?.mp (List.mem_cons_of_mem (v, 0) hx)
      obtain rfl := Option.some.inj (hget.symm.trans ht)
      exact hk
    obtain ⟨hrun, hsteps⟩ := State.steps_strewn hm.ne_start h hstray hrest
    constructor
    · show State.start.run (strewn stray 0 (v :: ts)) = _
      rw [strewn_cons, hnone, List.nil_append, State.run, hm.advance_eq, hrun]
    · show State.start.steps 0 (strewn stray 0 (v :: ts)) =
        numbered 0 ((State.start.steps 0 (v :: ts)).flatMap _)
      rw [strewn_cons, hnone, List.nil_append, State.steps, State.steps, hm.advance_eq,
        hm.advance_eq, hsteps, List.flatMap_cons, Step.strewn, hnone]
      rfl

end Strewn

/-- **Stray tokens after names are tolerated one for one**: in a valid block with such tokens behind
any of its names, every stray token is reported, in the state after a name, and nothing else is. The
tokens of the block take the steps that they take without them, and the stray ones stay after the
name. -/
theorem validate_strewn (ts : List Token) (stray : Nat → List Token)
    (hvalid : (validate ts).isValid = true)
    (hname : ∀ i, stray i ≠ [] → 0 < i ∧ ∃ t, ts[i]? = some t ∧ t.kind = .identifier)
    (hstray : ∀ i, Strays (stray i)) :
    (validate (strewn stray 0 ts)).diagnostics =
        ((List.range ts.length).flatMap stray).map Token.passedOver ∧
      (validate (strewn stray 0 ts)).trace =
        numbered 0 ((validate ts).trace.flatMap (Step.strewn stray)) ∧
      (validate (strewn stray 0 ts)).finalState = .semicolon := by
  have hrun : State.start.run? ts = some .semicolon := run?_of_isValid hvalid
  obtain ⟨hfinal, htrace⟩ := trace_strewn hrun hstray hname
  refine ⟨?_, htrace, hfinal⟩
  rw [diagnostics_validate, hfinal, ending_eq_nil_iff.mpr rfl, List.append_nil, htrace,
    List.range_eq_range']
  exact complaints_strewn (State.steps_of_run? hrun 0) 0

/-- The block `var a, c: real;`. -/
def twoNames : List Token :=
  [⟨.keyword, "var", 0⟩, ⟨.identifier, "a", 4⟩, ⟨.delimiter, ",", 5⟩, ⟨.identifier, "c", 7⟩,
    ⟨.colon, ":", 8⟩, ⟨.type, "real", 10⟩, ⟨.semicolon, ";", 14⟩]

/-- A second name and junk behind the first name, and a type behind the second. -/
def litter : Nat → List Token
  | 1 => [⟨.identifier, "b", 20⟩, ⟨.digit, "5", 21⟩, ⟨.semicolon, ";", 22⟩]
  | 3 => [⟨.type, "char", 23⟩]
  | _ => []

/-- A name, a digit, a semicolon and a type are strewn into a block, and each is reported where it
stands. -/
theorem validate_strewn_litter :
    (validate twoNames).isValid = true ∧
      (∀ i, litter i ≠ [] → 0 < i ∧ ∃ t, twoNames[i]? = some t ∧ t.kind = .identifier) ∧
      (∀ i, Strays (litter i)) ∧
      (validate (strewn litter 0 twoNames)).diagnostics =
        [.unexpected .identifier ⟨.colonOrDelimiter, .identifier⟩ ⟨.identifier, "b", 20⟩,
          .unexpected .identifier ⟨.colonOrDelimiter, .digit⟩ ⟨.digit, "5", 21⟩,
          .unexpected .identifier ⟨.colonOrDelimiter, .semicolon⟩ ⟨.semicolon, ";", 22⟩,
          .unexpected .identifier ⟨.colonOrDelimiter, .type⟩ ⟨.type, "char", 23⟩] ∧
      (validate (strewn litter 0 twoNames)).finalState = .semicolon := by
  have hvalid : (validate twoNames).isValid = true := by decide
  have hname : ∀ i, litter i ≠ [] →
      0 < i ∧ ∃ t, twoNames[i]? = some t ∧ t.kind = .identifier := by
    intro i hi
    rw [litter.eq_def] at hi
    split at hi
    · exact ⟨by decide, _, rfl, rfl⟩
    · exact ⟨by decide, _, rfl, rfl⟩
    · exact absurd rfl hi
  -- Only the first of the stray tokens behind a name is a name or a type.
  have hstray : ∀ i, Strays (litter i) := by
    intro i
    rw [litter.eq_def]
    split
    all_goals exact ⟨by decide, by decide⟩
  obtain ⟨hdiagnostics, -, hfinal⟩ := validate_strewn twoNames litter hvalid hname hstray
  exact ⟨hvalid, hname, hstray, hdiagnostics.trans (by decide), hfinal⟩

end VarBlock
