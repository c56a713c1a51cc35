import VarBlock.Proofs.Grammar

/-!
# Recovery within one declaration

Whatever has been read, two declarations bring reading back into step: the tokens of the first get
at most four diagnostics, those of the second none.

The first declaration is met in any state. A state that waits for a name reads it without errors.
From the others errors follow, and the worst case is a declaration of a single name, whose colon,
type and semicolon may all be misread; its semicolon is then taken for a delimiter, because the
name of the next declaration is in sight. Either way the next declaration is met in a state that
waits for a name (`settles_of_declaration`).

`Settles` is what is carried through a declaration: a bound on the complaints, and that the state at
the end waits for a name. The bounds add up token by token (`Settles.cons`), and four is what the
worst case comes to.
-/

namespace VarBlock

open Grammar Computability

namespace State

/-- A declaration starts with a name, and what follows the name is read without errors. -/
theorem exists_cons_of_declaration {d : List Token} (hd : d ∈ declaration) :
    ∃ x rest, d = x :: rest ∧ x.kind = .identifier ∧
      State.identifier.run? rest = some .semicolon := by
  -- A declaration is read after `var`, where it begins with a name as it does after a semicolon.
  have hread : State.var.run? d = some .semicolon := by
    have hmem := Language.append_mem_mul hd (show [] ∈ accepted .semicolon from rfl)
    rw [List.append_nil] at hmem
    exact declaration_mul_accepted_le (fun _ hk => .first hk) hmem
  cases d with
  | nil => cases hread
  | cons x rest =>
    obtain ⟨s, hm, hrest⟩ := run?_cons_eq_some_iff.mp hread
    cases hm with
    | first hk => exact ⟨x, rest, rfl, hk, hrest⟩

/-- What follows a name: a delimiter, a name and more of the same, or a colon, a type, a semicolon
and further declarations. -/
theorem exists_of_run?_identifier {ts : List Token}
    (h : State.identifier.run? ts = some .semicolon) :
    (∃ c y rest, ts = c :: y :: rest ∧ c.kind = .delimiter ∧ y.kind = .identifier ∧
      State.identifier.run? rest = some .semicolon) ∨
    (∃ c y z rest, ts = c :: y :: z :: rest ∧ c.kind = .colon ∧ y.kind = .type ∧
      z.kind = .semicolon ∧ State.semicolon.run? rest = some .semicolon) := by
  cases ts with
  | nil => cases h
  | cons c ts =>
    obtain ⟨s, hm, h⟩ := run?_cons_eq_some_iff.mp h
    -- After a name there are two moves. Each fixes the kinds of the tokens that have to follow.
    cases hm with
    | delimiter hc =>
      cases ts with
      | nil => cases h
      | cons y rest =>
        obtain ⟨s, hm, h⟩ := run?_cons_eq_some_iff.mp h
        cases hm with
        | next hy => exact .inl ⟨c, y, rest, rfl, hc, hy, h⟩
    | colon hc =>
      cases ts with
      | nil => cases h
      | cons y ts =>
        obtain ⟨s, hm, h⟩ := run?_cons_eq_some_iff.mp h
        cases hm with
        | type hy =>
          cases ts with
          | nil => cases h
          | cons z rest =>
            obtain ⟨s, hm, h⟩ := run?_cons_eq_some_iff.mp h
            cases hm with
            | semicolon hz => exact .inr ⟨c, y, z, rest, rfl, hc, hy, hz, h⟩

/-! ## Settling down -/

/-- From `s`, at most `n` of the tokens do not fit, and a state that waits for a name is left for
the token `next`, which follows them. -/
def Settles (n : Nat) (s : State) (next : Token) (ts : List Token) : Prop :=
  (∀ i, (s.stepsTo (some next) i ts).countP Step.recovered ≤ n) ∧
    (s.runTo (some next) ts).expectation = .identifier

variable {n : Nat} {s : State} {next : Token} {ts : List Token}

/-- Where a declaration is read without errors, reading has settled from the beginning. -/
theorem settles_of_run? (h : s.run? ts = some .semicolon) : Settles 0 s next ts := by
  constructor
  · intro i
    -- No step is recovered, so the bound is zero.
    have hclean := stepsTo_of_run? h (some next) i
    rw [Nat.le_zero, List.countP_eq_zero]
    intro step hstep
    rw [hclean step hstep]
    exact Bool.false_ne_true
  · rw [runTo_of_run? h]
    rfl

theorem Settles.mono {m : Nat} (h : Settles n s next ts) (hnm : n ≤ m) : Settles m s next ts :=
  ⟨fun i => (h.1 i).trans hnm, h.2⟩

/-- One more token in front costs at most one more diagnostic. -/
theorem Settles.cons {s' : State} {t : Token} (h : Settles n s' next ts)
    (hs' : s.advance t (ts.head?.or (some next)) = s') : Settles (n + 1) s next (t :: ts) := by
  subst hs'
  constructor
  · intro i
    rw [stepsTo, List.countP_cons]
    have hrest := h.1 (i + 1)
    split <;> omega
  · exact h.2

/-- Declarations are read without errors where a name is expected. -/
theorem settles_of_expectation (hs : s.expectation = .identifier)
    (h : State.semicolon.run? ts = some .semicolon) : Settles 0 s next ts := by
  cases ts with
  | nil => exact ⟨fun _ => Nat.le_refl 0, hs⟩
  | cons t ts =>
    obtain ⟨s', hm, h⟩ := run?_cons_eq_some_iff.mp h
    cases hm with
    | again hk =>
      apply settles_of_run?
      rwa [(move_of_expectation hs hk).run?_cons]

/-- A name after a name is passed over. -/
theorem settles_of_name {x : Token} (hx : x.kind = .identifier)
    (h : State.identifier.run? ts = some .semicolon) :
    Settles 1 .identifier next (x :: ts) := by
  refine (settles_of_run? h).cons ?_
  -- neither a delimiter nor a colon in sight leads on from the name before
  rcases exists_of_run?_identifier h with
    ⟨c, y, rest, rfl, hc, -⟩ | ⟨c, y, z, rest, rfl, hc, -⟩ <;>
  simp [advance, transition, transition.mismatch, predict, hx, hc]

/-- A semicolon after a name is taken for a delimiter when the next declaration is in sight. -/
theorem settles_of_semicolon {z : Token} (hz : z.kind = .semicolon)
    (hnext : next.kind = .identifier) (h : State.semicolon.run? ts = some .semicolon) :
    Settles 1 .identifier next (z :: ts) := by
  refine (settles_of_expectation (s := .delimiter) rfl h).cons ?_
  -- the token in sight is the name of the next declaration, read along with this one or not
  have hhead : ∃ x, ts.head?.or (some next) = some x ∧ x.kind = .identifier := by
    cases ts with
    | nil => exact ⟨next, rfl, hnext⟩
    | cons x ts =>
      obtain ⟨s', hm, -⟩ := run?_cons_eq_some_iff.mp h
      cases hm with
      | again hk => exact ⟨x, rfl, hk⟩
  obtain ⟨x, hx, hk⟩ := hhead
  simp [advance, transition, transition.mismatch, predict, hz, hx, hk]

/-- A type is passed over, after a name as well as where a name is expected. -/
theorem settles_of_type {y z : Token} (hy : y.kind = .type) (hz : z.kind = .semicolon)
    (hs : s = .identifier ∨ s.expectation = .identifier) (hnext : next.kind = .identifier)
    (h : State.semicolon.run? ts = some .semicolon) : Settles 2 s next (y :: z :: ts) := by
  refine (settles_of_semicolon hz hnext h).cons ?_
  rcases hs with rfl | hs
  · simp [advance, transition, transition.mismatch, predict, hy, hz]
  · exact advance_of_expectation hs _ _

/-- What follows a name costs at most three diagnostics where a name is expected. -/
theorem settles_afterName_of_expectation (hs : s.expectation = .identifier)
    (hnext : next.kind = .identifier) (h : State.identifier.run? ts = some .semicolon) :
    Settles 3 s next ts := by
  rcases exists_of_run?_identifier h with
    ⟨c, y, rest, rfl, hc, hy, h⟩ | ⟨c, y, z, rest, rfl, hc, hy, hz, h⟩
  · exact ((settles_of_name hy h).cons (advance_of_expectation hs _ _)).mono (by decide)
  · exact (settles_of_type hy hz (.inl rfl) hnext h).cons (advance_of_expectation hs _ _)

/-- What follows a name costs at most three diagnostics where a semicolon is expected. -/
theorem settles_afterName_of_type (hnext : next.kind = .identifier)
    (h : State.identifier.run? ts = some .semicolon) : Settles 3 .type next ts := by
  rcases exists_of_run?_identifier h with
    ⟨c, y, rest, rfl, hc, hy, h⟩ | ⟨c, y, z, rest, rfl, hc, hy, hz, h⟩
  · have hrest : State.semicolon.run? (y :: rest) = some .semicolon := by
      rwa [(Move.again hy).run?_cons]
    have hc' := advance_of_ne_identifier (s := .type) (by decide) c
    exact ((settles_of_run? hrest).cons (hc' _)).mono (by decide)
  · have hc' := advance_of_ne_identifier (s := .type) (by decide) c
    exact (settles_of_type hy hz (.inr rfl) hnext h).cons (hc' _)

/-- **A declaration settles**: from any state at most four of its tokens do not fit. -/
theorem settles_of_declaration (s : State) {d : List Token} (hd : d ∈ declaration)
    (hnext : next.kind = .identifier) : Settles 4 s next d := by
  obtain ⟨x, rest, rfl, hx, h⟩ := exists_cons_of_declaration hd
  have hread : State.semicolon.run? (x :: rest) = some .semicolon := by
    rwa [(Move.again hx).run?_cons]
  -- Three states wait for a name and one has read it. In the others the name is lost, and what is
  -- left is read from where recovery has led.
  cases s with
  | start =>
    have hstart := advance_of_ne_identifier (s := .start) (by decide) x
    exact (settles_afterName_of_expectation rfl hnext h).cons (hstart _)
  | var => exact (settles_of_expectation rfl hread).mono (Nat.zero_le 4)
  | delimiter => exact (settles_of_expectation rfl hread).mono (Nat.zero_le 4)
  | semicolon => exact (settles_of_expectation rfl hread).mono (Nat.zero_le 4)
  | identifier => exact (settles_of_name hx h).mono (by decide)
  | type =>
    have htype := advance_of_ne_identifier (s := .type) (by decide) x
    exact (settles_afterName_of_expectation rfl hnext h).cons (htype _)
  | colon =>
    have hcolon := advance_of_ne_identifier (s := .colon) (by decide) x
    exact (settles_afterName_of_type hnext h).cons (hcolon _)

end State

/-! ## After any tokens -/

/-- After a closed declaration any number of them is read without errors. -/
theorem run?_of_declarations {ds : List (List Token)} (hds : ∀ e ∈ ds, e ∈ declaration) :
    State.semicolon.run? ds.flatten = some .semicolon :=
  declarations_le_accepted (Language.join_mem_kstar hds)

/-- Declarations that follow a declaration are in step, whatever was read before: the run over all
of it comes in three pieces, and the last is without errors. -/
theorem exists_settled (p : List Token) {d : List Token} {ds : List (List Token)}
    (hd : d ∈ declaration) (hne : ds ≠ []) (hds : ∀ e ∈ ds, e ∈ declaration) :
    ∃ s x, State.Settles 4 s x d ∧
      State.start.run (p ++ (d ++ ds.flatten)) = .semicolon ∧
      complaints (validate (p ++ (d ++ ds.flatten))).trace (p ++ (d ++ ds.flatten)) =
        complaints (State.start.stepsTo (d ++ ds.flatten).head? 0 p) p ++
          complaints (s.stepsTo (some x) p.length d) d := by
  obtain ⟨x, e, hflat, hx⟩ : ∃ x e, ds.flatten = x :: e ∧ x.kind = .identifier := by
    obtain ⟨d', ds, rfl⟩ := List.exists_cons_of_ne_nil hne
    obtain ⟨x, rest, rfl, hx, -⟩ := State.exists_cons_of_declaration (hds d' (by simp))
    exact ⟨x, rest ++ ds.flatten, by simp, hx⟩
  have hread := run?_of_declarations hds
  have hhead : ds.flatten.head? = some x := by rw [hflat, List.head?_cons]
  let s := State.start.runTo (d ++ ds.flatten).head? p
  have hsettles : State.Settles 4 s x d := State.settles_of_declaration s hd hx
  -- The states that wait for a name are alike from the name on, so the rest is read as it is after
  -- a semicolon.
  have hrest : (s.runTo (some x) d).run? ds.flatten = some .semicolon := by
    rw [hflat] at hread ⊢
    rw [(State.move_of_expectation hsettles.2 hx).run?_cons]
    rwa [(State.Move.again hx).run?_cons] at hread
  refine ⟨s, x, hsettles, ?_, ?_⟩
  · rw [State.run_append, State.run_append, hhead]
    exact State.run_of_run? hrest
  · rw [trace_append, State.steps_append, hhead,
      complaints_append (by simp), complaints_append (by simp),
      complaints_eq_nil (State.steps_of_run? hrest _), List.append_nil]

/-- **Recovery takes one declaration**: of two or more declarations after any tokens, the first
gets at most four diagnostics and the others none, and the block ends as it should. -/
theorem validate_resynchronises (p d : List Token) (ds : List (List Token))
    (hd : d ∈ declaration) (hne : ds ≠ []) (hds : ∀ e ∈ ds, e ∈ declaration) :
    (∀ x ∈ (validate (p ++ (d ++ ds.flatten))).located, x.1 < p.length + d.length ∧
        ∃ t s m, (p ++ (d ++ ds.flatten))[x.1]? = some t ∧ x.2 = .unexpected s m t) ∧
      ((validate (p ++ (d ++ ds.flatten))).located.filter
        fun x => p.length ≤ x.1).length ≤ 4 ∧
      (validate (p ++ (d ++ ds.flatten))).located.map Prod.snd =
        (validate (p ++ (d ++ ds.flatten))).diagnostics ∧
      (∀ x ∈ (validate (p ++ (d ++ ds.flatten))).diagnostics, x.isUnterminated = false) ∧
      (validate (p ++ (d ++ ds.flatten))).finalState = .semicolon := by
  obtain ⟨s, x, hsettles, hfinal, hcomplaints⟩ := exists_settled p hd hne hds
  have hdiag := diagnostics_validate (p ++ (d ++ ds.flatten))
  rw [show (validate (p ++ (d ++ ds.flatten))).finalState = .semicolon from hfinal] at hdiag
  rw [ending_eq_nil_iff.mpr rfl, List.append_nil] at hdiag
  refine ⟨fun y hy => ⟨?_, exists_of_mem_located hy⟩, ?_, ?_, ?_, hfinal⟩
  · rw [located_validate, hcomplaints] at hy
    rcases List.mem_append.mp hy with hy | hy
    · have hlt := (index_of_mem_complaints hy).2
      omega
    · exact (index_of_mem_complaints hy).2
  -- what is reported on the tokens before the declarations is not counted
  · have hgarbage : (complaints (State.start.stepsTo (d ++ ds.flatten).head? 0 p) p).filter
        (fun y => p.length ≤ y.1) = [] := by
      rw [List.filter_eq_nil_iff]
      intro y hy
      have hlt := (index_of_mem_complaints hy).2
      simpa using hlt
    rw [located_validate, hcomplaints, List.filter_append, hgarbage, List.nil_append]
    refine (List.length_filter_le _ _).trans ?_
    rw [length_complaints (by simp)]
    exact hsettles.1 _
  · rw [located_validate, hdiag]
  · intro y hy
    rw [hdiag] at hy
    rw [Diagnostic.isUnterminated, isUnexpected_of_mem_complaints hy]
    rfl

/-- The declaration `x: real;` at an offset. -/
def singleName (offset : Nat) : List Token :=
  [⟨.identifier, "x", offset⟩, ⟨.colon, ":", offset + 1⟩, ⟨.type, "real", offset + 3⟩,
    ⟨.semicolon, ";", offset + 7⟩]

/-- A single name with its type is a declaration. -/
theorem singleName_mem_declaration (offset : Nat) : singleName offset ∈ declaration := by
  rw [← mul_one declaration, declaration_mul]
  refine cons_mem_only_mul rfl ?_
  have hle : ∀ l : FormalLanguage Token, l ≤ (only .delimiter * only .identifier)∗ * l := fun _ =>
    le_mul_of_one_le_left' one_le_kstar
  apply hle
  exact cons_mem_only_mul rfl (cons_mem_only_mul rfl (cons_mem_only_mul rfl rfl))

/-- The bound is met by the shortest of declarations, without `var` before it. -/
theorem validate_resynchronises_singleName :
    singleName 0 ∈ declaration ∧ singleName 9 ∈ declaration ∧
      (∀ x ∈ (validate (singleName 0 ++ singleName 9)).located, x.1 < 4) ∧
      (validate (singleName 0 ++ singleName 9)).finalState = .semicolon := by
  have h := validate_resynchronises [] (singleName 0) [singleName 9] (singleName_mem_declaration 0)
    (by simp) (by simp [singleName_mem_declaration])
  exact ⟨singleName_mem_declaration 0, singleName_mem_declaration 9, fun x hx => (h.1 x hx).1,
    h.2.2.2.2⟩

-- With no `var` in front the first of two declarations is misread to its end.
example : (validate (singleName 0 ++ singleName 9)).located.length = 4 := by decide

end VarBlock
