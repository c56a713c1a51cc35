import VarBlock.Proofs.Arguments

/-!
# One more option in a line

What a command accepts is also accepted with one more option right after the name of the command, if
the option is not given already. This holds for another command too, if that one takes all that the
first one takes (`Command.Within`).

The two lines are read side by side (`ReadsAll.follows`). What has been read of the one is what has
been read of the other, with the option before it (`Progress.withOption`). Only until the next
argument is read, the option is still pending.

That the option is not given otherwise is seen at the end of the line, since nothing that has been
read is forgotten (`ReadsAll.keeps`).
-/

namespace VarBlock.CommandLine

/-- Another command takes all that a command takes. -/
structure Command.Within (c c' : Command) : Prop where
  find? : ∀ (f : ValueOption → Bool) (o : ValueOption),
    c.valueOptions.find? f = some o → c'.valueOptions.find? f = some o
  takesArgument : c'.takesArgument = true
  isCheck : c = .check → c' = .check
  ne_sample : c' ≠ .sample

namespace Progress

/-- An option is neither recorded nor pending. -/
def Lacks (o : ValueOption) (p : Progress) : Prop :=
  p.options.lookup o = none ∧ ∀ value, p.pending ≠ some (.option o value)

/-- What has been read where an option was recorded before. -/
def withOption (o : ValueOption) (value : String) (p : Progress) : Progress :=
  { p with options := (o, value) :: p.options }

/-- What has been read when an option with its value has just come up. -/
def ofOption (o : ValueOption) (value : String) : Progress :=
  ⟨[], false, none, some (.option o (some value))⟩

/-- What has been read of a line, and of the line with an option before it. -/
inductive Follows (o : ValueOption) (value : String) : Progress → Progress → Prop
  | pending : Follows o value .start (.ofOption o value)
  | recorded {p : Progress} (h : p.Lacks o) : Follows o value p (p.withOption o value)

/-- From `p` to `p'` nothing was forgotten, and nothing was read that the command does not take. -/
structure Keeps (c : Command) (p p' : Progress) : Prop where
  lacks : ∀ o, p'.Lacks o → p.Lacks o
  lacks_of_not_mem : ∀ o, o ∉ c.valueOptions → p.Lacks o → p'.Lacks o
  noSuccess : c ≠ .check → p'.noSuccess = p.noSuccess

variable {c c' : Command} {o o' : ValueOption} {value : String} {p p' q : Progress}

/-! ## What is kept -/

theorem Keeps.refl (c : Command) (p : Progress) : Keeps c p p :=
  ⟨fun _ => id, fun _ _ => id, fun _ => rfl⟩

theorem Keeps.trans {p₁ : Progress} (h : Keeps c p p₁) (h' : Keeps c p₁ p') : Keeps c p p' where
  lacks o := h.lacks o ∘ h'.lacks o
  lacks_of_not_mem o ho := h'.lacks_of_not_mem o ho ∘ h.lacks_of_not_mem o ho
  noSuccess hc := (h'.noSuccess hc).trans (h.noSuccess hc)

/-- A step after which the same options are lacking keeps all there is to keep. -/
theorem keeps_of_lacks_iff (hlacks : ∀ o, p'.Lacks o ↔ p.Lacks o)
    (hsuccess : p'.noSuccess = p.noSuccess) : Keeps c p p' :=
  ⟨fun o => (hlacks o).mp, fun o _ => (hlacks o).mpr, fun _ => hsuccess⟩

/-- A value of an option that the command takes. -/
theorem keeps_of_lacks_iff_and (ho' : o' ∈ c.valueOptions)
    (hlacks : ∀ o, p'.Lacks o ↔ p.Lacks o ∧ o' ≠ o) (hsuccess : p'.noSuccess = p.noSuccess) :
    Keeps c p p' where
  lacks o h := ((hlacks o).mp h).1
  lacks_of_not_mem o ho h := (hlacks o).mpr ⟨h, ne_of_mem_of_not_mem ho' ho⟩
  noSuccess _ := hsuccess

/-- Where nothing is pending, an option is lacking if it has not been recorded. -/
theorem lacks_of_pending_none (h : p.pending = none) :
    p.Lacks o ↔ p.options.lookup o = none := by
  rw [Lacks, h]
  exact and_iff_left nofun

theorem lacks_of_pending_argument (h : p.pending = some (.argument value)) :
    p.Lacks o ↔ p.options.lookup o = none := by
  rw [Lacks, h]
  exact and_iff_left nofun

/-- An option that is pending is not lacking either. -/
theorem lacks_of_pending_option {value : Option String} (h : p.pending = some (.option o' value)) :
    p.Lacks o ↔ p.options.lookup o = none ∧ o' ≠ o := by
  rw [Lacks, h]
  apply and_congr_right'
  constructor
  · rintro h rfl
    exact h _ rfl
  · rintro hne value' hvalue
    cases hvalue
    exact hne rfl

/-- An option is lacking from a longer list if it is neither in the shorter one nor the one
added. -/
theorem lookup_concat {options : List (ValueOption × String)} :
    (options ++ [(o', value)]).lookup o = none ↔ options.lookup o = none ∧ o' ≠ o := by
  rw [List.lookup_append, Option.or_eq_none_iff]
  apply and_congr_right'
  by_cases h : o = o'
  · simp [h]
  · simp [List.lookup_cons, beq_eq_false_iff_ne.mpr h, Ne.symm h]

theorem settle_of_pending_none (h : p.pending = none) : p.settle c = .ok p := by
  rw [settle, h]

/-- What is asked for can be read off what is settled. -/
theorem request_of_settle (h : p.settle c = .ok p') : p'.request c = p.request c := by
  rw [request, request, h, settle_of_pending_none (pending_of_settle h)]

/-- What is settled was given before, as what was pending. So the same options are lacking. -/
theorem lacks_settle (h : p.settle c = .ok p') : p'.Lacks o ↔ p.Lacks o := by
  obtain ⟨-, rfl⟩ | ⟨o', value, hpending, -, rfl⟩ | ⟨value, hpending, rfl⟩ := settle_cases h
  · rfl
  · rw [lacks_of_pending_none rfl, lacks_of_pending_option hpending]
    exact lookup_concat
  · rw [lacks_of_pending_none rfl, lacks_of_pending_argument hpending]

theorem noSuccess_settle (h : p.settle c = .ok p') : p'.noSuccess = p.noSuccess := by
  obtain ⟨-, rfl⟩ | ⟨o', value, -, -, rfl⟩ | ⟨value, -, rfl⟩ := settle_cases h <;> rfl

theorem keeps_settle (h : p.settle c = .ok p') : Keeps c p p' :=
  keeps_of_lacks_iff (fun _ => lacks_settle h) (noSuccess_settle h)

/-- After an option has been read, the same options are lacking but for this one. -/
theorem lacks_readOption {value : Option String} (h : p.readOption c o' value = .ok p') :
    p'.Lacks o ↔ p.Lacks o ∧ o' ≠ o := by
  obtain ⟨p₁, h₁, h⟩ := bind_eq_ok h
  have hpending := pending_of_settle h₁
  rw [← lacks_settle h₁, lacks_of_pending_none hpending]
  -- With its value the option is recorded, and without it the option is pending. It is not lacking
  -- in either case.
  cases value with
  | some value =>
    rw [lacks_of_pending_none ((pending_of_record h).trans hpending)]
    obtain ⟨-, rfl⟩ := record_cases h
    exact lookup_concat
  | none =>
    obtain rfl := Except.ok.inj h
    exact lacks_of_pending_option rfl

theorem noSuccess_readOption {value : Option String} (h : p.readOption c o' value = .ok p') :
    p'.noSuccess = p.noSuccess := by
  obtain ⟨p₁, h₁, h⟩ := bind_eq_ok h
  rw [← noSuccess_settle h₁]
  cases value with
  | some value =>
    obtain ⟨-, rfl⟩ := record_cases h
    rfl
  | none =>
    obtain rfl := Except.ok.inj h
    rfl

theorem keeps_readOption (ho' : o' ∈ c.valueOptions) {value : Option String}
    (h : p.readOption c o' value = .ok p') : Keeps c p p' :=
  keeps_of_lacks_iff_and ho' (fun _ => lacks_readOption h) (noSuccess_readOption h)

theorem keeps_readArgument {argument : String} (h : p.readArgument c argument = .ok p') :
    Keeps c p p' := by
  rw [readArgument] at h
  split at h
  · obtain ⟨p₁, h₁, h⟩ := bind_eq_ok h
    obtain rfl := Except.ok.inj h
    refine (keeps_settle h₁).trans (keeps_of_lacks_iff (fun o => ?_) rfl)
    rw [lacks_of_pending_none (pending_of_settle h₁)]
    exact lacks_of_pending_argument rfl
  · cases h

theorem keeps_readLetters {letters : List Char} (h : p.readLetters c letters = .ok (some p')) :
    Keeps c p p' := by
  induction letters generalizing p with
  | nil =>
    obtain rfl := Option.some.inj (Except.ok.inj h)
    exact .refl c p
  | cons letter letters ih =>
    -- Of the two letters that are flags, `v` lets the rest be read and `h` leaves no progress.
    by_cases hv : letter = 'v'
    · subst hv
      obtain ⟨p₁, h₁, h⟩ := bind_eq_ok h
      exact (keeps_settle h₁).trans (ih h)
    by_cases hh : letter = 'h'
    · subst hh
      obtain ⟨p₁, -, h⟩ := bind_eq_ok h
      cases h
    · rw [readLetters_eq hv hh] at h
      split at h
      · cases h
      · next o ho =>
        exact keeps_readOption (List.mem_of_find?_eq_some ho) (map_some_eq_ok h)

theorem keeps_readLong {name : String} {value : Option String}
    (h : p.readLong c name value = .ok (some p')) : Keeps c p p' := by
  obtain ⟨-, -, hp⟩ | ⟨-, -, rfl, p₁, h₁, -, rfl⟩ | ⟨o, ho, hp⟩ := readLong_cases h
  · exact keeps_settle hp
  · exact (keeps_settle h₁).trans ⟨fun _ => id, fun _ _ => id, fun hc => absurd rfl hc⟩
  · exact keeps_readOption (List.mem_of_find?_eq_some ho) hp

/-- An option that waits for its value is pending without one. -/
theorem pending_of_awaiting? (h : p.awaiting? = some o') : p.pending = some (.option o' none) := by
  rw [awaiting?] at h
  split at h
  · next heq =>
    obtain rfl := Option.some.inj h
    exact heq
  · cases h

theorem keeps_readValue (h : p.awaiting? = some o') (value : String) :
    Keeps c p { p with pending := some (.option o' (some value)) } := by
  refine keeps_of_lacks_iff (fun o => ?_) rfl
  rw [lacks_of_pending_option (pending_of_awaiting? h)]
  exact lacks_of_pending_option rfl

end Progress

open Progress

section Keeps

variable {c : Command} {escaped escaped' : Bool} {p p' : Progress} {argument : String}
  {arguments : List String}

/-- All is kept where an argument is read, in whichever way. -/
theorem Reads.keeps (h : Reads c escaped p argument escaped' p') : Keeps c p p' := by
  cases h with
  | escaped h => exact keeps_readArgument h
  | escape => exact .refl c p
  | long _ h => exact keeps_readLong h
  | short _ h => exact keeps_readLetters h
  | value _ h => exact keeps_readValue h argument
  | plain _ _ h => exact keeps_readArgument h

/-- All is kept along a line. -/
theorem ReadsAll.keeps (h : ReadsAll c escaped p arguments escaped' p') : Keeps c p p' := by
  induction h with
  | nil => exact .refl c _
  | cons h _ ih => exact h.keeps.trans ih

end Keeps

namespace Progress

variable {c c' : Command} {o o' : ValueOption} {value : String} {p p' q : Progress}

/-! ## One step -/

/-- The other options are as they were before the option was added. -/
theorem lookup_withOption (h : o' ≠ o) (p : Progress) (value : String) :
    (p.withOption o value).options.lookup o' = p.options.lookup o' := by
  rw [withOption, List.lookup_cons, beq_eq_false_iff_ne.mpr h]

/-- A value of another option is recorded with the added option as it is without. -/
theorem record_withOption {value' : String} (ho : o' ≠ o) (h : p.record o' value' = .ok p')
    (value : String) :
    (p.withOption o value).record o' value' = .ok (p'.withOption o value) := by
  obtain ⟨hnone, rfl⟩ := record_cases h
  rw [record, lookup_withOption ho, hnone]
  rfl

/-- Settled, the two lines differ in the added option only. -/
theorem Follows.settle (h : Follows o value p q) (hc : c' ≠ .sample) (hp : p.settle c = .ok p') :
    q.settle c' = .ok (p'.withOption o value) := by
  cases h with
  | pending =>
    -- this is where the option gets recorded
    obtain rfl := Except.ok.inj hp
    rfl
  | recorded h =>
    obtain ⟨options, noSuccess, argument, pending⟩ := p
    obtain ⟨rfl, rfl⟩ | ⟨o', value', rfl, hnone, rfl⟩ | ⟨value', rfl, rfl⟩ := settle_cases hp
    · rfl
    · have ho := ((lacks_of_pending_option rfl).mp h).2
      have hrecord : record ⟨options, noSuccess, argument, none⟩ o' value' =
          .ok ⟨options ++ [(o', value')], noSuccess, argument, none⟩ := by
        rw [record, hnone]
      exact record_withOption ho hrecord value
    · exact if_neg (by simp [hc])

/-- The added option is no argument. -/
theorem Follows.hasArgument (h : Follows o value p q) : q.hasArgument = p.hasArgument := by
  cases h <;> rfl

/-- The added option has its value, so what waits for one is the same in both lines. -/
theorem Follows.awaiting? (h : Follows o value p q) : q.awaiting? = p.awaiting? := by
  cases h <;> rfl

/-- A plain argument is read in both lines or in neither. -/
theorem Follows.readArgument (hc : c.Within c') (h : Follows o value p q) {argument : String}
    (hp : p.readArgument c argument = .ok p') (hlacks : p'.Lacks o) :
    ∃ q', q.readArgument c' argument = .ok q' ∧ Follows o value p' q' := by
  rw [Progress.readArgument] at hp
  split at hp
  · next hplace =>
    obtain ⟨p₁, hp₁, hp⟩ := bind_eq_ok hp
    obtain rfl := Except.ok.inj hp
    -- There is a place for a path in the longer line, as the added option does not take it.
    have hplace' : (c'.takesArgument && !q.hasArgument) = true := by
      rw [hc.takesArgument, h.hasArgument]
      exact (Bool.and_eq_true_iff.mp hplace).2
    refine ⟨_, ?_, .recorded hlacks⟩
    rw [Progress.readArgument, if_pos hplace', h.settle hc.ne_sample hp₁]
    rfl
  · cases hp

/-- An option is read in the longer line as in the shorter, for it is not the added one. -/
theorem Follows.readOption (hc : c.Within c') (h : Follows o value p q) {value' : Option String}
    (hp : p.readOption c o' value' = .ok p') (hlacks : p'.Lacks o) :
    ∃ q', q.readOption c' o' value' = .ok q' ∧ Follows o value p' q' := by
  -- The option that is read here is another one, since the added one is still lacking afterwards.
  have ho := ((lacks_readOption hp).mp hlacks).2
  obtain ⟨p₁, hp₁, hp⟩ := bind_eq_ok hp
  refine ⟨_, ?_, .recorded hlacks⟩
  rw [Progress.readOption, h.settle hc.ne_sample hp₁]
  cases value' with
  | some value' => exact record_withOption ho hp value
  | none =>
    obtain rfl := Except.ok.inj hp
    rfl

/-- Letters behind a dash are read in the longer line as in the shorter. -/
theorem Follows.readLetters (hc : c.Within c') (h : Follows o value p q) {letters : List Char}
    (hp : p.readLetters c letters = .ok (some p')) (hlacks : p'.Lacks o) :
    ∃ q', q.readLetters c' letters = .ok (some q') ∧ Follows o value p' q' := by
  induction letters generalizing p q with
  | nil =>
    obtain rfl := Option.some.inj (Except.ok.inj hp)
    exact ⟨q, rfl, h⟩
  | cons letter letters ih =>
    by_cases hv : letter = 'v'
    · subst hv
      obtain ⟨p₁, hp₁, hp⟩ := bind_eq_ok hp
      -- The option is lacking in between because it is lacking at the end.
      have hlacks₁ := (keeps_readLetters hp).lacks o hlacks
      obtain ⟨q', hq', hfollows⟩ := ih (.recorded hlacks₁) hp
      refine ⟨q', ?_, hfollows⟩
      rw [Progress.readLetters, h.settle hc.ne_sample hp₁]
      exact hq'
    by_cases hh : letter = 'h'
    · subst hh
      obtain ⟨p₁, -, hp⟩ := bind_eq_ok hp
      cases hp
    · rw [readLetters_eq hv hh] at hp
      split at hp
      · cases hp
      · next o' ho' =>
        obtain ⟨q', hq', hfollows⟩ := h.readOption hc (map_some_eq_ok hp) hlacks
        refine ⟨q', ?_, hfollows⟩
        rw [readLetters_eq hv hh, hc.find? _ _ ho']
        show some <$> q.readOption c' o' (attachedValue letters) = _
        rw [hq']
        rfl

/-- A long option is read in the longer line as in the shorter. -/
theorem Follows.readLong (hc : c.Within c') (h : Follows o value p q) {name : String}
    {value' : Option String} (hp : p.readLong c name value' = .ok (some p'))
    (hlacks : p'.Lacks o) :
    ∃ q', q.readLong c' name value' = .ok (some q') ∧ Follows o value p' q' := by
  -- Two flags and the options. Only a check has `no-success`, and then the other command is a check
  -- too.
  obtain ⟨rfl, rfl, hp₁⟩ | ⟨rfl, rfl, hcheck, p₁, hp₁, hfirst, rfl⟩ | ⟨o', ho', hp₁⟩ :=
    readLong_cases hp
  · refine ⟨_, ?_, .recorded hlacks⟩
    show some <$> q.settle c' = _
    rw [h.settle hc.ne_sample hp₁]
    rfl
  · obtain rfl := hc.isCheck hcheck
    exact ⟨_, readLong_noSuccess (h.settle hc.ne_sample hp₁) hfirst, .recorded hlacks⟩
  · obtain ⟨q', hq', hfollows⟩ := h.readOption hc hp₁ hlacks
    refine ⟨q', ?_, hfollows⟩
    rw [readLong_eq (hc.find? _ _ ho'), hq']
    rfl

/-- The value of an option becomes pending with it. -/
theorem Follows.readValue (h : Follows o value p q) (ho' : p.awaiting? = some o')
    {argument : String}
    (hlacks : Lacks o { p with pending := some (.option o' (some argument)) }) :
    Follows o value { p with pending := some (.option o' (some argument)) }
      { q with pending := some (.option o' (some argument)) } := by
  cases h with
  | pending => cases ho'
  | recorded => exact .recorded hlacks

end Progress

/-! ## Whole lines -/

section Lines

variable {c c' : Command} {o : ValueOption} {value : String} {escaped escaped' : Bool}
  {p p' q : Progress} {argument : String} {arguments : List String}

/-- An argument that is read in the shorter line is read in the longer. -/
theorem Reads.follows (hc : c.Within c') (h : Follows o value p q)
    (hp : Reads c escaped p argument escaped' p') (hlacks : p'.Lacks o) :
    ∃ q', Reads c' escaped q argument escaped' q' ∧ Follows o value p' q' := by
  -- In each of the six ways an argument is read by its form, so it is read in the same way in both
  -- lines.
  cases hp with
  | escaped hp =>
    obtain ⟨q', hq', hfollows⟩ := h.readArgument hc hp hlacks
    exact ⟨q', .escaped hq', hfollows⟩
  | escape hform => exact ⟨q, .escape hform, h⟩
  | long hform hp =>
    obtain ⟨q', hq', hfollows⟩ := h.readLong hc hp hlacks
    exact ⟨q', .long hform hq', hfollows⟩
  | short hform hp =>
    obtain ⟨q', hq', hfollows⟩ := h.readLetters hc hp hlacks
    exact ⟨q', .short hform hq', hfollows⟩
  | value hform hawaiting =>
    exact ⟨_, .value hform (h.awaiting?.trans hawaiting), h.readValue hawaiting hlacks⟩
  | plain hform hawaiting hp =>
    obtain ⟨q', hq', hfollows⟩ := h.readArgument hc hp hlacks
    exact ⟨q', .plain hform (h.awaiting?.trans hawaiting) hq', hfollows⟩

/-- What is read of the shorter line up to its end is read of the longer. -/
theorem ReadsAll.follows (hc : c.Within c') (h : Follows o value p q)
    (hp : ReadsAll c escaped p arguments escaped' p') (hlacks : p'.Lacks o) :
    ∃ q', ReadsAll c' escaped q arguments escaped' q' ∧ Follows o value p' q' := by
  -- `hlacks` speaks of the end of the line. What is read after the first argument keeps it, so it
  -- holds there too.
  induction hp generalizing q with
  | nil => exact ⟨q, .nil, h⟩
  | cons hreads hs ih =>
    obtain ⟨q₁, hreads', h₁⟩ := hreads.follows hc h (hs.keeps.lacks o hlacks)
    obtain ⟨q', hs', hfollows⟩ := ih h₁ hlacks
    exact ⟨q', .cons hreads' hs', hfollows⟩

/-- **One more option**: the arguments of a command are accepted after an option that is not given
in them. What is asked for is read off what the command has read in the end, with the option before
it. -/
theorem exists_readCommand_ofOption {r : Request} (hc : c.Within c')
    (h : readCommand c false .start arguments = .ok r) (hr : r.command? = some c)
    (hlacks : o ∉ c.valueOptions ∨
      ∀ p : Progress, p.pending = none → p.request c = .ok r → p.Lacks o) :
    ∃ p : Progress, p.pending = none ∧ p.request c = .ok r ∧ (c ≠ .check → p.noSuccess = false) ∧
      ∀ value, readCommand c' false (.ofOption o value) arguments =
        (p.withOption o value).request c' := by
  obtain ⟨escaped', p₁, hreads, hrequest⟩ := exists_readsAll h hr
  obtain ⟨p, hp, -⟩ := bind_eq_ok hrequest
  have hpending := pending_of_settle hp
  have hrequest' : p.request c = .ok r := (request_of_settle hp).trans hrequest
  -- The option is lacking at the end: the command does not have it, or the request shows that it
  -- was not given.
  have hend : p.Lacks o := by
    rcases hlacks with ho | hlacks
    · exact (lacks_settle hp).mpr (hreads.keeps.lacks_of_not_mem o ho ⟨rfl, nofun⟩)
    · exact hlacks p hpending hrequest'
  refine ⟨p, hpending, hrequest', ?_, fun value => ?_⟩
  · intro hne
    exact (noSuccess_settle hp).trans (hreads.keeps.noSuccess hne)
  · obtain ⟨q, hreads', hfollows⟩ := hreads.follows hc .pending ((lacks_settle hp).mp hend)
    rw [hreads'.readCommand_eq]
    exact (request_of_settle (hfollows.settle hc.ne_sample hp)).symm

end Lines

end VarBlock.CommandLine
