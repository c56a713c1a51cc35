import Mathlib.Tactic.SplitIfs
import VarBlock.CommandLine.Arguments
import VarBlock.Proofs.Success

/-!
# Lines with a command

A line that asks for more than help or the version has the name of a command in it
(`exists_command_of_readRoot`). What stands before the name is passed over, whatever comes after it,
and what stands after the name is all that the command reads. It reads one argument after the other
(`Reads`), so a fact on a line follows from one on each way to read an argument.

The reading of a command is a loop over the arguments with three kinds of exit: it fails, it ends
with a request of the command, or it ends early with a request for help. `Reads` holds of the steps
that do neither fail nor end early, with one constructor for each branch of the loop, and `ReadsAll`
is the run of such steps. The two directions are `ReadsAll.readCommand_eq` and `exists_readsAll`.
With them a property of all accepted lines is proved by the cases of `Reads`, and the parser itself
is not unfolded again.
-/

namespace VarBlock.CommandLine

/-- The command that a request comes from. Help and the version can be had without one. -/
def Request.command? : Request → Option Command
  | .check .. => some .check
  | .tokens .. => some .tokens
  | .sample .. => some .sample
  | .listFormats => some .listFormats
  | .help => none
  | .version => none

/-! ## After the name -/

/-- The value that letters after that of an option make up, with an equals sign before it or
without one. -/
def attachedValue : List Char → Option String
  | [] => none
  | '=' :: value => some (String.ofList value)
  | value => some (String.ofList value)

/-- A letter that is no flag is an option. -/
theorem readLetters_eq {letter : Char} (hv : letter ≠ 'v') (hh : letter ≠ 'h')
    (letters : List Char) (c : Command) (p : Progress) : p.readLetters c (letter :: letters) =
      match c.valueOptions.find? fun o => o.letter = letter with
      | none => .error (.unexpectedArgument (String.ofList ['-', letter]))
      | some o => some <$> p.readOption c o (attachedValue letters) := by
  rw [Progress.readLetters.eq_def]
  split
  · next heq => cases heq
  · next heq => exact absurd (List.cons.inj heq).1 hv
  · next heq => exact absurd (List.cons.inj heq).1 hh
  · next heq =>
    obtain ⟨rfl, rfl⟩ := List.cons.inj heq
    rfl

variable {c c' : Command} {r : Request} {p p' : Progress}

/-- The name of an option of the command is read as that option. -/
theorem readLong_eq {name : String} {o : ValueOption}
    (h : (c.valueOptions.find? fun o => o.name = name) = some o) (p : Progress)
    (value : Option String) : p.readLong c name value = some <$> p.readOption c o value := by
  obtain rfl : o.name = name := by simpa using List.find?_some h
  have hhelp : o.name ≠ "help" := by cases o <;> decide
  have hverbose : o.name ≠ "verbose" := by cases o <;> decide
  have hsuccess : o.name ≠ "no-success" := by cases o <;> decide
  rw [Progress.readLong]
  dsimp only
  rw [if_neg hhelp, if_neg hverbose, if_neg (by simp [hsuccess]), h]

/-- The flag that silences success is set once what was pending is settled, unless it has been set
before. -/
theorem readLong_noSuccess (h : p.settle .check = .ok p') (hfirst : ¬ p'.noSuccess = true) :
    p.readLong .check "no-success" none = .ok (some { p' with noSuccess := true }) := by
  show p.settle .check >>= _ = _
  rw [h]
  exact if_neg hfirst

/-- What a long option is after which reading goes on. -/
theorem readLong_cases {name : String} {value : Option String}
    (h : p.readLong c name value = .ok (some p')) :
    (name = "verbose" ∧ value = none ∧ p.settle c = .ok p') ∨
    (name = "no-success" ∧ value = none ∧ c = .check ∧ ∃ p₁, p.settle .check = .ok p₁ ∧
      ¬ p₁.noSuccess = true ∧ p' = { p₁ with noSuccess := true }) ∨
    ∃ o, (c.valueOptions.find? fun o => o.name = name) = some o ∧
      p.readOption c o value = .ok p' := by
  rw [Progress.readLong] at h
  dsimp only at h
  -- The three names that are tested before the options of the command, in the order of the tests.
  by_cases hhelp : name = "help"
  · rw [if_pos hhelp] at h
    cases value with
    | some v => cases h
    | none =>
      obtain ⟨p₁, -, h⟩ := bind_eq_ok h
      cases h
  rw [if_neg hhelp] at h
  by_cases hverbose : name = "verbose"
  · rw [if_pos hverbose] at h
    cases value with
    | some v => cases h
    | none => exact .inl ⟨hverbose, rfl, map_some_eq_ok h⟩
  rw [if_neg hverbose] at h
  by_cases hsuccess : (name = "no-success" && c = .check) = true
  · rw [if_pos hsuccess] at h
    simp only [Bool.and_eq_true, decide_eq_true_eq] at hsuccess
    obtain ⟨hname, rfl⟩ := hsuccess
    cases value with
    | some v => cases h
    | none =>
      obtain ⟨p₁, h₁, h⟩ := bind_eq_ok h
      split at h
      · cases h
      · next hfirst =>
        obtain rfl := Option.some.inj (Except.ok.inj h)
        exact .inr (.inl ⟨hname, rfl, rfl, p₁, h₁, hfirst, rfl⟩)
  rw [if_neg hsuccess] at h
  split at h
  · next o ho => exact .inr (.inr ⟨o, ho, map_some_eq_ok h⟩)
  · cases h

/-- What it means that a value is recorded. -/
theorem Progress.record_cases {o : ValueOption} {value : String}
    (h : p.record o value = .ok p') :
    p.options.lookup o = none ∧ p' = { p with options := p.options ++ [(o, value)] } := by
  rw [record] at h
  split at h
  · cases h
  · next hnone => exact ⟨hnone, (Except.ok.inj h).symm⟩

/-- To record a value leaves what is pending as it is. -/
theorem Progress.pending_of_record {o : ValueOption} {value : String}
    (h : p.record o value = .ok p') : p'.pending = p.pending := by
  obtain ⟨-, rfl⟩ := record_cases h
  rfl

/-- What it means that what is pending is settled. -/
theorem Progress.settle_cases (h : p.settle c = .ok p') :
    (p.pending = none ∧ p' = p) ∨
    (∃ o value, p.pending = some (.option o (some value)) ∧ p.options.lookup o = none ∧
      p' = { p with options := p.options ++ [(o, value)], pending := none }) ∨
    ∃ value, p.pending = some (.argument value) ∧
      p' = { p with argument := some value, pending := none } := by
  rw [settle] at h
  dsimp only at h
  split at h
  · next hpending => exact .inl ⟨hpending, (Except.ok.inj h).symm⟩
  · -- An option whose value has not come cannot be settled.
    cases h
  · next o value hpending =>
    obtain ⟨hnone, rfl⟩ := record_cases h
    exact .inr (.inl ⟨o, value, hpending, hnone, rfl⟩)
  · next value hpending =>
    split_ifs at h
    exact .inr (.inr ⟨value, hpending, (Except.ok.inj h).symm⟩)

/-- Nothing is pending where it has been settled. -/
theorem Progress.pending_of_settle (h : p.settle c = .ok p') : p'.pending = none := by
  obtain ⟨hpending, rfl⟩ | ⟨o, value, -, -, rfl⟩ | ⟨value, -, rfl⟩ := settle_cases h
  · exact hpending
  · rfl
  · rfl

/-- The request that is made at the end of a line is one of the command that read the line. -/
theorem command?_of_request (h : p.request c = .ok r) : r.command? = some c := by
  obtain ⟨p₁, -, h⟩ := bind_eq_ok h
  cases c with
  | check =>
    obtain ⟨source, -, h⟩ := bind_eq_ok h
    cases h
    rfl
  | tokens =>
    obtain ⟨source, -, h⟩ := bind_eq_ok h
    cases h
    rfl
  | sample =>
    cases h
    rfl
  | listFormats =>
    cases h
    rfl

/-- One argument of a command is read. After it what was escaped stays so, and two dashes escape
what follows. -/
inductive Reads (c : Command) : Bool → Progress → String → Bool → Progress → Prop
  | escaped {p p' : Progress} {argument : String} (h : p.readArgument c argument = .ok p') :
    Reads c true p argument true p'
  | escape {p : Progress} {argument : String} (hform : ArgumentForm.of argument = .escape) :
    Reads c false p argument true p
  | long {p p' : Progress} {argument name : String} {value : Option String}
    (hform : ArgumentForm.of argument = .long name value)
    (h : p.readLong c name value = .ok (some p')) : Reads c false p argument false p'
  | short {p p' : Progress} {argument : String} {letters : List Char}
    (hform : ArgumentForm.of argument = .short letters)
    (h : p.readLetters c letters = .ok (some p')) : Reads c false p argument false p'
  | value {p : Progress} {argument : String} {o : ValueOption}
    (hform : ArgumentForm.of argument = .plain) (h : p.awaiting? = some o) :
    Reads c false p argument false { p with pending := some (.option o (some argument)) }
  | plain {p p' : Progress} {argument : String} (hform : ArgumentForm.of argument = .plain)
    (hawaiting : p.awaiting? = none) (h : p.readArgument c argument = .ok p') :
    Reads c false p argument false p'

section Reads

variable {escaped escaped' : Bool} {argument : String} {arguments : List String}

/-- To read an argument is one step of `readCommand`, and what follows on the line has no say in
it. -/
theorem Reads.readCommand_eq (h : Reads c escaped p argument escaped' p')
    (arguments : List String) :
    readCommand c escaped p (argument :: arguments) = readCommand c escaped' p' arguments := by
  rw [readCommand]
  cases h with
  | escaped h =>
    rw [if_pos rfl, h]
    rfl
  | escape hform => rw [if_neg Bool.false_ne_true, hform]
  | long hform h =>
    rw [if_neg Bool.false_ne_true, hform]
    dsimp only
    rw [h]
    rfl
  | short hform h =>
    rw [if_neg Bool.false_ne_true, hform]
    dsimp only
    rw [h]
    rfl
  | value hform h =>
    rw [if_neg Bool.false_ne_true, hform]
    dsimp only
    rw [h]
  | plain hform hawaiting h =>
    rw [if_neg Bool.false_ne_true, hform]
    dsimp only
    rw [hawaiting]
    dsimp only
    rw [h]
    rfl

/-- A line that does not ask for help is read argument by argument. -/
theorem exists_reads (h : readCommand c escaped p (argument :: arguments) = .ok r)
    (hr : r.command? = some c') : ∃ escaped' p', Reads c escaped p argument escaped' p' ∧
      readCommand c escaped' p' arguments = .ok r := by
  rw [readCommand] at h
  -- Once two dashes have been read, an argument is not looked at for its form any more.
  cases escaped with
  | true =>
    obtain ⟨p', hp', h⟩ := bind_eq_ok h
    exact ⟨_, _, .escaped hp', h⟩
  | false =>
    rw [if_neg Bool.false_ne_true] at h
    cases hform : ArgumentForm.of argument with
    | escape =>
      rw [hform] at h
      exact ⟨_, _, .escape hform, h⟩
    | long name value =>
      rw [hform] at h
      obtain ⟨p', hp', h⟩ := bind_eq_ok h
      cases p' with
      -- No progress is left where the option was `help`, and then the request has no command.
      | none =>
        cases h
        cases hr
      | some p' => exact ⟨_, _, .long hform hp', h⟩
    | short letters =>
      rw [hform] at h
      obtain ⟨p', hp', h⟩ := bind_eq_ok h
      cases p' with
      | none =>
        cases h
        cases hr
      | some p' => exact ⟨_, _, .short hform hp', h⟩
    | plain =>
      rw [hform] at h
      dsimp only at h
      cases hawaiting : p.awaiting? with
      | some o =>
        rw [hawaiting] at h
        exact ⟨_, _, .value hform hawaiting, h⟩
      | none =>
        rw [hawaiting] at h
        obtain ⟨p', hp', h⟩ := bind_eq_ok h
        exact ⟨_, _, .plain hform hawaiting hp', h⟩

/-- One argument after the other is read. -/
inductive ReadsAll (c : Command) : Bool → Progress → List String → Bool → Progress → Prop
  | nil {escaped : Bool} {p : Progress} : ReadsAll c escaped p [] escaped p
  | cons {escaped escaped₁ escaped' : Bool} {p p₁ p' : Progress} {argument : String}
    {arguments : List String} (h : Reads c escaped p argument escaped₁ p₁)
    (hs : ReadsAll c escaped₁ p₁ arguments escaped' p') :
    ReadsAll c escaped p (argument :: arguments) escaped' p'

/-- The arguments that are read leave a request to be made of the progress they reach. -/
theorem ReadsAll.readCommand_eq (h : ReadsAll c escaped p arguments escaped' p') :
    readCommand c escaped p arguments = p'.request c := by
  induction h with
  | nil => rw [readCommand]
  | cons h _ ih => rw [h.readCommand_eq, ih]

/-- Every line that a command accepts is read from its first argument to its last. The converse is
`ReadsAll.readCommand_eq`. -/
theorem exists_readsAll (h : readCommand c escaped p arguments = .ok r)
    (hr : r.command? = some c') :
    ∃ escaped' p', ReadsAll c escaped p arguments escaped' p' ∧ p'.request c = .ok r := by
  induction arguments generalizing escaped p with
  | nil =>
    rw [readCommand] at h
    exact ⟨escaped, p, .nil, h⟩
  | cons argument arguments ih =>
    obtain ⟨escaped₁, p₁, hreads, h⟩ := exists_reads h hr
    obtain ⟨escaped', p', hs, hrequest⟩ := ih h
    exact ⟨escaped', p', .cons hreads hs, hrequest⟩

/-- What a command reads is a request of its own, or for help. -/
theorem eq_of_readCommand (h : readCommand c escaped p arguments = .ok r)
    (hr : r.command? = some c') : c = c' := by
  obtain ⟨escaped', p', -, hrequest⟩ := exists_readsAll h hr
  exact Option.some.inj ((command?_of_request hrequest).symm.trans hr)

end Reads

/-! ## Before the name -/

/-- Before the name of a command a long option asks for help or the version, or it asks for
nothing. -/
theorem command?_of_readRootLong {name : String} {value : Option String}
    (h : readRootLong name value = .ok (some r)) : r.command? = none := by
  rw [readRootLong] at h
  dsimp only at h
  cases value <;> split_ifs at h <;> cases h <;> rfl

/-- The same of the letters behind one dash, of which `v` alone lets reading go on. -/
theorem command?_of_readRootLetters {letters : List Char}
    (h : readRootLetters letters = .ok (some r)) : r.command? = none := by
  induction letters with
  | nil => cases h
  | cons letter letters ih =>
    rw [readRootLetters.eq_def] at h
    split at h
    · cases h
    · -- After a `v` the other letters are read, and `ih` is about these.
      next heq =>
      obtain ⟨-, rfl⟩ := List.cons.inj heq
      exact ih h
    · cases h
      rfl
    · cases h
      rfl
    · cases h

/-- The word `help` asks for help, whatever command it is asked about. -/
theorem command?_of_readHelp {names : List String} (h : readHelp names = .ok r) :
    r.command? = none := by
  rw [readHelp.eq_def] at h
  split at h
  · cases h
    rfl
  · split_ifs at h
    cases h
    rfl
  · cases h

/-- At the name of a command the reading of the command begins, whether or not options stand before
it. -/
theorem readRoot_name (hasOptions : Bool) (c : Command) (rest : List String) :
    readRoot hasOptions (c.name :: rest) = readCommand c false .start rest := by
  cases c <;> rfl

/-- The first argument of a line with a command is the name of it, or it is passed over. -/
theorem readRoot_cases {hasOptions : Bool} {argument : String} {rest : List String}
    (h : readRoot hasOptions (argument :: rest) = .ok r) (hr : r.command? = some c) :
    (argument = c.name ∧ readCommand c false .start rest = .ok r) ∨
      (readRoot true rest = .ok r ∧
        ∀ rest', readRoot hasOptions (argument :: rest') = readRoot true rest') := by
  rw [readRoot.eq_def] at h
  dsimp only at h
  cases hname : Command.ofName? argument with
  | some c =>
    rw [hname] at h
    obtain rfl := eq_of_readCommand h hr
    have hargument := List.find?_some hname
    exact .inl ⟨(of_decide_eq_true hargument).symm, h⟩
  | none =>
    rw [hname] at h
    cases hform : ArgumentForm.of argument with
    | escape =>
      rw [hform] at h
      -- Two dashes cannot stand before the name, with or without more on the line.
      cases rest <;> cases h
    | long name value =>
      rw [hform] at h
      obtain ⟨request, hlong, h⟩ := bind_eq_ok h
      cases request with
      | some request =>
        obtain rfl := Except.ok.inj h
        rw [command?_of_readRootLong hlong] at hr
        cases hr
      -- What was asked for by the argument was nothing, and this did not depend on the rest of the
      -- line.
      | none =>
        refine .inr ⟨h, ?_⟩
        intro rest'
        rw [readRoot.eq_def]
        simp only [hname, hform, hlong]
        rfl
    | short letters =>
      rw [hform] at h
      obtain ⟨request, hletters, h⟩ := bind_eq_ok h
      cases request with
      | some request =>
        obtain rfl := Except.ok.inj h
        rw [command?_of_readRootLetters hletters] at hr
        cases hr
      | none =>
        refine .inr ⟨h, ?_⟩
        intro rest'
        rw [readRoot.eq_def]
        simp only [hname, hform, hletters]
        rfl
    | plain =>
      rw [hform] at h
      dsimp only at h
      split_ifs at h
      -- Of the plain words that are no command only `help` is accepted.
      rw [command?_of_readHelp h] at hr
      cases hr

/-- The name of the command is the first argument that is not passed over. -/
theorem exists_command_of_readRoot {hasOptions : Bool} {arguments : List String}
    (h : readRoot hasOptions arguments = .ok r) (hr : r.command? = some c) :
    ∃ before after, arguments = before ++ c.name :: after ∧
      readCommand c false .start after = .ok r ∧
      ∀ (c' : Command) rest,
        readRoot hasOptions (before ++ c'.name :: rest) = readCommand c' false .start rest := by
  -- One argument is taken from the front at a time. That it is passed over whatever follows it is
  -- what lets another name stand in the place of `c`.
  induction arguments generalizing hasOptions with
  | nil => cases h
  | cons argument rest ih =>
    obtain ⟨rfl, hrest⟩ | ⟨hrest, hpassed⟩ := readRoot_cases h hr
    · exact ⟨[], rest, rfl, hrest, readRoot_name hasOptions⟩
    · obtain ⟨before, after, rfl, hafter, hbefore⟩ := ih hrest
      refine ⟨argument :: before, after, rfl, hafter, ?_⟩
      intro c' rest'
      rw [List.cons_append, hpassed]
      exact hbefore c' rest'

end VarBlock.CommandLine
