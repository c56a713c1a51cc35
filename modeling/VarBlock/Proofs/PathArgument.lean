import VarBlock.Proofs.Arguments

/-!
# The path in a line

The path of a source is one argument of the line, and another path that is no option can stand in
its place. The line then asks for the same with the other path (`exists_path_line`).

Up to the path both lines are read alike. From then on the one has read what the other has, but for
the path (`Progress.withPath`), and each step keeps it so: a step on what has been read is also one
on what has been read with another path, and neither of them finds the path or loses it.

An invariant over pairs of readings would do as well, as in `ExtraOption`. Here the second reading
is a function of the first, so equations are enough.
-/

namespace VarBlock.CommandLine

/-- The options for the source that a request is about. -/
def Request.options? : Request → Option SourceOptions
  | .check o .. => some o
  | .tokens o => some o
  | _ => none

/-- The same request for the source under another path. -/
def Request.withPath (path : String) : Request → Request
  | .check o format noSuccess => .check { o with path := path } format noSuccess
  | .tokens o => .tokens { o with path := path }
  | request => request

def Pending.withPath (path : String) : Pending → Pending
  | .option o value => .option o value
  | .argument _ => .argument path

namespace Progress

/-- What has been read of a line with another path. -/
def withPath (path : String) (p : Progress) : Progress :=
  { p with
    argument := p.argument.map fun _ => path
    pending := p.pending.map (Pending.withPath path) }

variable {c : Command} {p p' : Progress}

/-! ## One step -/

/-- Where no path has been read, there is none to be replaced. -/
theorem withPath_of_not_hasArgument (h : p.hasArgument = false) (path : String) :
    p.withPath path = p := by
  obtain ⟨options, noSuccess, argument, pending⟩ := p
  -- A path is pending or has been settled, and neither is the case.
  cases pending with
  | none =>
    cases argument with
    | none => rfl
    | some argument => cases h
  | some pending =>
    cases pending with
    | argument value => cases h
    | option o value =>
      cases argument with
      | none => rfl
      | some argument => cases h

theorem awaiting?_withPath (p : Progress) (path : String) :
    (p.withPath path).awaiting? = p.awaiting? := by
  obtain ⟨options, noSuccess, argument, pending⟩ := p
  cases pending with
  | none => rfl
  | some pending =>
    cases pending with
    | argument value => rfl
    | option o value => cases value <;> rfl

/-- To record an option has to do neither with there being a path nor with which one. -/
theorem record_withPath {o : ValueOption} {value : String} (h : p.record o value = .ok p') :
    p'.hasArgument = p.hasArgument ∧
      ∀ path, (p.withPath path).record o value = .ok (p'.withPath path) := by
  obtain ⟨hnone, rfl⟩ := record_cases h
  refine ⟨rfl, fun path => ?_⟩
  rw [record, show (p.withPath path).options.lookup o = none from hnone]
  rfl

/-- What is pending is settled with either path. If it is the path itself, then this one is
settled. -/
theorem settle_withPath (hc : c ≠ .sample) (h : p.settle c = .ok p') :
    p'.hasArgument = p.hasArgument ∧
      ∀ path, (p.withPath path).settle c = .ok (p'.withPath path) := by
  obtain ⟨options, noSuccess, argument, pending⟩ := p
  obtain ⟨rfl, rfl⟩ | ⟨o, value, rfl, hnone, rfl⟩ | ⟨value, rfl, rfl⟩ := settle_cases h
  · exact ⟨rfl, fun path => rfl⟩
  · exact record_withPath (p := ⟨options, noSuccess, argument, none⟩) h
  · exact ⟨rfl, fun path => if_neg (by simp [hc])⟩

/-- Once settled, a path is among what has been read. -/
theorem hasArgument_of_settle (h : p.settle c = .ok p') :
    p'.hasArgument = p'.argument.isSome := by
  rw [hasArgument, pending_of_settle h]

/-- An option is read with either path. -/
theorem readOption_withPath (hc : c ≠ .sample) {o : ValueOption} {value : Option String}
    (h : p.readOption c o value = .ok p') : p'.hasArgument = p.hasArgument ∧
      ∀ path, (p.withPath path).readOption c o value = .ok (p'.withPath path) := by
  obtain ⟨p₁, h₁, h⟩ := bind_eq_ok h
  obtain ⟨hargument₁, hpath₁⟩ := settle_withPath hc h₁
  -- The option is recorded at once or is left pending. No path is pending any more, as what was
  -- pending has been settled.
  cases value with
  | some value =>
    obtain ⟨hargument, hpath⟩ := record_withPath h
    refine ⟨hargument.trans hargument₁, fun path => ?_⟩
    rw [readOption, hpath₁]
    exact hpath path
  | none =>
    obtain rfl := Except.ok.inj h
    refine ⟨(hasArgument_of_settle h₁).symm.trans hargument₁, fun path => ?_⟩
    rw [readOption, hpath₁]
    rfl

theorem readLetters_withPath (hc : c ≠ .sample) {letters : List Char}
    (h : p.readLetters c letters = .ok (some p')) : p'.hasArgument = p.hasArgument ∧
      ∀ path, (p.withPath path).readLetters c letters = .ok (some (p'.withPath path)) := by
  induction letters generalizing p with
  | nil =>
    obtain rfl := Option.some.inj (Except.ok.inj h)
    exact ⟨rfl, fun path => rfl⟩
  | cons letter letters ih =>
    -- Of the two letters that are flags, `v` lets the rest be read and `h` leaves no progress.
    by_cases hv : letter = 'v'
    · subst hv
      obtain ⟨p₁, h₁, h⟩ := bind_eq_ok h
      obtain ⟨hargument₁, hpath₁⟩ := settle_withPath hc h₁
      obtain ⟨hargument, hpath⟩ := ih h
      refine ⟨hargument.trans hargument₁, fun path => ?_⟩
      rw [readLetters, hpath₁]
      exact hpath path
    by_cases hh : letter = 'h'
    · subst hh
      obtain ⟨p₁, -, h⟩ := bind_eq_ok h
      cases h
    · rw [readLetters_eq hv hh] at h
      split at h
      · cases h
      · next o ho =>
        obtain ⟨hargument, hpath⟩ := readOption_withPath hc (map_some_eq_ok h)
        refine ⟨hargument, fun path => ?_⟩
        rw [readLetters_eq hv hh, ho]
        show some <$> (p.withPath path).readOption c o (attachedValue letters) = _
        rw [hpath]
        rfl

theorem readLong_withPath (hc : c ≠ .sample) {name : String} {value : Option String}
    (h : p.readLong c name value = .ok (some p')) : p'.hasArgument = p.hasArgument ∧
      ∀ path, (p.withPath path).readLong c name value = .ok (some (p'.withPath path)) := by
  -- Two flags and the options of the command. A flag settles what is pending, and an option is read
  -- like its letter.
  obtain ⟨rfl, rfl, hp⟩ | ⟨rfl, rfl, rfl, p₁, h₁, hfirst, rfl⟩ | ⟨o, ho, hp⟩ := readLong_cases h
  · obtain ⟨hargument, hpath⟩ := settle_withPath hc hp
    refine ⟨hargument, fun path => ?_⟩
    show some <$> (p.withPath path).settle c = _
    rw [hpath]
    rfl
  · obtain ⟨hargument, hpath⟩ := settle_withPath hc h₁
    exact ⟨hargument, fun path => readLong_noSuccess (hpath path) hfirst⟩
  · obtain ⟨hargument, hpath⟩ := readOption_withPath hc hp
    refine ⟨hargument, fun path => ?_⟩
    rw [readLong_eq ho, hpath]
    rfl

/-- The path is read once, and any other could be read in its place. -/
theorem readArgument_withPath (hc : c ≠ .sample) {argument : String}
    (h : p.readArgument c argument = .ok p') : p.hasArgument = false ∧ p'.hasArgument = true ∧
      p'.withPath argument = p' ∧ ∀ path, p.readArgument c path = .ok (p'.withPath path) := by
  rw [readArgument] at h
  split at h
  · next hplace =>
    have hargument : p.hasArgument = false := by simpa using (Bool.and_eq_true_iff.mp hplace).2
    obtain ⟨p₁, h₁, h⟩ := bind_eq_ok h
    obtain rfl := Except.ok.inj h
    -- A plain argument is read as the path only where there is none yet, and to settle what is
    -- pending has not brought one.
    have hnone : p₁.argument = none := by
      rw [← (settle_withPath hc h₁).1, hasArgument_of_settle h₁] at hargument
      simpa using hargument
    have hpath : ∀ path, Progress.withPath path { p₁ with pending := some (.argument argument) } =
        { p₁ with pending := some (.argument path) } := by
      intro path
      rw [withPath, hnone]
      rfl
    refine ⟨hargument, rfl, hpath argument, fun path => ?_⟩
    rw [readArgument, if_pos hplace, h₁, hpath]
    rfl
  · cases h

/-- The value of an option is no path. -/
theorem hasArgument_of_awaiting? {o : ValueOption} (h : p.awaiting? = some o) (value : String) :
    hasArgument { p with pending := some (.option o (some value)) } = p.hasArgument := by
  obtain ⟨options, noSuccess, argument, pending⟩ := p
  cases pending with
  | none => cases h
  | some pending =>
    cases pending with
    | argument value => cases h
    | option o value => rfl

/-- The requests that are made at the end differ in the path only. -/
theorem request_withPath (hc : c ≠ .sample) {r : Request} (h : p.request c = .ok r)
    (path : String) : (p.withPath path).request c = .ok (r.withPath path) := by
  obtain ⟨p₁, h₁, h⟩ := bind_eq_ok h
  rw [request, (settle_withPath hc h₁).2]
  obtain ⟨options, noSuccess, argument, pending⟩ := p₁
  cases c with
  | sample => exact absurd rfl hc
  | listFormats =>
    obtain rfl := Except.ok.inj h
    rfl
  | _ =>
    -- Without a path there would be no request.
    cases argument with
    | none => cases h
    | some argument =>
      obtain rfl := Except.ok.inj h
      rfl

end Progress

/-! ## One argument -/

open Progress

section Line

variable {c : Command} {r : Request} {o : SourceOptions} {p p' : Progress} {escaped escaped' : Bool}
  {argument : String} {arguments : List String}

/-- An argument is the path, and any other path that is no option could be read in its place. Or
else it is read whatever the path is. -/
theorem Reads.withPath (hc : c ≠ .sample) (h : Reads c escaped p argument escaped' p') :
    (p.hasArgument = false ∧ p'.hasArgument = true ∧ p'.withPath argument = p' ∧
      ∀ path, ArgumentForm.of path = .plain → Reads c escaped p path escaped' (p'.withPath path)) ∨
    (p'.hasArgument = p.hasArgument ∧
      ∀ path, Reads c escaped (p.withPath path) argument escaped' (p'.withPath path)) := by
  -- In two of the six ways a plain argument is read, which is then the path. In the others the path
  -- is left alone.
  cases h with
  | escaped h =>
    obtain ⟨hnone, hargument, hsame, hread⟩ := readArgument_withPath hc h
    exact .inl ⟨hnone, hargument, hsame, fun path _ => .escaped (hread path)⟩
  | escape hform => exact .inr ⟨rfl, fun path => .escape hform⟩
  | long hform h =>
    obtain ⟨hargument, hpath⟩ := readLong_withPath hc h
    exact .inr ⟨hargument, fun path => .long hform (hpath path)⟩
  | short hform h =>
    obtain ⟨hargument, hpath⟩ := readLetters_withPath hc h
    exact .inr ⟨hargument, fun path => .short hform (hpath path)⟩
  | value hform h =>
    refine .inr ⟨hasArgument_of_awaiting? h argument, fun path => ?_⟩
    exact .value hform ((awaiting?_withPath p path).trans h)
  | plain hform hawaiting h =>
    obtain ⟨hnone, hargument, hsame, hread⟩ := readArgument_withPath hc h
    exact .inl ⟨hnone, hargument, hsame, fun path hplain => .plain hplain hawaiting (hread path)⟩

/-! ## A whole line -/

/-- A request with options is one of a command that takes a path. -/
theorem exists_command_of_options? (hr : r.options? = some o) :
    ∃ c, r.command? = some c ∧ c ≠ .sample := by
  cases r with
  | check => exact ⟨.check, rfl, nofun⟩
  | tokens => exact ⟨.tokens, rfl, nofun⟩
  | _ => cases hr

/-- Where the path has been read, the rest of the line asks for the same with another path. -/
theorem readCommand_withPath (hp : p.hasArgument = true)
    (h : readCommand c escaped p arguments = .ok r) (hr : r.command? = some c) (hc : c ≠ .sample)
    (path : String) :
    readCommand c escaped (p.withPath path) arguments = .ok (r.withPath path) := by
  induction arguments generalizing escaped p with
  | nil => exact request_withPath hc h path
  | cons argument arguments ih =>
    obtain ⟨escaped', p', hreads, h⟩ := exists_reads h hr
    -- An argument that is read as the path would be the second one.
    obtain ⟨hnone, -⟩ | ⟨hargument, hpath⟩ := hreads.withPath hc
    · rw [hnone] at hp
      cases hp
    · rw [(hpath path).readCommand_eq]
      exact ih (hargument.trans hp) h

/-- A request is its own with a path only if this is its path. -/
theorem eq_path_of_withPath {path : String} (h : r.withPath path = r) (hr : r.options? = some o) :
    path = o.path := by
  cases r with
  | check =>
    obtain rfl := Option.some.inj hr
    exact congrArg SourceOptions.path (Request.check.inj h).1
  | tokens =>
    obtain rfl := Option.some.inj hr
    exact congrArg SourceOptions.path (Request.tokens.inj h)
  | _ => cases hr

/-- The path of the source is one of the arguments, and another path can stand in its place. -/
theorem exists_path_of_readCommand (hp : p.hasArgument = false)
    (h : readCommand c escaped p arguments = .ok r) (hcommand : r.command? = some c)
    (hc : c ≠ .sample) (hr : r.options? = some o) :
    ∃ before after, arguments = before ++ o.path :: after ∧
      ∀ path, ArgumentForm.of path = .plain →
        readCommand c escaped p (before ++ path :: after) = .ok (r.withPath path) := by
  induction arguments generalizing escaped p with
  | nil =>
    -- where no path has been read, what is asked for does not depend on it
    have hpath : ∀ path, path = o.path := by
      intro path
      have hrequest := request_withPath hc h path
      rw [withPath_of_not_hasArgument hp] at hrequest
      exact eq_path_of_withPath (Except.ok.inj (hrequest.symm.trans h)) hr
    exact absurd ((hpath "").trans (hpath "-").symm) (by decide)
  | cons argument arguments ih =>
    obtain ⟨escaped', p', hreads, h⟩ := exists_reads h hcommand
    obtain ⟨-, hargument, hsame, hpath⟩ | ⟨hargument, -⟩ := hreads.withPath hc
    · have hother := readCommand_withPath hargument h hcommand hc
      have hrequest := hother argument
      rw [hsame, h] at hrequest
      obtain rfl := eq_path_of_withPath (Except.ok.inj hrequest).symm hr
      refine ⟨[], arguments, rfl, fun path hplain => ?_⟩
      rw [List.nil_append, (hpath path hplain).readCommand_eq]
      exact hother path
    · obtain ⟨before, after, rfl, hbefore⟩ := ih (hargument.trans hp) h
      refine ⟨argument :: before, after, rfl, fun path hplain => ?_⟩
      rw [List.cons_append, hreads.readCommand_eq]
      exact hbefore path hplain

end Line

/-- **Another path in the place of the path** makes a line that asks for the same with that path. -/
theorem exists_path_line {arguments : List String} {r : Request} {o : SourceOptions}
    (h : parse arguments = .ok r) (hr : r.options? = some o) :
    ∃ before after, arguments = before ++ o.path :: after ∧
      ∀ path, ArgumentForm.of path = .plain →
        parse (before ++ path :: after) = .ok (r.withPath path) := by
  obtain ⟨c, hcommand, hc⟩ := exists_command_of_options? hr
  obtain ⟨before, after, rfl, hafter, hbefore⟩ := exists_command_of_readRoot h hcommand
  obtain ⟨between, after, rfl, hpath⟩ := exists_path_of_readCommand rfl hafter hcommand hc hr
  refine ⟨before ++ c.name :: between, after, ?_, fun path hplain => ?_⟩
  · rw [List.append_assoc]
    rfl
  · rw [List.append_assoc]
    exact (hbefore c _).trans (hpath path hplain)

end VarBlock.CommandLine
