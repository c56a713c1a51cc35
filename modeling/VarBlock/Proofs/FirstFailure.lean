import VarBlock.Proofs.ExitStatus
import VarBlock.Proofs.Formats

/-!
# The failure that is reported

Several things can be wrong with a line at once. Which of them apply is said without regard to the
others (`Applies`): the language is unknown, or the configuration does not load, or its format is
not on offer, or the source cannot be read. The line reports the one that comes first in this order
(`showSource_eq_error_iff`).

Files are laid over each other before any flag is, so no flag hides that one of them is not TOML
(`Environment.merged_of_not_toml`).

That there is a first one is proved by going through the stages of a run, in
`exists_isFirst_or_shown`: each stage either fails, and then all failures that apply have at least
its rank, or it gives the next one what it needs. That the first one is the only one comes from
`Applies.eq_of_rank_eq`.
-/

namespace VarBlock.CommandLine

open Config

/-- The place of a failure in the order in which failures are reported. -/
def Failure.rank : Failure → Nat
  | unknownLanguage _ => 0
  | configuration _ => 1
  | format _ => 2
  | reading .. => 3
  | processing _ => 4

/-- What is wrong with a request, whatever else is wrong with it. Where the language is unknown, the
configuration is the one without a language. -/
inductive Applies (env : Environment) (o : SourceOptions) (format : Option String)
    (noSuccess : Bool) : Failure → Prop
  | language {code : String} (hcode : o.language = some code) (h : Language.ofCode? code = none) :
    Applies env o format noSuccess (.unknownLanguage code)
  | configuration {cause : ConfigError}
    (h : (env.loader o (o.language.bind Language.ofCode?) format noSuccess).build = .error cause) :
    Applies env o format noSuccess (.configuration cause)
  | format {s : Settings} {cause : FormatError}
    (hs : (env.loader o (o.language.bind Language.ofCode?) format noSuccess).build = .ok s)
    (hname : s.format ∉ OutputFormat.available.map OutputFormat.name)
    (h : OutputFormat.ofName s.format = .error cause) :
    Applies env o format noSuccess (.format cause)
  | source {cause : ReadError} (h : env.source o.path = .error cause) :
    Applies env o format noSuccess (.reading o.path cause)

/-- A failure applies, and none that comes before it does. -/
structure IsFirst (env : Environment) (o : SourceOptions) (format : Option String)
    (noSuccess : Bool) (e : Failure) : Prop where
  applies : Applies env o format noSuccess e
  rank_le : ∀ e', Applies env o format noSuccess e' → e.rank ≤ e'.rank

variable {env : Environment} {arguments : List String} {o : SourceOptions} {format : Option String}
  {noSuccess : Bool} {s : Settings} {f : OutputFormat} {source : String} {e e' : Failure}

/-! ## What applies -/

/-- Two failures that apply and have the same rank are the same. The rank tells the kind, and of
each kind the line and its surroundings leave one. -/
theorem Applies.eq_of_rank_eq (h : Applies env o format noSuccess e)
    (h' : Applies env o format noSuccess e') (hrank : e.rank = e'.rank) : e = e' := by
  -- Failures of one rank are of one kind. The pairs of different kinds go by their ranks.
  cases h with
  | language hcode =>
    cases h' with
    | language hcode' => rw [Option.some.inj (hcode.symm.trans hcode')]
    | _ => cases hrank
  | configuration h =>
    cases h' with
    | configuration h' => rw [Except.error.inj (h.symm.trans h')]
    | _ => cases hrank
  | format hs _ h =>
    cases h' with
    | format hs' _ h' =>
      rw [Except.ok.inj (hs.symm.trans hs')] at h
      rw [Except.error.inj (h.symm.trans h')]
    | _ => cases hrank
  | source h =>
    cases h' with
    | source h' => rw [Except.error.inj (h.symm.trans h')]
    | _ => cases hrank

/-- No two failures come first. -/
theorem IsFirst.unique (h : IsFirst env o format noSuccess e)
    (h' : IsFirst env o format noSuccess e') : e = e' :=
  h.applies.eq_of_rank_eq h'.applies
    (Nat.le_antisymm (h.rank_le e' h'.applies) (h'.rank_le e h.applies))

section Known

variable (hknown : ∀ code, o.language = some code → Language.ofCode? code ≠ none)

include hknown

theorem Applies.one_le_rank (h : Applies env o format noSuccess e) : 1 ≤ e.rank := by
  cases h with
  | language hcode hnone => exact absurd hnone (hknown _ hcode)
  | _ => exact Nat.le_add_left 1 _

variable (hs : (env.loader o (o.language.bind Language.ofCode?) format noSuccess).build = .ok s)

include hs

/-- Where the language is known, the rank is at least two. -/
theorem Applies.two_le_rank (h : Applies env o format noSuccess e) : 2 ≤ e.rank := by
  cases h with
  | language hcode hnone => exact absurd hnone (hknown _ hcode)
  | configuration h => cases hs.symm.trans h
  | _ => exact Nat.le_add_left 2 _

/-- Where the settings and the format can be had, only the source is left to fail. -/
theorem Applies.three_le_rank (hf : OutputFormat.ofName s.format = .ok f)
    (h : Applies env o format noSuccess e) : 3 ≤ e.rank := by
  cases h with
  | language hcode hnone => exact absurd hnone (hknown _ hcode)
  | configuration h => cases hs.symm.trans h
  | format hs' _ h =>
    obtain rfl := Except.ok.inj (hs.symm.trans hs')
    cases hf.symm.trans h
  | source => exact Nat.le_refl 3

/-- Where everything can be had, nothing applies. -/
theorem not_applies_of_source (hf : OutputFormat.ofName s.format = .ok f)
    (hsource : env.source o.path = .ok source) : ¬ Applies env o format noSuccess e := by
  intro h
  have hrank := h.three_le_rank hknown hs hf
  cases h with
  | source h => cases hsource.symm.trans h
  | _ => simp [Failure.rank] at hrank

end Known

/-! ## What is reported -/

/-- A language that is unknown is reported before any file is looked at. -/
theorem Environment.settings_of_unknown {code : String} (hcode : o.language = some code)
    (h : Language.ofCode? code = none) :
    env.settings o format noSuccess = .error (.unknownLanguage code) := by
  rw [settings_eq, hcode, Option.mapM_some, readLanguage, h]
  rfl

/-- Where the language is known, the settings are those that the loader builds. -/
theorem Environment.settings_of_known
    (h : ∀ code, o.language = some code → Language.ofCode? code ≠ none) (env : Environment)
    (format : Option String) (noSuccess : Bool) : env.settings o format noSuccess =
      (env.loader o (o.language.bind Language.ofCode?) format noSuccess).build.mapError
        .configuration := by
  rw [settings_eq, mapM_readLanguage_eq_ok_iff.mpr (isLanguage_bind h)]
  rfl

/-- What comes first is reported, and if nothing is wrong the source is shown. -/
theorem exists_isFirst_or_shown (env : Environment) (o : SourceOptions) (format : Option String)
    (noSuccess : Bool) :
    (∃ e, showSource env o format noSuccess = .error e ∧ IsFirst env o format noSuccess e) ∨
    (∃ exit output, showSource env o format noSuccess = .ok (exit, output) ∧ exit ≤ 1 ∧
      ∀ e, ¬ Applies env o format noSuccess e) := by
  -- as long as nothing was wrong, what is left has a higher rank
  by_cases hlanguage : ∃ code, o.language = some code ∧ Language.ofCode? code = none
  · obtain ⟨code, hcode, h⟩ := hlanguage
    refine .inl ⟨_, showSource_of_settings_error (Environment.settings_of_unknown hcode h), ?_⟩
    exact ⟨.language hcode h, fun e' _ => Nat.zero_le _⟩
  have hknown : ∀ code, o.language = some code → Language.ofCode? code ≠ none :=
    fun code hcode h => hlanguage ⟨code, hcode, h⟩
  have hsettings := Environment.settings_of_known hknown env format noSuccess
  cases hs : (env.loader o (o.language.bind Language.ofCode?) format noSuccess).build with
  | error cause =>
    rw [hs] at hsettings
    refine .inl ⟨_, showSource_of_settings_error hsettings, .configuration hs, ?_⟩
    exact fun e' h' => h'.one_le_rank hknown
  | ok s =>
    rw [hs] at hsettings
    cases hf : OutputFormat.ofName s.format with
    | error cause =>
      refine .inl ⟨_, showSource_of_format_error hsettings hf, ?_, ?_⟩
      · exact .format hs (OutputFormat.not_mem_names_of_error hf) hf
      · exact fun e' h' => h'.two_le_rank hknown hs
    | ok f =>
      cases hsource : env.source o.path with
      | error cause =>
        refine .inl ⟨_, showSource_of_source_error hsettings hf hsource, .source hsource, ?_⟩
        exact fun e' h' => h'.three_le_rank hknown hs hf
      | ok source =>
        have hloaded : Loaded env o format noSuccess s f source := ⟨hsettings, hf, hsource⟩
        obtain ⟨output, hp⟩ := exists_process hf s.diagnostics source
        refine .inr ⟨_, _, hloaded.showSource_eq hp, ?_, ?_⟩
        · split <;> decide
        · exact fun e => not_applies_of_source hknown hs hf hsource

/-- A line reports a failure if and only if this one is first among those that apply. -/
theorem showSource_eq_error_iff :
    showSource env o format noSuccess = .error e ↔ IsFirst env o format noSuccess e := by
  -- The line reports the first of the failures, or shows something because there is none. Of both
  -- sides only one can be had.
  obtain ⟨e', hresult, hfirst⟩ | ⟨exit, output, hresult, -, hnone⟩ :=
    exists_isFirst_or_shown env o format noSuccess
  · rw [hresult]
    constructor
    · intro h
      exact Except.error.inj h ▸ hfirst
    · intro h
      rw [hfirst.unique h]
  · rw [hresult]
    exact iff_of_false nofun fun h => hnone e h.applies

/-- Where everything can be had, no failure applies. -/
theorem Loaded.not_applies (h : Loaded env o format noSuccess s f source) :
    ¬ Applies env o format noSuccess e := by
  obtain ⟨output, hp⟩ := exists_process h.format s.diagnostics source
  obtain ⟨e', hresult, -⟩ | ⟨exit, output, -, -, hnone⟩ :=
    exists_isFirst_or_shown env o format noSuccess
  · cases (h.showSource_eq hp).symm.trans hresult
  · exact hnone e

/-! ## Files and flags -/

/-- A file of the configuration that is text and not TOML is what is wrong with the
configuration. -/
theorem Environment.merged_of_not_toml {path text : String}
    (hpath : path ∈ localConfigFile :: o.config.toList)
    (hread : env.configFile path = some text.toUTF8) (h : Toml.parse? text = none) :
    (env.loader o none none false).merged = .error .notToml := by
  have hentries : ∀ isRequired,
      Layer.entries ⟨env.configFile path, isRequired⟩ = .error .notToml := by
    intro isRequired
    rw [hread, Layer.entries_toUTF8, h]
    rfl
  rcases List.mem_cons.mp hpath with rfl | hpath
  · rw [Loader.merged, loader, List.mapM_cons, hentries]
    rfl
  · have hconfig : o.config = some path := Option.mem_toList.mp hpath
    rw [Loader.merged, loader, List.mapM_cons, hconfig]
    -- the file of the directory comes first, and nothing else can be wrong with it
    obtain ⟨es, hlocal⟩ | hlocal := Layer.entries_optional (env.configFile localConfigFile)
    · rw [hlocal]
      show Except.bind (Except.bind (List.mapM Layer.entries [_]) _) _ = _
      rw [List.mapM_cons, hentries]
      rfl
    · rw [hlocal]
      rfl

/-- What is wrong with the files is reported whatever the flags are. -/
theorem Shows.run_of_files_error (h : Shows arguments o format noSuccess)
    (hknown : ∀ code, o.language = some code → Language.ofCode? code ≠ none) {cause : ConfigError}
    (hfiles : (env.loader o none none false).merged = .error cause) :
    run env arguments = .ofResult (.error (.configuration cause)) := by
  have hbuild := Loader.build_of_files_error
    (l := env.loader o (o.language.bind Language.ofCode?) format noSuccess) hfiles
  have hsettings := Environment.settings_of_known hknown env format noSuccess
  rw [hbuild] at hsettings
  rw [h.run_eq, showSource_of_settings_error hsettings]

/-- A configuration file that ends too early, no other files, and no text on standard input. -/
def broken : Environment where
  stdin := ⟨#[0xFF]⟩
  read path := if path = localConfigFile then .ok "[output".toUTF8 else .error .missing

/-- **Which failure is reported**: of all that is wrong with a line that shows a source it is what
comes first among an unknown language, a configuration that does not load, a format that is not on
offer, and a source that cannot be read. If nothing is wrong, the source is shown. So an unknown
language is reported whatever the files are. If the language is known, then what is wrong with the
files is reported whatever the other flags are, and in particular that one of them is not TOML. -/
theorem first_failure_reported (h : Shows arguments o format noSuccess) (env : Environment) :
    (∀ e, showSource env o format noSuccess = .error e ↔ IsFirst env o format noSuccess e) ∧
    (∀ e, IsFirst env o format noSuccess e → run env arguments = .ofResult (.error e)) ∧
    ((∀ e, ¬ Applies env o format noSuccess e) →
      (run env arguments).exit ≤ 1 ∧ (run env arguments).stderr = "") ∧
    (∀ code, o.language = some code → Language.ofCode? code = none →
      run env arguments = .ofResult (.error (.unknownLanguage code))) ∧
    ((∀ code, o.language = some code → Language.ofCode? code ≠ none) →
      (∀ cause, (env.loader o none none false).merged = .error cause →
        run env arguments = .ofResult (.error (.configuration cause))) ∧
      ∀ path ∈ localConfigFile :: o.config.toList, ∀ text : String,
        env.configFile path = some text.toUTF8 → Toml.parse? text = none →
          run env arguments = .ofResult (.error (.configuration .notToml))) := by
  refine ⟨fun e => showSource_eq_error_iff, ?_, ?_, ?_, ?_⟩
  · intro e hfirst
    rw [h.run_eq, showSource_eq_error_iff.mpr hfirst]
  · -- If nothing applies then the line is not one that reports a failure.
    intro hnone
    obtain ⟨e, -, hfirst⟩ | ⟨exit, output, hresult, hexit, -⟩ :=
      exists_isFirst_or_shown env o format noSuccess
    · exact absurd hfirst.applies (hnone e)
    · rw [h.run_eq, hresult]
      exact ⟨hexit, rfl⟩
  · intro code hcode hunknown
    rw [h.run_eq, showSource_of_settings_error (Environment.settings_of_unknown hcode hunknown)]
  · intro hknown
    refine ⟨fun cause => h.run_of_files_error hknown, ?_⟩
    intro path hpath text hread htext
    exact h.run_of_files_error hknown (Environment.merged_of_not_toml hpath hread htext)

/-- With everything wrong at once the language is reported, then the file of the directory, and the
format before the source. -/
theorem first_failure_reported_broken :
    run broken ["check", "-", "-l", "xx", "-f", "odd", "-c", "gone.toml"] =
      .ofResult (.error (.unknownLanguage "xx")) ∧
    run broken ["check", "-", "-l", "ru", "-f", "odd", "-c", "gone.toml"] =
      .ofResult (.error (.configuration .notToml)) ∧
    run unfinished ["check", "gone.var", "-f", "odd"] =
      .ofResult (.error (.format (.noDash "odd"))) ∧
    (run unfinished ["tokens", "-"]).stderr = "" := by
  have hunknown : Shows ["check", "-", "-l", "xx", "-f", "odd", "-c", "gone.toml"]
    ⟨"-", some "gone.toml", some "xx"⟩ (some "odd") false := .check rfl
  have hrussian : Shows ["check", "-", "-l", "ru", "-f", "odd", "-c", "gone.toml"]
    ⟨"-", some "gone.toml", some "ru"⟩ (some "odd") false := .check rfl
  have hformat : Shows ["check", "gone.var", "-f", "odd"] ⟨"gone.var", none, none⟩ (some "odd")
    false := .check rfl
  have htokens : Shows ["tokens", "-"] ⟨"-", none, none⟩ (some "tokens-simple") false := .tokens rfl
  -- An unknown language comes before a file that is not TOML, and this before a format not on
  -- offer, which comes before a source that is not there. The last line shows its source.
  refine ⟨?_, ?_, ?_, ?_⟩
  · obtain ⟨-, -, -, hlanguage, -⟩ := first_failure_reported hunknown broken
    exact hlanguage "xx" rfl (by decide)
  · obtain ⟨-, -, -, -, hfiles⟩ := first_failure_reported hrussian broken
    refine (hfiles ?_).2 localConfigFile List.mem_cons_self "[output" rfl (by cbv)
    intro code hcode
    obtain rfl := Option.some.inj hcode
    decide
  · obtain ⟨-, hfirst, -⟩ := first_failure_reported hformat unfinished
    have hsettings := Environment.settings_of_flags (configFile_unfinished localConfigFile)
      "gone.var" (some "odd") false
    exact hfirst _ (showSource_eq_error_iff.mp (showSource_of_format_error hsettings rfl))
  · obtain ⟨-, -, hshown, -⟩ := first_failure_reported htokens unfinished
    apply And.right
    apply hshown
    intro e
    exact (loaded_unfinished (some "tokens-simple") false (f := ⟨.tokens, .simple⟩) rfl).not_applies

end VarBlock.CommandLine
