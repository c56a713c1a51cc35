import VarBlock.Proofs.Formats
import VarBlock.Proofs.Grammar
import VarBlock.Proofs.Precedence
import VarBlock.Proofs.TokensCommand

/-!
# Output and exit status

A line that asks for a source to be shown (`Shows`) needs settings, a format and a text. If all of
them can be had (`Loaded`), then the output is that of processing the text, and the exit status
tells whether the text is a block, or is 0 where only its tokens are listed. Otherwise nothing is
shown and the exit status is 2.

The command `tokens` is a check whose format no configuration changes (`format_of_loaded_tokens`).

What is said of two runs goes through `Loaded.run_eq`, which gives the whole outcome of a run in one
equation. Two runs with the same source thus have the same status whatever else differs: the
language, the layout, or where the settings come from.

An input that lacks its last semicolon, in a directory without any file, serves as an instance.
-/

namespace VarBlock.CommandLine

open Config

/-- A line asks for a source to be shown. -/
inductive Shows (arguments : List String) : SourceOptions → Option String → Bool → Prop
  | check {o : SourceOptions} {format : Option String} {noSuccess : Bool}
    (h : parse arguments = .ok (.check o format noSuccess)) : Shows arguments o format noSuccess
  | tokens {o : SourceOptions} (h : parse arguments = .ok (.tokens o)) :
    Shows arguments o (some "tokens-simple") false

/-- The settings, the format and the text that a line asks for. -/
structure Loaded (env : Environment) (o : SourceOptions) (format : Option String) (noSuccess : Bool)
    (s : Settings) (f : OutputFormat) (source : String) : Prop where
  settings : env.settings o format noSuccess = .ok s
  format : OutputFormat.ofName s.format = .ok f
  source : env.source o.path = .ok source

/-- One of the settings, the format and the text cannot be had. -/
def Unloaded (env : Environment) (o : SourceOptions) (format : Option String) (noSuccess : Bool) :
    Prop := ¬ ∃ s f source, Loaded env o format noSuccess s f source

variable {env : Environment} {arguments : List String} {o : SourceOptions} {format : Option String}
  {noSuccess : Bool} {s : Settings} {f : OutputFormat} {source : String}

/-! ## Formats -/

/-- A format that has a name has a rendering. -/
theorem exists_process {name : String} (h : OutputFormat.ofName name = .ok f)
    (d : DiagnosticsSettings) (source : String) :
    ∃ output, process f d source = .ok ⟨output, .ofSource source⟩ := by
  obtain ⟨stage, layout⟩ := f
  cases stage with
  | trace =>
    cases layout with
    | simple => exact ⟨_, rfl⟩
    | json => exact absurd (OutputFormat.ofName_eq_ok_iff.mp h).1 (by decide)
  | _ => cases layout <;> exact ⟨_, rfl⟩

/-! ## Runs -/

/-- A line that asks for a source is answered by `showSource`, whichever command it has. -/
theorem Shows.run_eq (h : Shows arguments o format noSuccess) (env : Environment) :
    run env arguments = .ofResult (showSource env o format noSuccess) := by
  cases h with
  | check h => rw [run, h]; rfl
  | tokens h => rw [run, h]; rfl

/-- Without settings nothing else is tried. -/
theorem showSource_of_settings_error {e : Failure}
    (h : env.settings o format noSuccess = .error e) :
    showSource env o format noSuccess = .error e := by
  rw [showSource, h]
  rfl

/-- Without a format the source is not read. -/
theorem showSource_of_format_error {cause : FormatError}
    (hs : env.settings o format noSuccess = .ok s)
    (h : OutputFormat.ofName s.format = .error cause) :
    showSource env o format noSuccess = .error (.format cause) := by
  simp only [showSource, hs, h, Except.mapError, bind, Except.bind]

/-- Where the source cannot be read, this is what is reported, with its name. -/
theorem showSource_of_source_error {cause : ReadError}
    (hs : env.settings o format noSuccess = .ok s) (hf : OutputFormat.ofName s.format = .ok f)
    (h : env.source o.path = .error cause) :
    showSource env o format noSuccess = .error (.reading o.path cause) := by
  simp only [showSource, hs, hf, h, Except.mapError, bind, Except.bind]

/-- A run that shows something had the settings, the format and the text. -/
theorem exists_loaded {result : Nat × String}
    (h : showSource env o format noSuccess = .ok result) :
    ∃ s f source, Loaded env o format noSuccess s f source := by
  obtain ⟨s, hs, h⟩ := bind_eq_ok h
  obtain ⟨f, hf, h⟩ := bind_eq_ok h
  obtain ⟨source, hsource, -⟩ := bind_eq_ok h
  exact ⟨s, f, source, hs, mapError_eq_ok_iff.mp hf, mapError_eq_ok_iff.mp hsource⟩

/-- What is shown is what processing gives. The status is read off the stage and the report. -/
theorem Loaded.showSource_eq (h : Loaded env o format noSuccess s f source) {p : Processed}
    (hp : process f s.diagnostics source = .ok p) :
    showSource env o format noSuccess = .ok
      (if f.stage = .tokens || p.analysis.report.isValid then 0 else 1, p.output) := by
  simp only [showSource, h.settings, h.format, h.source, hp, Except.mapError, bind, Except.bind]
  rfl

/-- The whole run in a case where everything could be had. Nothing is written to the error
output. -/
theorem Loaded.run_eq (h : Loaded env o format noSuccess s f source)
    (hshows : Shows arguments o format noSuccess) : ∃ output,
      process f s.diagnostics source = .ok ⟨output, .ofSource source⟩ ∧ run env arguments =
        ⟨if f.stage = .tokens || (check source).isValid then 0 else 1, output, ""⟩ := by
  obtain ⟨output, hp⟩ := exists_process h.format s.diagnostics source
  refine ⟨output, hp, ?_⟩
  rw [hshows.run_eq, h.showSource_eq hp]
  rfl

/-- A text is valid if and only if its tokens are a block of the grammar. -/
theorem isValid_check_iff (source : String) :
    (check source).isValid = true ↔ tokenize source ∈ Grammar.block := by
  rw [Report.isValid, List.isEmpty_iff, check, diagnostics_eq_nil_iff, Grammar.mem_block_iff]

/-- What is loaded is shown, and the exit status tells whether it is a block. -/
theorem Loaded.shown (h : Loaded env o format noSuccess s f source)
    (hshows : Shows arguments o format noSuccess) :
    ∃ p, process f s.diagnostics source = .ok p ∧ (run env arguments).stdout = p.output ∧
      ((run env arguments).exit = 1 ↔ f.stage ≠ .tokens ∧ tokenize source ∉ Grammar.block) ∧
      ((run env arguments).exit = 0 ↔ f.stage = .tokens ∨ tokenize source ∈ Grammar.block) ∧
      (tokenize source ∉ Grammar.block ↔ p.analysis.report.diagnostics ≠ []) := by
  obtain ⟨output, hp, hrun⟩ := h.run_eq hshows
  refine ⟨_, hp, ?_⟩
  rw [hrun, ← isValid_check_iff]
  refine ⟨rfl, ?_, ?_, ?_⟩
  · by_cases hstage : f.stage = .tokens <;> cases hvalid : (check source).isValid <;> simp [hstage]
  · by_cases hstage : f.stage = .tokens <;> cases hvalid : (check source).isValid <;> simp [hstage]
  · rw [Report.isValid, List.isEmpty_iff]
    rfl

/-- Where something could not be had, nothing is shown and the status is 2. -/
theorem Unloaded.refused (h : Unloaded env o format noSuccess)
    (hshows : Shows arguments o format noSuccess) :
    (run env arguments).exit = 2 ∧ (run env arguments).stdout = "" := by
  rw [hshows.run_eq]
  cases hresult : showSource env o format noSuccess with
  | error e => exact ⟨rfl, rfl⟩
  | ok result => exact absurd (exists_loaded hresult) h

/-! ## The command `tokens` -/

/-- Without files and without a language, what is left are the flags. -/
theorem Environment.settings_of_flags (h : env.configFile localConfigFile = none) (path : String)
    (format : Option String) (noSuccess : Bool) : env.settings ⟨path, none, none⟩ format noSuccess =
      .ok ⟨⟨.english, !noSuccess, true⟩, format.getD "diagnostics-simple"⟩ := by
  -- No file takes part, so nothing in one can be amiss.
  have hproper : env.Proper ⟨path, none, none⟩ := by
    constructor
    · intro bytes hbytes
      rw [h] at hbytes
      cases hbytes
    · nofun
    · nofun
  obtain ⟨s, hs, his⟩ := hproper.exists_settings format noSuccess
  refine hs.trans (congrArg _ ?_)
  apply Setting.eq_of_is _ his
  intro x
  simp only [Environment.effective, h]
  -- Each setting has its default, or what the flag for it says.
  cases x with
  | language => exact ⟨"en", rfl, rfl⟩
  | reportSuccess => cases noSuccess <;> rfl
  | showPositions => rfl
  | format => cases format <;> rfl

/-- A directory without files, and a block that ends too early on standard input. -/
def unfinished : Environment := ⟨"var x: char".toUTF8, fun _ => .error .missing⟩

theorem configFile_unfinished (path : String) : unfinished.configFile path = none := by
  show ((withExtension? path).bind fun _ => none) = none
  cases withExtension? path <;> rfl

/-- For the unfinished source everything can be had, in every format that has a name. -/
theorem loaded_unfinished (format : Option String) (noSuccess : Bool) {f : OutputFormat}
    (hf : OutputFormat.ofName (format.getD "diagnostics-simple") = .ok f) :
    Loaded unfinished ⟨"-", none, none⟩ format noSuccess
      ⟨⟨.english, !noSuccess, true⟩, format.getD "diagnostics-simple"⟩ f "var x: char" where
  settings := Environment.settings_of_flags (configFile_unfinished _) "-" format noSuccess
  format := hf
  source := decodeText_toUTF8 "var x: char"

end VarBlock.CommandLine
