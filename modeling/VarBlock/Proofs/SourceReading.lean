import VarBlock.Proofs.ExitStatus
import VarBlock.Proofs.PathArgument

/-!
# Sources from files and from standard input

The bytes of a source are shown if they are UTF-8 text, wherever they come from. A file is shown as
its text is (`processFile_toUTF8`), and that it cannot be read is found out before anything else
about it.

A line shows what its path leads to (`showSource_eq_processPath`): standard input for a dash, a file
for any other path. Nothing else in it depends on the path, for the settings come from other files
(`settings_congr`). So two lines with the same options, of which one names a file and the other has
the bytes of the file on standard input, have the same outcome (`SameBytes.run_eq`), up to the path
in the message where the bytes are no text (`SameBytes.run_unreadable`).
-/

namespace VarBlock

/-- The bytes are UTF-8 for some text. -/
def IsUtf8 (bytes : ByteArray) : Prop := ∃ text : String, text.toUTF8 = bytes

/-! ## Bytes -/

section Bytes

variable {f : OutputFormat} {s : DiagnosticsSettings} {bytes : ByteArray}

theorem decodeText_of_not_isUtf8 (h : ¬ IsUtf8 bytes) : decodeText bytes = .error .notUtf8 := by
  have hnone : String.fromUTF8? bytes = none := by
    rw [String.fromUTF8?, dif_neg]
    exact fun hvalid => h ⟨String.fromUTF8 bytes hvalid, rfl⟩
  rw [decodeText, hnone]

/-- A file is processed as the text that it holds. -/
theorem processFile_toUTF8 (f : OutputFormat) (s : DiagnosticsSettings) (text : String) :
    processFile f s (.ok text.toUTF8) = process f s text := by
  have hdecode : (Except.ok text.toUTF8).bind decodeText = .ok text :=
    Config.decodeText_toUTF8 text
  rw [processFile, hdecode]
  rfl

/-- Bytes that are no text are reported as such, whatever was to be done with them. -/
theorem processFile_of_not_isUtf8 (f : OutputFormat) (s : DiagnosticsSettings)
    (h : ¬ IsUtf8 bytes) : processFile f s (.ok bytes) = .error (.unreadable .notUtf8) := by
  have hdecode : (Except.ok bytes).bind decodeText = .error .notUtf8 := decodeText_of_not_isUtf8 h
  rw [processFile, hdecode]
  rfl

/-- Every format but one has a rendering, whatever the source is. -/
theorem exists_process_iff (s : DiagnosticsSettings) (source : String) :
    (∃ p, process f s source = .ok p) ↔ f ≠ ⟨.trace, .json⟩ := by
  obtain ⟨stage, layout⟩ := f
  cases stage <;> cases layout
  case trace.json => exact iff_of_false nofun (fun h => h rfl)
  all_goals exact iff_of_true ⟨_, rfl⟩ nofun

/-- Bytes are shown if and only if they are text and the format has a rendering. -/
theorem exists_processFile_iff :
    (∃ p, processFile f s (.ok bytes) = .ok p) ↔ IsUtf8 bytes ∧ f ≠ ⟨.trace, .json⟩ := by
  by_cases h : IsUtf8 bytes
  · obtain ⟨text, rfl⟩ := h
    rw [processFile_toUTF8, exists_process_iff]
    exact (and_iff_right ⟨text, rfl⟩).symm
  · rw [processFile_of_not_isUtf8 f s h]
    exact iff_of_false nofun fun hand => h hand.1

end Bytes

namespace CommandLine

/-! ## Files of the configuration -/

/-- The paths at which a line looks for configuration. -/
def SourceOptions.configPaths (o : SourceOptions) : List String :=
  let configs := localConfigFile :: o.config.toList
  configs ++ configs.filterMap withExtension?

section Configuration

variable {env env' : Environment} {o : SourceOptions}

/-- What a configuration file is depends on what is read under its path, and under the path with its
extension. -/
theorem configFile_congr {path : String} (h : env'.read path = env.read path)
    (hextended : ∀ path', withExtension? path = some path' → env'.read path' = env.read path') :
    env'.configFile path = env.configFile path := by
  rw [Environment.configFile, Environment.configFile, h]
  -- The path with its extension is tried only where the path itself cannot be read.
  cases env.read path with
  | ok content => rfl
  | error cause =>
    cases hpath : withExtension? path with
    | none => rfl
    | some path' =>
      show (env'.read path').toOption = (env.read path').toOption
      rw [hextended path' hpath]

/-- The same for the paths where a line looks for configuration. -/
theorem configFile_congr_of_mem (h : ∀ path ∈ o.configPaths, env'.read path = env.read path)
    {path : String} (hpath : path ∈ localConfigFile :: o.config.toList) :
    env'.configFile path = env.configFile path := by
  apply configFile_congr
  · exact h path (List.mem_append_left _ hpath)
  · intro path' hextended
    exact h path' (List.mem_append_right _ (List.mem_filterMap.mpr ⟨path, hpath, hextended⟩))

/-- Settings depend on the files of the configuration, and not on the path of the source. -/
theorem settings_congr (h : ∀ path ∈ o.configPaths, env'.read path = env.read path)
    (path path' : String) (format : Option String) (noSuccess : Bool) :
    env'.settings { o with path := path' } format noSuccess =
      env.settings { o with path := path } format noSuccess := by
  have hlocal := configFile_congr_of_mem h List.mem_cons_self
  have hloader : ∀ language, env'.loader { o with path := path' } language format noSuccess =
      env.loader { o with path := path } language format noSuccess := by
    intro language
    rw [Environment.loader, Environment.loader, hlocal]
    -- The file of the directory is always looked for. Another one is, if the line asks for it.
    cases hconfig : o.config with
    | none => rfl
    | some path =>
      have hpath : path ∈ localConfigFile :: o.config.toList := by
        rw [hconfig]
        exact List.mem_cons_of_mem _ List.mem_cons_self
      show Config.Loader.mk (_ :: [⟨env'.configFile path, true⟩]) _ _ = _
      rw [configFile_congr_of_mem h hpath]
      rfl
  rw [Environment.settings_eq, Environment.settings_eq]
  simp only [hloader]

end Configuration

/-! ## Showing what a path leads to -/

/-- Process what a path leads to. A failure to read names the path, and other failures of processing
a file are passed on. -/
def processPath (env : Environment) (f : OutputFormat) (d : DiagnosticsSettings) (path : String) :
    Except Failure Processed :=
  if path = "-" then
    ((decodeText env.stdin).mapError (.reading path)).bind fun source =>
      (process f d source).mapError .processing
  else
    (processFile f d (env.read path)).mapError fun
      | .unreadable cause => .reading path cause
      | cause => .processing cause

/-- What is shown where a source cannot be read. -/
def Outcome.unreadable (path : String) (cause : ReadError) : Outcome :=
  ⟨2, "", "Error: " ++ ("error reading " ++ path ++ ": " ++ cause.message) ++ "\n"⟩

/-- Settings and a format can be had, so the source is read. -/
def ReadsSource (env : Environment) (o : SourceOptions) (format : Option String)
    (noSuccess : Bool) : Prop :=
  ∃ s f, env.settings o format noSuccess = .ok s ∧ OutputFormat.ofName s.format = .ok f

section Processing

variable {env : Environment} {f : OutputFormat} {d : DiagnosticsSettings} {path : String}

/-- To process a text does not fail for its bytes. -/
theorem process_ne_unreadable {source : String} {cause : ReadError} :
    process f d source ≠ .error (.unreadable cause) := by
  obtain ⟨stage, layout⟩ := f
  cases stage <;> cases layout <;> nofun

/-- A text is processed wherever it comes from. -/
theorem processPath_of_source {source : String} (h : env.source path = .ok source) :
    processPath env f d path = (process f d source).mapError .processing := by
  rw [Environment.source] at h
  rw [processPath]
  split
  · next hdash =>
    rw [if_pos hdash] at h
    rw [show decodeText env.stdin = .ok source from h]
    rfl
  · next hdash =>
    rw [if_neg hdash] at h
    rw [processFile, h]
    show (process f d source).mapError _ = _
    -- A file is opened by another function, which wraps its errors. None of them is about reading
    -- here.
    cases hp : process f d source with
    | ok p => rfl
    | error cause =>
      cases cause with
      | unreadable cause => exact absurd hp process_ne_unreadable
      | _ => rfl

/-- Where the source cannot be read, this is what is reported. -/
theorem processPath_of_unreadable {cause : ReadError} (h : env.source path = .error cause) :
    processPath env f d path = .error (.reading path cause) := by
  rw [Environment.source] at h
  rw [processPath]
  -- Standard input and files are read differently, but what goes wrong is reported in the same
  -- words.
  split
  · next hdash =>
    rw [if_pos hdash] at h
    rw [show decodeText env.stdin = .error cause from h]
    rfl
  · next hdash =>
    rw [if_neg hdash] at h
    rw [processFile, h]
    rfl

/-- A line shows what processing its path gives. -/
theorem showSource_eq_processPath (env : Environment) (o : SourceOptions) (format : Option String)
    (noSuccess : Bool) : showSource env o format noSuccess =
      (env.settings o format noSuccess).bind fun s =>
        ((OutputFormat.ofName s.format).mapError .format).bind fun f =>
          (processPath env f s.diagnostics o.path).map fun p =>
            (if f.stage = .tokens || p.analysis.report.isValid then 0 else 1, p.output) := by
  rw [showSource]
  show Except.bind _ _ = Except.bind _ _
  congr 1
  funext s
  show Except.bind _ _ = Except.bind _ _
  congr 1
  funext f
  -- `showSource` reads the source first and then processes it, `processPath` does both. The order
  -- in which they fail is the same.
  cases hsource : env.source o.path with
  | error cause =>
    rw [processPath_of_unreadable hsource]
    rfl
  | ok source =>
    rw [processPath_of_source hsource]
    show Except.bind ((process f s.diagnostics source).mapError _) _ = _
    cases process f s.diagnostics source <;> rfl

end Processing

/-! ## Two lines -/

section Lines

variable {env env' : Environment} {arguments arguments' : List String} {o o' : SourceOptions}
  {format : Option String} {noSuccess : Bool} {file : String}

/-- Lines with the same settings show the same if processing their paths gives the same. -/
theorem showSource_congr
    (hsettings : env'.settings o' format noSuccess = env.settings o format noSuccess)
    (hprocess : ReadsSource env o format noSuccess →
      ∀ f d, processPath env' f d o'.path = processPath env f d o.path) :
    showSource env' o' format noSuccess = showSource env o format noSuccess := by
  rw [showSource_eq_processPath, showSource_eq_processPath, hsettings]
  cases hs : env.settings o format noSuccess with
  | error e => rfl
  | ok s =>
    show Except.bind ((OutputFormat.ofName s.format).mapError _) _ =
      Except.bind ((OutputFormat.ofName s.format).mapError _) _
    -- What is not reached in the one line is not reached in the other.
    cases hf : OutputFormat.ofName s.format with
    | error e => rfl
    | ok f =>
      show Except.map _ _ = Except.map _ _
      rw [hprocess ⟨s, f, hs, hf⟩]

/-- A line whose source cannot be read, while all else can be had, says so. -/
theorem Shows.run_unreadable (hshows : Shows arguments o format noSuccess)
    (hreads : ReadsSource env o format noSuccess) {cause : ReadError}
    (h : env.source o.path = .error cause) :
    run env arguments = .unreadable o.path cause := by
  obtain ⟨s, f, hs, hf⟩ := hreads
  rw [hshows.run_eq, showSource_of_source_error hs hf h]
  rfl

/-- What starts with no dash is no option, and a lone dash is none. -/
theorem ArgumentForm.of_eq_plain {path : String}
    (h : path = "-" ∨ path.toList.head? ≠ some '-') : ArgumentForm.of path = .plain := by
  obtain rfl | h := h
  · rfl
  · rw [ArgumentForm.of]
    split <;> simp_all

/-- The path of a line is one of its arguments and can be exchanged for another. -/
theorem Shows.exists_path_line (h : Shows arguments o format noSuccess) :
    ∃ before after, arguments = before ++ o.path :: after ∧
      ∀ path, path = "-" ∨ path.toList.head? ≠ some '-' →
        Shows (before ++ path :: after) { o with path := path } format noSuccess := by
  -- The two commands that show a source. What is known of lines does not depend on which it is.
  cases h with
  | check h =>
    obtain ⟨before, after, harguments, hpath⟩ := CommandLine.exists_path_line h rfl
    refine ⟨before, after, harguments, fun path hform => .check ?_⟩
    exact hpath path (ArgumentForm.of_eq_plain hform)
  | tokens h =>
    obtain ⟨before, after, harguments, hpath⟩ := CommandLine.exists_path_line h rfl
    refine ⟨before, after, harguments, fun path hform => .tokens ?_⟩
    exact hpath path (ArgumentForm.of_eq_plain hform)

/-- A file has the bytes of standard input, and the files of the configuration are the same. -/
structure SameBytes (env env' : Environment) (o : SourceOptions) (file : String) : Prop where
  ne_dash : file ≠ "-"
  read : env'.read file = .ok env.stdin
  readConfig : ∀ path ∈ o.configPaths, env'.read path = env.read path

namespace SameBytes

/-- The two lines are shown the same bytes. -/
theorem source_eq (h : SameBytes env env' o file) : env'.source file = env.source "-" := by
  rw [Environment.source, if_neg h.ne_dash, h.read]
  rfl

/-- A line for standard input and one for the file have the same outcome, unless the bytes are read
and are no text. -/
theorem run_eq (h : SameBytes env env' o file)
    (hshows : Shows arguments { o with path := "-" } format noSuccess)
    (hshows' : Shows arguments' { o with path := file } format noSuccess)
    (htext : ReadsSource env { o with path := "-" } format noSuccess → IsUtf8 env.stdin) :
    run env' arguments' = run env arguments := by
  rw [hshows'.run_eq, hshows.run_eq]
  apply congrArg Outcome.ofResult
  apply showSource_congr (settings_congr h.readConfig _ _ format noSuccess)
  intro hreads f d
  -- The source is looked at only here, where settings and format are known to be there.
  obtain ⟨text, hbytes⟩ := htext hreads
  have hsource : env.source "-" = .ok text := by
    show decodeText env.stdin = _
    rw [← hbytes]
    exact Config.decodeText_toUTF8 text
  show processPath env' f d file = processPath env f d "-"
  rw [processPath_of_source hsource, processPath_of_source (h.source_eq.trans hsource)]

/-- Where the bytes are no text, both lines say so, each with its own path. -/
theorem run_unreadable (h : SameBytes env env' o file)
    (hshows : Shows arguments { o with path := "-" } format noSuccess)
    (hshows' : Shows arguments' { o with path := file } format noSuccess)
    (hreads : ReadsSource env { o with path := "-" } format noSuccess)
    (hbytes : ¬ IsUtf8 env.stdin) :
    run env arguments = .unreadable "-" .notUtf8 ∧
      run env' arguments' = .unreadable file .notUtf8 := by
  have hsource : env.source "-" = .error .notUtf8 := decodeText_of_not_isUtf8 hbytes
  constructor
  · exact hshows.run_unreadable hreads hsource
  · -- The second line gets as far as the first, since its settings are the same.
    have hreads' : ReadsSource env' { o with path := file } format noSuccess := by
      rw [ReadsSource, settings_congr h.readConfig "-" file]
      exact hreads
    exact hshows'.run_unreadable hreads' (h.source_eq.trans hsource)

end SameBytes

end Lines

/-- A directory with an empty configuration file, and with the bytes of standard input in a file. -/
def stored (bytes : ByteArray) : Environment where
  stdin := bytes
  read path :=
    if path = localConfigFile then .ok "".toUTF8
    else if path = "unit.var" then .ok bytes
    else .error .missing

/-- The file of this surrounding has the bytes of standard input. -/
theorem sameBytes_stored (bytes : ByteArray) :
    SameBytes (stored bytes) (stored bytes) ⟨"unit.var", none, none⟩ "unit.var" where
  ne_dash := by decide
  read := rfl
  readConfig _ _ := rfl

theorem properFile_empty : Config.ProperFile "".toUTF8 := by
  refine ⟨[], ?_, Config.proper_nil⟩
  rw [Config.fileEntries?_toUTF8]
  cbv

/-- Here all can be had but perhaps the source. -/
theorem readsSource_stored (bytes : ByteArray) {name : String} {f : OutputFormat}
    (hf : OutputFormat.ofName name = .ok f) :
    ReadsSource (stored bytes) ⟨"-", none, none⟩ (some name) false := by
  have hproper : (stored bytes).Proper ⟨"-", none, none⟩ := by
    constructor
    · intro content hcontent
      obtain rfl : "".toUTF8 = content := Option.some.inj hcontent
      exact properFile_empty
    · nofun
    · nofun
  obtain ⟨s, hs, -⟩ := hproper.exists_settings (some name) false
  refine ⟨s, f, hs, ?_⟩
  rw [Environment.format_of_settings hs]
  exact hf

/-- A null character in two bytes. -/
def overlong : ByteArray := ⟨#[0xC0, 0x80]⟩

/-- A character that is written with more bytes than it needs is not UTF-8. -/
theorem overlong_not_isUtf8 : ¬ IsUtf8 overlong := by
  rintro ⟨text, htext⟩
  have hdecode : decodeText overlong = .error .notUtf8 := by cbv
  rw [← htext, Config.decodeText_toUTF8] at hdecode
  cases hdecode

/-- **Files and standard input**: a file is shown if it is UTF-8 text and the format has a
rendering, and then as its text is. A file that cannot be read or is no text is refused for this,
whatever the format. In a line that shows a source any path that does not look like an option can
stand in the place of the path. Of two lines with the same options, one for standard input and one
for a file with the same bytes, the output and the exit status are the same. So is the message, but
where the bytes are read and are no text it names what was read. -/
theorem reading_agrees :
    (∀ (f : OutputFormat) (d : DiagnosticsSettings) (bytes : ByteArray),
      ((∃ p, processFile f d (.ok bytes) = .ok p) ↔ IsUtf8 bytes ∧ f ≠ ⟨.trace, .json⟩) ∧
      (∀ text : String, text.toUTF8 = bytes → processFile f d (.ok bytes) = process f d text) ∧
      (¬ IsUtf8 bytes → processFile f d (.ok bytes) = .error (.unreadable .notUtf8)) ∧
      ∀ cause, processFile f d (.error cause) = .error (.unreadable cause)) ∧
    (∀ (arguments : List String) (o : SourceOptions) (format : Option String) (noSuccess : Bool),
      Shows arguments o format noSuccess →
      ∃ before after, arguments = before ++ o.path :: after ∧
        ∀ path, path = "-" ∨ path.toList.head? ≠ some '-' →
          Shows (before ++ path :: after) { o with path := path } format noSuccess) ∧
    ∀ (env env' : Environment) (arguments arguments' : List String) (o : SourceOptions)
        (format : Option String) (noSuccess : Bool) (file : String),
      Shows arguments { o with path := "-" } format noSuccess →
      Shows arguments' { o with path := file } format noSuccess →
      SameBytes env env' o file →
      (run env' arguments').stdout = (run env arguments).stdout ∧
      (run env' arguments').exit = (run env arguments).exit ∧
      ((ReadsSource env { o with path := "-" } format noSuccess → IsUtf8 env.stdin) →
        run env' arguments' = run env arguments) ∧
      (ReadsSource env { o with path := "-" } format noSuccess → ¬ IsUtf8 env.stdin →
        run env arguments = .unreadable "-" .notUtf8 ∧
        run env' arguments' = .unreadable file .notUtf8) := by
  refine ⟨?_, fun arguments o format noSuccess h => h.exists_path_line, ?_⟩
  · intro f d bytes
    refine ⟨exists_processFile_iff, ?_, processFile_of_not_isUtf8 f d, fun cause => rfl⟩
    rintro text rfl
    exact processFile_toUTF8 f d text
  · intro env env' arguments arguments' o format noSuccess file hshows hshows' h
    -- Either the bytes are text or no line comes to look at them, and then the runs are equal.
    -- Otherwise both fail for the bytes.
    by_cases htext : ReadsSource env { o with path := "-" } format noSuccess → IsUtf8 env.stdin
    · have hrun := h.run_eq hshows hshows' htext
      refine ⟨by rw [hrun], by rw [hrun], fun _ => hrun, ?_⟩
      intro hreads hbytes
      exact absurd (htext hreads) hbytes
    · obtain ⟨hreads, hbytes⟩ := Classical.not_imp.mp htext
      have hrun := h.run_unreadable hshows hshows' hreads hbytes
      refine ⟨by rw [hrun.1, hrun.2]; rfl, by rw [hrun.1, hrun.2]; rfl, ?_, fun _ _ => hrun⟩
      intro htext'
      exact absurd htext' htext

/-- Bytes that are no text are refused under the name that they were read by. Text is checked
whatever its name is. -/
theorem reading_agrees_stored :
    (run (stored overlong) ["check", "-", "--format", "trace-simple"] = .unreadable "-" .notUtf8 ∧
      run (stored overlong) ["check", "unit.var", "--format", "trace-simple"] =
        .unreadable "unit.var" .notUtf8) ∧
    run (stored "var x: char".toUTF8) ["check", "-f", "trace-simple", "unit.var"] =
      run (stored "var x: char".toUTF8) ["check", "-", "--format", "trace-simple"] ∧
    ∃ before after, ["check", "-", "--format", "trace-simple"] = before ++ "-" :: after ∧
      Shows (before ++ "unit.var" :: after) ⟨"unit.var", none, none⟩ (some "trace-simple")
        false := by
  obtain ⟨-, hpath, hsame⟩ := reading_agrees
  have hdash : Shows ["check", "-", "--format", "trace-simple"] ⟨"-", none, none⟩
    (some "trace-simple") false := .check rfl
  refine ⟨?_, ?_, ?_⟩
  · have hfile : Shows ["check", "unit.var", "--format", "trace-simple"] ⟨"unit.var", none, none⟩
      (some "trace-simple") false := .check rfl
    obtain ⟨-, -, -, hunreadable⟩ := hsame _ _ _ _ _ _ _ _ hdash hfile (sameBytes_stored overlong)
    apply hunreadable _ overlong_not_isUtf8
    exact readsSource_stored overlong (f := ⟨.trace, .simple⟩) rfl
  · have hfile : Shows ["check", "-f", "trace-simple", "unit.var"] ⟨"unit.var", none, none⟩
      (some "trace-simple") false := .check rfl
    obtain ⟨-, -, hequal, -⟩ := hsame _ _ _ _ _ _ _ _ hdash hfile (sameBytes_stored _)
    -- The file is text, so the two runs are equal as they stand.
    exact hequal fun _ => ⟨"var x: char", rfl⟩
  · obtain ⟨before, after, harguments, hother⟩ := hpath _ _ _ _ hdash
    exact ⟨before, after, harguments, hother "unit.var" (.inr (by decide))⟩

end CommandLine

end VarBlock
