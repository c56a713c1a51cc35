import VarBlock.Proofs.ExtraOption
import VarBlock.Proofs.SourceReading

/-!
# A file that is layered twice

Entries that are laid over a configuration a second time change nothing (`overlay_overlay`), if no
table among them has two names that are equal up to case. For a table is merged entry by entry, and
each entry finds what it left there the first time. This goes by induction on the tables in the
entries.

So a file that is layered as an optional and then as a required one builds what it builds as an
optional one (`Loader.build_twice`), and the file of the directory can be asked for in the line as
well. There is one exception: a file that is no text is passed over where it is optional, and is an
error where it is required.
-/

namespace VarBlock.Config

/-! ## Entries -/

/-- To put what is there already changes nothing. -/
theorem put_of_lookup {key : String} {v : Value} {es : List (String × Value)}
    (h : es.lookup key = some v) : put key v es = es := by
  induction es with
  | nil => cases h
  | cons e es ih =>
    obtain ⟨k, w⟩ := e
    rw [put]
    by_cases hk : k = key
    · subst hk
      rw [List.lookup_cons_self] at h
      rw [if_pos rfl, Option.some.inj h]
    · rw [List.lookup_cons, beq_eq_false_iff_ne.mpr (Ne.symm hk)] at h
      rw [if_neg hk, ih h]

/-- Where no two names are equal up to case, every entry is found by its name. -/
theorem find?_of_mem {es : List (String × Value)} (hes : DistinctNames es) {name : String}
    {v : Value} (h : (name, v) ∈ es) : find? (Text.lowercase name) es = some v := by
  induction es with
  | nil => cases h
  | cons e es ih =>
    obtain ⟨name', w⟩ := e
    obtain ⟨hname', hes⟩ := List.nodup_cons.mp hes
    rw [find?_cons]
    rcases List.mem_cons.mp h with heq | h
    · obtain ⟨rfl, rfl⟩ := Prod.mk.inj heq
      rw [if_pos rfl]
    · -- A later entry of the name is not hidden by this one, as names are distinct.
      have hne : Text.lowercase name' ≠ Text.lowercase name := by
        intro heq
        apply hname'
        exact List.mem_map.mpr ⟨(name, v), h, heq.symm⟩
      rw [if_neg hne, ih hes h]

namespace Value

/-! ## Tables -/

/-- Entries of which each changes nothing change nothing together. -/
theorem assignAll_eq_self {target : Value} {es : List (String × Value)}
    (h : ∀ e ∈ es, target.assign e.1 e.2 = target) : target.assignAll es = target := by
  induction es with
  | nil => rw [assignAll]
  | cons e es ih =>
    obtain ⟨he, hes⟩ := List.forall_mem_cons.mp h
    rw [assignAll, he, ih hes]

/-- What entries are laid over becomes a table, if there are any. -/
theorem exists_assignAll_eq {es : List (String × Value)} (hes : es ≠ []) (target : Value) :
    ∃ es', target.assignAll es = table es' := by
  induction es generalizing target with
  | nil => exact absurd rfl hes
  | cons e es ih =>
    obtain ⟨name, v⟩ := e
    rw [assignAll]
    -- The last entry that is laid leaves a table.
    by_cases h : es = []
    · subst h
      rw [assignAll, assign_eq]
      exact ⟨_, rfl⟩
    · exact ih h _

/-- Entries without names that are equal up to case, throughout, change nothing the second time. -/
theorem assignAll_assignAll {es : List (String × Value)} (h : DistinctThroughout es)
    (target : Value) : (target.assignAll es).assignAll es = target.assignAll es := by
  induction h generalizing target with
  | @intro es names _ ih =>
    apply assignAll_eq_self
    rintro ⟨name, v⟩ hmem
    obtain ⟨es', htable⟩ := exists_assignAll_eq (List.ne_nil_of_mem hmem) target
    have hlookup := lookup_assignAll names target (Text.lowercase name)
    rw [find?_of_mem names hmem] at hlookup
    -- an entry finds itself, and so stays as it is
    have honto : ∀ old, v.onto (some (v.onto old)) = v.onto old := by
      intro old
      cases v with
      | table inner => exact ih name inner hmem (old.getD (table []))
      | _ => rfl
    rw [assign_eq, hlookup, honto, put_of_lookup hlookup, htable]
    rfl

/-- **A second time** entries change nothing. -/
theorem overlay_overlay {es : List (String × Value)} (h : Plain es) (root : Value) :
    (root.overlay es).overlay es = root.overlay es := by
  rw [overlay_eq_assignAll h.simple, overlay_eq_assignAll h.simple, assignAll_assignAll h.distinct]

end Value

/-! ## Files -/

namespace Loader

/-- **A file that is text** builds the same as an optional file and as an optional and a required
one. -/
theorem build_twice (l : Loader) {content : ByteArray} (htext : IsUtf8 content)
    (hplain : ∀ es, fileEntries? content = some es → Plain es) :
    ((l.withOptionalFile (some content)).withFile (some content)).build =
      (l.withOptionalFile (some content)).build := by
  obtain ⟨text, rfl⟩ := htext
  rw [fileEntries?_toUTF8] at hplain
  rw [build, build, merged_eq, merged_eq (l.withOptionalFile _)]
  show Except.bind ((ofFiles ((l.files ++ [_]) ++ [_])).merged.map _) _ =
    Except.bind ((ofFiles (l.files ++ [_])).merged.map _) _
  rw [merged_concat, merged_concat, Layer.entries_toUTF8, Layer.entries_toUTF8]
  cases (ofFiles l.files).merged with
  | error e => rfl
  | ok root =>
    -- what is no TOML is the same error the first time
    cases hparse : Toml.parse? text with
    | none => rfl
    | some es =>
      show (decodeSettings (Value.setAll ((root.overlay es).overlay es) _)).mapError _ = _
      rw [Value.overlay_overlay (hplain es hparse)]
      rfl

variable {content : ByteArray}

/-- A file that is no text is passed over where it is optional. -/
theorem build_withOptionalFile (l : Loader) (h : ¬ IsUtf8 content) :
    (l.withOptionalFile (some content)).build = l.build := by
  rw [build, build, merged_eq, merged_eq l]
  show Except.bind ((ofFiles (l.files ++ [_])).merged.map _) _ = _
  have hentries : Layer.entries ⟨some content, false⟩ = .ok [] := by
    simp only [Layer.entries, decodeText_of_not_isUtf8 h]
  rw [merged_concat, hentries]
  cases (ofFiles l.files).merged <;> rfl

/-- A file that is no text is an error where it is required. -/
theorem exists_build_withFile (l : Loader) (h : ¬ IsUtf8 content) :
    ∃ e, (l.withFile (some content)).build = .error e := by
  rw [build, merged_eq]
  show ∃ e, Except.bind ((ofFiles (l.files ++ [_])).merged.map _) _ = _
  have hentries : Layer.entries ⟨some content, true⟩ = .error (.unreadable .notUtf8) := by
    simp only [Layer.entries, decodeText_of_not_isUtf8 h]
  rw [merged_concat, hentries]
  cases (ofFiles l.files).merged <;> exact ⟨_, rfl⟩

end Loader

end VarBlock.Config

namespace VarBlock.CommandLine

open Config

/-! ## Lines -/

/-- The same request with another configuration file. -/
def Request.withConfig (path : String) : Request → Request
  | .check o format noSuccess => .check { o with config := some path } format noSuccess
  | .tokens o => .tokens { o with config := some path }
  | request => request

/-- A command that takes a path accepts what it accepts. -/
theorem Command.within_self {c : Command} (h : c.takesArgument = true) (hne : c ≠ .sample) :
    c.Within c :=
  ⟨fun _ _ => id, h, id, hne⟩

/-- A command that shows a source takes a configuration file. -/
theorem Request.exists_command_with_config {r : Request} {o : SourceOptions}
    (hr : r.options? = some o) : ∃ c, r.command? = some c ∧ c.Within c ∧
      (c.valueOptions.find? fun o => o.name = "config") = some .config := by
  cases r with
  | check => exact ⟨.check, rfl, Command.within_self rfl nofun, rfl⟩
  | tokens => exact ⟨.tokens, rfl, Command.within_self rfl nofun, rfl⟩
  | _ => cases hr

section Line

variable {c : Command} {p : Progress} {r : Request} {o : SourceOptions} {arguments : List String}

/-- The request at the end of a line is the same with a file asked for, but for this file, and no
other is asked for by the line. -/
theorem Progress.request_withConfig (hpending : p.pending = none) (h : p.request c = .ok r)
    (hr : r.options? = some o) : p.options.lookup .config = o.config ∧
      ∀ path, (p.withOption .config path).request c = .ok (r.withConfig path) := by
  obtain ⟨options, noSuccess, argument, pending⟩ := p
  subst hpending
  cases c with
  | sample =>
    obtain rfl := Except.ok.inj h
    cases hr
  | listFormats =>
    obtain rfl := Except.ok.inj h
    cases hr
  | _ =>
    -- A check and a listing of tokens both ask for a source, and then read their options from what
    -- was recorded.
    cases argument with
    | none => cases h
    | some argument =>
      obtain rfl := Except.ok.inj h
      obtain rfl := Option.some.inj hr
      exact ⟨rfl, fun path => rfl⟩

/-- The option for a file and its value right after the name are read as pending. -/
theorem readCommand_config (h : (c.valueOptions.find? fun o => o.name = "config") = some .config)
    {path : String} (hpath : ArgumentForm.of path = .plain) :
    readCommand c false .start ("--config" :: path :: arguments) =
      readCommand c false (.ofOption .config path) arguments := by
  have hoption : Reads c false .start "--config" false
      { Progress.start with pending := some (.option .config none) } :=
    .long rfl (readLong_eq h .start none)
  have hvalue : Reads c false { Progress.start with pending := some (.option .config none) } path
      false (.ofOption .config path) := .value hpath rfl
  rw [hoption.readCommand_eq, hvalue.readCommand_eq]

/-- A configuration file can be asked for right after the name of the command. -/
theorem exists_config_line (h : parse arguments = .ok r) (hr : r.options? = some o)
    (ho : o.config = none) : ∃ before after, arguments = before ++ after ∧
      ∀ path, ArgumentForm.of path = .plain →
        parse (before ++ ["--config", path] ++ after) = .ok (r.withConfig path) := by
  obtain ⟨c, hcommand, hc, hconfig⟩ := Request.exists_command_with_config hr
  obtain ⟨before, after, rfl, hafter, hbefore⟩ := exists_command_of_readRoot h hcommand
  -- the option would be found in the request if it had been read
  have hlacks : ∀ p : Progress, p.pending = none → p.request c = .ok r → p.Lacks .config := by
    intro p hpending hp
    rw [Progress.lacks_of_pending_none hpending, (Progress.request_withConfig hpending hp hr).1, ho]
  obtain ⟨p, hpending, hp, -, hline⟩ := exists_readCommand_ofOption hc hafter hcommand (.inr hlacks)
  refine ⟨before ++ [c.name], after, by simp, fun path hpath => ?_⟩
  have hread : parse (before ++ c.name :: "--config" :: path :: after) =
      readCommand c false (.ofOption .config path) after :=
    (hbefore c _).trans (readCommand_config hconfig hpath)
  simp only [List.append_assoc, List.cons_append, List.nil_append]
  rw [hread, hline]
  exact (Progress.request_withConfig hpending hp hr).2 path

/-- A line that asks for no file has a place where one can be asked for. -/
theorem Shows.exists_config_line {format : Option String} {noSuccess : Bool}
    (h : Shows arguments { o with config := none } format noSuccess) :
    ∃ before after, arguments = before ++ after ∧ ∀ path, ArgumentForm.of path = .plain →
      Shows (before ++ ["--config", path] ++ after) { o with config := some path } format
        noSuccess := by
  cases h with
  | check h =>
    obtain ⟨before, after, harguments, hpath⟩ := CommandLine.exists_config_line h rfl rfl
    exact ⟨before, after, harguments, fun path hplain => .check (hpath path hplain)⟩
  | tokens h =>
    obtain ⟨before, after, harguments, hpath⟩ := CommandLine.exists_config_line h rfl rfl
    exact ⟨before, after, harguments, fun path hplain => .tokens (hpath path hplain)⟩

/-! ## Runs -/

variable {env : Environment} {content : ByteArray} {format : Option String} {noSuccess : Bool}
  {arguments' : List String}

/-- To the flags the file of the directory is added, and the file that is asked for. -/
theorem Environment.exists_loader (env : Environment) (o : SourceOptions)
    (language : Option Language) (format : Option String) (noSuccess : Bool) : ∃ flags : Loader,
      env.loader { o with config := none } language format noSuccess =
        flags.withOptionalFile (env.configFile localConfigFile) ∧
      ∀ path, env.loader { o with config := some path } language format noSuccess =
        (flags.withOptionalFile (env.configFile localConfigFile)).withFile (env.configFile path) :=
  ⟨⟨[], _, (env.loader o language format noSuccess).distinct⟩, rfl, fun _ => rfl⟩

/-- A file of the directory that is text is asked for once more without effect, if no names in it
are equal up to case. -/
theorem Shows.run_again (h : env.configFile localConfigFile = some content)
    (htext : IsUtf8 content) (hplain : ∀ es, fileEntries? content = some es → Plain es)
    (hshows : Shows arguments { o with config := none } format noSuccess)
    (hshows' : Shows arguments' { o with config := some localConfigFile } format noSuccess) :
    run env arguments' = run env arguments := by
  rw [hshows'.run_eq, hshows.run_eq]
  apply congrArg Outcome.ofResult
  refine showSource_congr ?_ fun _ f d => rfl
  rw [Environment.settings_eq, Environment.settings_eq]
  congr 1
  funext language
  -- The loaders of the two lines differ in the second layer only, and their flags come after it in
  -- both.
  obtain ⟨flags, honce, htwice⟩ := env.exists_loader o language format noSuccess
  rw [honce, htwice, h, flags.build_twice htext hplain]

/-- A file of the directory that is no text is an error once it is asked for. -/
theorem Shows.refused_again (h : env.configFile localConfigFile = some content)
    (hbytes : ¬ IsUtf8 content)
    (hshows : Shows arguments { o with config := some localConfigFile } format noSuccess) :
    (run env arguments).exit = 2 ∧ (run env arguments).stdout = "" := by
  refine Unloaded.refused ?_ hshows
  rintro ⟨s, f, source, hloaded⟩
  obtain ⟨language, -, hbuild⟩ := Environment.settings_eq_ok_iff.mp hloaded.settings
  obtain ⟨flags, -, htwice⟩ := env.exists_loader o language format noSuccess
  obtain ⟨e, he⟩ := (flags.withOptionalFile (some content)).exists_build_withFile hbytes
  rw [htwice, h, he] at hbuild
  cases hbuild

end Line

/-- A block on standard input, in a directory with nothing but a configuration file. -/
def configured (content : ByteArray) : Environment where
  stdin := "var x: char;".toUTF8
  read path := if path = localConfigFile then .ok content else .error .missing

theorem configFile_configured (content : ByteArray) :
    (configured content).configFile localConfigFile = some content := rfl

/-- The language is a table that is laid over a scalar. -/
def nestedText : String := "[Diagnostics]\nlanguage.RU = true\n"

/-- The entries of the file, a table within a table. -/
theorem fileEntries?_nestedText : fileEntries? nestedText.toUTF8 =
    some [("Diagnostics", .table [("language", .table [("RU", .boolean true)])])] := by
  rw [fileEntries?_toUTF8]
  cbv

/-- No two names of the file stand beside each other. -/
theorem plain_nestedText {es : List (String × Value)}
    (h : fileEntries? nestedText.toUTF8 = some es) : Plain es := by
  obtain rfl := Option.some.inj (fileEntries?_nestedText.symm.trans h)
  have htrue : Value.Distinct (.boolean true) := Value.IsScalar.distinct trivial
  have hinner : Value.Distinct (.table [("RU", .boolean true)]) :=
    distinct_table_iff.mpr (distinctThroughout_singleton htrue _)
  exact ⟨by simp [IsSimpleName], distinctThroughout_singleton
    (distinct_table_iff.mpr (distinctThroughout_singleton hinner _)) _⟩

/-- **A file that is layered twice**, as an optional and then as a required one, builds what it
builds as an optional one, if it is text and none of its tables has two names that are equal up to
case. A line that also asks for the file of the directory then has the outcome that it has
otherwise. Bytes that are no text are passed over in an optional file, and in a required one they
are an error. -/
theorem layered_twice (content : ByteArray) :
    (∀ l : Loader,
      (IsUtf8 content → (∀ es, fileEntries? content = some es → Plain es) →
        ((l.withOptionalFile (some content)).withFile (some content)).build =
          (l.withOptionalFile (some content)).build) ∧
      (¬ IsUtf8 content → (l.withOptionalFile (some content)).build = l.build ∧
        ∃ e, ((l.withOptionalFile (some content)).withFile (some content)).build = .error e)) ∧
    (∀ (arguments : List String) (o : SourceOptions) (format : Option String) (noSuccess : Bool),
      Shows arguments { o with config := none } format noSuccess →
      ∃ before after, arguments = before ++ after ∧ ∀ path, ArgumentForm.of path = .plain →
        Shows (before ++ ["--config", path] ++ after) { o with config := some path } format
          noSuccess) ∧
    ∀ (env : Environment) (arguments arguments' : List String) (o : SourceOptions)
        (format : Option String) (noSuccess : Bool),
      env.configFile localConfigFile = some content →
      Shows arguments { o with config := none } format noSuccess →
      Shows arguments' { o with config := some localConfigFile } format noSuccess →
      (IsUtf8 content → (∀ es, fileEntries? content = some es → Plain es) →
        run env arguments' = run env arguments) ∧
      (¬ IsUtf8 content → (run env arguments').exit = 2 ∧ (run env arguments').stdout = "") := by
  refine ⟨?_, fun arguments o format noSuccess h => h.exists_config_line, ?_⟩
  · intro l
    refine ⟨l.build_twice, fun hbytes => ⟨l.build_withOptionalFile hbytes, ?_⟩⟩
    exact (l.withOptionalFile _).exists_build_withFile hbytes
  · intro env arguments arguments' o format noSuccess hcontent hshows hshows'
    exact ⟨fun htext hplain => hshows.run_again hcontent htext hplain hshows',
      fun hbytes => hshows'.refused_again hcontent hbytes⟩

/-- A file that is no text does not matter until it is asked for. -/
theorem overlong_layered_twice :
    (configured overlong).configFile localConfigFile = some overlong ∧
    fileEntries? overlong = none ∧
    (run (configured overlong) ["check", "-"]).exit = 0 ∧
    (run (configured overlong) ["check", "-", "--config", "vardecl.toml"]).exit = 2 := by
  have hshows : Shows ["check", "-", "--config", "vardecl.toml"]
    ⟨"-", some localConfigFile, none⟩ none false := .check rfl
  refine ⟨configFile_configured overlong, by cbv, by cbv, ?_⟩
  apply And.left
  exact Shows.refused_again (o := ⟨"-", none, none⟩) (configFile_configured overlong)
    overlong_not_isUtf8 hshows

/-- A table that is laid over a scalar is laid over it once. -/
theorem layered_twice_nested :
    (run (configured nestedText.toUTF8) ["check", "--config", "vardecl.toml", "-"] =
        run (configured nestedText.toUTF8) ["check", "-"] ∧
      (run (configured overlong) ["check", "--config", "vardecl.toml", "-"]).exit = 2) ∧
    ∃ before after, ["check", "-"] = before ++ after ∧
      Shows (before ++ ["--config", "vardecl.toml"] ++ after) ⟨"-", some "vardecl.toml", none⟩ none
        false := by
  obtain ⟨-, hline, hrun⟩ := layered_twice nestedText.toUTF8
  obtain ⟨-, -, hrun'⟩ := layered_twice overlong
  have honce : Shows ["check", "-"] ⟨"-", none, none⟩ none false := .check rfl
  have htwice : Shows ["check", "--config", "vardecl.toml", "-"] ⟨"-", some localConfigFile, none⟩
    none false := .check rfl
  constructor
  · have hagain := hrun (configured _) _ _ ⟨"-", none, none⟩ none false
      (configFile_configured _) honce htwice
    -- The other surrounding has bytes that are no text, so there the second layer is an error.
    have hagain' := hrun' (configured _) _ _ ⟨"-", none, none⟩ none false
      (configFile_configured _) honce htwice
    have hplain : ∀ es, fileEntries? nestedText.toUTF8 = some es → Plain es :=
      fun es => plain_nestedText
    exact ⟨hagain.1 ⟨nestedText, rfl⟩ hplain, (hagain'.2 overlong_not_isUtf8).1⟩
  · obtain ⟨before, after, harguments, hpath⟩ := hline _ ⟨"-", none, none⟩ none false honce
    exact ⟨before, after, harguments, hpath _ rfl⟩

end VarBlock.CommandLine
