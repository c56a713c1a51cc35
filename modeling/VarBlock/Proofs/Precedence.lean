import VarBlock.CommandLine.Run
import VarBlock.Proofs.Loading

/-!
# Which of several values a setting gets

Files and overrides are added to a loader in any order. `effective` says which value a setting gets
in the end: that of its last override, or else that of the last file which has one for it, or else
the standard one.

The program adds the file of the directory, the file asked for, and its flags, in this order. So a
flag is taken before the file asked for, and this one before the file of the directory
(`Environment.effective`).

There are two inductions. One is over the additions, from the last: `Loader.Collects` says what a
loader has collected of them, and one more addition keeps it so (`Loader.Collects.add`). The other
is over the flags of a line, which are overrides of different keys. What is built is then known from
`Loading`.
-/

namespace VarBlock.Config

/-- What is added to a loader. -/
inductive Addition
  | file (content : Option ByteArray)
  | optionalFile (content : Option ByteArray)
  | override (key : String) (v : Value)

def Loader.add? (l : Loader) : Addition → Option Loader
  | .file content => some (l.withFile content)
  | .optionalFile content => some (l.withOptionalFile content)
  | .override key v => l.override? key v

/-- Add one after the other, unless one of them is an override of no key. -/
def Loader.addAll? (l : Loader) (additions : List Addition) : Option Loader :=
  additions.foldlM Loader.add? l

namespace Addition

/-- Only what can be decoded later is added: files with settings, and values that fit. -/
def Proper : Addition → Prop
  | file content => ∃ bytes, content = some bytes ∧ ProperFile bytes
  | optionalFile content => ∀ bytes, content = some bytes → ProperFile bytes
  | override key v => ∃ x : Setting, key = x.key.text ∧ x.Fits v

/-- What is overridden, if anything is, is a setting. -/
def SetsSetting : Addition → Prop
  | override key _ => ∃ x : Setting, key = x.key.text
  | _ => True

/-- The file that is added to a loader. -/
def layer? : Addition → Option Layer
  | file content => some ⟨content, true⟩
  | optionalFile content => some ⟨content, false⟩
  | override _ _ => none

/-- The value that a file has for `x`. -/
def inFile (x : Setting) (a : Addition) : Option Value := a.layer?.bind fun l => x.inFile l.content

/-- The value that an override gives to `x`. -/
def overriding (x : Setting) : Addition → Option Value
  | override key v => if key = x.key.text then some v else none
  | _ => none

end Addition

/-- The value that a setting gets: from its last override, or else from the last file that has one
for it, or else the standard one. -/
def effective (additions : List Addition) (x : Setting) : Value :=
  ((lastSome? (Addition.overriding x) additions).or
    (lastSome? (Addition.inFile x) additions)).getD x.standard

/-! ## Additions -/

namespace Setting

theorem text_inj {x y : Setting} : x.key.text = y.key.text ↔ x = y := by
  cases x <;> cases y <;> decide

/-- The text of a key is read as the key. -/
theorem ofString?_text (x : Setting) : KeyPath.ofString? x.key.text = some x.key := by
  cases x <;> cbv

example : reportSuccess.key.text = "diagnostics.report_success" := by decide

end Setting

/-- An override by the text of a key is one by the key. -/
theorem Loader.override?_text (l : Loader) (x : Setting) (v : Value) :
    l.override? x.key.text v = some (l.override x.key v) := by
  rw [override?, x.ofString?_text]
  rfl

/-- The language may be overridden by the text of its key. -/
theorem Loader.override?_language (l : Loader) (v : Value) :
    l.override? "diagnostics.language" v = some (l.override languageKey v) := by
  have hkey : Setting.language.key.text = "diagnostics.language" := by decide
  rw [← hkey]
  exact l.override?_text .language v

/-- A proper override is one of a setting. -/
theorem Addition.Proper.setsSetting {a : Addition} (h : a.Proper) : a.SetsSetting := by
  cases a with
  | override key v =>
    obtain ⟨x, hx, -⟩ := h
    exact ⟨x, hx⟩
  | _ => trivial

/-- A loader has the files that were added, and of each setting the last override. -/
structure Loader.Collects (l : Loader) (additions : List Addition) : Prop where
  files : l.files = additions.filterMap Addition.layer?
  keys : KeyedBySettings l.overrides
  overrides : ∀ x : Setting,
    lastSome? x.inOverride l.overrides = lastSome? (Addition.overriding x) additions

theorem Loader.addAll?_concat {additions : List Addition} {l₀ l : Loader}
    (h : l₀.addAll? additions = some l) (a : Addition) :
    l₀.addAll? (additions ++ [a]) = l.add? a := by
  rw [addAll?] at h
  rw [addAll?, List.foldlM_append, h]
  show ([a].foldlM add? l) = _
  rw [List.foldlM_cons]
  cases l.add? a <;> rfl

/-- One more file comes after the others, and one more override in the place of that of its key. -/
theorem Loader.Collects.add {l : Loader} {additions : List Addition} (h : l.Collects additions)
    {a : Addition} (ha : a.SetsSetting) :
    ∃ l', l.add? a = some l' ∧ l'.Collects (additions ++ [a]) := by
  have hoverriding : ∀ x, lastSome? (Addition.overriding x) (additions ++ [a]) =
      (a.overriding x).or (lastSome? x.inOverride l.overrides) := by
    intro x
    rw [lastSome?_concat, h.overrides]
  -- An override takes the place of an earlier one of its key, so that the list of overrides is not
  -- that of the additions. What the last for a setting is stays the same.
  cases a with
  | override key v =>
    obtain ⟨x, rfl⟩ := ha
    refine ⟨l.override x.key v, l.override?_text x v, ?_, keyedBySettings_override h.keys x v, ?_⟩
    · rw [List.filterMap_append, ← h.files]
      exact (List.append_nil _).symm
    · intro y
      rw [hoverriding, lastSome?_override, Addition.overriding]
      by_cases hyx : y = x
      · rw [if_pos hyx, if_pos (Setting.text_inj.mpr hyx.symm)]
        rfl
      · rw [if_neg hyx, if_neg (mt Setting.text_inj.mp (Ne.symm hyx))]
        rfl
  | file content =>
    refine ⟨l.withFile content, rfl, ?_, h.keys, fun x => (hoverriding x).symm⟩
    rw [List.filterMap_append, ← h.files]
    rfl
  | optionalFile content =>
    refine ⟨l.withOptionalFile content, rfl, ?_, h.keys, fun x => (hoverriding x).symm⟩
    rw [List.filterMap_append, ← h.files]
    rfl

/-- Whatever is added, the loader has it. -/
theorem Loader.exists_addAll {additions : List Addition} (h : ∀ a ∈ additions, a.SetsSetting) :
    ∃ l, Loader.standard.addAll? additions = some l ∧ l.Collects additions := by
  -- from the end, since the loader has what was added so far
  induction additions using List.reverseRecOn with
  | nil => exact ⟨.standard, rfl, rfl, nofun, fun _ => rfl⟩
  | append_singleton additions a ih =>
    obtain ⟨l, hl, hcollects⟩ := ih fun a ha => h a (List.mem_append_left _ ha)
    obtain ⟨l', hl', hcollects'⟩ := hcollects.add (h a (List.mem_append_right _ List.mem_cons_self))
    exact ⟨l', (addAll?_concat hl a).trans hl', hcollects'⟩

/-- The loader that additions give has collected them. -/
theorem Loader.Collects.of_addAll {l : Loader} {additions : List Addition}
    (h : ∀ a ∈ additions, a.SetsSetting) (hl : Loader.standard.addAll? additions = some l) :
    l.Collects additions := by
  obtain ⟨l', hl', hcollects⟩ := exists_addAll h
  exact Option.some.inj (hl.symm.trans hl') ▸ hcollects

theorem Addition.Proper.layer {a : Addition} (h : a.Proper) {l : Layer} (hl : a.layer? = some l) :
    l.Proper := by
  cases a with
  | file content =>
    obtain ⟨bytes, rfl, hbytes⟩ := h
    obtain rfl : _ = l := Option.some.inj hl
    exact hbytes.layer true
  | optionalFile content =>
    obtain rfl : _ = l := Option.some.inj hl
    exact Layer.proper_optional h
  | override key v => cases hl

/-- The value of a proper override passes as one of its setting. -/
theorem Addition.Proper.fits {a : Addition} (h : a.Proper) {x : Setting} {v : Value}
    (hv : a.overriding x = some v) : x.Fits v := by
  cases a with
  | override key w =>
    obtain ⟨y, rfl, hfits⟩ := h
    rw [overriding] at hv
    split at hv
    · next hyx =>
      obtain rfl := Option.some.inj hv
      exact Setting.text_inj.mp hyx ▸ hfits
    · cases hv
  | _ => cases hv

/-- What a layer has for a setting is what its file has. -/
theorem Layer.inEntries_found (l : Layer) (x : Setting) :
    x.inEntries l.found = x.inFile l.content := by
  rw [found, Setting.inFile]
  cases l.content.bind fileEntries? <;> rfl

/-- Whatever is added to a loader in whichever order, each setting gets the value that is effective
for it. -/
theorem Loader.exists_addAll_build {additions : List Addition} (h : ∀ a ∈ additions, a.Proper) :
    ∃ l s, Loader.standard.addAll? additions = some l ∧ l.build = .ok s ∧
      ∀ x : Setting, x.Is s (effective additions x) := by
  obtain ⟨l, hl, hcollects⟩ := exists_addAll fun a ha => (h a ha).setsSetting
  have hproper : l.Proper := by
    constructor
    · intro file hfile
      rw [hcollects.files] at hfile
      obtain ⟨a, ha, hl⟩ := List.mem_filterMap.mp hfile
      exact (h a ha).layer hl
    · rintro ⟨p, v⟩ ho
      obtain ⟨x, rfl⟩ := hcollects.keys _ ho
      -- An override that the loader holds is the last of its key, as keys are distinct, and so it
      -- comes from one of the additions.
      have hv := (lastSome?_inOverride_eq_some_iff l.distinct).mpr ho
      rw [hcollects.overrides] at hv
      obtain ⟨a, ha, hav⟩ := exists_of_lastSome? hv
      exact ⟨x, rfl, (h a ha).fits hav⟩
  have hvalue : ∀ x, l.value x = effective additions x := by
    intro x
    rw [value, hcollects.overrides, hcollects.files, lastSome?_filterMap, effective]
    simp only [Layer.inEntries_found]
    rfl
  obtain ⟨s, hs, his⟩ := hproper.exists_build
  refine ⟨l, s, hl, hs, ?_⟩
  intro x
  rw [← hvalue]
  exact his x

end VarBlock.Config

namespace VarBlock.CommandLine

open Config

/-! ## Requests -/

/-- What the flags of a request have for `x`. -/
def flag? (o : SourceOptions) (format : Option String) (noSuccess : Bool) : Setting → Option Value
  | .language => o.language.map .string
  | .reportSuccess => if noSuccess then some (.boolean false) else none
  | .showPositions => none
  | .format => format.map .string

namespace Environment

/-- The language that is asked for, if it has to be one and is one. -/
def IsLanguage (code : Option String) (l : Option Language) : Prop :=
  code.mapM Language.ofCode? = some l

/-- The loader of a request, once the language is known. -/
def loader (env : Environment) (o : SourceOptions) (language : Option Language)
    (format : Option String) (noSuccess : Bool) : Loader where
  files := ⟨env.configFile localConfigFile, false⟩ ::
    (o.config.map fun path => (⟨env.configFile path, true⟩ : Layer)).toList
  overrides := (language.map fun l => (languageKey, Value.string l.code)).toList ++
    (format.map fun f => (formatKey, Value.string f)).toList ++
    if noSuccess then [(reportSuccessKey, .boolean false)] else []
  distinct := by
    cases language <;> cases format <;> cases noSuccess <;> simp <;> decide

/-- Overrides of different keys come one after the other. -/
theorem overrides_foldl {overrides : List (KeyPath × Value)} {l : Loader}
    (h : ((l.overrides ++ overrides).map Prod.fst).Nodup) :
    (overrides.foldl (fun l (key, v) => l.override key v) l).overrides =
      l.overrides ++ overrides := by
  induction overrides generalizing l with
  | nil => exact (List.append_nil _).symm
  | cons o overrides ih =>
    obtain ⟨p, v⟩ := o
    -- The key has not been overridden yet, so nothing is taken out.
    have hfresh : p ∉ l.overrides.map Prod.fst := by
      intro hp
      rw [List.map_append, List.nodup_append] at h
      exact h.2.2 p hp p List.mem_cons_self rfl
    have happend := Loader.overrides_override hfresh v
    rw [List.foldl_cons, ih, happend, List.append_assoc, List.singleton_append]
    rw [happend, List.append_assoc, List.singleton_append]
    exact h

theorem files_foldl (overrides : List (KeyPath × Value)) (l : Loader) :
    (overrides.foldl (fun l (key, v) => l.override key v) l).files = l.files := by
  induction overrides generalizing l with
  | nil => rfl
  | cons o overrides ih => exact ih _

/-- The language of a code that is asked for. -/
def readLanguage (code : String) : Except Failure Language :=
  match Language.ofCode? code with
  | some l => .ok l
  | none => .error (.unknownLanguage code)

/-- The settings of a line: the language is read first, then a loader is built with the files and
the flags. -/
theorem settings_eq (env : Environment) (o : SourceOptions) (format : Option String)
    (noSuccess : Bool) : env.settings o format noSuccess =
      (o.language.mapM readLanguage).bind fun language =>
        (env.loader o language format noSuccess).build.mapError .configuration := by
  rw [settings]
  show Except.bind _ _ = Except.bind _ _
  congr 1
  funext language
  dsimp only
  congr 2
  ext1
  · rw [files_foldl, loader]
    cases o.config <;> rfl
  · -- The flags have keys of their own, and are therefore added one behind the other.
    rw [overrides_foldl]
    · cases o.config <;> rfl
    · have hdistinct := (env.loader o language format noSuccess).distinct
      cases o.config <;> exact hdistinct

/-- A language that is asked for is read if it is known, and none is if none is asked for. -/
theorem mapM_readLanguage_eq_ok_iff {code : Option String} {language : Option Language} :
    code.mapM readLanguage = .ok language ↔ IsLanguage code language := by
  cases code with
  | none =>
    rw [IsLanguage, Option.mapM_none, Option.mapM_none]
    exact ⟨fun h => congrArg some (Except.ok.inj h), fun h => congrArg _ (Option.some.inj h)⟩
  | some code =>
    rw [IsLanguage, Option.mapM_some, Option.mapM_some, readLanguage]
    cases Language.ofCode? code with
    | none => exact iff_of_false nofun nofun
    | some l =>
      exact ⟨fun h => congrArg some (Except.ok.inj h), fun h => congrArg _ (Option.some.inj h)⟩

theorem isLanguage_some_iff {code : String} {language : Option Language} :
    IsLanguage (some code) language ↔ ∃ l, Language.ofCode? code = some l ∧ language = some l := by
  rw [IsLanguage, Option.mapM_some]
  cases Language.ofCode? code <;> simp [eq_comm]

/-- Where a code is known or there is none, it has its language. -/
theorem isLanguage_bind {code : Option String}
    (h : ∀ c, code = some c → Language.ofCode? c ≠ none) :
    IsLanguage code (code.bind Language.ofCode?) := by
  cases code with
  | none => rfl
  | some c =>
    obtain ⟨l, hl⟩ := Option.ne_none_iff_exists'.mp (h c rfl)
    rw [IsLanguage, Option.mapM_some, Option.bind_some, hl]
    rfl

/-- A line has settings if its language is known and its loader builds them. -/
theorem settings_eq_ok_iff {env : Environment} {o : SourceOptions} {format : Option String}
    {noSuccess : Bool} {s : Settings} :
    env.settings o format noSuccess = .ok s ↔
      ∃ language, IsLanguage o.language language ∧
        (env.loader o language format noSuccess).build = .ok s := by
  rw [settings_eq]
  constructor
  · intro h
    cases hlanguage : o.language.mapM readLanguage with
    | error e =>
      rw [hlanguage] at h
      cases h
    | ok language =>
      rw [hlanguage] at h
      exact ⟨language, mapM_readLanguage_eq_ok_iff.mp hlanguage, mapError_eq_ok_iff.mp h⟩
  · rintro ⟨language, hlanguage, h⟩
    rw [mapM_readLanguage_eq_ok_iff.mpr hlanguage]
    exact mapError_eq_ok_iff.mpr h

/-- Every file that is there has settings, the file asked for is there, and so is the language. -/
structure Proper (env : Environment) (o : SourceOptions) : Prop where
  localFile : ∀ bytes, env.configFile localConfigFile = some bytes → ProperFile bytes
  config : ∀ path, o.config = some path →
    ∃ bytes, env.configFile path = some bytes ∧ ProperFile bytes
  language : ∀ code, o.language = some code → ∃ l, Language.ofCode? code = some l

/-- The value that a setting gets: from a flag, or else from the file asked for, or else from the
file of the directory, or else the standard one. -/
def effective (env : Environment) (o : SourceOptions) (format : Option String) (noSuccess : Bool)
    (x : Setting) : Value :=
  (((flag? o format noSuccess x).or (x.inFile (o.config.bind env.configFile))).or
    (x.inFile (env.configFile localConfigFile))).getD x.standard

variable {env : Environment} {o : SourceOptions} {language : Option Language}
  {format : Option String} {noSuccess : Bool}

/-- The flags are proper overrides. -/
theorem properOverride_of_mem_loader {p : KeyPath × Value}
    (hp : p ∈ (env.loader o language format noSuccess).overrides) : ProperOverride p := by
  -- The three flags: the language, the format, and that success is not reported.
  rcases List.mem_append.mp hp with hp | hp
  · rcases List.mem_append.mp hp with hp | hp
    · obtain ⟨l, -, rfl⟩ := Option.map_eq_some_iff.mp (Option.mem_toList.mp hp)
      exact ⟨.language, rfl, ⟨⟨l, true, true⟩, ""⟩, l.code, rfl, l.ofCode?_code⟩
    · obtain ⟨f, -, rfl⟩ := Option.map_eq_some_iff.mp (Option.mem_toList.mp hp)
      exact ⟨.format, rfl, ⟨⟨.english, true, true⟩, f⟩, rfl⟩
  · cases noSuccess with
    | false => cases hp
    | true =>
      obtain rfl := List.mem_singleton.mp hp
      exact ⟨.reportSuccess, rfl, ⟨⟨.english, false, true⟩, ""⟩, rfl⟩

/-- Where the files are proper, the loader of the program is. -/
theorem Proper.loader (h : env.Proper o) (language : Option Language) (format : Option String)
    (noSuccess : Bool) : (env.loader o language format noSuccess).Proper := by
  constructor
  · intro file hfile
    -- The file of the directory may be missing. The one asked for may not.
    rcases List.mem_cons.mp hfile with rfl | hfile
    · exact Layer.proper_optional h.localFile
    · obtain ⟨path, hpath, rfl⟩ := Option.map_eq_some_iff.mp (Option.mem_toList.mp hfile)
      obtain ⟨bytes, hbytes, hproper⟩ := h.config path hpath
      rw [hbytes]
      exact hproper.layer true
  · intro p hp
    exact properOverride_of_mem_loader hp

/-- The last override of a setting is its flag, if the line has it. -/
theorem lastSome?_overrides_loader (x : Setting) :
    lastSome? x.inOverride (env.loader o language format noSuccess).overrides =
      flag? { o with language := language.map Language.code } format noSuccess x := by
  cases x <;> cases language <;> cases format <;> cases noSuccess <;> rfl

/-- The value that the loader of the program has for a setting: the flag, the file asked for, the
file of the directory, or the default. -/
theorem value_loader (x : Setting) : (env.loader o language format noSuccess).value x =
    (((flag? { o with language := language.map Language.code } format noSuccess x).or
      (x.inFile (o.config.bind env.configFile))).or
        (x.inFile (env.configFile localConfigFile))).getD x.standard := by
  rw [Loader.value, lastSome?_overrides_loader, loader, lastSome?_cons, Option.or_assoc]
  simp only [Layer.inEntries_found]
  cases o.config with
  | none => rfl
  | some path =>
    rw [Option.map_some, Option.toList_some, lastSome?_singleton]
    rfl

/-- The format that is asked for is that of the settings, whatever the files say. -/
theorem format_of_settings {name : String} {s : Settings}
    (h : env.settings o (some name) noSuccess = .ok s) : s.format = name := by
  obtain ⟨language, -, hbuild⟩ := settings_eq_ok_iff.mp h
  obtain ⟨root, hroot, hdecode⟩ := Loader.build_eq_ok_iff.mp hbuild
  rw [Loader.merged_eq] at hroot
  obtain ⟨files, -, rfl⟩ := map_eq_ok_iff.mp hroot
  -- The flag for the format is an override, and the last of its key.
  have hformat : Setting.format.Decodes (.string name) s := by
    refine decodes_of_setting? ?_ hdecode
    rw [Value.setting?_setAll_proper fun p hp => properOverride_of_mem_loader hp,
      lastSome?_overrides_loader]
    rfl
  exact (Except.ok.inj hformat).symm

/-- Where all is proper, the language is known. -/
theorem Proper.exists_isLanguage (h : env.Proper o) :
    ∃ language, IsLanguage o.language language := by
  refine ⟨_, isLanguage_bind fun code hcode => ?_⟩
  obtain ⟨l, hl⟩ := h.language code hcode
  rw [hl]
  nofun

/-- A code has the same value as the code of the language that it stands for. -/
theorem is_language_of_isLanguage (hlanguage : IsLanguage o.language language) {s : Settings}
    (h : Setting.language.Is s ((env.loader o language format noSuccess).value .language)) :
    Setting.language.Is s (env.effective o format noSuccess .language) := by
  rw [value_loader] at h
  rw [effective]
  obtain ⟨path, config, code⟩ := o
  -- With a flag the loader has the code in lower case, and the goal is about the text of the flag.
  cases code with
  | none =>
    obtain rfl : none = language := Option.some.inj hlanguage
    exact h
  | some code =>
    obtain ⟨l, hl, rfl⟩ := isLanguage_some_iff.mp hlanguage
    obtain ⟨code', hcode', hl'⟩ := h
    obtain rfl : l.code = code' := Value.string.inj hcode'
    exact ⟨code, rfl, hl.trans (l.ofCode?_code.symm.trans hl')⟩

/-- Where all is proper, a line has settings, and they are those of the values that count. -/
theorem Proper.exists_settings (h : env.Proper o) (format : Option String) (noSuccess : Bool) :
    ∃ s, env.settings o format noSuccess = .ok s ∧
      ∀ x : Setting, x.Is s (env.effective o format noSuccess x) := by
  obtain ⟨language, hlanguage⟩ := h.exists_isLanguage
  obtain ⟨s, hs, his⟩ := (h.loader language format noSuccess).exists_build
  refine ⟨s, settings_eq_ok_iff.mpr ⟨language, hlanguage, hs⟩, ?_⟩
  intro x
  have hx := his x
  -- Only of the language does the loader hold something else than the line says.
  cases x with
  | language => exact is_language_of_isLanguage hlanguage hx
  | _ =>
    rw [value_loader] at hx
    exact hx

end Environment

end VarBlock.CommandLine

namespace VarBlock.Config

open CommandLine

/-! ### Two files -/

/-- A file that says nothing on the format. Its section is not written in lower case. -/
def firstText : String := "[Diagnostics]\nlanguage = \"Ru\"\nother = [1, 2]\n"

/-- A file that says nothing on the language. -/
def secondText : String :=
  "[output]\nformat = \"trace-simple\"\n[diagnostics]\nshow_positions = false\n"

/-- The entries of the first file, with names that are not in lower case. -/
theorem fileEntries?_firstText : fileEntries? firstText.toUTF8 =
    some [("Diagnostics", .table [("language", .string "Ru"),
      ("other", .array [.integer 1, .integer 2])])] := by
  rw [fileEntries?_toUTF8]
  cbv

theorem fileEntries?_secondText : fileEntries? secondText.toUTF8 =
    some [("output", .table [("format", .string "trace-simple")]),
      ("diagnostics", .table [("show_positions", .boolean false)])] := by
  rw [fileEntries?_toUTF8]
  cbv

/-- The first file is proper, in spite of the entry that is no setting. -/
theorem properFile_firstText : ProperFile firstText.toUTF8 := by
  refine ⟨_, fileEntries?_firstText, ?_, ?_, ?_, ?_⟩
  · simp [IsSimpleName]
  · rw [DistinctNames]
    decide
  · intro home v h
    cases home with
    | diagnostics =>
      obtain rfl := Option.some.inj h
      exact ⟨_, rfl, by rw [DistinctNames]; decide⟩
    | output => cases h
  · intro x v h
    cases x with
    | language =>
      -- The name of the language is decoded in spite of its capital.
      obtain rfl := Option.some.inj h
      exact ⟨⟨⟨.russian, true, true⟩, ""⟩, "Ru", rfl, by decide⟩
    | _ => cases h

theorem properFile_secondText : ProperFile secondText.toUTF8 := by
  refine ⟨_, fileEntries?_secondText, ?_, ?_, ?_, ?_⟩
  · simp [IsSimpleName]
  · rw [DistinctNames]
    decide
  · intro home v h
    cases home with
    | diagnostics =>
      obtain rfl := Option.some.inj h
      exact ⟨_, rfl, by rw [DistinctNames]; decide⟩
    | output =>
      obtain rfl := Option.some.inj h
      exact ⟨_, rfl, by rw [DistinctNames]; decide⟩
  · intro x v h
    cases x with
    | showPositions =>
      obtain rfl := Option.some.inj h
      exact ⟨⟨⟨.russian, true, false⟩, ""⟩, rfl⟩
    | format =>
      obtain rfl := Option.some.inj h
      exact ⟨⟨⟨.russian, true, false⟩, _⟩, rfl⟩
    | _ => cases h

def twoFiles : Environment where
  stdin := ByteArray.empty
  read path :=
    if path = "vardecl.toml" then .ok firstText.toUTF8
    else if path = "my.toml" then .ok secondText.toUTF8
    else .error .missing

/-- **Precedence**: a loader to which files and overrides were added in any order builds settings,
and each setting has its value from the last override of it, or else from the last file that has
one, or else the standard value. Nothing else in the files makes a difference. In the program a flag
is taken before the file asked for, this one before the file of the directory, and this one before
the standard settings. -/
theorem build_takes_last :
    (∀ additions : List Addition, (∀ a ∈ additions, a.Proper) →
      ∃ l s, Loader.standard.addAll? additions = some l ∧ l.build = .ok s ∧
        (∀ x : Setting, x.Is s (effective additions x)) ∧
        ∀ others : List Addition, (∀ a ∈ others, a.Proper) →
          (∀ x, effective others x = effective additions x) →
          ∃ l', Loader.standard.addAll? others = some l' ∧ l'.build = .ok s) ∧
    ∀ (env : Environment) (o : SourceOptions) (format : Option String) (noSuccess : Bool),
      env.Proper o → ∃ s, env.settings o format noSuccess = .ok s ∧
        ∀ x : Setting, x.Is s (env.effective o format noSuccess x) := by
  refine ⟨?_, fun env o format noSuccess h => h.exists_settings format noSuccess⟩
  intro additions h
  obtain ⟨l, s, hl, hs, his⟩ := Loader.exists_addAll_build h
  refine ⟨l, s, hl, hs, his, ?_⟩
  intro others hothers heq
  obtain ⟨l', s', hl', hs', his'⟩ := Loader.exists_addAll_build hothers
  -- Settings are determined by the values that count, and these are the same for both.
  have hsame : s' = s := by
    apply Setting.eq_of_is his
    intro x
    rw [← heq]
    exact his' x
  exact ⟨l', hl', hsame ▸ hs'⟩

/-- An override is taken although files are added after it. -/
theorem build_takes_last_two_files :
    (∃ l, Loader.standard.addAll? [.override "output.format" (.string "tokens-json"),
        .file (some firstText.toUTF8), .optionalFile none, .file (some secondText.toUTF8)] =
          some l ∧ l.build = .ok ⟨⟨.russian, true, false⟩, "tokens-json"⟩) ∧
    twoFiles.settings ⟨"-", some "my.toml", some "EN"⟩ none true =
      .ok ⟨⟨.english, false, false⟩, "trace-simple"⟩ := by
  constructor
  · have hadditions : ∀ a ∈ [.override "output.format" (.string "tokens-json"),
        .file (some firstText.toUTF8), .optionalFile none, .file (some secondText.toUTF8)],
        Addition.Proper a := by
      simp only [List.forall_mem_cons]
      refine ⟨⟨.format, by decide, ⟨⟨.english, true, true⟩, _⟩, rfl⟩, ⟨_, rfl, properFile_firstText⟩,
        nofun, ⟨_, rfl, properFile_secondText⟩, nofun⟩
    obtain ⟨l, s, hl, hs, his, -⟩ := build_takes_last.1 _ hadditions
    refine ⟨l, hl, hs.trans (congrArg _ ?_)⟩
    apply Setting.eq_of_is _ his
    intro x
    simp only [effective, lastSome?_cons, Addition.inFile, Addition.layer?, Setting.inFile,
      Option.bind_some, fileEntries?_firstText, fileEntries?_secondText]
    -- The override and the second file decide but for the language, which only the first file has.
    cases x with
    | language => exact ⟨"Ru", rfl, by decide⟩
    | _ => rfl
  · have hlocal : twoFiles.configFile localConfigFile = some firstText.toUTF8 := rfl
    have hconfig : twoFiles.configFile "my.toml" = some secondText.toUTF8 := rfl
    have hproper : twoFiles.Proper ⟨"-", some "my.toml", some "EN"⟩ := by
      constructor
      · rintro bytes hbytes
        obtain rfl := Option.some.inj (hlocal.symm.trans hbytes)
        exact properFile_firstText
      · rintro path hpath
        obtain rfl := Option.some.inj hpath
        exact ⟨_, hconfig, properFile_secondText⟩
      · rintro code hcode
        obtain rfl := Option.some.inj hcode
        exact ⟨.english, by decide⟩
    obtain ⟨s, hs, his⟩ := build_takes_last.2 _ _ none true hproper
    refine hs.trans (congrArg _ ?_)
    apply Setting.eq_of_is _ his
    intro x
    simp only [Environment.effective, Setting.inFile, hlocal, hconfig, Option.bind_some,
      fileEntries?_firstText, fileEntries?_secondText]
    -- Here the flag decides it, although both files are there.
    cases x with
    | language => exact ⟨"EN", rfl, by decide⟩
    | _ => rfl

end VarBlock.Config
