import VarBlock.Proofs.Overriding

/-!
# Two ways to name a language

A language is asked for by its code, with a flag, or configured under its name. What an override
says of the language is known from its text as a code (`Loader.ofCode?_of_build`), and the text may
be replaced by the code of its language in lower case (`Loader.build_language_congr`). This is what
the program does with its flag (`Environment.settings_language_iff`).

Lower-casing is the point where the two ways differ: the flag follows the rule of ASCII and the
configuration that of Unicode. For codes they come to the same (`Language.ofCode?_eq_some_iff`). The
rest is about overrides: the one of the flag is the first of its loader and the other is the last,
which no setting can tell apart (`build_loader_language`).
-/

namespace VarBlock

namespace Config

/-- Of a value that is set only that counts to which it is decoded. -/
theorem Value.decoded_set_congr {x : Setting} {v v' : Value} (hv : v.IsScalar) (hv' : v'.IsScalar)
    (h : ∀ s, x.Decodes v' s ↔ x.Decodes v s) (root : Value) (home : Section) (s : Settings) :
    (root.set x.key v').Decoded home s ↔ (root.set x.key v).Decoded home s := by
  by_cases hhome : home = x.home
  · subst hhome
    rw [(hasTable_set root x v').decoded_iff, (hasTable_set root x v).decoded_iff]
    -- In the section of the override, the setting itself is decoded alike and the others are not
    -- touched.
    refine forall₂_congr fun y _ => ?_
    rw [setting?_set, setting?_set, hv.onto, hv'.onto]
    by_cases hyx : y = x
    · subst hyx
      simp only [if_pos, Option.some.injEq, exists_eq_left', h]
    · rw [if_neg hyx, if_neg hyx]
  · rw [Decoded, Decoded, lookup_set_of_ne root hhome, lookup_set_of_ne root hhome]

namespace Loader

variable {l : Loader} {s : String} {language : Language} {t : Settings}

/-- A last override is laid over what the loader gives without any earlier override of its key. -/
theorem build_override_iff {p : KeyPath} {v : Value} : (l.override p v).build = .ok t ↔
    ∃ root, (l.without p).merged = .ok root ∧ decodeSettings (root.set p v) = .ok t := by
  rw [build_eq_ok_iff, merged_override_eq]
  constructor
  · rintro ⟨_, hmerged, ht⟩
    obtain ⟨root, hroot, rfl⟩ := map_eq_ok_iff.mp hmerged
    exact ⟨root, hroot, ht⟩
  · rintro ⟨root, hroot, ht⟩
    exact ⟨_, map_eq_ok_iff.mpr ⟨root, hroot, rfl⟩, ht⟩

/-- Where settings are built, the language is that of the code in the override. -/
theorem ofCode?_of_build (h : (l.override languageKey (.string s)).build = .ok t) :
    Language.ofCode? s = some t.diagnostics.language := by
  obtain ⟨root, -, ht⟩ := build_override_iff.mp h
  have hset : (root.set languageKey (.string s)).setting? .language = some (.string s) := by
    show (root.set Setting.language.key (.string s)).setting? .language = _
    rw [Value.setting?_set, if_pos rfl]
    rfl
  exact decodeLanguage_string_iff.mp (decodes_of_setting? hset ht)

/-- A code in an override does what the code of its language does. -/
theorem build_language_congr (h : Language.ofCode? s = some language) :
    (l.override languageKey (.string s)).build = .ok t ↔
      (l.override languageKey (.string language.code)).build = .ok t := by
  -- The two texts name one language, and nothing else of them is decoded.
  have hdecodes : ∀ t, Setting.language.Decodes (.string s) t ↔
      Setting.language.Decodes (.string language.code) t := by
    intro t
    rw [Setting.Decodes, Setting.Decodes, decodeLanguage_string_iff, decodeLanguage_string_iff, h,
      language.ofCode?_code]
  simp only [build_override_iff, decodeSettings_eq_ok_iff]
  have hscalar (name : String) : (Value.string name).IsScalar := trivial
  refine exists_congr fun root => and_congr_right fun _ => forall_congr' fun home => ?_
  exact Value.decoded_set_congr (hscalar _) (hscalar _) hdecodes root home t

/-- Over the standard settings a known name changes the language and nothing else. -/
theorem build_standard_language (h : Language.ofCode? s = some language) :
    (standard.override languageKey (.string s)).build =
      .ok { Settings.standard with diagnostics.language := language } := by
  have hreplaced : Replaced .standard .language (.string s)
      { Settings.standard with diagnostics.language := language } := .language h
  have hstandard : decodeSettings (ofSettings .standard) = .ok .standard := rfl
  refine build_override_iff.mpr ⟨ofSettings .standard, rfl, ?_⟩
  exact hreplaced.decodeSettings_set hstandard fun _ => ⟨_, rfl⟩

end Loader

end Config

namespace CommandLine

open Config

namespace Environment

variable {env : Environment} {o : SourceOptions} {s : String} {language : Language}
  {format : Option String} {noSuccess : Bool} {t : Settings}

/-- It makes no difference that the language comes before the other flags. -/
theorem build_loader_language (env : Environment) (o : SourceOptions) (language : Language)
    (format : Option String) (noSuccess : Bool) (t : Settings) :
    (env.loader o (some language) format noSuccess).build = .ok t ↔
      ((env.loader o none format noSuccess).override languageKey
        (.string language.code)).build = .ok t := by
  let first := env.loader o (some language) format noSuccess
  let last := (env.loader o none format noSuccess).override languageKey (.string language.code)
  have hkeys : ∀ language, KeyedBySettings (env.loader o language format noSuccess).overrides :=
    fun _ => keyedBySettings_of_proper fun _ hp => properOverride_of_mem_loader hp
  have hkeys' : KeyedBySettings last.overrides :=
    Loader.keyedBySettings_override (hkeys none) .language _
  -- The flag comes first among the overrides of the one loader and last among those of the other.
  -- Their keys are different, so no setting can tell.
  have hsame : ∀ x : Setting,
      lastSome? x.inOverride first.overrides = lastSome? x.inOverride last.overrides := by
    intro x
    have hlast := Loader.lastSome?_override (env.loader o none format noSuccess) .language x
      (.string language.code)
    rw [lastSome?_overrides_loader] at hlast
    rw [lastSome?_overrides_loader]
    refine Eq.trans ?_ hlast.symm
    cases x <;> rfl
  have hfiles : first.files = last.files := rfl
  exact Loader.build_congr hfiles (Loader.perm_overrides hkeys' (hkeys _) hsame) hkeys'

/-- The flag says what an override by the same text says, whatever the files say and the other
options. -/
theorem settings_language_iff :
    env.settings { o with language := some s } format noSuccess = .ok t ↔
      ((env.loader o none format noSuccess).override languageKey (.string s)).build = .ok t := by
  rw [settings_eq_ok_iff]
  constructor
  · rintro ⟨found, hfound, ht⟩
    obtain ⟨language, hlanguage, rfl⟩ := isLanguage_some_iff.mp hfound
    rw [Loader.build_language_congr hlanguage, ← build_loader_language]
    exact ht
  · intro ht
    -- That something is built tells that the text names a language.
    have hlanguage := Loader.ofCode?_of_build ht
    rw [Loader.build_language_congr hlanguage, ← build_loader_language] at ht
    exact ⟨_, isLanguage_some_iff.mpr ⟨_, hlanguage, rfl⟩, ht⟩

end Environment

end CommandLine

namespace Config

open CommandLine

/-- **Two ways to name a language**: a text is the code of a language exactly if settings are built
from it as the configured language, and then they have this language. So the flag of the program
takes the same texts as a configuration does, and with the same effect on all settings. -/
theorem language_named_alike (s : String) :
    ∃ loader, Loader.standard.override? "diagnostics.language" (.string s) = some loader ∧
      (∀ l, Language.ofCode? s = some l ↔
        ∃ t, loader.build = .ok t ∧ t.diagnostics.language = l) ∧
      (Language.ofCode? s = none ↔ ∃ e, loader.build = .error e) ∧
      ∀ (env : Environment) (o : SourceOptions) (format : Option String) (noSuccess : Bool) t,
        env.settings { o with language := some s } format noSuccess = .ok t ↔
          ((env.loader o none format noSuccess).override languageKey (.string s)).build = .ok t := by
  refine ⟨_, Loader.standard.override?_language (.string s), ?_, ?_, fun env o format noSuccess t =>
    Environment.settings_language_iff⟩
  · intro l
    constructor
    · intro h
      exact ⟨_, Loader.build_standard_language h, rfl⟩
    · rintro ⟨t, ht, rfl⟩
      exact Loader.ofCode?_of_build ht
  · constructor
    · intro h
      cases hbuild : (Loader.standard.override languageKey (.string s)).build with
      | error e => exact ⟨e, rfl⟩
      | ok t =>
        rw [Loader.ofCode?_of_build hbuild] at h
        cases h
    · rintro ⟨e, he⟩
      cases hcode : Language.ofCode? s with
      | none => rfl
      | some l =>
        rw [Loader.build_standard_language hcode] at he
        cases he

end Config

end VarBlock
