import VarBlock.Proofs.AnyOrder
import VarBlock.Proofs.Precedence

/-!
# What overrides change

Overrides are kept apart from the files and are set in what these make up. So it does not matter
when an override is added, as long as it is the last of its key (`builds_agree_of_same_last`): what
may be built is the same, and where the files are plain this is one thing.

One more override replaces one field of the settings, unless its section was a list: then the other
fields of the list are gone (`override_changes_one`).

Where a file has names that are equal up to case, which of them wins is open, and may differ from
one build to the next (`builds_differ`, `override_changes_more`).

The first is proved without a look at values: loaders with the same files and with the same
overrides in another order may build the same (`AnyOrder`). The second is about values, and goes
through what decoding says of each setting (`Alike.decodeSettings_iff` for the order,
`Replaced.decodeSettings_set` for the field that is replaced).
-/

namespace VarBlock.Config

/-- A section is the list of its fields. -/
def Value.HasList (root : Value) (home : Section) : Prop :=
  ∃ vs, root.entries.lookup home.key = some (.array vs)

/-- The settings `s'` are `s` but for one setting, for which they have a value of its type. -/
inductive Replaced (s : Settings) : Setting → Value → Settings → Prop
  | language {code : String} {l : Language} (h : Language.ofCode? code = some l) :
    Replaced s .language (.string code) { s with diagnostics.language := l }
  | reportSuccess (b : Bool) :
    Replaced s .reportSuccess (.boolean b) { s with diagnostics.reportSuccess := b }
  | showPositions (b : Bool) :
    Replaced s .showPositions (.boolean b) { s with diagnostics.showPositions := b }
  | format (f : String) : Replaced s .format (.string f) { s with format := f }

/-! ## The moment of an override -/

/-- **The moment of an override does not matter**: if overrides of settings are added in between the
same files, and the last one of each setting gives it the same value, then both loaders may build
the same. Where the files are plain there is one thing that both of them build, settings or none. -/
theorem builds_agree_of_same_last (additions others : List Addition)
    (hkeys : ∀ a ∈ additions ++ others, a.SetsSetting)
    (hfiles : others.filterMap Addition.layer? = additions.filterMap Addition.layer?)
    (hlast : ∀ x : Setting,
      lastSome? (Addition.overriding x) others = lastSome? (Addition.overriding x) additions) :
    ∃ l l', Loader.standard.addAll? additions = some l ∧ Loader.standard.addAll? others = some l' ∧
      (∀ found, l.MayBuild found ↔ l'.MayBuild found) ∧
      ((∀ file ∈ additions.filterMap Addition.layer?, file.IsPlain) →
        ∃ found, l.Builds found ∧ l'.Builds found) := by
  have h : ∀ a ∈ additions, a.SetsSetting := fun a ha => hkeys a (List.mem_append_left _ ha)
  have h' : ∀ a ∈ others, a.SetsSetting := fun a ha => hkeys a (List.mem_append_right _ ha)
  obtain ⟨l, hl, hcollects⟩ := Loader.exists_addAll h
  obtain ⟨l', hl', hcollects'⟩ := Loader.exists_addAll h'
  -- The two loaders have the same files, and the same overrides in perhaps another order. No order
  -- of overrides is preferred, so they may build the same.
  have hsame : ∀ found, l.MayBuild found ↔ l'.MayBuild found := by
    intro found
    apply Loader.mayBuild_congr
    · rw [hcollects'.files, hfiles, hcollects.files]
    · apply Loader.perm_overrides hcollects.keys hcollects'.keys
      intro x
      rw [hcollects'.overrides, hlast, hcollects.overrides]
  refine ⟨l, l', hl, hl', hsame, fun hplain => ?_⟩
  rw [← hcollects.files] at hplain
  have hbuilds := Loader.builds_build hplain hcollects.keys
  exact ⟨l.build.toOption, hbuilds, fun other => (hsame other).symm.trans (hbuilds other)⟩

/-- A file in which a section is a scalar. -/
def scalarText : String := "output = 5\n"

/-- A file in which two names of a table are equal up to case. -/
def equalText : String := "[output]\nformat = \"a\"\nFORMAT = \"b\"\n"

/-- The entries of the file: a number where a section should be. -/
theorem fileEntries?_scalarText :
    fileEntries? scalarText.toUTF8 = some [("output", .integer 5)] := by
  rw [fileEntries?_toUTF8]
  cbv

/-- The entries of the file: two formats, under names that are equal up to case. -/
theorem fileEntries?_equalText : fileEntries? equalText.toUTF8 =
    some [("output", .table [("format", .string "a"), ("FORMAT", .string "b")])] := by
  rw [fileEntries?_toUTF8]
  cbv

theorem isPlain_scalarText : Layer.IsPlain ⟨some scalarText.toUTF8, true⟩ := by
  intro es hes
  rw [Layer.entries_of_fileEntries? fileEntries?_scalarText] at hes
  obtain rfl := Except.ok.inj hes
  have hfive : Value.Distinct (.integer 5) := Value.IsScalar.distinct trivial
  exact ⟨by simp [IsSimpleName], distinctThroughout_singleton hfive _⟩

theorem build_scalarText : ((((Loader.standard.override formatKey (.boolean true)).withFile
    (some scalarText.toUTF8)).override languageKey (.string "RU")).override formatKey
      (.integer 7)).build = .ok ⟨⟨.russian, true, true⟩, "7"⟩ := by
  rw [Loader.build, Loader.merged]
  show (([(⟨some scalarText.toUTF8, true⟩ : Layer)].mapM Layer.entries).bind _).bind _ = _
  rw [List.mapM_cons, Layer.entries_of_fileEntries? fileEntries?_scalarText]
  cbv

/-- Overrides that are added before the file are as good as those that are added after it, also
where they have to make up the section. -/
theorem builds_agree_of_same_last_scalar : ∃ l, Loader.standard.addAll?
    [.override "diagnostics.language" (.string "RU"), .override "output.format" (.integer 7),
      .file (some scalarText.toUTF8)] = some l ∧
    l.Builds (some ⟨⟨.russian, true, true⟩, "7"⟩) := by
  let additions : List Addition := [.override "output.format" (.boolean true),
    .file (some scalarText.toUTF8), .override "diagnostics.language" (.string "RU"),
    .override "output.format" (.integer 7)]
  let others : List Addition := [.override "diagnostics.language" (.string "RU"),
    .override "output.format" (.integer 7), .file (some scalarText.toUTF8)]
  have hkeys : ∀ a ∈ additions ++ others, a.SetsSetting := by
    simp only [additions, others, List.cons_append, List.nil_append, List.forall_mem_cons]
    exact ⟨⟨.format, by decide⟩, trivial, ⟨.language, by decide⟩, ⟨.format, by decide⟩,
      ⟨.language, by decide⟩, ⟨.format, by decide⟩, trivial, nofun⟩
  -- Setting by setting, the last override is the same in both orders.
  have hlast : ∀ x : Setting,
      lastSome? (Addition.overriding x) others = lastSome? (Addition.overriding x) additions := by
    intro x
    cases x <;> rfl
  obtain ⟨l, l', hl, hl', -, hbuilds⟩ := builds_agree_of_same_last additions others hkeys rfl hlast
  obtain ⟨found, hfound, hfound'⟩ := hbuilds fun file hfile =>
    List.mem_singleton.mp hfile ▸ isPlain_scalarText
  have hadd : Loader.standard.addAll? additions = some ((((Loader.standard.override formatKey
      (.boolean true)).withFile (some scalarText.toUTF8)).override languageKey
        (.string "RU")).override formatKey (.integer 7)) := by cbv
  obtain rfl := Option.some.inj (hadd.symm.trans hl)
  have hbuild := (hfound _).mp (Loader.mayBuild_build _)
  rw [build_scalarText] at hbuild
  obtain rfl : some _ = found := hbuild
  exact ⟨l', hl', hfound'⟩

/-- Which of two equal names wins in a file, with the language that is overridden. -/
theorem mayBuild_equalText : ∀ format ∈ ["a", "b"],
    ((Loader.standard.withFile (some equalText.toUTF8)).override languageKey
      (.string "ru")).MayBuild (some ⟨⟨.russian, true, true⟩, format⟩) := by
  have hfiles : [(⟨some equalText.toUTF8, true⟩ : Layer)].mapM Layer.entries =
      .ok [[("output", .table [("format", .string "a"), ("FORMAT", .string "b")])]] := by
    rw [List.mapM_cons, Layer.entries_of_fileEntries? fileEntries?_equalText]
    rfl
  -- It is enough to give an order of the entries and what is decoded of it.
  have hmay : ∀ (es : List (String × Value)) (found : Settings),
      RearrangedFile [("output", .table [("format", .string "a"), ("FORMAT", .string "b")])] es →
      decodeSettings (((ofSettings .standard).overlay es).setAll [(languageKey, .string "ru")]) =
        .ok found → ((Loader.standard.withFile (some equalText.toUTF8)).override languageKey
          (.string "ru")).MayBuild (some found) := by
    intro es found hes hfound
    rw [← toOption_eq_some_iff.mpr hfound]
    exact .merged ⟨_, [es], _, _, hfiles, .cons hes .nil, .refl _, rearrangedOverride_refl _, rfl⟩
  simp only [List.forall_mem_cons]
  refine ⟨?_, ?_, nofun⟩
  · -- The last of the two names wins. Here they have changed places.
    exact hmay [("output", .table [("FORMAT", .string "b"), ("format", .string "a")])] _
      (.head (.swap _ _ _) _ _) (by cbv)
  · exact hmay _ _ (.refl _) (by cbv)

theorem addAll?_equalText : Loader.standard.addAll? [.file (some equalText.toUTF8),
    .override "diagnostics.language" (.string "ru")] =
      some ((Loader.standard.withFile (some equalText.toUTF8)).override languageKey
        (.string "ru")) := by
  have hfile : Loader.standard.addAll? [.file (some equalText.toUTF8)] =
    some (Loader.standard.withFile (some equalText.toUTF8)) := rfl
  have hadd := Loader.addAll?_concat hfile (.override "diagnostics.language" (.string "ru"))
  rw [Loader.add?, Loader.override?_language] at hadd
  exact hadd

/-- Where names are equal up to case, the same file and the same override may lead to different
settings, and it may look as if this came from the moment of the override. -/
theorem builds_differ : ∃ l l', Loader.standard.addAll?
      [.file (some equalText.toUTF8), .override "diagnostics.language" (.string "ru")] = some l ∧
    Loader.standard.addAll?
      [.override "diagnostics.language" (.string "ru"), .file (some equalText.toUTF8)] = some l' ∧
    l.MayBuild (some ⟨⟨.russian, true, true⟩, "a"⟩) ∧
    l'.MayBuild (some ⟨⟨.russian, true, true⟩, "b"⟩) := by
  refine ⟨_, _, addAll?_equalText, ?_, mayBuild_equalText "a" (by simp),
    mayBuild_equalText "b" (by simp)⟩
  have hnone : Loader.standard.addAll? [] = some .standard := rfl
  have hadd := Loader.addAll?_concat hnone (.override "diagnostics.language" (.string "ru"))
  rw [Loader.add?, Loader.override?_language] at hadd
  exact Loader.addAll?_concat hadd (.file (some equalText.toUTF8))

/-! ## One more override -/

section Single

variable {s s' : Settings} {x : Setting} {v : Value} {root : Value}

/-- In the settings with the one replaced, this one is what the value says. -/
theorem Replaced.is (h : Replaced s x v s') : x.Is s' v := by
  cases h with
  | language h => exact ⟨_, rfl, h⟩
  | _ => rfl

/-- The other settings are the same. -/
theorem Replaced.decodes (h : Replaced s x v s') {y : Setting} (hy : y ≠ x) {w : Value}
    (hw : y.Decodes w s) : y.Decodes w s' := by
  -- Settings are fields of their own, so each replacement leaves the other three as they are.
  cases h with
  | language =>
    cases y with
    | language => exact absurd rfl hy
    | _ => exact hw
  | reportSuccess =>
    cases y with
    | reportSuccess => exact absurd rfl hy
    | _ => exact hw
  | showPositions =>
    cases y with
    | showPositions => exact absurd rfl hy
    | _ => exact hw
  | format =>
    cases y with
    | format => exact absurd rfl hy
    | _ => exact hw

/-- The other section is the same. -/
theorem Replaced.decoded (h : Replaced s x v s') {home : Section} (hhome : home ≠ x.home)
    (hdecoded : root.Decoded home s) : (root.set x.key v).Decoded home s' := by
  rw [Value.Decoded, Value.lookup_set_of_ne root hhome]
  -- The format is alone in its section, and the other three are together in theirs.
  cases h with
  | format =>
    cases home with
    | diagnostics => exact hdecoded
    | output => exact absurd rfl hhome
  | _ =>
    cases home with
    | diagnostics => exact absurd rfl hhome
    | output => exact hdecoded

/-- Only one section has more than one setting. -/
theorem Setting.home_eq_diagnostics {y : Setting} (h : y.home = x.home) (hne : y ≠ x) :
    x.home = .diagnostics := by
  cases x with
  | format =>
    cases y with
    | format => exact absurd rfl hne
    | _ => cases h
  | _ => rfl

/-- What is decoded as a section is a table or a list. -/
theorem Section.decoded_cases {home : Section} (h : root.Decoded home s) :
    root.HasTable home ∨ root.HasList home := by
  obtain ⟨v, hv, hdecodes⟩ := h
  cases v with
  | table es => exact .inl ⟨es, hv⟩
  | array vs => exact .inr ⟨vs, hv⟩
  | _ => cases home <;> cases hdecodes

/-- An override replaces one setting, where there is no other in the section or the section is a
table. -/
theorem Replaced.decodeSettings_set (h : Replaced s x v s') (hs : decodeSettings root = .ok s)
    (htable : x.home = .diagnostics → root.HasTable .diagnostics) :
    decodeSettings (root.set x.key v) = .ok s' := by
  rw [decodeSettings_eq_ok_iff] at hs ⊢
  intro home
  by_cases hhome : home = x.home
  · subst hhome
    -- the section is a table now, whatever it was
    rw [(Value.hasTable_set root x v).decoded_iff]
    intro y hy
    rw [Value.setting?_set]
    by_cases hyx : y = x
    · subst hyx
      rw [if_pos rfl, (Setting.Fits.isScalar ⟨s', h.is⟩).onto]
      exact ⟨v, rfl, h.is.decodes⟩
    · -- the section was a table already, in which the other settings are found
      have hdiagnostics := Setting.home_eq_diagnostics hy hyx
      have hdecoded := hs x.home
      rw [hdiagnostics, (htable hdiagnostics).decoded_iff] at hdecoded
      obtain ⟨w, hw, hdecodes⟩ := hdecoded y (hy.trans hdiagnostics)
      rw [if_neg hyx]
      exact ⟨w, hw, h.decodes hyx hdecodes⟩
  · exact h.decoded hhome (hs home)

/-- In diagnostics there is always another setting. -/
theorem Setting.exists_other (x : Setting) : ∃ y : Setting, y.home = .diagnostics ∧ y ≠ x := by
  by_cases hx : x = .language
  · exact ⟨.reportSuccess, rfl, by rw [hx]; nofun⟩
  · exact ⟨.language, rfl, Ne.symm hx⟩

/-- Where the section was a list, the other settings in it are missing. -/
theorem decodeSettings_set_list (hx : x.home = .diagnostics) (hlist : root.HasList .diagnostics)
    (v : Value) (t : Settings) : decodeSettings (root.set x.key v) ≠ .ok t := by
  intro ht
  obtain ⟨vs, hvs⟩ := hlist
  obtain ⟨y, hy, hyx⟩ := x.exists_other
  have htable := Value.hasTable_set root x v
  rw [hx] at htable
  obtain ⟨w, hw, -⟩ := htable.decoded_iff.mp (decodeSettings_eq_ok_iff.mp ht .diagnostics) y hy
  -- what is set is not this setting, and a list has no names
  rw [Value.setting?_set, if_neg hyx, Value.setting?, hy, hvs] at hw
  cases hw

/-- **An override changes one field**: where settings are built from plain files and overrides of
settings, and one more override gives a value of its type to a setting, the same settings are built
with this value in its place. The exception is a setting of diagnostics where these are a list of
fields. Then the other fields are missing, and nothing is built. -/
theorem override_changes_one (additions : List Addition) (l : Loader) (root : Value)
    (s s' : Settings) (x : Setting) (v : Value) (hkeys : ∀ a ∈ additions, a.SetsSetting)
    (hplain : ∀ file ∈ additions.filterMap Addition.layer?, file.IsPlain)
    (hadd : Loader.standard.addAll? additions = some l) (hroot : l.MayMerge root)
    (hs : decodeSettings root = .ok s) (hv : Replaced s x v s') :
    l.Builds (some s) ∧ (root.HasTable .diagnostics ∨ root.HasList .diagnostics) ∧
      ∃ l', Loader.standard.addAll? (additions ++ [.override x.key.text v]) = some l' ∧
        ((x.home = .diagnostics → root.HasTable .diagnostics) → l'.Builds (some s')) ∧
        (x.home = .diagnostics → root.HasList .diagnostics → l'.Builds none) := by
  have hcollects := Loader.Collects.of_addAll hkeys hadd
  have hplain' : ∀ file ∈ l.files, file.IsPlain := hcollects.files ▸ hplain
  have hscalar : v.IsScalar := Setting.Fits.isScalar ⟨s', hv.is⟩
  obtain ⟨listed, hlisted, halike⟩ := hroot.alike hplain' hcollects.keys
  obtain ⟨root', hroot', halike'⟩ := Loader.exists_merged_override hcollects.keys hlisted x hscalar
  -- what is merged with the override is what results if the value is set at the end
  have hset : Alike 3 (root.set x.key v) root' :=
    (halike.symm.set x fun _ _ hold => .onto hold v).trans halike'
  have hkeys' := Loader.keyedBySettings_override hcollects.keys x v
  have hbuilds := Loader.builds_build hplain' hcollects.keys
  have hbuilds' := Loader.builds_build (l := l.override x.key v) hplain' hkeys'
  rw [Loader.toOption_build hlisted, toOption_eq_some_iff.mpr (halike.decodeSettings_iff.mpr hs)]
    at hbuilds
  rw [Loader.toOption_build hroot'] at hbuilds'
  refine ⟨hbuilds, Section.decoded_cases (decodeSettings_eq_ok_iff.mp hs .diagnostics),
    l.override x.key v, ?_, ?_, ?_⟩
  · rw [Loader.addAll?_concat hadd, Loader.add?, l.override?_text]
  · intro htable
    have hs' := hset.decodeSettings_iff.mp (hv.decodeSettings_set hs htable)
    exact toOption_eq_some_iff.mpr hs' ▸ hbuilds'
  · intro hx hlist
    have hnone : (decodeSettings root').toOption = none := by
      refine Option.eq_none_iff_forall_ne_some.mpr fun t ht => ?_
      have ht := hset.decodeSettings_iff.mpr (toOption_eq_some_iff.mp ht)
      exact decodeSettings_set_list hx hlist v t ht
    exact hnone ▸ hbuilds'

/-- A file in which a section is the list of its fields. -/
def listText : String := "Diagnostics = [\"en\", 1, \"yes\"]\n"

/-- A file in which the language is the key of a table. -/
def keyText : String := "[diagnostics]\nreport_success = \"Off\"\nlanguage.Ru = 0\n"

/-- The entries of the file: a list where a section should be. -/
theorem fileEntries?_listText : fileEntries? listText.toUTF8 =
    some [("Diagnostics", .array [.string "en", .integer 1, .string "yes"])] := by
  rw [fileEntries?_toUTF8]
  cbv

/-- The entries of the file: a table for the language, as one of the ways to write it. -/
theorem fileEntries?_keyText : fileEntries? keyText.toUTF8 =
    some [("diagnostics", .table [("report_success", .string "Off"),
      ("language", .table [("Ru", .integer 0)])])] := by
  rw [fileEntries?_toUTF8]
  cbv

theorem isPlain_listText : Layer.IsPlain ⟨some listText.toUTF8, true⟩ := by
  intro es hes
  rw [Layer.entries_of_fileEntries? fileEntries?_listText] at hes
  obtain rfl := Except.ok.inj hes
  exact ⟨by simp [IsSimpleName], distinctThroughout_singleton (distinct_array _) _⟩

theorem isPlain_keyText : Layer.IsPlain ⟨some keyText.toUTF8, true⟩ := by
  intro es hes
  rw [Layer.entries_of_fileEntries? fileEntries?_keyText] at hes
  obtain rfl := Except.ok.inj hes
  have hzero : Value.Distinct (.integer 0) := Value.IsScalar.distinct trivial
  have hlanguage : Value.Distinct (.table [("Ru", .integer 0)]) :=
    distinct_table_iff.mpr (distinctThroughout_singleton hzero _)
  -- From the inside outwards: each table has one entry, but for the section, which has two.
  have hentry : Value.Distinct (.table [("language", .table [("Ru", .integer 0)])]) :=
    distinct_table_iff.mpr (distinctThroughout_singleton hlanguage _)
  refine ⟨by simp [IsSimpleName], distinctThroughout_singleton ?_ _⟩
  exact distinct_cons_iff.mpr ⟨by decide, Value.IsScalar.distinct trivial, hentry⟩

/-- The list is kept as it is in the merged configuration. -/
theorem merged_listText : Loader.merged (Loader.standard.withFile (some listText.toUTF8)) =
    .ok (.table [("diagnostics", .array [.string "en", .integer 1, .string "yes"]),
      ("output", .table [("format", .string "diagnostics-simple")])]) := by
  rw [Loader.merged]
  show ([(⟨some listText.toUTF8, true⟩ : Layer)].mapM Layer.entries).bind _ = _
  rw [List.mapM_cons, Layer.entries_of_fileEntries? fileEntries?_listText]
  cbv

/-- The names are in lower case in the merged configuration. -/
theorem merged_keyText : Loader.merged (Loader.standard.withFile (some keyText.toUTF8)) =
    .ok (.table [("diagnostics", .table [("language", .table [("ru", .integer 0)]),
        ("report_success", .string "Off"), ("show_positions", .boolean true)]),
      ("output", .table [("format", .string "diagnostics-simple")])]) := by
  rw [Loader.merged]
  show ([(⟨some keyText.toUTF8, true⟩ : Layer)].mapM Layer.entries).bind _ = _
  rw [List.mapM_cons, Layer.entries_of_fileEntries? fileEntries?_keyText]
  cbv

/-- The language that is the key of a table stays, and the format is replaced in a list too; but
positions are not replaced there. -/
theorem override_changes_one_files :
    (∃ l, Loader.standard.addAll? [.file (some keyText.toUTF8),
      .override "diagnostics.show_positions" (.boolean false)] = some l ∧
      l.Builds (some ⟨⟨.russian, false, false⟩, "diagnostics-simple"⟩)) ∧
    (∃ l, Loader.standard.addAll? [.file (some listText.toUTF8),
      .override "output.format" (.string "x")] = some l ∧
      l.Builds (some ⟨⟨.english, true, true⟩, "x"⟩)) ∧
    ∃ l, Loader.standard.addAll? [.file (some listText.toUTF8),
      .override "diagnostics.show_positions" (.boolean false)] = some l ∧ l.Builds none := by
  have hpositions : Setting.showPositions.key.text = "diagnostics.show_positions" := by decide
  have hformat : Setting.format.key.text = "output.format" := by decide
  rw [← hpositions, ← hformat]
  have hkeys : ∀ text : String, ∀ a ∈ [.file (some text.toUTF8)], Addition.SetsSetting a :=
    fun _ a ha => List.mem_singleton.mp ha ▸ trivial
  have hkey {x : Setting} {v : Value} {s' : Settings} := override_changes_one
    [.file (some keyText.toUTF8)] _ _ ⟨⟨.russian, false, true⟩, "diagnostics-simple"⟩ s' x v
    (hkeys _) (fun _ h => List.mem_singleton.mp h ▸ isPlain_keyText) rfl
    (Loader.mayMerge_merged merged_keyText) (by cbv)
  have hlist {x : Setting} {v : Value} {s' : Settings} := override_changes_one
    [.file (some listText.toUTF8)] _ _ ⟨⟨.english, true, true⟩, "diagnostics-simple"⟩ s' x v
    (hkeys _) (fun _ h => List.mem_singleton.mp h ▸ isPlain_listText) rfl
    (Loader.mayMerge_merged merged_listText) (by cbv)
  -- Where the section is a table, one setting of it is changed. Where it is a list, the other
  -- section can still be changed, but an override in the list's own section leaves nothing to be
  -- built.
  refine ⟨?_, ?_, ?_⟩
  · obtain ⟨-, -, l, hl, hbuilds, -⟩ := hkey (.showPositions false)
    exact ⟨l, hl, hbuilds fun _ => ⟨_, rfl⟩⟩
  · obtain ⟨-, -, l, hl, hbuilds, -⟩ := hlist (.format "x")
    exact ⟨l, hl, hbuilds fun h => by cases h⟩
  · obtain ⟨-, -, l, hl, -, hbuilds⟩ := hlist (.showPositions false)
    exact ⟨l, hl, hbuilds rfl ⟨_, rfl⟩⟩

/-- Where names are equal up to case, the format may change with an override of the language. -/
theorem override_changes_more : ∃ l l',
    Loader.standard.addAll? [.file (some equalText.toUTF8)] = some l ∧
    Loader.standard.addAll?
      [.file (some equalText.toUTF8), .override "diagnostics.language" (.string "ru")] = some l' ∧
    l.MayBuild (some ⟨⟨.english, true, true⟩, "b"⟩) ∧
    l'.MayBuild (some ⟨⟨.russian, true, true⟩, "a"⟩) := by
  refine ⟨_, _, rfl, addAll?_equalText, ?_, mayBuild_equalText "a" (by simp)⟩
  -- The listed order has `FORMAT` last.
  have hbuild : (Loader.standard.withFile (some equalText.toUTF8)).build =
      .ok ⟨⟨.english, true, true⟩, "b"⟩ := by
    rw [Loader.build, Loader.merged]
    show (([(⟨some equalText.toUTF8, true⟩ : Layer)].mapM Layer.entries).bind _).bind _ = _
    rw [List.mapM_cons, Layer.entries_of_fileEntries? fileEntries?_equalText]
    cbv
  rw [← toOption_eq_some_iff.mpr hbuild]
  exact Loader.mayBuild_build _

end Single

end VarBlock.Config
