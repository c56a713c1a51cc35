import VarBlock.Config.Decode
import VarBlock.Proofs.Setting
import VarBlock.Proofs.Success

/-!
# Decoding, setting by setting

A configuration is decoded section by section (`decodeSettings_eq_ok_iff`), and a section that is a
table setting by setting (`decoded_iff`). So a success is known from the values of the four settings
where both sections are tables (`exists_decodeSettings`), and these values are known from a success
(`decodes_of_setting?`). A section that is a list is decoded as a whole.

The language is a name that is compared in lower case by the full Unicode rule. For the codes of the
languages this is as good as comparing ASCII letters (`Language.ofCode?_eq_some_iff`), since of what
has an ASCII lower case only the Kelvin sign is not ASCII itself, and no code has a `k`.
-/

namespace VarBlock

/-! ## Codes of languages -/

namespace Language

variable {s : String} {l : Language}

/-- Codes are in ASCII, and none of them has the letter that the Kelvin sign leads to. -/
theorem of_mem_code {c : Char} (h : c ∈ l.code.toList) : Text.isAscii c = true ∧ c ≠ 'k' := by
  cases l <;> simp [code] at h <;> rcases h with rfl | rfl <;> decide

theorem ofCode?_code (l : Language) : ofCode? l.code = some l := by
  cases l <;> rfl

/-- A language is found by the names that are its code in lower case, letter by letter of ASCII. -/
theorem ofCode?_eq_some_iff_toLower :
    ofCode? s = some l ↔ l.code.toList = s.toList.map Char.toLower := by
  constructor
  · intro h
    rw [ofCode?] at h
    have hfound := List.find?_some h
    exact of_decide_eq_true hfound
  · intro h
    rw [ofCode?, ← h]
    cases l <;> rfl

/-- A code is read alike by the case of its ASCII letters and by the full rule. -/
theorem ofCode?_eq_some_iff : ofCode? s = some l ↔ Text.lowercase s = l.code := by
  rw [ofCode?_eq_some_iff_toLower]
  constructor
  · intro h
    -- A code is ASCII, and lower-casing by the rule of ASCII does not lead there from outside.
    have hascii : ∀ c ∈ s.toList, Text.isAscii c = true := by
      intro c hc
      apply Text.isAscii_of_toLower
      have hmem : c.toLower ∈ l.code.toList := h ▸ List.mem_map_of_mem hc
      exact (of_mem_code hmem).1
    rw [Text.lowercase_of_isAscii hascii, ← h, String.ofList_toList]
  · intro h
    -- The full rule does, from the Kelvin sign. But then there would be a `k` in the code.
    have hascii : ∀ c ∈ s.toList, Text.isAscii c = true := by
      apply Text.isAscii_of_lowercase
      rw [h]
      exact fun d => of_mem_code
    rw [← h, Text.lowercase_of_isAscii hascii, String.toList_ofList]

end Language

namespace Config

/-! ## What decoding says -/

/-- A value is decoded to what the settings have for `x`. -/
def Setting.Decodes (x : Setting) (v : Value) (s : Settings) : Prop :=
  match x with
  | language => decodeLanguage v = .ok s.diagnostics.language
  | reportSuccess => decodeBoolean reportSuccess.key v = .ok s.diagnostics.reportSuccess
  | showPositions => decodeBoolean showPositions.key v = .ok s.diagnostics.showPositions
  | format => decodeString format.key v = .ok s.format

/-- A value is decoded to what the settings have for a section. -/
def Section.Decodes (home : Section) (v : Value) (s : Settings) : Prop :=
  match home with
  | diagnostics => decodeDiagnostics v = .ok s.diagnostics
  | output => decodeOutput v = .ok s.format

/-- The configuration has a section, which is decoded to what the settings have for it. -/
def Value.Decoded (root : Value) (home : Section) (s : Settings) : Prop :=
  ∃ v, root.entries.lookup home.key = some v ∧ home.Decodes v s

/-- A configuration names a language by what is its code in lower case by the Unicode rule. -/
theorem decodeLanguageName_eq_ok_iff {s : String} {l : Language} :
    decodeLanguageName s = .ok l ↔ Text.lowercase s = l.code := by
  rw [decodeLanguageName]
  constructor
  · intro h
    split at h
    · next l' hfind =>
      obtain rfl := Except.ok.inj h
      have hfound := List.find?_some hfind
      exact (of_decide_eq_true hfound).symm
    · cases h
  · intro h
    rw [h]
    cases l <;> rfl

/-- The two ways to compare names agree, so a string is decoded as an option of the command line
would be. -/
theorem decodeLanguage_string_iff {s : String} {l : Language} :
    decodeLanguage (.string s) = .ok l ↔ Language.ofCode? s = some l := by
  rw [decodeLanguage, decodeLanguageName_eq_ok_iff, Language.ofCode?_eq_some_iff]

/-! ## Fields -/

section Fields

variable {α : Type} {name : String} {field : Option Value} {decode : Value → Except DecodeError α}
  {a : α}

theorem required_eq_ok_iff {field : Option α} : required name field = .ok a ↔ field = some a := by
  cases field with
  | none => exact iff_of_false nofun nofun
  | some b =>
    rw [required, Except.ok.injEq, Option.some.injEq]

/-- A field that has to be there is there, and is decoded. -/
theorem exists_of_required {found : Option α} (hfound : field.mapM decode = .ok found)
    (h : required name found = .ok a) : ∃ v, field = some v ∧ decode v = .ok a := by
  obtain rfl := required_eq_ok_iff.mp h
  cases field with
  | none => cases hfound
  | some v => exact ⟨v, rfl, map_some_eq_ok hfound⟩

theorem mapM_of_decode {v : Value} (hv : field = some v) (h : decode v = .ok a) :
    field.mapM decode = .ok (some a) := by
  rw [hv, Option.mapM_some, h]
  rfl

end Fields

/-! ## Sections -/

section Sections

variable {s : Settings} {es : List (String × Value)} {root : Value} {home : Section}

/-- The table of the diagnostics is decoded to what its three settings are decoded to. -/
theorem decodeDiagnostics_table_iff : decodeDiagnostics (.table es) = .ok s.diagnostics ↔
    (∃ v, es.lookup "language" = some v ∧ Setting.language.Decodes v s) ∧
    (∃ v, es.lookup "report_success" = some v ∧ Setting.reportSuccess.Decodes v s) ∧
    ∃ v, es.lookup "show_positions" = some v ∧ Setting.showPositions.Decodes v s := by
  obtain ⟨d, format⟩ := s
  constructor
  · intro h
    obtain ⟨language, hlanguage, h⟩ := bind_eq_ok h
    obtain ⟨success, hsuccess, h⟩ := bind_eq_ok h
    obtain ⟨positions, hpositions, h⟩ := bind_eq_ok h
    obtain ⟨l, hl, h⟩ := bind_eq_ok h
    obtain ⟨b, hb, h⟩ := bind_eq_ok h
    obtain ⟨b', hb', h⟩ := bind_eq_ok h
    obtain rfl : _ = d := Except.ok.inj h
    exact ⟨exists_of_required hlanguage hl, exists_of_required hsuccess hb,
      exists_of_required hpositions hb'⟩
  · rintro ⟨⟨v, hv, hl⟩, ⟨v', hv', hb⟩, ⟨v'', hv'', hb'⟩⟩
    -- The fields are decoded in turn. Each line goes one field further, past a bind that `rw` alone
    -- would not see.
    rw [decodeDiagnostics, mapM_of_decode hv hl]
    show ((es.lookup "report_success").mapM (decodeBoolean Setting.reportSuccess.key) >>= _) = _
    rw [mapM_of_decode hv' hb]
    show ((es.lookup "show_positions").mapM (decodeBoolean Setting.showPositions.key) >>= _) = _
    rw [mapM_of_decode hv'' hb']
    rfl

/-- The table of the output is decoded to its only setting. -/
theorem decodeOutput_table_iff : decodeOutput (.table es) = .ok s.format ↔
    ∃ v, es.lookup "format" = some v ∧ Setting.format.Decodes v s := by
  constructor
  · intro h
    obtain ⟨format, hformat, h⟩ := bind_eq_ok h
    exact exists_of_required hformat h
  · rintro ⟨v, hv, hf⟩
    show ((es.lookup "format").mapM (decodeString Setting.format.key) >>= _) = _
    rw [mapM_of_decode hv hf]
    rfl

/-- A table is decoded setting by setting. -/
theorem Section.decodes_table_iff : home.Decodes (.table es) s ↔
    ∀ x : Setting, x.home = home → ∃ v, es.lookup x.name = some v ∧ x.Decodes v s := by
  -- What is proved for each section is put in one form, with the setting as a variable.
  cases home with
  | diagnostics =>
    rw [Section.Decodes, decodeDiagnostics_table_iff]
    constructor
    · rintro ⟨hlanguage, hsuccess, hpositions⟩ x hx
      cases x with
      | language => exact hlanguage
      | reportSuccess => exact hsuccess
      | showPositions => exact hpositions
      | format => cases hx
    · intro h
      exact ⟨h .language rfl, h .reportSuccess rfl, h .showPositions rfl⟩
  | output =>
    rw [Section.Decodes, decodeOutput_table_iff]
    constructor
    · intro h x hx
      cases x with
      | format => exact h
      | _ => cases hx
    · intro h
      exact h .format rfl

/-- Where a section is a table, its decoding is that of its settings, looked up by their whole
keys. -/
theorem Value.HasTable.decoded_iff (h : root.HasTable home) : root.Decoded home s ↔
    ∀ x : Setting, x.home = home → ∃ v, root.setting? x = some v ∧ x.Decodes v s := by
  obtain ⟨es, hes⟩ := h
  -- In a table the settings are looked up by their names, and in the root by their keys. Here both
  -- find the same.
  have hsetting : ∀ x : Setting, x.home = home → root.setting? x = es.lookup x.name := by
    rintro x rfl
    rw [setting?, hes]
    rfl
  constructor
  · rintro ⟨v, hv, hdecodes⟩ x hx
    obtain rfl : .table es = v := Option.some.inj (hes.symm.trans hv)
    rw [hsetting x hx]
    exact Section.decodes_table_iff.mp hdecodes x hx
  · intro hdecodes
    refine ⟨_, hes, Section.decodes_table_iff.mpr fun x hx => ?_⟩
    rw [← hsetting x hx]
    exact hdecodes x hx

/-- A setting that a configuration has stands in a table. -/
theorem Value.hasTable_of_setting? {x : Setting} {v : Value} (h : root.setting? x = some v) :
    root.HasTable x.home := by
  obtain ⟨w, hw, hv⟩ := Option.bind_eq_some_iff.mp h
  cases w with
  | table es => exact ⟨es, hw⟩
  | _ => cases hv

end Sections

/-! ## Configurations -/

/-- Settings are decoded section by section. -/
theorem decodeSettings_eq_ok_iff {root : Value} {s : Settings} :
    decodeSettings root = .ok s ↔ ∀ home, root.Decoded home s := by
  constructor
  · intro h
    obtain ⟨v, hv, h⟩ := bind_eq_ok h
    obtain ⟨w, hw, h⟩ := bind_eq_ok h
    obtain ⟨d, hd, h⟩ := bind_eq_ok h
    obtain ⟨f, hf, h⟩ := bind_eq_ok h
    obtain rfl := Except.ok.inj h
    -- Both sections are looked for before either is decoded, but a success does not show the order.
    intro home
    cases home with
    | diagnostics => exact ⟨v, required_eq_ok_iff.mp hv, hd⟩
    | output => exact ⟨w, required_eq_ok_iff.mp hw, hf⟩
  · intro h
    obtain ⟨v, hv, hd⟩ := h .diagnostics
    obtain ⟨w, hw, hf⟩ := h .output
    exact bind_eq_ok_iff.mpr ⟨v, required_eq_ok_iff.mpr hv, bind_eq_ok_iff.mpr ⟨w,
      required_eq_ok_iff.mpr hw, bind_eq_ok_iff.mpr ⟨_, hd, bind_eq_ok_iff.mpr ⟨_, hf, rfl⟩⟩⟩⟩

/-- What a configuration has for a setting is decoded to what the settings have for it. -/
theorem decodes_of_setting? {root : Value} {x : Setting} {v : Value} {s : Settings}
    (h : root.setting? x = some v) (hs : decodeSettings root = .ok s) : x.Decodes v s := by
  have hdecoded := decodeSettings_eq_ok_iff.mp hs x.home
  obtain ⟨w, hw, hdecodes⟩ := (Value.hasTable_of_setting? h).decoded_iff.mp hdecoded x rfl
  obtain rfl := Option.some.inj (hw.symm.trans h)
  exact hdecodes

namespace Setting

/-- A value of the type of a setting is decoded to itself. -/
theorem Is.decodes {x : Setting} {s : Settings} {v : Value} (h : x.Is s v) : x.Decodes v s := by
  cases x with
  | language =>
    obtain ⟨code, rfl, hcode⟩ := h
    exact decodeLanguage_string_iff.mpr hcode
  | _ =>
    obtain rfl : v = _ := h
    rfl

/-- Values of their types make up settings. -/
theorem exists_is {values : Setting → Value} (h : ∀ x : Setting, x.Fits (values x)) :
    ∃ s, ∀ x : Setting, x.Is s (values x) := by
  obtain ⟨s₁, hlanguage⟩ := h language
  obtain ⟨s₂, hsuccess⟩ := h reportSuccess
  obtain ⟨s₃, hpositions⟩ := h showPositions
  obtain ⟨s₄, hformat⟩ := h format
  refine ⟨⟨⟨s₁.diagnostics.language, s₂.diagnostics.reportSuccess, s₃.diagnostics.showPositions⟩,
    s₄.format⟩, ?_⟩
  intro x
  cases x with
  | language => exact hlanguage
  | reportSuccess => exact hsuccess
  | showPositions => exact hpositions
  | format => exact hformat

end Setting

/-- Each section has a setting in it. -/
theorem Section.exists_setting (home : Section) : ∃ x : Setting, x.home = home := by
  cases home with
  | diagnostics => exact ⟨.language, rfl⟩
  | output => exact ⟨.format, rfl⟩

/-- A configuration with a fitting value for each setting is decoded to the settings with these
values. -/
theorem exists_decodeSettings {root : Value} {values : Setting → Value}
    (h : ∀ x, root.setting? x = some (values x)) (hfits : ∀ x : Setting, x.Fits (values x)) :
    ∃ s, decodeSettings root = .ok s ∧ ∀ x : Setting, x.Is s (values x) := by
  obtain ⟨s, his⟩ := Setting.exists_is hfits
  refine ⟨s, decodeSettings_eq_ok_iff.mpr fun home => ?_, his⟩
  obtain ⟨x, rfl⟩ := home.exists_setting
  rw [(Value.hasTable_of_setting? (h x)).decoded_iff]
  intro y _
  exact ⟨_, h y, (his y).decodes⟩

end Config

end VarBlock
