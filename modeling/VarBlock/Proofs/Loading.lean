import VarBlock.Config.Loader
import VarBlock.Proofs.Decoding
import VarBlock.Proofs.Setting
import VarBlock.Proofs.Success

/-!
# What a loader builds

A loader lays its files and then its overrides over the standard settings. A setting is followed in
two runs, one over the files (`setting?_foldl_overlay`) and one over the overrides
(`setting?_setAll`). In both it has the value of the last that has one for it (`lastSome?`). So a
loader with proper files and overrides builds settings, and it is known which (`exists_build`).

What "proper" asks for is what makes a value the last word: the names of a file are not equal up to
case, a section is a table, and a value is one of the type of its setting. Files without these
properties are followed in `AnyOrder`, where it is open what is built of them.

* `lastSome?`: the last that has something, with the lemmas on lists that both runs use;
* files as bytes, texts and entries, and what is wrong with them where something is;
* overrides, of which a loader holds one for each key (`perm_overrides`);
* `Proper.exists_build`, where the two runs are put together and decoded.
-/

namespace VarBlock.Config

/-- The entries of the text of a file, if it is text and TOML. -/
def fileEntries? (content : ByteArray) : Option (List (String × Value)) :=
  (decodeText content).toOption.bind Toml.parse?

/-- The value that a file has for `x`. -/
def Setting.inFile (x : Setting) (content : Option ByteArray) : Option Value :=
  (content.bind fileEntries?).bind x.inEntries

/-- A file with settings. -/
def ProperFile (content : ByteArray) : Prop :=
  ∃ entries, fileEntries? content = some entries ∧ Proper entries

/-- What the last of those has that have something. -/
def lastSome? {α β : Type} (f : α → Option β) (l : List α) : Option β := l.reverse.findSome? f

/-! ## The last that has something -/

section

variable {α β γ : Type}

theorem lastSome?_singleton (f : α → Option β) (a : α) : lastSome? f [a] = f a := by
  rw [lastSome?, List.reverse_singleton, List.findSome?_cons]
  cases f a <;> rfl

/-- What comes first counts only where nothing later does. -/
theorem lastSome?_cons (f : α → Option β) (a : α) (l : List α) :
    lastSome? f (a :: l) = (lastSome? f l).or (f a) := by
  rw [lastSome?, List.reverse_cons, List.findSome?_append, ← lastSome?_singleton f a]
  rfl

/-- What comes last counts wherever it has something. -/
theorem lastSome?_concat (f : α → Option β) (l : List α) (a : α) :
    lastSome? f (l ++ [a]) = (f a).or (lastSome? f l) := by
  rw [lastSome?, List.reverse_concat, List.findSome?_cons]
  cases f a <;> rfl

/-- To look among the images is to look through the map. -/
theorem lastSome?_filterMap (f : β → Option γ) (g : α → Option β) (l : List α) :
    lastSome? f (l.filterMap g) = lastSome? (fun a => (g a).bind f) l := by
  induction l with
  | nil => rfl
  | cons a l ih =>
    rw [lastSome?_cons, ← ih]
    -- What has no image is left out of the one list and has nothing in the other.
    cases h : g a with
    | none =>
      rw [List.filterMap_cons_none h, Option.bind_none, Option.or_none]
    | some b =>
      rw [List.filterMap_cons_some h, lastSome?_cons, Option.bind_some]

/-- What has nothing may be left out. -/
theorem lastSome?_filter {f : α → Option β} {p : α → Bool} {l : List α}
    (h : ∀ a ∈ l, p a = false → f a = none) : lastSome? f (l.filter p) = lastSome? f l := by
  induction l with
  | nil => rfl
  | cons a l ih =>
    obtain ⟨ha, hl⟩ := List.forall_mem_cons.mp h
    rw [lastSome?_cons, ← ih hl]
    cases hp : p a with
    | true => rw [List.filter_cons_of_pos hp, lastSome?_cons]
    | false => rw [List.filter_cons_of_neg (by simp [hp]), ha hp, Option.or_none]

/-- What is found last is there. -/
theorem exists_of_lastSome? {f : α → Option β} {l : List α} {b : β} (h : lastSome? f l = some b) :
    ∃ a ∈ l, f a = some b := by
  obtain ⟨a, ha, hb⟩ := List.exists_of_findSome?_eq_some h
  exact ⟨a, List.mem_reverse.mp ha, hb⟩

/-- If every step takes what it has for a setting and else leaves the setting as it is, then a run
takes what the last one has. -/
theorem Value.setting?_foldl {x : Setting} {step : Value → α → Value} {f : α → Option Value}
    {l : List α} (h : ∀ a ∈ l, ∀ root, (step root a).setting? x = (f a).or (root.setting? x))
    (root : Value) : (l.foldl step root).setting? x = (lastSome? f l).or (root.setting? x) := by
  induction l generalizing root with
  | nil => rfl
  | cons a l ih =>
    obtain ⟨ha, hl⟩ := List.forall_mem_cons.mp h
    rw [List.foldl_cons, ih hl, ha, lastSome?_cons, Option.or_assoc]

end

/-! ## Files -/

/-- What a file lays over the others. -/
def Layer.found (l : Layer) : List (String × Value) := (l.content.bind fileEntries?).getD []

/-- A file that can be had, with settings. -/
def Layer.Proper (l : Layer) : Prop := l.entries = .ok l.found ∧ Config.Proper l.found

/-- After the files a setting has the value of the last file that has one for it. -/
theorem Value.setting?_foldl_overlay {files : List Layer} (h : ∀ file ∈ files, Proper file.found)
    (root : Value) (x : Setting) :
    ((files.map Layer.found).foldl overlay root).setting? x =
      (lastSome? (fun file => x.inEntries file.found) files).or (root.setting? x) := by
  rw [List.foldl_map]
  apply setting?_foldl
  intro file hfile root
  exact setting?_overlay (h file hfile) root x

theorem decodeText_toUTF8 (text : String) : decodeText text.toUTF8 = .ok text := by
  rw [decodeText, String.fromUTF8?, String.toUTF8_eq_toByteArray, dif_pos text.isValidUTF8]
  rfl

theorem fileEntries?_toUTF8 (text : String) : fileEntries? text.toUTF8 = Toml.parse? text := by
  rw [fileEntries?, decodeText_toUTF8]
  rfl

theorem proper_nil : Proper [] where
  simple := by
    intro e he
    cases he
  distinct := List.nodup_nil
  isTable := by
    intro home v hv
    cases hv
  fits := by
    intro x v hv
    cases hv

/-- A file that has entries is a text in TOML. -/
theorem fileEntries?_eq_some {content : ByteArray} {entries : List (String × Value)}
    (h : fileEntries? content = some entries) :
    ∃ text, decodeText content = .ok text ∧ Toml.parse? text = some entries := by
  rw [fileEntries?] at h
  cases htext : decodeText content with
  | error e =>
    rw [htext] at h
    cases h
  | ok text =>
    rw [htext] at h
    exact ⟨text, rfl, h⟩

/-- A file that is written in UTF-8 has entries, or is refused for its TOML, whether or not it is
required. -/
theorem Layer.entries_toUTF8 (text : String) (isRequired : Bool) :
    Layer.entries ⟨some text.toUTF8, isRequired⟩ =
      (Toml.parse? text).elim (.error .notToml) .ok := by
  simp only [Layer.entries, decodeText_toUTF8]
  cases Toml.parse? text <;> rfl

/-- A file that need not be there is TOML, or this is what is wrong with it. -/
theorem Layer.entries_optional (content : Option ByteArray) :
    (∃ es, Layer.entries ⟨content, false⟩ = .ok es) ∨
      Layer.entries ⟨content, false⟩ = .error .notToml := by
  simp only [Layer.entries]
  split
  · contradiction
  · exact .inl ⟨_, rfl⟩
  · split
    · exact .inl ⟨_, rfl⟩
    · exact .inr rfl

/-- What the entries of a file are does not depend on whether it is required. -/
theorem Layer.entries_of_fileEntries? {content : ByteArray} {es : List (String × Value)}
    (h : fileEntries? content = some es) (isRequired : Bool) :
    Layer.entries ⟨some content, isRequired⟩ = .ok es := by
  obtain ⟨text, htext, hparse⟩ := fileEntries?_eq_some h
  simp only [Layer.entries, htext, hparse]

/-- A proper file is a proper layer. -/
theorem ProperFile.layer {content : ByteArray} (h : ProperFile content) (isRequired : Bool) :
    Layer.Proper ⟨some content, isRequired⟩ := by
  obtain ⟨entries, hentries, hproper⟩ := h
  have hfound : Layer.found ⟨some content, isRequired⟩ = entries := by
    show (fileEntries? content).getD [] = entries
    rw [hentries]
    rfl
  rw [Layer.Proper, hfound]
  exact ⟨Layer.entries_of_fileEntries? hentries isRequired, hproper⟩

theorem Layer.proper_optional {content : Option ByteArray}
    (h : ∀ bytes, content = some bytes → ProperFile bytes) : Layer.Proper ⟨content, false⟩ := by
  cases content with
  | none => exact ⟨rfl, proper_nil⟩
  | some bytes => exact (h bytes rfl).layer false

/-! ## Overrides -/

/-- The value that an override of a path gives to `x`. -/
def Setting.inOverride (x : Setting) (o : KeyPath × Value) : Option Value :=
  if o.1 = x.key then some o.2 else none

/-- An override of a setting by a value of its type. -/
def ProperOverride (o : KeyPath × Value) : Prop := ∃ x : Setting, o.1 = x.key ∧ x.Fits o.2

namespace Setting

theorem setting?_standard (x : Setting) :
    (ofSettings .standard).setting? x = some x.standard := by
  cases x <;> rfl

/-- Every default passes as a value of its setting. -/
theorem fits_standard (x : Setting) : x.Fits x.standard := by
  refine ⟨.standard, ?_⟩
  cases x with
  | language => exact ⟨"en", rfl, rfl⟩
  | _ => rfl

end Setting

/-- Proper overrides are of settings. -/
theorem keyedBySettings_of_proper {overrides : List (KeyPath × Value)}
    (h : ∀ o ∈ overrides, ProperOverride o) : KeyedBySettings overrides := by
  intro o ho
  obtain ⟨x, hx, -⟩ := h o ho
  exact ⟨x, hx⟩

/-- An override of a setting has a value for this setting and for no other. -/
theorem Setting.inOverride_key (x y : Setting) (v : Value) :
    x.inOverride (y.key, v) = if x = y then some v else none := by
  rw [inOverride]
  by_cases h : x = y
  · rw [if_pos h, if_pos (congrArg _ h.symm)]
  · rw [if_neg h, if_neg fun hkey => h (key_inj.mp hkey).symm]

/-- An override has a value for a setting if it is one of its key. -/
theorem Setting.inOverride_eq_some_iff {x : Setting} {o : KeyPath × Value} {v : Value} :
    x.inOverride o = some v ↔ o = (x.key, v) := by
  obtain ⟨p, w⟩ := o
  rw [inOverride]
  split
  · next hp =>
    rw [Option.some.injEq, Prod.mk.injEq]
    exact (and_iff_right hp).symm
  · next hp => exact iff_of_false nofun fun h => hp (Prod.mk.inj h).1

/-- Where no key is overridden twice, the last override of a setting is its only one. -/
theorem lastSome?_inOverride_eq_some_iff {overrides : List (KeyPath × Value)}
    (h : (overrides.map Prod.fst).Nodup) {x : Setting} {v : Value} :
    lastSome? x.inOverride overrides = some v ↔ (x.key, v) ∈ overrides := by
  constructor
  · intro hv
    obtain ⟨o, ho, hx⟩ := exists_of_lastSome? hv
    exact Setting.inOverride_eq_some_iff.mp hx ▸ ho
  · intro hmem
    induction overrides with
    | nil => cases hmem
    | cons o overrides ih =>
      obtain ⟨hkey, hothers⟩ := List.nodup_cons.mp h
      rw [lastSome?_cons]
      rcases List.mem_cons.mp hmem with rfl | hmem
      · -- any later override of the setting would be a second one
        cases hlast : lastSome? x.inOverride overrides with
        | none => exact Setting.inOverride_eq_some_iff.mpr rfl
        | some w =>
          obtain ⟨o, ho, hw⟩ := exists_of_lastSome? hlast
          obtain rfl := Setting.inOverride_eq_some_iff.mp hw
          exact absurd (List.mem_map_of_mem ho) hkey
      · rw [ih hothers hmem]
        rfl

theorem Value.setAll_concat (root : Value) (overrides : List (KeyPath × Value)) (p : KeyPath)
    (v : Value) : root.setAll (overrides ++ [(p, v)]) = (root.setAll overrides).set p v := by
  rw [setAll, List.foldl_concat, setAll]

/-- A setting has the value of its last override, where this is a scalar. -/
theorem Value.setting?_setAll {overrides : List (KeyPath × Value)}
    (h : KeyedBySettings overrides) (root : Value) {x : Setting}
    (hx : ∀ v, lastSome? x.inOverride overrides = some v → v.IsScalar) :
    (root.setAll overrides).setting? x =
      (lastSome? x.inOverride overrides).or (root.setting? x) := by
  -- from the end, since only the last override counts
  induction overrides using List.reverseRecOn with
  | nil => rfl
  | append_singleton overrides o ih =>
    obtain ⟨p, v⟩ := o
    obtain ⟨y, hy⟩ := h _ (List.mem_append_right _ List.mem_cons_self)
    obtain rfl : p = y.key := hy
    rw [lastSome?_concat, x.inOverride_key] at hx
    rw [setAll_concat, setting?_set, lastSome?_concat, x.inOverride_key]
    by_cases hxy : x = y
    · rw [if_pos hxy] at hx
      rw [if_pos hxy, if_pos hxy, (hx v rfl).onto]
      rfl
    · rw [if_neg hxy] at hx
      rw [if_neg hxy, if_neg hxy]
      exact ih (fun o ho => h o (List.mem_append_left _ ho)) hx

/-- The last value that proper overrides have for a setting passes as one. -/
theorem fits_of_lastSome? {overrides : List (KeyPath × Value)}
    (h : ∀ o ∈ overrides, ProperOverride o) {x : Setting} {v : Value}
    (hv : lastSome? x.inOverride overrides = some v) : x.Fits v := by
  obtain ⟨⟨p, w⟩, ho, hw⟩ := exists_of_lastSome? hv
  -- The override is one of a setting `y`. That it has a value for `x` means that they are the same.
  obtain ⟨y, hy, hfits⟩ := h _ ho
  obtain rfl : p = y.key := hy
  rw [x.inOverride_key] at hw
  split at hw
  · next hxy =>
    obtain rfl := Option.some.inj hw
    exact hxy ▸ hfits
  · cases hw

/-- After proper overrides a setting has the value of the last that is for it. -/
theorem Value.setting?_setAll_proper {overrides : List (KeyPath × Value)}
    (h : ∀ o ∈ overrides, ProperOverride o) (root : Value) (x : Setting) :
    (root.setAll overrides).setting? x =
      (lastSome? x.inOverride overrides).or (root.setting? x) :=
  setting?_setAll (keyedBySettings_of_proper h) root
    fun _ hv => (fits_of_lastSome? h hv).isScalar

/-! ## Loaders -/

namespace Loader

/-- The overrides are set in what the files make up. -/
theorem merged_eq (l : Loader) :
    l.merged = (ofFiles l.files).merged.map fun root => root.setAll l.overrides := by
  rw [merged, merged, ofFiles]
  cases l.files.mapM Layer.entries <;> rfl

/-- A file is laid over what the files before it make up. -/
theorem merged_concat (files : List Layer) (file : Layer) : (ofFiles (files ++ [file])).merged =
    (ofFiles files).merged.bind fun root => file.entries.map root.overlay := by
  rw [merged, merged, ofFiles, ofFiles, List.mapM_append]
  -- An earlier file that cannot be had comes before a fault of the last one.
  cases files.mapM Layer.entries with
  | error e => rfl
  | ok found =>
    show Except.bind (Except.bind ([file].mapM Layer.entries) _) _ = _
    rw [List.mapM_cons]
    cases file.entries with
    | error e => rfl
    | ok es =>
      show Except.ok ((found ++ [es]).foldl Value.overlay _) = _
      rw [List.foldl_concat]
      rfl

/-- An override is set after those of the other keys. -/
theorem merged_override_eq (l : Loader) (p : KeyPath) (v : Value) :
    (l.override p v).merged = (l.without p).merged.map fun root => root.set p v := by
  rw [merged_eq, merged_eq (l.without p)]
  show Except.map (fun root => root.setAll ((l.without p).overrides ++ [(p, v)]))
    (ofFiles l.files).merged = ((ofFiles l.files).merged.map _).map _
  cases (ofFiles l.files).merged with
  | error e => rfl
  | ok base => exact congrArg _ (Value.setAll_concat base (l.without p).overrides p v)

/-- An override changes what its setting is overridden with, and no other. -/
theorem lastSome?_override (l : Loader) (x y : Setting) (v : Value) :
    lastSome? y.inOverride (l.override x.key v).overrides =
      if y = x then some v else lastSome? y.inOverride l.overrides := by
  show lastSome? y.inOverride (l.overrides.filter _ ++ [(x.key, v)]) = _
  rw [lastSome?_concat, y.inOverride_key]
  by_cases hxy : y = x
  · rw [if_pos hxy, if_pos hxy]
    rfl
  · rw [if_neg hxy, if_neg hxy]
    -- The overrides that are left out are of the key of `x`, so they say nothing of another
    -- setting.
    refine lastSome?_filter fun o _ ho => if_neg ?_
    rintro hkey
    have hox : o.1 = x.key := by simpa using ho
    exact hxy (Setting.key_inj.mp (hkey.symm.trans hox))

/-- An override of another key than those before comes after them. -/
theorem overrides_override {l : Loader} {p : KeyPath} (h : p ∉ l.overrides.map Prod.fst)
    (v : Value) : (l.override p v).overrides = l.overrides ++ [(p, v)] := by
  show l.overrides.filter _ ++ [(p, v)] = _
  rw [List.filter_eq_self.mpr]
  rintro o ho
  apply decide_eq_true
  rintro rfl
  exact h (List.mem_map_of_mem ho)

/-- An override that is there after one more was there before, or is the one more. -/
theorem mem_overrides_of_mem_override {l : Loader} {p : KeyPath} {v : Value} {o : KeyPath × Value}
    (h : o ∈ (l.override p v).overrides) : o ∈ l.overrides ∨ o = (p, v) := by
  rcases List.mem_append.mp h with h | h
  · exact .inl (List.mem_of_mem_filter h)
  · exact .inr (List.mem_singleton.mp h)

/-- With an override of one more setting all are still of settings. -/
theorem keyedBySettings_override {l : Loader} (h : KeyedBySettings l.overrides) (x : Setting)
    (v : Value) : KeyedBySettings (l.override x.key v).overrides := by
  intro o ho
  rcases mem_overrides_of_mem_override ho with ho | rfl
  · exact h o ho
  · exact ⟨x, rfl⟩

/-- Loaders that override settings alike have the same overrides, perhaps in another order. -/
theorem perm_overrides {l l' : Loader} (h : KeyedBySettings l.overrides)
    (h' : KeyedBySettings l'.overrides)
    (hlast : ∀ x : Setting,
      lastSome? x.inOverride l'.overrides = lastSome? x.inOverride l.overrides) :
    l.overrides.Perm l'.overrides := by
  refine (List.perm_ext_iff_of_nodup l.distinct.of_map l'.distinct.of_map).mpr fun o => ?_
  -- A loader has an override of a setting if and only if it is the last one, as keys are distinct.
  have hiff : ∀ (x : Setting) v, (x.key, v) ∈ l.overrides ↔ (x.key, v) ∈ l'.overrides := by
    intro x v
    rw [← lastSome?_inOverride_eq_some_iff l.distinct, ← hlast,
      lastSome?_inOverride_eq_some_iff l'.distinct]
  obtain ⟨p, v⟩ := o
  constructor
  · intro ho
    obtain ⟨x, rfl⟩ := h _ ho
    exact (hiff x v).mp ho
  · intro ho
    obtain ⟨x, rfl⟩ := h' _ ho
    exact (hiff x v).mpr ho

/-- Where files cannot be had, no override makes up for them. -/
theorem build_of_files_error {l : Loader} {cause : ConfigError}
    (h : (ofFiles l.files).merged = .error cause) : l.build = .error cause := by
  rw [build, merged_eq, h]
  rfl

/-- A loader builds settings if its files and overrides can be merged and the result decoded. -/
theorem build_eq_ok_iff {l : Loader} {s : Settings} :
    l.build = .ok s ↔ ∃ root, l.merged = .ok root ∧ decodeSettings root = .ok s := by
  rw [build, bind_eq_ok_iff]
  simp only [mapError_eq_ok_iff]

/-- All files can be had, and what is overridden are settings. -/
structure Proper (l : Loader) : Prop where
  files : ∀ file ∈ l.files, file.Proper
  overrides : ∀ o ∈ l.overrides, ProperOverride o

/-- The value that a loader has for `x`. -/
def value (l : Loader) (x : Setting) : Value :=
  ((lastSome? x.inOverride l.overrides).or
    (lastSome? (fun file => x.inEntries file.found) l.files)).getD x.standard

/-- The value that counts for a setting passes as one. -/
theorem Proper.fits_value {l : Loader} (h : l.Proper) (x : Setting) : x.Fits (l.value x) := by
  rw [value]
  -- Overrides, then files, then the default, as `value` looks for it.
  cases ho : lastSome? x.inOverride l.overrides with
  | some v => exact fits_of_lastSome? h.overrides ho
  | none =>
    cases hf : lastSome? (fun file => x.inEntries file.found) l.files with
    | some v =>
      obtain ⟨file, hfile, hv⟩ := exists_of_lastSome? hf
      exact (h.files file hfile).2.fits x v hv
    | none => exact x.fits_standard

/-- Proper files and overrides can be merged, and then each setting has the value that counts. -/
theorem Proper.exists_merged {l : Loader} (h : l.Proper) :
    ∃ root, l.merged = .ok root ∧ ∀ x, root.setting? x = some (l.value x) := by
  let root := (l.files.map Layer.found).foldl Value.overlay (ofSettings .standard)
  refine ⟨root.setAll l.overrides, ?_, ?_⟩
  · rw [merged, mapM_eq_ok fun file hfile => (h.files file hfile).1]
    rfl
  · intro x
    rw [Value.setting?_setAll_proper h.overrides,
      Value.setting?_foldl_overlay fun file hfile => (h.files file hfile).2,
      Setting.setting?_standard, ← Option.or_assoc, Option.or_some, value]

/-- Proper files and overrides build settings, and each is what its last value says. -/
theorem Proper.exists_build {l : Loader} (h : l.Proper) :
    ∃ s, l.build = .ok s ∧ ∀ x : Setting, x.Is s (l.value x) := by
  obtain ⟨root, hmerged, hsettings⟩ := h.exists_merged
  obtain ⟨s, hs, his⟩ := exists_decodeSettings hsettings h.fits_value
  exact ⟨s, build_eq_ok_iff.mpr ⟨root, hmerged, hs⟩, his⟩

end Loader

end VarBlock.Config
