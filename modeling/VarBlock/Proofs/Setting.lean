import VarBlock.Config.Decode
import VarBlock.Proofs.Merging

/-!
# Settings in a configuration

A configuration is a tree with many entries, four of which are settings. `Value.setting?` looks one
of them up, and all that is done to a configuration is followed through it:

* laying a file over it gives it the settings that the file has (`setting?_overlay`);
* setting a value by its path changes that one setting (`setting?_set`), and makes a table of its
  section, whatever that was (`hasTable_set`).

Both are equations, so a setting can be followed through any number of files and overrides by
rewriting, without the tree ever being looked at (`Loading`).
-/

namespace VarBlock.Config

/-- What can be set. -/
inductive Setting
  | language
  | reportSuccess
  | showPositions
  | format
deriving DecidableEq, Repr

namespace Setting

/-- The section that a setting stands in. -/
def home : Setting → Section
  | language => .diagnostics
  | reportSuccess => .diagnostics
  | showPositions => .diagnostics
  | format => .output

def name : Setting → String
  | language => "language"
  | reportSuccess => "report_success"
  | showPositions => "show_positions"
  | format => "format"

def key (x : Setting) : KeyPath := fieldKey x.home x.name

/-- The value of a setting where nothing else is asked for. -/
def standard : Setting → Value
  | language => .string "en"
  | reportSuccess => .boolean true
  | showPositions => .boolean true
  | format => .string "diagnostics-simple"

/-- The settings have a value for `x`. The code of a language is given in any case. -/
def Is (x : Setting) (s : Settings) (v : Value) : Prop :=
  match x with
  | language => ∃ code, v = .string code ∧ Language.ofCode? code = some s.diagnostics.language
  | reportSuccess => v = .boolean s.diagnostics.reportSuccess
  | showPositions => v = .boolean s.diagnostics.showPositions
  | format => v = .string s.format

/-- A value is one of the type of `x`. -/
def Fits (x : Setting) (v : Value) : Prop := ∃ s, x.Is s v

/-- The value that the entries of a file have for `x`. -/
def inEntries (x : Setting) (entries : List (String × Value)) : Option Value :=
  (find? x.home.key entries).bind fun v => find? x.name v.entries

end Setting

/-- The value that a configuration has for `x`. -/
def Value.setting? (root : Value) (x : Setting) : Option Value :=
  (root.entries.lookup x.home.key).bind fun v => v.entries.lookup x.name

/-- Every override is one of a setting. -/
def KeyedBySettings (overrides : List (KeyPath × Value)) : Prop :=
  ∀ o ∈ overrides, ∃ x : Setting, o.1 = x.key

/-- A section is a table. -/
def Value.HasTable (root : Value) (home : Section) : Prop :=
  ∃ es, root.entries.lookup home.key = some (.table es)

/-- The entries of a file that names no setting twice, in which the sections are tables, and the
settings have values of their types. -/
structure Proper (entries : List (String × Value)) : Prop where
  simple : ∀ e ∈ entries, IsSimpleName e.1
  distinct : DistinctNames entries
  isTable : ∀ (home : Section) v, find? home.key entries = some v →
    ∃ es, v = .table es ∧ DistinctNames es
  fits : ∀ (x : Setting) v, x.inEntries entries = some v → x.Fits v

namespace Section

theorem lowercase_key (home : Section) : Text.lowercase home.key = home.key := by
  cases home <;> decide

theorem key_inj {home home' : Section} : home.key = home'.key ↔ home = home' := by
  cases home <;> cases home' <;> decide

end Section

namespace Setting

theorem lowercase_name (x : Setting) : Text.lowercase x.name = x.name := by
  cases x <;> decide

theorem name_inj {x y : Setting} : x.name = y.name ↔ x = y := by
  cases x <;> cases y <;> decide

theorem key_inj {x y : Setting} : x.key = y.key ↔ x = y := by
  cases x <;> cases y <;> decide

/-- A value of a setting is no table. -/
theorem Fits.isScalar {x : Setting} {v : Value} (h : x.Fits v) : v.IsScalar := by
  obtain ⟨s, h⟩ := h
  cases x with
  | language =>
    obtain ⟨code, rfl, -⟩ := h
    trivial
  | _ =>
    obtain rfl : v = _ := h
    trivial

/-- What a setting has in the settings is all there is to it. -/
theorem eq_of_is {s s' : Settings} {values : Setting → Value} (h : ∀ x : Setting, x.Is s (values x))
    (h' : ∀ x : Setting, x.Is s' (values x)) : s' = s := by
  obtain ⟨⟨l, success, positions⟩, f⟩ := s
  obtain ⟨⟨l', success', positions'⟩, f'⟩ := s'
  -- A code names one language. The other three values are held as they are.
  have hlanguage : l' = l := by
    obtain ⟨code, hcode, hl⟩ := h language
    obtain ⟨code', hcode', hl'⟩ := h' language
    obtain rfl : code' = code := Value.string.inj (hcode'.symm.trans hcode)
    exact Option.some.inj (hl'.symm.trans hl)
  have hsuccess : success' = success := Value.boolean.inj ((h' reportSuccess).symm.trans
    (h reportSuccess))
  have hpositions : positions' = positions := Value.boolean.inj ((h' showPositions).symm.trans
    (h showPositions))
  have hformat : f' = f := Value.string.inj ((h' format).symm.trans (h format))
  rw [hlanguage, hsuccess, hpositions, hformat]

end Setting

namespace Value

/-! ## Files -/

/-- After a file a setting has the value of the file, or the one it had where the file has none. -/
theorem setting?_overlay {entries : List (String × Value)} (h : Proper entries) (root : Value)
    (x : Setting) :
    (root.overlay entries).setting? x = (x.inEntries entries).or (root.setting? x) := by
  rw [overlay_eq_assignAll h.simple, setting?, lookup_assignAll h.distinct]
  cases hhome : find? x.home.key entries with
  | none =>
    have hnone : x.inEntries entries = none := by rw [Setting.inEntries, hhome]; rfl
    rw [hnone]
    rfl
  | some v =>
    obtain ⟨es, rfl, hes⟩ := h.isTable _ _ hhome
    have hin : x.inEntries entries = find? x.name es := by rw [Setting.inEntries, hhome]; rfl
    show (((root.entries.lookup x.home.key).getD (table [])).assignAll es).entries.lookup x.name = _
    rw [lookup_assignAll hes, hin]
    cases hname : find? x.name es with
    | none =>
      rw [setting?]
      cases root.entries.lookup x.home.key <;> rfl
    | some w =>
      -- A value of a setting is no table, so it replaces what is there.
      have hfits : x.Fits w := h.fits x w (by rw [hin, hname])
      show some (w.onto _) = some w
      rw [hfits.isScalar.onto]

/-! ## Single values -/

/-- To set a value by the key of a setting is to put it under the name of the setting in its
section. -/
theorem set_key (root : Value) (y : Setting) (v : Value) :
    root.set y.key v = table (put y.home.key
      (((root.entries.lookup y.home.key).getD nil).assign y.name v) root.entries) := by
  rw [set]
  show root.assignAt v [.child y.home.key, .child y.name] = _
  rw [assignAt, assignAt, Section.lowercase_key]
  · simp

/-- The other section is left as it was. -/
theorem lookup_set_of_ne (root : Value) {home : Section} {y : Setting} (h : home ≠ y.home)
    (v : Value) : (root.set y.key v).entries.lookup home.key = root.entries.lookup home.key := by
  rw [set_key, entries, lookup_put, if_neg (mt Section.key_inj.mp h)]

/-- A section in which a value is set is a table, even if it was none. -/
theorem hasTable_set (root : Value) (y : Setting) (v : Value) :
    (root.set y.key v).HasTable y.home := by
  rw [HasTable, set_key, entries, lookup_put, if_pos rfl, assign_eq]
  exact ⟨_, rfl⟩

/-- To set a value by a key changes the setting of this key only. -/
theorem setting?_set (root : Value) (y : Setting) (v : Value) (x : Setting) :
    (root.set y.key v).setting? x =
      if x = y then some (v.onto (root.setting? x)) else root.setting? x := by
  by_cases hhome : x.home = y.home
  · rw [set_key, setting?, entries, lookup_put, hhome, if_pos rfl]
    show (assign _ y.name v).entries.lookup x.name = _
    -- Where the section is missing, nothing is held either before or in the new table.
    have hold : (((root.entries.lookup y.home.key).getD nil).entries.lookup x.name) =
        root.setting? x := by
      rw [setting?, hhome]
      cases root.entries.lookup y.home.key <;> rfl
    rw [lookup_assign, Setting.lowercase_name, hold]
    by_cases hxy : x = y
    · rw [if_pos hxy, if_pos (congrArg _ hxy)]
    · rw [if_neg hxy, if_neg (mt Setting.name_inj.mp hxy)]
  · -- Settings of different sections are different, and the other section is not touched.
    have hxy : x ≠ y := fun h => hhome (congrArg _ h)
    rw [if_neg hxy, setting?, lookup_set_of_ne root hhome, setting?]

end Value

end VarBlock.Config
