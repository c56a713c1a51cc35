import VarBlock.Proofs.Alike
import VarBlock.Proofs.Loading

/-!
# Loading in any order

The entries of files and the overrides of a loader are taken in an order that is not known. Where
files are plain, this makes no difference: all configurations that a loader may put together are
alike (`Loader.MayMerge.alike`), so that what it builds in the listed order is what it builds in any
order (`Loader.builds_build`).

The order in which overrides were added makes no difference either, whatever the files are. Loaders
with the same files and the same overrides may build the same (`Loader.mayBuild_congr`).

What may be merged is thus one configuration up to likeness (`MayMerge.alike`), and settings are
decoded alike from it. The order of the files is kept throughout, for a later file is laid over an
earlier one.
-/

namespace VarBlock.Config

/-- What a file lists is plain, if it can be read. -/
def Layer.IsPlain (file : Layer) : Prop := ∀ es, file.entries = .ok es → Plain es

/-! ## Files -/

section Files

variable {n : Nat} {root root' : Value} {es es' : List (String × Value)}
  {files files' : List (List (String × Value))}

/-- A file is as plain when it is rearranged. -/
theorem Plain.rearranged (h : Plain es) (hes : RearrangedFile es es') : Plain es' where
  simple := by
    intro e he
    have hmem := hes.perm_names.mem_iff.mpr (List.mem_map_of_mem he)
    obtain ⟨e', he', hname⟩ := List.mem_map.mp hmem
    exact hname ▸ h.simple e' he'
  distinct := distinct_table_iff.mp (hes.distinct (distinct_table_iff.mpr h.distinct))

/-- A plain file can be laid over in any order of its entries. -/
theorem Alike.overlay (h : Alike n root root') (hplain : Plain es) (hes : RearrangedFile es es') :
    Alike n (root.overlay es) (root'.overlay es') := by
  rw [Value.overlay_eq_assignAll hplain.simple,
    Value.overlay_eq_assignAll (hplain.rearranged hes).simple]
  exact Rearranged.onto hes (.inr (distinct_table_iff.mpr hplain.distinct)) (.some h)

/-- Plain files one after the other can be laid over in any order of the entries of each. The order
of the files counts. -/
theorem Alike.foldl_overlay (h : Alike n root root') (hplain : ∀ es ∈ files, Plain es)
    (hfiles : List.Forall₂ RearrangedFile files files') :
    Alike n (files.foldl Value.overlay root) (files'.foldl Value.overlay root') := by
  induction hfiles generalizing root root' with
  | nil => exact h
  | cons hes _ ih =>
    obtain ⟨hfile, hfiles⟩ := List.forall_mem_cons.mp hplain
    exact ih (h.overlay hfile hes) hfiles

theorem rearrangedFile_refl (files : List (List (String × Value))) :
    List.Forall₂ RearrangedFile files files :=
  List.forall₂_same.mpr fun _ _ => .refl _

end Files

/-! ## Loaders -/

namespace Loader

variable {l l' : Loader} {root : Value} {s : Settings} {found : Option Settings}

/-- A loader merges what its files have and then its overrides. -/
theorem merged_eq_ok_iff : l.merged = .ok root ↔ ∃ files, l.files.mapM Layer.entries = .ok files ∧
    (files.foldl Value.overlay (ofSettings .standard)).setAll l.overrides = root := by
  rw [merged, bind_eq_ok_iff]
  refine exists_congr fun files => and_congr_right fun _ => ?_
  exact ⟨Except.ok.inj, congrArg _⟩

/-- What a loader builds is decoded from what it has merged. -/
theorem toOption_build (h : l.merged = .ok root) :
    l.build.toOption = (decodeSettings root).toOption := by
  rw [build, h]
  show ((decodeSettings root).mapError _).toOption = _
  cases decodeSettings root <;> rfl

/-- Where a file cannot be had, nothing is built. -/
theorem build_of_unloaded {cause : ConfigError} (h : l.files.mapM Layer.entries = .error cause) :
    l.build = .error cause := by
  rw [build, merged, h]
  rfl

/-- The order in which entries and overrides are listed is one of those that are possible. -/
theorem mayMerge_merged (h : l.merged = .ok root) : l.MayMerge root := by
  obtain ⟨files, hfiles, rfl⟩ := merged_eq_ok_iff.mp h
  exact ⟨files, files, l.overrides, l.overrides, hfiles, rearrangedFile_refl files, .refl _,
    rearrangedOverride_refl _, rfl⟩

/-- One of the outcomes is that of the entries in the order in which they are written. -/
theorem mayBuild_build (l : Loader) : l.MayBuild l.build.toOption := by
  cases hfiles : l.files.mapM Layer.entries with
  | error cause =>
    rw [build_of_unloaded hfiles]
    exact .unloaded hfiles
  | ok files =>
    have hmerged := merged_eq_ok_iff.mpr ⟨files, hfiles, rfl⟩
    rw [toOption_build hmerged]
    exact .merged (mayMerge_merged hmerged)

/-- **All orders are alike**, where the files are plain. -/
theorem MayMerge.alike (hplain : ∀ file ∈ l.files, file.IsPlain)
    (hkeys : KeyedBySettings l.overrides) (h : l.MayMerge root) :
    ∃ root', l.merged = .ok root' ∧ Alike 3 root' root := by
  obtain ⟨files, files', overrides, overrides', hfound, hfiles, hperm, hoverrides, rfl⟩ := h
  refine ⟨_, merged_eq_ok_iff.mpr ⟨files, hfound, rfl⟩, ?_⟩
  have hfiles : Alike 3 (files.foldl Value.overlay (ofSettings .standard))
      (files'.foldl Value.overlay (ofSettings .standard)) := by
    refine (Alike.refl 3 _).foldl_overlay ?_ hfiles
    intro es hes
    obtain ⟨file, hfile, hentries⟩ := exists_of_mem_mapM hfound hes
    exact hplain file hfile es hentries
  -- the overrides are put in order first, and then each of them is rearranged
  refine (Alike.setAll_perm (Nat.le_refl 1) hperm hkeys l.distinct _).trans ?_
  exact hfiles.setAll (Nat.le_refl 1) (fun o ho => hkeys o (hperm.mem_iff.mpr ho)) hoverrides

/-- **What is built in the listed order is built in any order**, where the files are plain. -/
theorem builds_build (hplain : ∀ file ∈ l.files, file.IsPlain)
    (hkeys : KeyedBySettings l.overrides) : l.Builds l.build.toOption := by
  intro other
  constructor
  · rintro (hfiles | hmerge)
    · rw [build_of_unloaded hfiles]
      rfl
    · -- Whatever the order, what is merged is like what the listed order merges.
      obtain ⟨root, hmerged, halike⟩ := hmerge.alike hplain hkeys
      rw [toOption_build hmerged]
      ext s
      rw [toOption_eq_some_iff, toOption_eq_some_iff, halike.decodeSettings_iff]
  · rintro rfl
    exact l.mayBuild_build

/-- One more override has the effect of setting its value, if this is a scalar. It is of no account
what its setting was overridden with before. -/
theorem exists_merged_override (hkeys : KeyedBySettings l.overrides)
    (h : l.merged = .ok root) (x : Setting) {v : Value} (hv : v.IsScalar) :
    ∃ root', (l.override x.key v).merged = .ok root' ∧ Alike 3 (root.set x.key v) root' := by
  rw [merged_eq] at h
  obtain ⟨base, hbase, rfl⟩ := map_eq_ok_iff.mp h
  refine ⟨(base.setAll (l.without x.key).overrides).set x.key v, ?_, ?_⟩
  · rw [merged_override_eq, merged_eq]
    show ((ofFiles l.files).merged.map _).map _ = _
    rw [hbase]
    rfl
  · -- the earlier override of this setting may as well have come last, where it is set anew
    let same := l.overrides.filter fun o => !decide (o.1 ≠ x.key)
    have hsame : ∀ o ∈ same, o.1 = x.key := by
      intro o ho
      simpa using (List.mem_filter.mp ho).2
    have hperm : l.overrides.Perm ((l.without x.key).overrides ++ same) :=
      (List.filter_append_perm _ _).symm
    have halike := Alike.setAll_perm (Nat.le_refl 1) hperm hkeys l.distinct base
    have happend : base.setAll ((l.without x.key).overrides ++ same) =
        (base.setAll (l.without x.key).overrides).setAll same := List.foldl_append
    rw [happend] at halike
    rw [← Value.set_setAll hsame hv (base.setAll (l.without x.key).overrides)]
    exact halike.set x fun _ _ hold => .onto hold v

/-- Overrides have no order: loaders with the same files and the same overrides may build the
same. -/
theorem mayBuild_congr (hfiles : l'.files = l.files) (hperm : l.overrides.Perm l'.overrides) :
    l.MayBuild found ↔ l'.MayBuild found := by
  have hof : ∀ {l l' : Loader}, l'.files = l.files → l.overrides.Perm l'.overrides →
      l.MayBuild found → l'.MayBuild found := by
    rintro l l' hfiles hperm (hunloaded | ⟨files, files', overrides, overrides', hfound, hmerge⟩)
    · exact .unloaded (hfiles ▸ hunloaded)
    · obtain ⟨hentries, hl, hmerge⟩ := hmerge
      exact .merged ⟨files, files', overrides, overrides', hfiles ▸ hfound, hentries,
        hperm.symm.trans hl, hmerge⟩
  exact ⟨hof hfiles hperm, hof hfiles.symm hperm.symm⟩

/-- Nor does it matter to what is built in the listed order, in which order settings were
overridden. -/
theorem build_congr (hfiles : l'.files = l.files) (hperm : l.overrides.Perm l'.overrides)
    (hkeys : KeyedBySettings l.overrides) :
    l'.build = .ok s ↔ l.build = .ok s := by
  rw [build_eq_ok_iff, build_eq_ok_iff, merged_eq l, merged_eq l', hfiles]
  cases (ofFiles l.files).merged with
  | error e => exact iff_of_false nofun nofun
  | ok root =>
    have halike := Alike.setAll_perm (Nat.le_refl 1) hperm hkeys l.distinct root
    simp only [Except.map, Except.ok.injEq, exists_eq_left', halike.decodeSettings_iff]

end Loader

end VarBlock.Config
