import VarBlock.Config.Merge
import VarBlock.Proofs.LowerCase
import VarBlock.Proofs.Reading

/-!
# What a merged configuration holds

Laying entries over a configuration is followed name by name. If no two of the entries have the same
name up to case, then a name holds afterwards what it held before, unless one of the entries is for
it: then it holds the value of that entry, laid over what it held before (`lookup_assignAll`).

The entries of a file are laid over a configuration in the same way, if their names cannot be read
as paths (`overlay_eq_assignAll`).

`Value.onto` is what one entry does to what a name holds: a table is laid over it entry by entry,
and any other value takes its place. With it the lemmas here need no case split on values, and
neither do those that use them.
-/

namespace VarBlock.Config

/-- The value of a key among entries, of which the names are compared in lower case. -/
def find? (key : String) (entries : List (String × Value)) : Option Value :=
  (entries.find? fun e => Text.lowercase e.1 = key).map Prod.snd

/-- No two entries have the same name up to case. -/
def DistinctNames (entries : List (String × Value)) : Prop :=
  (entries.map fun e => Text.lowercase e.1).Nodup

/-- A name in which nothing starts a step of a path. -/
def IsSimpleName (name : String) : Prop := '.' ∉ name.toList ∧ '[' ∉ name.toList

/-- In no table that the entries lead to, and not in themselves, are two names equal up to case. -/
inductive DistinctThroughout : List (String × Value) → Prop
  | intro {es : List (String × Value)} (names : DistinctNames es)
    (tables : ∀ name inner, (name, Value.table inner) ∈ es → DistinctThroughout inner) :
    DistinctThroughout es

/-- No table in a value has two names that are equal up to case. -/
def Value.Distinct (v : Value) : Prop := ∀ es, v = .table es → DistinctThroughout es

/-- The entries of a file for which it is clear what each of them is for. -/
structure Plain (entries : List (String × Value)) : Prop where
  simple : ∀ e ∈ entries, IsSimpleName e.1
  distinct : DistinctThroughout entries

/-- What a name holds once a value is laid over what it held. -/
def Value.onto (old : Option Value) : Value → Value
  | .table incoming => (old.getD (.table [])).assignAll incoming
  | v => v

/-- A value that holds no others. -/
def Value.IsScalar : Value → Prop
  | .array _ => False
  | .table _ => False
  | _ => True

/-- A scalar takes the place of whatever a name held. -/
theorem Value.IsScalar.onto {v : Value} (h : v.IsScalar) (old : Option Value) : v.onto old = v := by
  cases v with
  | table es => exact h.elim
  | _ => rfl

/-! ## Entries by their names -/

theorem find?_cons (key name : String) (v : Value) (entries : List (String × Value)) :
    find? key ((name, v) :: entries) =
      if Text.lowercase name = key then some v else find? key entries := by
  by_cases h : Text.lowercase name = key
  · rw [find?, List.find?_cons_of_pos, if_pos h]
    · rfl
    · exact decide_eq_true h
  · rw [find?, List.find?_cons_of_neg, if_neg h]
    · rfl
    · simpa using h

/-- There is no entry for a key that no name is in lower case. -/
theorem find?_eq_none {key : String} {entries : List (String × Value)}
    (h : key ∉ entries.map fun e => Text.lowercase e.1) : find? key entries = none := by
  rw [find?, Option.map_eq_none_iff, List.find?_eq_none]
  intro e he hkey
  exact h (List.mem_map.mpr ⟨e, he, of_decide_eq_true hkey⟩)

/-- A single entry has no second of its name beside it. -/
theorem distinctThroughout_singleton {v : Value} (h : v.Distinct) (name : String) :
    DistinctThroughout [(name, v)] := by
  refine .intro (List.nodup_singleton _) fun _ inner hmem => h inner ?_
  exact (Prod.mk.inj (List.mem_singleton.mp hmem)).2.symm

/-- A table is distinct if its entries are, throughout. -/
theorem distinct_table_iff {es : List (String × Value)} :
    (Value.table es).Distinct ↔ DistinctThroughout es := by
  constructor
  · exact fun h => h es rfl
  · intro h es' heq
    exact Value.table.inj heq ▸ h

theorem Value.IsScalar.distinct {v : Value} (h : v.IsScalar) : v.Distinct := by
  rintro es rfl
  exact h.elim

theorem distinct_array (vs : List Value) : (Value.array vs).Distinct := by
  intro es h
  cases h

namespace Value

/-! ## Laying entries over a value -/

/-- An entry is laid over what the configuration holds under the name in lower case. A value that is
no table is taken for an empty one. -/
theorem assign_eq (target : Value) (name : String) (v : Value) :
    target.assign name v = table (put (Text.lowercase name)
      (v.onto (target.entries.lookup (Text.lowercase name))) target.entries) := by
  cases v <;> rfl

/-- An entry changes what is held under its own name only. -/
theorem lookup_assign (target : Value) (name : String) (v : Value) (k : String) :
    (target.assign name v).entries.lookup k =
      if k = Text.lowercase name then some (v.onto (target.entries.lookup k))
      else target.entries.lookup k := by
  rw [assign_eq, entries, lookup_put]
  split
  · next hk => rw [hk]
  · rfl

/-- Where no two entries have the same name up to case, each name is changed by the one entry for
it, if there is one. -/
theorem lookup_assignAll {es : List (String × Value)} (h : DistinctNames es) (target : Value)
    (k : String) : (target.assignAll es).entries.lookup k =
      match find? k es with
      | some v => some (v.onto (target.entries.lookup k))
      | none => target.entries.lookup k := by
  induction es generalizing target with
  | nil => rw [assignAll]; rfl
  | cons e es ih =>
    obtain ⟨name, v⟩ := e
    obtain ⟨hname, hes⟩ := List.nodup_cons.mp h
    rw [assignAll, ih hes, lookup_assign, find?_cons]
    by_cases hk : k = Text.lowercase name
    · -- The first entry is for the name, and no later one is, since names are distinct.
      subst hk
      rw [if_pos rfl, if_pos rfl, find?_eq_none hname]
    · rw [if_neg hk, if_neg fun h => hk h.symm]

end Value

/-! ## Names and paths -/

namespace KeyPath

open Text Text.Reading

theorem isAscii_of_isNameChar {c : Char} (h : isNameChar c = true) : isAscii c = true := by
  simp only [isNameChar, Char.isAlphanum, Char.isAlpha, Char.isUpper, Char.isLower, Char.isDigit,
    Bool.or_eq_true, Bool.and_eq_true, decide_eq_true_eq, ge_iff_le, UInt32.le_iff_toNat_le] at h
  -- A capital, a small letter, a digit, or one of the three other characters.
  rcases h with ((((h | h) | h) | rfl) | rfl) | rfl
  · exact decide_eq_true (Nat.lt_of_le_of_lt h.2 (by decide))
  · exact decide_eq_true (Nat.lt_of_le_of_lt h.2 (by decide))
  · exact decide_eq_true (Nat.lt_of_le_of_lt h.2 (by decide))
  · rfl
  · rfl
  · rfl

/-- A path does not go on without a point or a bracket. -/
theorem step_refused {cs : List Char} (hpoint : Stops (· = '.') cs)
    (hbracket : Stops (· = '[') cs) : step cs = none := by
  rw [step, orElse_refused _ (bind_refused _ (char_refused hpoint))]
  exact bind_refused _ (char_refused hbracket)

theorem stops_of_not_mem {c : Char} {cs : List Char} (h : c ∉ cs) : Stops (· = c) cs := by
  intro d hd
  refine decide_eq_false ?_
  rintro rfl
  exact h (List.mem_of_mem_head? hd)

theorem stops_dropWhile (p : Char → Bool) (cs : List Char) : Stops p (cs.dropWhile p) := by
  intro c hc
  have hhead := List.head?_dropWhile_not p cs
  rwa [hc] at hhead

/-- A simple name is read as a path up to its first character that names do not have. -/
theorem path_eq {cs : List Char} (hpoint : '.' ∉ cs) (hbracket : '[' ∉ cs)
    (hne : cs.takeWhile isNameChar ≠ []) :
    path cs = some (⟨String.ofList (cs.takeWhile isNameChar), []⟩, cs.dropWhile isNameChar) := by
  have hrun : run1 isNameChar cs = some (cs.takeWhile isNameChar, cs.dropWhile isNameChar) := by
    have happend := run1_append hne (fun c hc => List.mem_takeWhile_imp hc)
      (stops_dropWhile isNameChar cs)
    rwa [List.takeWhile_append_dropWhile] at happend
  have hsublist := List.dropWhile_sublist (l := cs) isNameChar
  -- After the name a step would begin with a point or a bracket, and there is none.
  have hstep : step (cs.dropWhile isNameChar) = none :=
    step_refused (stops_of_not_mem fun h => hpoint (hsublist.subset h))
      (stops_of_not_mem fun h => hbracket (hsublist.subset h))
  have hmany : many step (cs.dropWhile isNameChar) = some ([], cs.dropWhile isNameChar) :=
    upTo_of_refused hstep _
  have hname : name cs = some (String.ofList (cs.takeWhile isNameChar), cs.dropWhile isNameChar) :=
    map_eq String.ofList hrun
  rw [path, bind_eq hname, bind_eq hmany]
  rfl

/-- A simple name is a path only as a whole, without steps. -/
theorem of_ofString? {s : String} {p : KeyPath} (hs : IsSimpleName s)
    (hp : ofString? s = some p) : p = ⟨s, []⟩ ∧ ∀ c ∈ s.toList, isNameChar c = true := by
  have hpath : path s.toList = some (p, []) := by
    rw [ofString?, all?] at hp
    split at hp
    · next q hq => rw [hq, Option.some.inj hp]
    · cases hp
  have hcut := List.takeWhile_append_dropWhile (p := isNameChar) (l := s.toList)
  by_cases hne : s.toList.takeWhile isNameChar = []
  · -- a path begins with a character of names
    rw [hne, List.nil_append] at hcut
    have hname : name s.toList = none := by
      apply map_refused
      apply bind_refused
      rw [← hcut]
      exact satisfy_refused (stops_dropWhile isNameChar s.toList)
    rw [path, bind_refused _ hname] at hpath
    cases hpath
  · rw [path_eq hs.1 hs.2 hne] at hpath
    obtain ⟨rfl, hrest⟩ := Prod.mk.inj (Option.some.inj hpath)
    rw [hrest, List.append_nil] at hcut
    rw [hcut, String.ofList_toList]
    exact ⟨rfl, List.takeWhile_eq_self_iff.mp hcut⟩

end KeyPath

namespace Value

/-! ## The entries of a file -/

/-- To set a value at a path of one name is to assign it to the name. -/
theorem set_root (root : Value) (name : String) (v : Value) :
    root.set ⟨name, []⟩ v = root.assign name v := by
  rw [set, assignAt]

/-- Two names that are the same up to case are assigned alike. -/
theorem assign_congr {name name' : String} (h : Text.lowercase name' = Text.lowercase name)
    (target v : Value) : target.assign name' v = target.assign name v := by
  rw [assign_eq, assign_eq, h]

/-- A simple name is one in lower case too. -/
theorem isSimpleName_lowercase {name : String} (h : IsSimpleName name) :
    IsSimpleName (Text.lowercase name) := by
  -- a point and a bracket come before `a`, so they would have been there already
  have hmem : ∀ c : Char, c.toNat < 0x61 → c ∉ name.toList → c ∉ (Text.lowercase name).toList := by
    intro c hlt hc hc'
    rcases Text.of_mem_lowercase hc' with hle | ⟨hc', -⟩
    · omega
    · exact hc hc'
  exact ⟨hmem _ (by decide) h.1, hmem _ (by decide) h.2⟩

/-- Entries with simple names are laid over a configuration by their names. -/
theorem overlay_eq_assignAll {entries : List (String × Value)}
    (h : ∀ e ∈ entries, IsSimpleName e.1) (root : Value) :
    root.overlay entries = root.assignAll entries := by
  rw [overlay]
  induction entries generalizing root with
  | nil => rw [assignAll]; rfl
  | cons e entries ih =>
    obtain ⟨name, v⟩ := e
    obtain ⟨hname, hentries⟩ := List.forall_mem_cons.mp h
    rw [List.foldl_cons, assignAll, ih hentries]
    congr 1
    dsimp only
    -- A name that is no path is laid by itself. One that is a path has a single step, and this is
    -- the name in lower case.
    cases hp : KeyPath.ofString? (Text.lowercase name) with
    | none => rfl
    | some p =>
      obtain ⟨rfl, hchars⟩ := KeyPath.of_ofString? (isSimpleName_lowercase hname) hp
      apply (set_root _ _ _).trans
      apply assign_congr
      exact Text.lowercase_lowercase fun c hc => KeyPath.isAscii_of_isNameChar (hchars c hc)

end Value

end VarBlock.Config
