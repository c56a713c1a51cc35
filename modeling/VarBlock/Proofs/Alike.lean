import VarBlock.Config.Arrangement
import VarBlock.Proofs.Decoding

/-!
# Values up to the order of their entries

Settings are read from a configuration by names, three levels deep: a section, a field in it, and
for the language perhaps the one name in a table. Below that nothing is looked at. So values are
compared down to a depth (`Alike`), and configurations that are alike to depth 3 are decoded to the
same settings (`Alike.decodeSettings_iff`).

Whatever is laid over alike values makes them no less alike (`Alike.assignAll`), and two entries
with different names may change places (`Alike.swap`). From these two it follows that a value may be
rearranged before it is laid over another (`Rearranged.onto`), if its tables do not have two names
that are equal up to case. At depth 1 only the names count, and there this is no condition.

The depth is what makes the induction work. Entries with equal names may change places at depth 1,
where only the names count, and entries with different names at any depth (`Alike.swap`). For a
rearranged value this is used at every level of it, with the depth one less inside.
-/

namespace VarBlock.Config

/-- Equal, or tables with the same names and related values. -/
inductive AlikeBy (R : Value → Value → Prop) : Value → Value → Prop
  | refl (v : Value) : AlikeBy R v v
  | table {es es' : List (String × Value)} (length : es'.length = es.length)
    (lookup : ∀ k, Option.Rel R (es.lookup k) (es'.lookup k)) : AlikeBy R (.table es) (.table es')

/-- Two values agree down to a depth, up to the order of entries. -/
def Alike : Nat → Value → Value → Prop
  | 0, _, _ => True
  | n + 1, v, v' => AlikeBy (Alike n) v v'

/-! ## Agreement -/

section Agreement

variable {n : Nat} {v v' v'' : Value} {old old' old'' : Option Value}
  {es es' : List (String × Value)}

theorem Alike.refl : ∀ (n : Nat) (v : Value), Alike n v v
  | 0, _ => trivial
  | _ + 1, v => AlikeBy.refl v

theorem rel_refl (n : Nat) (old : Option Value) : Option.Rel (Alike n) old old := by
  cases old with
  | none => exact .none
  | some v => exact .some (.refl n v)

theorem rel_symm {R : Value → Value → Prop} (hR : ∀ v v', R v v' → R v' v)
    (h : Option.Rel R old old') : Option.Rel R old' old := by
  cases h with
  | none => exact .none
  | some h => exact .some (hR _ _ h)

theorem rel_trans {R : Value → Value → Prop} (hR : ∀ v v' v'', R v v' → R v' v'' → R v v'')
    (h : Option.Rel R old old') (h' : Option.Rel R old' old'') : Option.Rel R old old'' := by
  cases h with
  | none => exact h'
  | some h =>
    cases h' with
    | some h' => exact .some (hR _ _ _ h h')

theorem exists_of_rel {R : Value → Value → Prop} (h : Option.Rel R old old') {v : Value}
    (hv : old = some v) : ∃ v', old' = some v' ∧ R v v' := by
  cases h with
  | none => cases hv
  | some h => exact ⟨_, rfl, Option.some.inj hv ▸ h⟩

theorem isNone_of_rel {R : Value → Value → Prop} (h : Option.Rel R old old') :
    old'.isNone = old.isNone := by
  cases h <;> rfl

/-- Two tables are alike if they have as many entries and hold alike values under each name. Where
an entry stands does not matter. -/
theorem alike_table_iff : Alike (n + 1) (.table es) (.table es') ↔
    es'.length = es.length ∧ ∀ k, Option.Rel (Alike n) (es.lookup k) (es'.lookup k) := by
  constructor
  · rintro (_ | ⟨hlength, hlookup⟩)
    · exact ⟨rfl, fun k => rel_refl n _⟩
    · exact ⟨hlength, hlookup⟩
  · exact fun h => .table h.1 h.2

theorem Alike.symm (h : Alike n v v') : Alike n v' v := by
  induction n generalizing v v' with
  | zero => trivial
  | succ n ih =>
    obtain _ | ⟨hlength, hlookup⟩ := h
    · exact .refl _ _
    · exact .table hlength.symm fun k => rel_symm (fun _ _ => ih) (hlookup k)

theorem Alike.trans (h : Alike n v v') (h' : Alike n v' v'') : Alike n v v'' := by
  induction n generalizing v v' v'' with
  | zero => trivial
  | succ n ih =>
    -- Where one of the two is an equality, the other is what is to be shown.
    obtain _ | ⟨hlength, hlookup⟩ := h
    · exact h'
    · obtain _ | ⟨hlength', hlookup'⟩ := h'
      · exact .table hlength hlookup
      · exact .table (hlength'.trans hlength) fun k =>
          rel_trans (fun _ _ _ => ih) (hlookup k) (hlookup' k)

/-- What is no table has no entries, so that every value may be compared as a table. -/
theorem Alike.entries (h : Alike (n + 1) v v') :
    Alike (n + 1) (.table v.entries) (.table v'.entries) := by
  obtain _ | ⟨hlength, hlookup⟩ := h
  · exact .refl _ _
  · exact .table hlength hlookup

/-- Alike configurations hold alike values under each name, one level less deep. -/
theorem Alike.lookup (h : Alike (n + 1) v v') (k : String) :
    Option.Rel (Alike n) (v.entries.lookup k) (v'.entries.lookup k) :=
  (alike_table_iff.mp h.entries).2 k

theorem Alike.getD (h : Option.Rel (Alike n) old old') (other : Value) :
    Alike n (old.getD other) (old'.getD other) := by
  cases h with
  | none => exact .refl n other
  | some h => exact h

end Agreement

/-! ## Putting an entry -/

section Put

variable {n : Nat} {v v' w : Value} {key key' : String} {es es' : List (String × Value)}

/-- There is one entry more if nothing was held under the name. -/
theorem length_put (key : String) (v : Value) (es : List (String × Value)) :
    (put key v es).length = es.length + if (es.lookup key).isNone then 1 else 0 := by
  induction es with
  | nil => rfl
  | cons e es ih =>
    obtain ⟨k, w⟩ := e
    rw [put]
    by_cases hk : k = key
    · subst hk
      rw [if_pos rfl, List.lookup_cons_self]
      rfl
    · rw [if_neg hk, List.lookup_cons, beq_eq_false_iff_ne.mpr (Ne.symm hk), List.length_cons, ih,
        List.length_cons, Nat.add_right_comm]

/-- Of two values that are put under one key the second one stays. -/
theorem put_put (key : String) (v w : Value) (es : List (String × Value)) :
    put key w (put key v es) = put key w es := by
  induction es with
  | nil => simp [put]
  | cons e es ih =>
    obtain ⟨k, u⟩ := e
    rw [put, put]
    by_cases hk : k = key
    · rw [if_pos hk, if_pos hk, put, if_pos hk]
    · rw [if_neg hk, if_neg hk, put, if_neg hk, ih]

/-- Alike values put under one name leave configurations alike. -/
theorem Alike.put (h : Alike (n + 1) (.table es) (.table es')) (hv : Alike n v v')
    (key : String) : Alike (n + 1) (.table (put key v es)) (.table (put key v' es')) := by
  obtain ⟨hlength, hlookup⟩ := alike_table_iff.mp h
  refine alike_table_iff.mpr ⟨?_, fun k => ?_⟩
  · rw [length_put, length_put, hlength, isNone_of_rel (hlookup key)]
  · rw [lookup_put, lookup_put]
    split
    · exact .some hv
    · exact hlookup k

/-- Values may be put under different keys in any order. -/
theorem Alike.put_comm (hne : key ≠ key') (n : Nat) (v w : Value) (es : List (String × Value)) :
    Alike n (.table (Config.put key' w (Config.put key v es)))
      (.table (Config.put key v (Config.put key' w es))) := by
  cases n with
  | zero => trivial
  | succ n =>
    refine alike_table_iff.mpr ⟨?_, fun k => ?_⟩
    · rw [length_put, length_put, lookup_put, length_put, length_put, lookup_put, if_neg hne,
        if_neg hne.symm, Nat.add_right_comm]
    · -- The two tables differ in order at most, since what each holds under a name is the same.
      have hlookup : (Config.put key v (Config.put key' w es)).lookup k =
          (Config.put key' w (Config.put key v es)).lookup k := by
        simp only [lookup_put]
        by_cases hk : k = key
        · rw [if_pos hk, if_neg (hk ▸ hne), if_pos hk]
        · rw [if_neg hk, if_neg hk]
      rw [hlookup]
      exact rel_refl n _

end Put

/-! ## Laying a value over another -/

section Laying

variable {n : Nat} {v v' target target' : Value} {old old' : Option Value}
  {name name' : String}

/-- An entry leaves alike configurations alike, if it makes alike values of alike ones. -/
theorem Alike.assign (h : Alike (n + 1) target target') (name : String)
    (hv : ∀ old old', Option.Rel (Alike n) old old' → Alike n (v.onto old) (v'.onto old')) :
    Alike (n + 1) (target.assign name v) (target'.assign name v') := by
  rw [Value.assign_eq, Value.assign_eq]
  exact h.entries.put (hv _ _ (h.lookup _)) _

/-- The same entries may be laid over alike values. -/
theorem Alike.assignAll (h : Alike n target target') (es : List (String × Value)) :
    Alike n (target.assignAll es) (target'.assignAll es) := by
  -- an entry is laid over what lies one level deeper, so this goes by the depth before the entries
  induction n generalizing target target' es with
  | zero => trivial
  | succ n ih =>
    induction es generalizing target target' with
    | nil =>
      rw [Value.assignAll, Value.assignAll]
      exact h
    | cons e es ihes =>
      obtain ⟨name, v⟩ := e
      rw [Value.assignAll, Value.assignAll]
      apply ihes
      apply h.assign
      intro old old' hold
      cases v with
      | table inner => exact ih (Alike.getD hold _) inner
      | _ => exact .refl n _

/-- A value laid over alike values makes alike values of them. -/
theorem Alike.onto (h : Option.Rel (Alike n) old old') (v : Value) :
    Alike n (v.onto old) (v.onto old') := by
  cases v with
  | table inner => exact (Alike.getD h _).assignAll inner
  | _ => exact .refl n _

/-- Entries with different names may change places. At depth 1 only the names count, and these are
the same in any order. -/
theorem Alike.swap (h : n ≤ 1 ∨ Text.lowercase name ≠ Text.lowercase name') (target v v' : Value) :
    Alike n ((target.assign name v).assign name' v') ((target.assign name' v').assign name v) := by
  have hassign : ∀ a b w w', (target.assign a w).assign b w' =
      .table (Config.put (Text.lowercase b) (w'.onto ((target.assign a w).entries.lookup
        (Text.lowercase b))) (Config.put (Text.lowercase a)
          (w.onto (target.entries.lookup (Text.lowercase a))) target.entries)) := by
    intro a b w w'
    rw [Value.assign_eq (target.assign a w), Value.assign_eq target]
    rfl
  rw [hassign, hassign]
  by_cases hname : Text.lowercase name = Text.lowercase name'
  · -- the same name is put twice, with values that are not looked at
    obtain hn | hne := h
    · rw [hname, put_put, put_put]
      obtain rfl | rfl : n = 0 ∨ n = 1 := by omega
      · trivial
      · exact Alike.put (.refl 1 _) trivial _
    · exact absurd hname hne
  · rw [Value.lookup_assign, Value.lookup_assign, if_neg (Ne.symm hname), if_neg hname]
    exact .put_comm hname n _ _ _

end Laying

/-! ## Rearranging -/

section Rearranging

variable {n : Nat} {v v' : Value} {old old' : Option Value} {es es' : List (String × Value)}
  {name : String}

/-- Entry by entry: no later name is equal up to case, and the values are distinct. -/
theorem distinct_cons_iff {e : String × Value} : (Value.table (e :: es)).Distinct ↔
    (Text.lowercase e.1 ∉ es.map fun e => Text.lowercase e.1) ∧ e.2.Distinct ∧
      (Value.table es).Distinct := by
  rw [distinct_table_iff, distinct_table_iff]
  constructor
  · rintro ⟨names, tables⟩
    obtain ⟨hname, hes⟩ := List.nodup_cons.mp names
    refine ⟨hname, ?_, .intro hes fun name inner hmem => tables name inner (.tail e hmem)⟩
    intro inner he
    exact tables e.1 inner (he ▸ List.mem_cons_self)
  · rintro ⟨hname, he, names, tables⟩
    refine .intro (List.nodup_cons.mpr ⟨hname, names⟩) fun name inner hmem => ?_
    rcases List.mem_cons.mp hmem with rfl | hmem
    · exact he inner rfl
    · exact tables name inner hmem

/-- A rearrangement has the same names in another order. -/
theorem Rearranged.perm_names (h : Rearranged v v') :
    (v.entries.map Prod.fst).Perm (v'.entries.map Prod.fst) := by
  induction h with
  | refl v => exact .refl _
  | head _ name es => exact .refl _
  | tail _ e ih => exact .cons _ ih
  | swap e e' es => exact .swap _ _ _
  | trans _ _ ih ih' => exact ih.trans ih'

/-- Names stay as different as they were. -/
theorem Rearranged.distinct (h : Rearranged v v') (hv : v.Distinct) : v'.Distinct := by
  -- One case for each way to rearrange. Names are compared as they are in the table, so a
  -- permutation of the others does no harm.
  induction h with
  | refl v => exact hv
  | head _ name es ih =>
    obtain ⟨hname, he, hes⟩ := distinct_cons_iff.mp hv
    exact distinct_cons_iff.mpr ⟨hname, ih he, hes⟩
  | tail h e ih =>
    obtain ⟨hname, he, hes⟩ := distinct_cons_iff.mp hv
    have hnames := h.perm_names.map Text.lowercase
    rw [List.map_map, List.map_map] at hnames
    exact distinct_cons_iff.mpr ⟨fun hmem => hname (hnames.mem_iff.mpr hmem), he, ih hes⟩
  | swap e e' es =>
    obtain ⟨hname, he, hes⟩ := distinct_cons_iff.mp hv
    obtain ⟨hname', he', hes⟩ := distinct_cons_iff.mp hes
    have hne := List.ne_of_not_mem_cons hname
    refine distinct_cons_iff.mpr ⟨?_, he', distinct_cons_iff.mpr ⟨?_, he, hes⟩⟩
    · exact List.not_mem_cons_of_ne_of_not_mem hne.symm hname'
    · exact List.not_mem_of_not_mem_cons hname
  | trans _ _ ih ih' => exact ih' (ih hv)

/-- **The order of entries does not count**: a value may be rearranged before it is laid over
another. What results is alike down to any depth where no names are equal up to case, and down to
the names in any case. -/
theorem Rearranged.onto (h : Rearranged v v') (hv : n ≤ 1 ∨ v.Distinct)
    (hold : Option.Rel (Alike n) old old') : Alike n (v.onto old) (v'.onto old') := by
  induction h generalizing n old old' with
  | refl v => exact .onto hold v
  | @head v v' h name es ih =>
    show Alike n (Value.assignAll _ _) (Value.assignAll _ _)
    rw [Value.assignAll, Value.assignAll]
    apply Alike.assignAll
    cases n with
    | zero => trivial
    | succ n =>
      refine (Alike.getD hold (.table [])).assign name fun old old' hold => ih ?_ hold
      exact hv.imp (fun hn => by omega) fun hv => (distinct_cons_iff.mp hv).2.1
  | @tail es es' h e ih =>
    -- what the first entry makes of the old value is what the others are laid over
    obtain ⟨name, v⟩ := e
    show Alike n (Value.assignAll _ _) (Value.assignAll _ _)
    rw [Value.assignAll, Value.assignAll]
    show Alike n ((Value.table es).onto (some _)) ((Value.table es').onto (some _))
    refine ih ?_ (.some ?_)
    · exact hv.imp_right fun hv => (distinct_cons_iff.mp hv).2.2
    · exact (Alike.getD hold (.table [])).assignAll [(name, v)]
  | swap e e' es =>
    obtain ⟨name, v⟩ := e
    obtain ⟨name', v'⟩ := e'
    show Alike n (Value.assignAll _ _) (Value.assignAll _ _)
    simp only [Value.assignAll]
    apply Alike.assignAll
    refine ((Alike.getD hold (.table [])).assignAll [(name, v), (name', v')]).trans ?_
    refine Alike.swap (hv.imp_right fun hv => ?_) _ v v'
    exact List.ne_of_not_mem_cons (distinct_cons_iff.mp hv).1
  | trans h _ ih ih' =>
    refine (ih hv (rel_refl n old)).trans (ih' (hv.imp_right h.distinct) hold)

end Rearranging

/-! ## Setting values -/

section Setting

variable {n : Nat} {v v' : Value} {root root' : Value} {x y : Setting}
  {overrides overrides' : List (KeyPath × Value)}

/-- To set a value by a key leaves alike configurations alike. -/
theorem Alike.set (h : Alike (n + 2) root root') (x : Setting)
    (hv : ∀ old old', Option.Rel (Alike n) old old' → Alike n (v.onto old) (v'.onto old')) :
    Alike (n + 2) (root.set x.key v) (root'.set x.key v') := by
  rw [Value.set_key, Value.set_key]
  exact h.entries.put ((Alike.getD (h.lookup _) _).assign x.name hv) _

/-- Different settings may be set in any order. -/
theorem Alike.set_comm (hne : x ≠ y) (n : Nat) (root v w : Value) :
    Alike (n + 1) ((root.set x.key v).set y.key w) ((root.set y.key w).set x.key v) := by
  by_cases hhome : x.home = y.home
  · -- both are set in one section, under different names
    have hset : ∀ (a b : Setting) (u t : Value), a.home = b.home →
        (root.set a.key u).set b.key t = .table (Config.put b.home.key
          ((((root.entries.lookup b.home.key).getD .nil).assign a.name u).assign b.name t)
          root.entries) := by
      intro a b u t hab
      rw [Value.set_key, Value.set_key, Value.entries, hab, lookup_put, if_pos rfl,
        Option.getD_some, put_put]
    rw [hset x y v w hhome, hset y x w v hhome.symm, hhome]
    refine Alike.put (.refl (n + 1) _) (.swap (.inr ?_) _ v w) _
    rw [Setting.lowercase_name, Setting.lowercase_name]
    exact mt Setting.name_inj.mp hne
  · -- each section is found as it was
    have hkey : x.home.key ≠ y.home.key := mt Section.key_inj.mp hhome
    rw [Value.set_key (root.set x.key v), Value.set_key (root.set y.key w),
      Value.lookup_set_of_ne root (Ne.symm hhome), Value.lookup_set_of_ne root hhome,
      Value.set_key, Value.set_key]
    exact .put_comm hkey (n + 1) _ _ _

/-- A setting that is set again has the second value, if this is a scalar. -/
theorem Value.set_set (root : Value) (x : Setting) (w : Value) (hv : v.IsScalar) :
    (root.set x.key w).set x.key v = root.set x.key v := by
  rw [set_key, set_key, set_key, entries, lookup_put, if_pos rfl, Option.getD_some, put_put,
    assign_eq (assign _ _ _), assign_eq, assign_eq, hv.onto, hv.onto, entries, put_put]

/-- Nothing is left of earlier values of a setting. -/
theorem Value.set_setAll (hkeys : ∀ o ∈ overrides, o.1 = x.key) (hv : v.IsScalar) (root : Value) :
    (root.setAll overrides).set x.key v = root.set x.key v := by
  induction overrides generalizing root with
  | nil => rfl
  | cons o overrides ih =>
    obtain ⟨ho, hkeys⟩ := List.forall_mem_cons.mp hkeys
    show ((root.set o.1 o.2).setAll overrides).set x.key v = _
    rw [ih hkeys, ho, set_set root x o.2 hv]

/-- Overrides leave alike configurations alike, and their tables may be rearranged. -/
theorem Alike.setAll (h : Alike (n + 2) root root') (hn : n ≤ 1)
    (hkeys : KeyedBySettings overrides)
    (hoverrides : List.Forall₂ RearrangedOverride overrides overrides') :
    Alike (n + 2) (root.setAll overrides) (root'.setAll overrides') := by
  induction hoverrides generalizing root root' with
  | nil => exact h
  | @cons o o' overrides overrides' ho _ ih =>
    obtain ⟨⟨x, hx⟩, hkeys⟩ := List.forall_mem_cons.mp hkeys
    refine ih ?_ hkeys
    show Alike (n + 2) (root.set o.1 o.2) (root'.set o'.1 o'.2)
    rw [ho.1, hx]
    exact h.set x fun _ _ hold => ho.2.onto (.inl hn) hold

theorem rearrangedOverride_refl (overrides : List (KeyPath × Value)) :
    List.Forall₂ RearrangedOverride overrides overrides :=
  List.forall₂_same.mpr fun _ _ => ⟨rfl, .refl _⟩

/-- Settings may be set in any order, each of them once. -/
theorem Alike.setAll_perm (hn : n ≤ 1) (h : overrides.Perm overrides')
    (hkeys : KeyedBySettings overrides)
    (hdistinct : (overrides.map Prod.fst).Nodup) (root : Value) :
    Alike (n + 2) (root.setAll overrides) (root.setAll overrides') := by
  induction h generalizing root with
  | nil => exact .refl _ _
  | cons o _ ih => exact ih (List.forall_mem_cons.mp hkeys).2 (List.nodup_cons.mp hdistinct).2 _
  -- Two overrides that change places have different keys, and so they are of different settings.
  | swap o o' overrides =>
    obtain ⟨q, w⟩ := o'
    obtain ⟨p, v⟩ := o
    obtain ⟨y, rfl⟩ := hkeys _ List.mem_cons_self
    obtain ⟨x, rfl⟩ := hkeys _ (.tail _ List.mem_cons_self)
    have hothers : KeyedBySettings overrides := fun o ho => hkeys o (.tail _ (.tail _ ho))
    have hne : y ≠ x := by
      rintro rfl
      exact (List.nodup_cons.mp hdistinct).1 List.mem_cons_self
    show Alike (n + 2) (((root.set y.key w).set x.key v).setAll overrides)
      (((root.set x.key v).set y.key w).setAll overrides)
    have hswap := Alike.set_comm hne (n + 1) root w v
    exact hswap.setAll hn hothers (rearrangedOverride_refl overrides)
  | trans h _ ih ih' =>
    refine (ih hkeys hdistinct root).trans (ih' ?_ ?_ root)
    · exact fun o ho => hkeys o (h.mem_iff.mpr ho)
    · exact (h.map Prod.fst).nodup_iff.mp hdistinct

end Setting

/-! ## Decoding -/

section Decoding

variable {v v' root root' : Value} {s : Settings} {x : Setting} {home : Section}

/-- The language may be the one name in a table. No other setting is a table. -/
theorem Alike.decodes (h : Alike 1 v v') (hv : x.Decodes v s) : x.Decodes v' s := by
  obtain _ | @⟨es, es', hlength, hlookup⟩ := h
  · exact hv
  · cases x with
    | language =>
      obtain ⟨name, w, rfl⟩ : ∃ name w, es = [(name, w)] := by
        rcases es with _ | ⟨⟨name, w⟩, _ | ⟨e, es⟩⟩
        · cases hv
        · exact ⟨name, w, rfl⟩
        · cases hv
      obtain ⟨⟨name', w'⟩, rfl⟩ := List.length_eq_one_iff.mp hlength
      -- the one name that can be looked up here can be looked up there
      obtain ⟨_, hfound, -⟩ := exists_of_rel (hlookup name) List.lookup_cons_self
      obtain rfl : name = name' := by
        by_contra hne
        rw [List.lookup_cons, beq_eq_false_iff_ne.mpr hne] at hfound
        cases hfound
      exact hv
    | _ => cases hv

/-- Alike sections are decoded to the same. -/
theorem Alike.decodes_section (h : Alike 2 v v') (hv : home.Decodes v s) : home.Decodes v' s := by
  obtain _ | ⟨hlength, hlookup⟩ := h
  · exact hv
  · rw [Section.decodes_table_iff] at hv ⊢
    intro x hx
    obtain ⟨w, hw, hdecodes⟩ := hv x hx
    obtain ⟨w', hw', halike⟩ := exists_of_rel (hlookup x.name) hw
    exact ⟨w', hw', halike.decodes hdecodes⟩

/-- **Alike configurations** are decoded to the same settings. -/
theorem Alike.decodeSettings_iff (h : Alike 3 root root') :
    decodeSettings root = .ok s ↔ decodeSettings root' = .ok s := by
  -- One direction is enough, since likeness can be turned round. Three levels are the root, a
  -- section, and a table that a setting may be.
  have hof : ∀ root root', Alike 3 root root' → decodeSettings root = .ok s →
      decodeSettings root' = .ok s := by
    intro root root' h hs
    rw [decodeSettings_eq_ok_iff] at hs ⊢
    intro home
    obtain ⟨v, hv, hdecodes⟩ := hs home
    obtain ⟨v', hv', halike⟩ := exists_of_rel (h.lookup home.key) hv
    exact ⟨v', hv', halike.decodes_section hdecodes⟩
  exact ⟨hof _ _ h, hof _ _ h.symm⟩

end Decoding

end VarBlock.Config
