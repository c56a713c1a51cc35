import VarBlock.Proofs.SourceReading

/-!
# What a run reads

The program reads files before it runs a request, so it has to know which. `Request.paths` lists
them, and what they and standard input hold is all that counts: a request is run alike in
environments that agree on them (`Request.run_congr`), and in particular in one where nothing else
can be read (`Request.run_ofReadings`).

A file of a directory is read by the names that lead to it, joined by slashes
(`Directory.read_stored`). The names are gone through one by one, and on the way there are only
directories.

The converse is that nothing else can be read: what reading gives is the content of some stored file
(`Directory.exists_stored_of_read`). Names that are too long, that go up, or that are empty have
their own failures in `Directory.child`, and an ordinary name has none of these (`IsOrdinary`).
-/

namespace VarBlock.CommandLine

/-! ## Files of a request -/

section Requests

variable {env env' : Environment} {o : SourceOptions} {request : Request}

/-- Files are read for the source, unless it is standard input, and for the configuration. -/
theorem mem_paths_iff (h : request.options? = some o) {path : String} :
    path ∈ request.paths ↔ (o.path ≠ "-" ∧ path = o.path) ∨ path ∈ o.configPaths := by
  have hpaths : request.paths = (if o.path = "-" then [] else [o.path]) ++ o.configPaths := by
    cases request with
    | check | tokens =>
      obtain rfl := Option.some.inj h
      exact List.append_assoc _ _ _
    | _ => cases h
  rw [hpaths, List.mem_append]
  -- The dash is not read as a path, although a file of this name may exist.
  by_cases hpath : o.path = "-"
  · simp [hpath]
  · simp [hpath]

/-- What a request shows depends on what is read under the paths it names, and on standard input if
it asks for that. -/
theorem showSource_congr_of_paths (h : request.options? = some o)
    (hfiles : ∀ path ∈ request.paths, env'.read path = env.read path)
    (hstdin : request.readsStdin = true → env'.stdin = env.stdin) (format : Option String)
    (noSuccess : Bool) :
    showSource env' o format noSuccess = showSource env o format noSuccess := by
  -- Configuration is looked for under the same paths by every request for a source.
  have hsettings : env'.settings o format noSuccess = env.settings o format noSuccess :=
    settings_congr (fun path hpath => hfiles path ((mem_paths_iff h).mpr (.inr hpath)))
      o.path o.path format noSuccess
  have hsource : env'.source o.path = env.source o.path := by
    rw [Environment.source, Environment.source]
    by_cases hpath : o.path = "-"
    · -- The path is a dash, so the request says that it reads standard input.
      have hreads : request.readsStdin = true := by
        cases request with
        | check | tokens =>
          obtain rfl := Option.some.inj h
          exact decide_eq_true hpath
        | _ => cases h
      rw [if_pos hpath, if_pos hpath, hstdin hreads]
    · rw [if_neg hpath, if_neg hpath, hfiles _ ((mem_paths_iff h).mpr (.inl ⟨hpath, rfl⟩))]
  rw [showSource, showSource, hsettings, hsource]

/-- **A request is run alike** where the files of the request and standard input are the same. -/
theorem Request.run_congr (hfiles : ∀ path ∈ request.paths, env'.read path = env.read path)
    (hstdin : request.readsStdin = true → env'.stdin = env.stdin) :
    request.run env' = request.run env := by
  cases request with
  | check o format noSuccess =>
    exact congrArg Outcome.ofResult (showSource_congr_of_paths rfl hfiles hstdin format noSuccess)
  | tokens o =>
    exact congrArg Outcome.ofResult (showSource_congr_of_paths rfl hfiles hstdin _ false)
  | _ => rfl

/-- It is enough to read the files of a request beforehand. -/
theorem Request.run_ofReadings (env : Environment) (request : Request) :
    request.run (.ofReadings (if request.readsStdin then env.stdin else ByteArray.empty)
      (request.paths.map fun path => (path, env.read path))) = request.run env := by
  apply run_congr
  · intro path hpath
    show (List.lookup path (request.paths.map fun path => (path, env.read path))).getD _ = _
    rw [List.lookup_graph env.read hpath]
    rfl
  · intro h
    exact if_pos h

end Requests

/-! ## Files of a directory -/

/-- A name that leads to what is stored under it, and nowhere else. -/
structure IsOrdinary (name : String) : Prop where
  ne_empty : name ≠ ""
  ne_dot : name ≠ "."
  ne_up : name ≠ ".."
  no_slash : '/' ∉ name.toList
  size_le : name.utf8ByteSize ≤ 255

/-- Names that are joined by slashes are the names of the path. -/
theorem pathNames_intercalate {names : List String} (h : ∀ name ∈ names, '/' ∉ name.toList)
    (hne : names ≠ []) : pathNames ("/".intercalate names) = names := by
  have hlists : ∀ cs ∈ names.map String.toList, '/' ∉ cs := by
    rintro cs hcs
    obtain ⟨name, hname, rfl⟩ := List.mem_map.mp hcs
    exact h name hname
  have hsplit := List.splitOn_intercalate '/' hlists (by simpa using hne)
  rw [pathNames, String.toList_intercalate]
  show (List.splitOn '/' (['/'].intercalate (names.map String.toList))).map String.ofList = names
  rw [hsplit, List.map_map]
  simp [Function.comp_def]

/-- A path of ordinary names does not start with a slash. -/
theorem exists_cons_intercalate {names : List String} (h : ∀ name ∈ names, IsOrdinary name)
    (hne : names ≠ []) : ∃ c cs, ("/".intercalate names).toList = c :: cs ∧ c ≠ '/' := by
  obtain ⟨name, names, rfl⟩ := List.exists_cons_of_ne_nil hne
  have hname := h name List.mem_cons_self
  obtain ⟨c, cs, hcs⟩ := List.exists_cons_of_ne_nil (mt String.toList_eq_nil_iff.mp hname.ne_empty)
  have hc : c ≠ '/' := by
    rintro rfl
    exact hname.no_slash (hcs ▸ List.mem_cons_self)
  -- The path begins as its first name does, whether or not there are more.
  cases names with
  | nil =>
    rw [String.intercalate_singleton]
    exact ⟨c, cs, hcs, hc⟩
  | cons name' names =>
    rw [String.intercalate_cons_cons, String.toList_append, String.toList_append, hcs]
    exact ⟨c, _, rfl, hc⟩

namespace Directory

variable {d : Directory} {content : ByteArray} {names front back : List String}

/-- A file is stored under names, and there is no file on the way to it. -/
structure Stores (d : Directory) (names : List String) (content : ByteArray) : Prop where
  found : d.lookup names = some content
  clear : ∀ front back, names = front ++ back → back ≠ [] → d.lookup front = none

/-- An ordinary name leads one level down. -/
theorem child_below {name : String} (h : IsOrdinary name) (names : List String) :
    child (.below names) name = .ok (.below (names ++ [name])) := by
  rw [child, if_neg (Nat.not_lt.mpr h.size_le), if_neg (by simp [h.ne_empty, h.ne_dot]),
    if_neg h.ne_up]

/-- Before the last name there are directories. -/
theorem Stores.isDirectory (h : d.Stores (front ++ back) content) (hback : back ≠ []) :
    d.isDirectory (.below front) = true := by
  obtain ⟨before, after, hd, -⟩ := List.lookup_eq_some_iff.mp h.found
  rw [Directory.isDirectory, Bool.or_eq_true, List.any_eq_true]
  exact .inr ⟨(front ++ back, content), by simp [hd], by simp [hback]⟩

/-- The names that lead to a file are gone through one by one. -/
theorem resolve_stored (hnames : ∀ name ∈ back, IsOrdinary name)
    (h : d.Stores (front ++ back) content) :
    d.resolve (.below front) back = .ok (.below (front ++ back)) := by
  induction back generalizing front with
  | nil => rw [resolve, List.append_nil]
  | cons name back ih =>
    obtain ⟨hname, hback⟩ := List.forall_mem_cons.mp hnames
    -- On the way no file is met, since a file has nothing below it, and each place is a directory,
    -- since something is.
    have hclear : d.file? (.below front) = none := h.clear front _ rfl (List.cons_ne_nil _ _)
    have hdirectory := h.isDirectory (List.cons_ne_nil _ _)
    have happend : front ++ name :: back = (front ++ [name]) ++ back := by simp
    rw [resolve, hclear, hdirectory, child_below hname, happend]
    rw [happend] at h
    exact ih hback h

/-- **A stored file** is read by its path. -/
theorem read_stored (h : d.Stores names content) (hnames : ∀ name ∈ names, IsOrdinary name)
    (hne : names ≠ []) (hsize : ("/".intercalate names).utf8ByteSize < 4096) :
    d.read ("/".intercalate names) = .ok content := by
  have hslash : ∀ name ∈ names, '/' ∉ name.toList := fun name hname => (hnames name hname).no_slash
  obtain ⟨c, cs, hpath, hc⟩ := exists_cons_intercalate hnames hne
  have hempty : ¬ ("/".intercalate names).isEmpty = true := by
    rw [String.isEmpty_iff, ← String.toList_eq_nil_iff, hpath]
    nofun
  -- The path does not start at the topmost directory, so its names are gone through from here.
  have hstart : ("/".intercalate names).toList.head? ≠ some '/' := by
    rw [hpath]
    exact mt Option.some.inj hc
  have hfound : d.file? (.below names) = some content := h.found
  have hresolve := resolve_stored hnames (show d.Stores ([] ++ names) content from h)
  rw [read, if_neg hempty, if_neg (Nat.not_le.mpr hsize)]
  simp only [if_neg hstart]
  rw [pathNames_intercalate hslash hne, hresolve]
  show d.content (.below names) = .ok content
  rw [Directory.content, hfound]

/-- Only what is stored can be read. -/
theorem exists_stored_of_read {path : String} (h : d.read path = .ok content) :
    ∃ names, d.lookup names = some content := by
  rw [read] at h
  split at h
  · cases h
  split at h
  · cases h
  obtain ⟨place, -, hplace⟩ := bind_eq_ok h
  rw [Directory.content] at hplace
  split at hplace
  · next found hfound =>
    obtain rfl := Except.ok.inj hplace
    -- Above the topmost directory there are no files.
    cases place with
    | below names => exact ⟨names, hfound⟩
    | above => cases hfound
  · cases hplace

/-- What a path shows in a directory is what is stored there. -/
theorem source_ofDirectory (h : d.Stores names content) (hnames : ∀ name ∈ names, IsOrdinary name)
    (hne : names ≠ []) (hsize : ("/".intercalate names).utf8ByteSize < 4096)
    (hdash : "/".intercalate names ≠ "-") (stdin : ByteArray) :
    (Environment.ofDirectory d stdin).source ("/".intercalate names) = decodeText content := by
  rw [Environment.source, if_neg hdash]
  show (d.read _).bind decodeText = _
  rw [read_stored h hnames hne hsize]
  rfl

end Directory

end VarBlock.CommandLine
