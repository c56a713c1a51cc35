import VarBlock.Config.Decode
import VarBlock.Config.Merge
import VarBlock.Source
import VarBlock.Toml.Document

/-!
# Loading settings

    standard settings ◂── files in order ◂── overrides in order ──build──▶ Settings

A `Loader` collects configuration files and overrides. `Loader.build` lays the files over the
standard settings in order and the overrides over the result, and decodes it; what is laid over
wins.

Files are kept in the order in which they were added. An override has no place among them, since all
overrides come after all files, and among overrides only the last of each key is kept.
-/

namespace VarBlock.Config

/-- A configuration file as it was found: its bytes, or nothing where there is no such file. -/
structure Layer where
  content : Option ByteArray
  /-- Whether the file has to be there and to be readable. -/
  isRequired : Bool

/-- Why no settings can be had. -/
inductive ConfigError
  /-- A required file cannot be read. -/
  | unreadable (cause : ReadError)
  | notToml
  /-- The configuration is no settings. -/
  | decoding (cause : DecodeError)

def ConfigError.message : ConfigError → String
  | unreadable cause => cause.message
  | notToml => "a configuration file is not valid TOML"
  | decoding cause => cause.message

/-- The entries of a file. A file that cannot be read has none, unless it is required. -/
def Layer.entries (l : Layer) : Except ConfigError (List (String × Value)) :=
  let text : Except ReadError String := match l.content with
    | none => .error .missing
    | some bytes => decodeText bytes
  match text, l.isRequired with
  | .error e, true => .error (.unreadable e)
  | .error _, false => .ok []
  | .ok s, _ =>
    match Toml.parse? s with
    | some entries => .ok entries
    | none => .error .notToml

/-- Files in the order in which they were added, and at most one override of each key. -/
@[ext]
structure Loader where
  files : List Layer
  overrides : List (KeyPath × Value)
  distinct : (overrides.map Prod.fst).Nodup

namespace Loader

/-- Nothing but files. -/
def ofFiles (files : List Layer) : Loader := ⟨files, [], List.nodup_nil⟩

/-- Nothing but the standard settings. -/
def standard : Loader := ofFiles []

/-- Add a file that has to be there. -/
def withFile (l : Loader) (content : Option ByteArray) : Loader :=
  { l with files := l.files ++ [⟨content, true⟩] }

/-- Add a file that may be missing. -/
def withOptionalFile (l : Loader) (content : Option ByteArray) : Loader :=
  { l with files := l.files ++ [⟨content, false⟩] }

/-- Drop the override of a key. -/
def without (l : Loader) (p : KeyPath) : Loader where
  files := l.files
  overrides := l.overrides.filter fun o => o.1 ≠ p
  distinct := l.distinct.sublist (List.filter_sublist.map Prod.fst)

theorem notMem_without (l : Loader) (p : KeyPath) : p ∉ (l.without p).overrides.map Prod.fst := by
  intro h
  obtain ⟨o, ho, rfl⟩ := List.mem_map.mp h
  exact of_decide_eq_true (List.mem_filter.mp ho).2 rfl

/-- Add an override. It takes the place of an earlier one of the same key. -/
def override (l : Loader) (p : KeyPath) (v : Value) : Loader where
  files := l.files
  overrides := (l.without p).overrides ++ [(p, v)]
  distinct := by
    rw [List.map_append, List.nodup_append]
    refine ⟨(l.without p).distinct, List.pairwise_singleton _ p, ?_⟩
    rintro q hq _ hp rfl
    obtain rfl := List.mem_singleton.mp hp
    exact l.notMem_without _ hq

/-- Add an override of the key that a text spells, if it spells one. -/
def override? (l : Loader) (key : String) (v : Value) : Option Loader :=
  (KeyPath.ofString? key).map fun p => l.override p v

end Loader

/-! ### The keys of the settings -/

def languageKey : KeyPath := ⟨"diagnostics", [.child "language"]⟩

def reportSuccessKey : KeyPath := ⟨"diagnostics", [.child "report_success"]⟩

def formatKey : KeyPath := ⟨"output", [.child "format"]⟩

def ofSettings (s : Settings) : Value :=
  .table [("diagnostics", .table [("language", .string s.diagnostics.language.code),
      ("report_success", .boolean s.diagnostics.reportSuccess),
      ("show_positions", .boolean s.diagnostics.showPositions)]),
    ("output", .table [("format", .string s.format)])]

namespace Loader

/-- The standard settings with all layers laid over them. The first file that cannot be had is the
one that is reported. Entries and overrides are taken in the order in which they are listed, which
is one of the orders that `Loader.MayMerge` allows. -/
def merged (l : Loader) : Except ConfigError Value := do
  let files ← l.files.mapM Layer.entries
  let root := files.foldl Value.overlay (ofSettings .standard)
  return root.setAll l.overrides

def build (l : Loader) : Except ConfigError Settings := do
  (decodeSettings (← l.merged)).mapError .decoding

end Loader

end VarBlock.Config
