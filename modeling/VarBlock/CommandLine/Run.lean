import VarBlock.CommandLine.Arguments
import VarBlock.CommandLine.Directory
import VarBlock.Config.Loader
import VarBlock.Rendering

/-!
# Running a command line

    arguments, environment ──run──▶ outcome (exit status, output, error text)

The exit status is 0 for a valid source, 1 for one with diagnostics, and 2 where nothing could be
shown. The causes of the latter are looked for in the order of `Failure`.
-/

namespace VarBlock.CommandLine

structure Environment where
  stdin : ByteArray
  /-- The content of the file that a path leads to. -/
  read : String → Except ReadError ByteArray

namespace Environment

/-- What can be read in a directory. -/
def ofDirectory (d : Directory) (stdin : ByteArray) : Environment := ⟨stdin, d.read⟩

/-- What has been read before. Nothing else is there. -/
def ofReadings (stdin : ByteArray) (files : List (String × Except ReadError ByteArray)) :
    Environment := ⟨stdin, fun path => (files.lookup path).getD (.error .missing)⟩

end Environment

structure Outcome where
  exit : Nat
  stdout : String
  stderr : String
deriving DecidableEq, Repr

/-- Why a source could not be shown. -/
inductive Failure
  /-- The language option names no language. -/
  | unknownLanguage (code : String)
  | configuration (cause : Config.ConfigError)
  /-- The format of the settings is no output format. -/
  | format (cause : FormatError)
  | reading (path : String) (cause : ReadError)
  | processing (cause : ProcessError)

def Failure.message : Failure → String
  | unknownLanguage code => Language.unknownCode code
  | configuration cause => "configuration error: " ++ cause.message
  | format cause => cause.message
  | reading path cause => "error reading " ++ path ++ ": " ++ cause.message
  | processing cause => cause.message

/-! ### Settings -/

/-- The configuration file of a directory. -/
def localConfigFile : String := "vardecl.toml"

/-- A path with the usual extension after its last name. What follows that name and leads nowhere
else, slashes and dots, is dropped. A path that ends by going up has no last name. -/
def withExtension? (path : String) : Option String :=
  match (pathNames path).reverse.dropWhile fun name => name = "" || name = "." with
  | [] => none
  | ".." :: _ => none
  | name :: before => some ("/".intercalate ((name ++ ".toml") :: before).reverse)

namespace Environment

/-- The configuration file of a path, or of the path with the usual extension. -/
def configFile (env : Environment) (path : String) : Option ByteArray :=
  match env.read path with
  | .ok content => some content
  | .error _ => (withExtension? path).bind fun path => (env.read path).toOption

/-- The text of a source: a file, or standard input for a dash. -/
def source (env : Environment) (path : String) : Except ReadError String :=
  (if path = "-" then .ok env.stdin else env.read path).bind decodeText

/-- The settings for a request: the file of the directory, the file asked for, and the options over
them. -/
def settings (env : Environment) (o : SourceOptions) (format : Option String) (noSuccess : Bool) :
    Except Failure Settings := do
  let language ← o.language.mapM fun code =>
    match Language.ofCode? code with
    | some l => .ok l
    | none => .error (Failure.unknownLanguage code)
  let files := Config.Loader.standard.withOptionalFile (env.configFile localConfigFile)
  let files := match o.config with
    | some path => files.withFile (env.configFile path)
    | none => files
  let overrides :=
    (language.map fun l => (Config.languageKey, Config.Value.string l.code)).toList ++
    (format.map fun f => (Config.formatKey, Config.Value.string f)).toList ++
    if noSuccess then [(Config.reportSuccessKey, .boolean false)] else []
  let loader := overrides.foldl (fun l (key, v) => l.override key v) files
  loader.build.mapError .configuration

end Environment

/-! ### Commands -/

/-- Show a source, and the exit status that its report means: the tokens of a source can be listed
whether it is valid or not. -/
def showSource (env : Environment) (o : SourceOptions) (format : Option String) (noSuccess : Bool) :
    Except Failure (Nat × String) := do
  let settings ← env.settings o format noSuccess
  let f ← (OutputFormat.ofName settings.format).mapError Failure.format
  let source ← (env.source o.path).mapError (Failure.reading o.path)
  let processed ← (process f settings.diagnostics source).mapError Failure.processing
  let valid := f.stage = .tokens || processed.analysis.report.isValid
  return (if valid then 0 else 1, processed.output)

def formatList : String :=
  "Available output formats:\n\n" ++ joinLines (OutputFormat.available.map fun f => "  " ++ f.name)

def versionText : String := "vardecl 0.1.0\n"

def helpText : String := joinLines
  ["Check var declaration blocks and report every syntax error", "",
    "Usage: vardecl [-v]... <command>", "", "Commands:",
    "  check <path> [-c <config>] [-l <language>] [-f <format>] [--no-success]",
    "  tokens <path> [-c <config>] [-l <language>]",
    "  sample [valid|with-errors]",
    "  list-formats",
    "  help", "",
    "A path of - stands for standard input. Options: -v, -h and -V for the version."]

def Outcome.ofResult : Except Failure (Nat × String) → Outcome
  | .ok (exit, output) => ⟨exit, output, ""⟩
  | .error e => ⟨2, "", "Error: " ++ e.message ++ "\n"⟩

def Request.run (env : Environment) : Request → Outcome
  | .check o format noSuccess => .ofResult (showSource env o format noSuccess)
  | .tokens o => .ofResult (showSource env o (some "tokens-simple") false)
  | .sample s => ⟨0, s.source ++ "\n", ""⟩
  | .listFormats => ⟨0, formatList, ""⟩
  | .help => ⟨0, helpText, ""⟩
  | .version => ⟨0, versionText, ""⟩

def run (env : Environment) (arguments : List String) : Outcome :=
  match parse arguments with
  | .ok request => request.run env
  | .error e =>
    match e.message? with
    | some message => ⟨2, "", "error: " ++ message ++ "\n"⟩
    | none => ⟨2, "", helpText⟩

/-! ### Files of a request -/

/-- The paths of the files that a request may read. -/
def Request.paths (request : Request) : List String :=
  let ofSource (o : SourceOptions) : List String :=
    let configs := localConfigFile :: o.config.toList
    (if o.path = "-" then [] else [o.path]) ++ configs ++ configs.filterMap withExtension?
  match request with
  | .check o _ _ => ofSource o
  | .tokens o => ofSource o
  | _ => []

/-- Whether a request reads standard input. -/
def Request.readsStdin : Request → Bool
  | .check o _ _ => o.path = "-"
  | .tokens o => o.path = "-"
  | _ => false

end VarBlock.CommandLine
