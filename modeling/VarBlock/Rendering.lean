import VarBlock.Json
import VarBlock.Message
import VarBlock.OutputFormat
import VarBlock.Position
import VarBlock.Settings
import VarBlock.Source

/-!
# Rendering a source in an output format

    source (String) ──process──▶ output (String), with the tokens and the report behind it

The simple layouts hold one line for each token, diagnostic or step; the JSON layouts hold the same
records as objects.
-/

namespace VarBlock

/-- A source with the table of its lines, its tokens and its report. -/
structure Analysis where
  lines : LineTable
  tokens : List Token
  report : Report
deriving DecidableEq, Repr

def Analysis.ofSource (source : String) : Analysis where
  lines := .ofString source
  tokens := tokenize source
  report := validate (tokenize source)

/-- Lines one after the other, each ended by a line feed. -/
def joinLines (lines : List String) : String :=
  String.ofList (lines.flatMap fun line => line.toList ++ ['\n'])

namespace Analysis

/-- A place as the settings want it shown. -/
def place (a : Analysis) (s : DiagnosticsSettings) (offset : Nat) : String :=
  if s.showPositions then (a.lines.position offset).text else toString offset

/-! ### Simple layouts -/

/-- The line of a token: place, kind and quoted text. -/
def tokenLine (a : Analysis) (s : DiagnosticsSettings) (t : Token) : String :=
  a.place s t.offset ++ " " ++ t.kind.name ++ " " ++ Text.quoted t.text

/-- The line of a diagnostic: place and message. -/
def diagnosticLine (a : Analysis) (s : DiagnosticsSettings) (d : Diagnostic) : String :=
  a.place s d.range.start ++ ": " ++ d.message s.language

/-- The lines after the diagnostics: that a valid block is valid, if the settings ask for it. -/
def successLines (a : Analysis) (s : DiagnosticsSettings) : List String :=
  if a.report.isValid && s.reportSuccess then [s.language.success] else []

/-- The line of a step: index, quoted text of the token, and the two states. -/
def stepLine (t : Token) (step : Step) : String :=
  toString step.index ++ " " ++ Text.quoted t.text ++ " " ++ step.source.name ++ " -> " ++
    step.target.name ++ if step.recovered then " (recovered)" else ""

/-- The lines of a trace: one for each step, and the final state. -/
def traceLines (a : Analysis) : List String :=
  List.zipWith stepLine a.tokens a.report.trace ++ ["final: " ++ a.report.finalState.name]

/-! ### JSON layouts -/

def tokenJson (t : Token) : Json :=
  .object [("kind", .string t.kind.name), ("text", .string t.text), ("offset", .number t.offset)]

/-- The fields that say what is wrong. -/
def problemFields : Problem → List (String × Json)
  | .unexpectedToken state mismatch text =>
    [("kind", .string "unexpected_token"), ("state", .string state.name),
      ("expected", .string mismatch.expected.name), ("found", .string mismatch.found.name),
      ("found_text", .string text)]
  | .unterminated state =>
    [("kind", .string "unterminated_declaration"), ("state", .string state.name)]

def rangeJson (r : Span) : Json := .object [("start", .number r.start), ("end", .number r.stop)]

def positionJson (p : Position) : Json :=
  .object [("line", .number p.line), ("column", .number p.column)]

/-- A diagnostic as an object; its position only if the settings ask for positions. -/
def diagnosticJson (a : Analysis) (s : DiagnosticsSettings) (d : Diagnostic) : Json :=
  .object <| problemFields d.problem ++
    [("range", rangeJson d.range), ("message", .string (d.message s.language))] ++
    if s.showPositions then [("position", positionJson (a.lines.position d.range.start))] else []

def reportJson (a : Analysis) (s : DiagnosticsSettings) : Json :=
  .object [("valid", .bool a.report.isValid), ("final_state", .string a.report.finalState.name),
    ("diagnostics", .array (a.report.diagnostics.map (a.diagnosticJson s)))]

/-! ### All formats -/

/-- The output in a format, or nothing for a trace as JSON. -/
def render? (a : Analysis) (s : DiagnosticsSettings) (f : OutputFormat) : Option String :=
  match f.stage, f.layout with
  | .tokens, .simple => some (joinLines (a.tokens.map (a.tokenLine s)))
  | .tokens, .json => some (Json.array (a.tokens.map tokenJson)).pretty
  | .diagnostics, .simple =>
    some (joinLines (a.report.diagnostics.map (a.diagnosticLine s) ++ a.successLines s))
  | .diagnostics, .json => some (a.reportJson s).pretty
  | .trace, .simple => some (joinLines a.traceLines)
  | .trace, .json => none

end Analysis

/-- Why a source cannot be shown. -/
inductive ProcessError
  /-- The name of the format is refused. -/
  | format (cause : FormatError)
  /-- The format has no rendering. -/
  | noRendering (f : OutputFormat)
  | unreadable (cause : ReadError)
deriving DecidableEq, Repr

def ProcessError.message : ProcessError → String
  | format cause => cause.message
  | noRendering f => "Invalid format type: " ++ f.name ++ " is not supported"
  | unreadable cause => "IO error: " ++ cause.message

/-- The output for a source, with what it was made from. -/
structure Processed where
  output : String
  analysis : Analysis
deriving DecidableEq, Repr

def process (f : OutputFormat) (s : DiagnosticsSettings) (source : String) :
    Except ProcessError Processed :=
  let analysis := Analysis.ofSource source
  match analysis.render? s f with
  | some output => .ok ⟨output, analysis⟩
  | none => .error (.noRendering f)

/-- Show the source that a file holds; `content` is what reading the file gave. -/
def processFile (f : OutputFormat) (s : DiagnosticsSettings)
    (content : Except ReadError ByteArray) : Except ProcessError Processed := do
  let source ← (content.bind decodeText).mapError .unreadable
  process f s source

end VarBlock
