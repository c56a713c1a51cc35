/-!
# Output formats

A format names what is shown, the stage, and how it is laid out: `tokens-json`. Main functions are
`OutputFormat.name` and, back from the name, `OutputFormat.ofName`. A trace has no JSON layout.
-/

namespace VarBlock

inductive Stage
  | tokens
  | diagnostics
  | trace
deriving DecidableEq, Repr

inductive Layout
  | simple
  | json
deriving DecidableEq, Repr

namespace Stage

def name : Stage → String
  | tokens => "tokens"
  | diagnostics => "diagnostics"
  | trace => "trace"

def all : List Stage := [tokens, diagnostics, trace]

def ofName? (s : String) : Option Stage := all.find? fun x => x.name = s

end Stage

namespace Layout

def name : Layout → String
  | simple => "simple"
  | json => "json"

def all : List Layout := [simple, json]

def ofName? (s : String) : Option Layout := all.find? fun x => x.name = s

end Layout

structure OutputFormat where
  stage : Stage
  layout : Layout
deriving DecidableEq, Repr

/-- Why a name is refused as an output format. -/
inductive FormatError
  /-- The name has no dash between a stage and a layout. -/
  | noDash (name : String)
  /-- What stands before the first dash is no stage. -/
  | unknownStage (stage : String)
  /-- What stands after the first dash is no layout. -/
  | unknownLayout (layout : String)
  /-- A trace is asked for as JSON. -/
  | traceAsJson
deriving DecidableEq, Repr

def FormatError.message : FormatError → String
  | noDash name => "Invalid format: " ++ name
  | unknownStage stage => "Invalid stage: " ++ stage
  | unknownLayout layout => "Invalid format type: " ++ layout
  | traceAsJson => "Invalid format type: Format 'json' is not supported for the trace stage"

namespace OutputFormat

/-- The formats on offer, in the order in which they are listed. -/
def available : List OutputFormat :=
  [⟨.tokens, .simple⟩, ⟨.tokens, .json⟩, ⟨.diagnostics, .simple⟩, ⟨.diagnostics, .json⟩,
    ⟨.trace, .simple⟩]

def name (f : OutputFormat) : String := f.stage.name ++ "-" ++ f.layout.name

/-- The parts of a text before and after its first dash. -/
def splitAtDash? (s : String) : Option (String × String) :=
  match s.toList.span (· ≠ '-') with
  | (_, []) => none
  | (stage, _ :: layout) => some (String.ofList stage, String.ofList layout)

def ofName (s : String) : Except FormatError OutputFormat :=
  match splitAtDash? s with
  | none => .error (.noDash s)
  | some (stageName, layoutName) =>
    match Stage.ofName? stageName, Layout.ofName? layoutName with
    | none, _ => .error (.unknownStage stageName)
    | some _, none => .error (.unknownLayout layoutName)
    | some .trace, some .json => .error .traceAsJson
    | some stage, some layout => .ok ⟨stage, layout⟩

end OutputFormat

end VarBlock
