import VarBlock.Config.KeyPath
import VarBlock.Config.Value
import VarBlock.Settings
import VarBlock.Text.Lowercase

/-!
# Settings from a configuration

A configuration is decoded field by field. A scalar may stand for a setting of another type where
its meaning is plain, such as the string `"yes"` for a boolean; a section may be a table or the list
of its fields in order.
-/

namespace VarBlock.Config

/-- A section of the settings. -/
inductive Section
  | diagnostics
  | output
deriving DecidableEq, Repr

namespace Section

def key : Section → String
  | diagnostics => "diagnostics"
  | output => "output"

/-- The name of what a section decodes to, in messages. -/
def typeName : Section → String
  | diagnostics => "struct DiagnosticsConfig"
  | output => "struct OutputConfig"

/-- The number of fields of a section, in words. -/
def fieldCount : Section → String
  | diagnostics => "3 elements"
  | output => "1 element"

end Section

/-- The type of a scalar setting. -/
inductive ScalarType
  | boolean
  | string
deriving DecidableEq, Repr

/-- A type in words. -/
def ScalarType.name : ScalarType → String
  | boolean => "a boolean"
  | string => "a string"

/-- Why a configuration is no settings. -/
inductive DecodeError
  /-- A setting has a value that does not convert to its type. -/
  | wrongType (key : KeyPath) (found : Value) (expected : ScalarType)
  /-- No language has the given name. -/
  | unknownLanguage (name : String)
  /-- The language is neither a string nor a table with one key. -/
  | languageShape
  /-- A section is a scalar. -/
  | notSection (s : Section) (found : Value)
  /-- A section is a list that lacks fields. -/
  | tooShort (s : Section) (length : Nat)
  /-- A section is a table that lacks a field. -/
  | missingField (name : String)

/-- The wording of a decoding error. -/
def DecodeError.message : DecodeError → String
  | wrongType _ found expected =>
    "invalid type: " ++ found.description ++ ", expected " ++ expected.name
  | unknownLanguage name => "enum Language does not have variant constructor " ++ name
  | languageShape =>
    "value of enum Language should be represented by either string or table with exactly one key"
  | notSection s found => "invalid type: " ++ found.description ++ ", expected " ++ s.typeName
  | tooShort s length =>
    "invalid length " ++ toString length ++ ", expected " ++ s.typeName ++ " with " ++ s.fieldCount
  | missingField name => "missing field `" ++ name ++ "`"

/-! ### Scalars -/

/-- The strings that stand for a boolean. -/
def booleanOfWord? (s : String) : Option Bool :=
  if s ∈ ["1", "true", "on", "yes"] then some true
  else if s ∈ ["0", "false", "off", "no"] then some false
  else none

/-- A boolean. A number stands for whether it is not zero, a string for the boolean it names. -/
def decodeBoolean (key : KeyPath) (v : Value) : Except DecodeError Bool :=
  match v with
  | .boolean b => .ok b
  | .integer n => .ok (n ≠ 0)
  | .float x => .ok (x != 0.0)
  | .string s =>
    let word := Text.lowercase s
    match booleanOfWord? word with
    | some b => .ok b
    | none => .error (.wrongType key (.string word) .boolean)
  | v => .error (.wrongType key v .boolean)

/-- A string. Other scalars stand for their text. -/
def decodeString (key : KeyPath) (v : Value) : Except DecodeError String :=
  match v with
  | .string s => .ok s
  | .boolean b => .ok (toString b)
  | .integer n => .ok (toString n)
  | .float x => .ok (floatText x)
  | v => .error (.wrongType key v .string)

/-- The language of a name, whatever the case of its letters. -/
def decodeLanguageName (name : String) : Except DecodeError Language :=
  match Language.all.find? fun l => l.code = Text.lowercase name with
  | some l => .ok l
  | none => .error (.unknownLanguage name)

/-- A language: its name, or a table whose one key is its name. -/
def decodeLanguage (v : Value) : Except DecodeError Language :=
  match v with
  | .string name => decodeLanguageName name
  | .table [(name, _)] => decodeLanguageName name
  | _ => .error .languageShape

/-! ### Sections -/

/-- A field that has to be there. -/
def required {α : Type} (name : String) (field : Option α) : Except DecodeError α :=
  match field with
  | some a => .ok a
  | none => .error (.missingField name)

/-- A field of a section that is a list. -/
def element (s : Section) (vs : List Value) (i : Nat) : Except DecodeError Value :=
  match vs[i]? with
  | some v => .ok v
  | none => .error (.tooShort s i)

/-- The path of a field by its name. -/
def fieldKey (s : Section) (name : String) : KeyPath := ⟨s.key, [.child name]⟩

/-- The path of a field by its place. -/
def elementKey (s : Section) (i : Nat) : KeyPath := ⟨s.key, [.index i]⟩

/-- The settings of diagnostics. A field that does not decode is reported before one that is
missing. -/
def decodeDiagnostics (v : Value) : Except DecodeError DiagnosticsSettings :=
  let s := Section.diagnostics
  match v with
  | .table es => do
    let language ← (es.lookup "language").mapM decodeLanguage
    let success ← (es.lookup "report_success").mapM (decodeBoolean (fieldKey s "report_success"))
    let positions ← (es.lookup "show_positions").mapM (decodeBoolean (fieldKey s "show_positions"))
    let language ← required "language" language
    let success ← required "report_success" success
    let positions ← required "show_positions" positions
    return ⟨language, success, positions⟩
  | .array vs => do
    let language ← decodeLanguage (← element s vs 0)
    let success ← decodeBoolean (elementKey s 1) (← element s vs 1)
    let positions ← decodeBoolean (elementKey s 2) (← element s vs 2)
    return ⟨language, success, positions⟩
  | v => .error (.notSection s v)

def decodeOutput (v : Value) : Except DecodeError String :=
  let s := Section.output
  match v with
  | .table es => do
    let format ← (es.lookup "format").mapM (decodeString (fieldKey s "format"))
    required "format" format
  | .array vs => do decodeString (elementKey s 0) (← element s vs 0)
  | v => .error (.notSection s v)

def decodeSettings (root : Value) : Except DecodeError Settings := do
  let diagnostics ← required "diagnostics" (root.entries.lookup "diagnostics")
  let output ← required "output" (root.entries.lookup "output")
  return ⟨← decodeDiagnostics diagnostics, ← decodeOutput output⟩

end VarBlock.Config
