import VarBlock.CommandLine.Request

/-!
# Reading a command line

    arguments (List String) ──parse──▶ Request, or a UsageError

The arguments are read from left to right. An option's value and a positional argument are `pending`
until the next argument comes up or the line ends; only then are they checked and recorded. So a
fault in one of them is reported after it was read, unless the argument that follows is itself
refused first.
-/

namespace VarBlock.CommandLine

inductive ValueOption
  | config
  | language
  | format
deriving DecidableEq, Repr

namespace ValueOption

def name : ValueOption → String
  | config => "config"
  | language => "language"
  | format => "format"

def letter : ValueOption → Char
  | config => 'c'
  | language => 'l'
  | format => 'f'

/-- An option as messages name it. -/
def display (o : ValueOption) : String := "--" ++ o.name ++ " <" ++ o.name ++ ">"

end ValueOption

namespace Command

/-- The options with a value that a command takes. -/
def valueOptions : Command → List ValueOption
  | check => [.config, .language, .format]
  | tokens => [.config, .language]
  | sample => []
  | listFormats => []

/-- Whether a command takes an argument besides its options. -/
def takesArgument : Command → Bool
  | check => true
  | tokens => true
  | sample => true
  | listFormats => false

end Command

/-! ### The form of an argument -/

inductive ArgumentForm
  /-- Two dashes: what follows is no option. -/
  | escape
  /-- A long option, with the value after an equals sign if there is one. -/
  | long (name : String) (value : Option String)
  /-- One or more letters after a dash. -/
  | short (letters : List Char)
  /-- Anything else, also a lone dash. -/
  | plain
deriving DecidableEq, Repr

def ArgumentForm.of (argument : String) : ArgumentForm :=
  match argument.toList with
  | ['-', '-'] => escape
  | '-' :: '-' :: cs =>
    match cs.span (· ≠ '=') with
    | (name, []) => long (String.ofList name) none
    | (name, _ :: value) => long (String.ofList name) (some (String.ofList value))
  | ['-'] => plain
  | '-' :: cs => short cs
  | _ => plain

/-! ### The arguments of a command -/

/-- What has been read but not been checked yet. -/
inductive Pending
  /-- An option and, once it has come up, its value. -/
  | option (o : ValueOption) (value : Option String)
  /-- An argument that is no option. -/
  | argument (value : String)
deriving DecidableEq, Repr

/-- What has been read of the arguments of a command. -/
structure Progress where
  options : List (ValueOption × String)
  noSuccess : Bool
  argument : Option String
  pending : Option Pending
deriving DecidableEq, Repr

namespace Progress

def start : Progress := ⟨[], false, none, none⟩

/-- Record the value of an option, which is given only once. -/
def record (p : Progress) (o : ValueOption) (value : String) : Except UsageError Progress :=
  match p.options.lookup o with
  | some _ => .error (.repeated o.display)
  | none => .ok { p with options := p.options ++ [(o, value)] }

/-- Check and record what is pending. -/
def settle (c : Command) (p : Progress) : Except UsageError Progress :=
  let settled := { p with pending := none }
  match p.pending with
  | none => .ok p
  | some (.option o none) => .error (.valueMissing o.display)
  | some (.option o (some value)) => settled.record o value
  | some (.argument value) =>
    if c = .sample && (Sample.ofName? value).isNone then
      .error (if value.isEmpty then .valueMissing "[name]" else .invalidValue value "[name]")
    else .ok { settled with argument := some value }

def hasArgument (p : Progress) : Bool :=
  match p.pending with
  | some (.argument _) => true
  | _ => p.argument.isSome

/-- The option whose value has to come next, if there is one. -/
def awaiting? (p : Progress) : Option ValueOption :=
  match p.pending with
  | some (.option o none) => some o
  | _ => none

def readArgument (c : Command) (p : Progress) (argument : String) : Except UsageError Progress :=
  if c.takesArgument && !p.hasArgument then do
    let p ← p.settle c
    return { p with pending := some (.argument argument) }
  else .error (.unexpectedArgument argument)

/-- Read an option with its value attached, or without a value yet. -/
def readOption (c : Command) (p : Progress) (o : ValueOption) (value : Option String) :
    Except UsageError Progress := do
  let p ← p.settle c
  match value with
  | some v => p.record o v
  | none => return { p with pending := some (.option o none) }

/-- Read letters after a dash: flags, and at last an option whose value may follow at once, after an
equals sign or without one. Nothing is left to read where help is asked for. -/
def readLetters (c : Command) (p : Progress) : List Char → Except UsageError (Option Progress)
  | [] => .ok (some p)
  | 'v' :: letters => do (← p.settle c).readLetters c letters
  | 'h' :: _ => do
    let _ ← p.settle c
    return none
  | letter :: letters =>
    match c.valueOptions.find? fun o => o.letter = letter with
    | none => .error (.unexpectedArgument (String.ofList ['-', letter]))
    | some o =>
      let value := match letters with
        | [] => none
        | '=' :: value => some (String.ofList value)
        | value => some (String.ofList value)
      some <$> p.readOption c o value

def readLong (c : Command) (p : Progress) (name : String) (value : Option String) :
    Except UsageError (Option Progress) :=
  let flag (display : String) (next : Except UsageError (Option Progress)) :=
    match value with
    | some v => .error (.unexpectedValue v display)
    | none => next
  if name = "help" then flag "--help" do
    let _ ← p.settle c
    return none
  else if name = "verbose" then flag "--verbose..." (some <$> p.settle c)
  else if name = "no-success" && c = .check then flag "--no-success" do
    let p ← p.settle c
    if p.noSuccess then .error (.repeated "--no-success")
    else return some { p with noSuccess := true }
  else
    match c.valueOptions.find? fun o => o.name = name with
    | some o => some <$> p.readOption c o value
    | none => .error (.unexpectedArgument ("--" ++ name))

/-- What has been read, once nothing more comes. -/
def request (c : Command) (p : Progress) : Except UsageError Request := do
  let p ← p.settle c
  let source : Except UsageError SourceOptions :=
    match p.argument with
    | some path => .ok ⟨path, p.options.lookup .config, p.options.lookup .language⟩
    | none => .error .noPath
  match c with
  | .check => return .check (← source) (p.options.lookup .format) p.noSuccess
  | .tokens => return .tokens (← source)
  | .sample => return .sample ((p.argument.bind Sample.ofName?).getD .valid)
  | .listFormats => return .listFormats

end Progress

/-- Read the arguments after the name of a command; after two dashes none is an option. -/
def readCommand (c : Command) (escaped : Bool) (p : Progress) :
    List String → Except UsageError Request
  | [] => p.request c
  | argument :: rest => do
    if escaped then readCommand c true (← p.readArgument c argument) rest
    else
      match ArgumentForm.of argument with
      | .escape => readCommand c true p rest
      | .long name value =>
        match ← p.readLong c name value with
        | some p => readCommand c false p rest
        | none => return .help
      | .short letters =>
        match ← p.readLetters c letters with
        | some p => readCommand c false p rest
        | none => return .help
      | .plain =>
        match p.awaiting? with
        | some o => readCommand c false { p with pending := some (.option o (some argument)) } rest
        | none => readCommand c false (← p.readArgument c argument) rest

/-! ### Before the command -/

/-- Whether a name is that of a command or of the help on commands. -/
def isCommandName (name : String) : Bool := name = "help" || (Command.ofName? name).isSome

/-- Read the names after `help`: at most one command. -/
def readHelp : List String → Except UsageError Request
  | [] => .ok .help
  | [name] => if isCommandName name then .ok .help else .error (.unknownCommand name)
  | name :: next :: _ =>
    .error (.unknownCommand (if isCommandName name then next else name))

/-- What the letters after a dash ask for, or nothing if reading goes on. -/
def readRootLetters : List Char → Except UsageError (Option Request)
  | [] => .ok none
  | 'v' :: letters => readRootLetters letters
  | 'h' :: _ => .ok (some .help)
  | 'V' :: _ => .ok (some .version)
  | letter :: _ => .error (.unexpectedArgument (String.ofList ['-', letter]))

/-- What a long option asks for, or nothing if reading goes on. -/
def readRootLong (name : String) (value : Option String) : Except UsageError (Option Request) :=
  let flag (display : String) (next : Option Request) : Except UsageError (Option Request) :=
    match value with
    | some v => .error (.unexpectedValue v display)
    | none => .ok next
  if name = "help" then flag "--help" (some .help)
  else if name = "version" then flag "--version" (some .version)
  else if name = "verbose" then flag "--verbose..." none
  else .error (.unexpectedArgument ("--" ++ name))

/-- The refusal of a line that ends before a command; `hasOptions` tells whether it is empty. -/
def commandMissing (hasOptions : Bool) : UsageError := if hasOptions then .noCommand else .nothing

/-- Read the options before the command, and the command. -/
def readRoot (hasOptions : Bool) : List String → Except UsageError Request
  | [] => .error (commandMissing hasOptions)
  | argument :: rest =>
    match Command.ofName? argument, ArgumentForm.of argument with
    | some c, _ => readCommand c false .start rest
    | none, .escape =>
      match rest with
      | [] => .error (commandMissing hasOptions)
      | name :: _ =>
        .error (if isCommandName name then .unexpectedArgument name else .unknownCommand name)
    | none, .long name value => do
      match ← readRootLong name value with
      | some request => return request
      | none => readRoot true rest
    | none, .short letters => do
      match ← readRootLetters letters with
      | some request => return request
      | none => readRoot true rest
    | none, .plain => if argument = "help" then readHelp rest else .error (.unknownCommand argument)

def parse (arguments : List String) : Except UsageError Request := readRoot false arguments

end VarBlock.CommandLine
