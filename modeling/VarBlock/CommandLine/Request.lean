import VarBlock.Sample
import VarBlock.Text.Terminal

/-!
# What a command line asks for

The commands with their options, and the ways in which a command line may fail to be one.
-/

namespace VarBlock.CommandLine

inductive Command
  | check
  | tokens
  | sample
  | listFormats
deriving DecidableEq, Repr

namespace Command

def all : List Command := [check, tokens, sample, listFormats]

def name : Command → String
  | check => "check"
  | tokens => "tokens"
  | sample => "sample"
  | listFormats => "list-formats"

def ofName? (s : String) : Option Command := all.find? fun c => c.name = s

end Command

/-- Where the source is, and the options that choose its settings. -/
structure SourceOptions where
  /-- A path, or `-` for standard input. -/
  path : String
  /-- The path of a configuration file. -/
  config : Option String
  /-- The code of a language. -/
  language : Option String
deriving DecidableEq, Repr

inductive Request
  /-- Show a source in a format, and say whether it is valid. -/
  | check (options : SourceOptions) (format : Option String) (noSuccess : Bool)
  | tokens (options : SourceOptions)
  | sample (s : Sample)
  | listFormats
  | help
  | version
deriving DecidableEq, Repr

/-- Why a command line asks for nothing. -/
inductive UsageError
  | nothing
  /-- It has options, but no command. -/
  | noCommand
  /-- It names a command that does not exist. -/
  | unknownCommand (name : String)
  /-- An argument or option has no place. -/
  | unexpectedArgument (argument : String)
  | unexpectedValue (value flag : String)
  /-- An option or argument has no value. -/
  | valueMissing (argument : String)
  /-- An option or flag is given twice. -/
  | repeated (argument : String)
  /-- The value is not among those of the argument. -/
  | invalidValue (value argument : String)
  | noPath
deriving DecidableEq, Repr

/-- The wording of a usage error; the empty command line is answered by an explanation instead. What
it quotes from the command line is shown without control sequences. -/
def UsageError.message? : UsageError → Option String
  | nothing => none
  | noCommand => some "'vardecl' requires a subcommand but one was not provided"
  | unknownCommand name => some ("unrecognized subcommand '" ++ shown name ++ "'")
  | unexpectedArgument argument => some ("unexpected argument '" ++ shown argument ++ "' found")
  | unexpectedValue value flag =>
    some ("unexpected value '" ++ shown value ++ "' for '" ++ flag ++
      "' found; no more were expected")
  | valueMissing argument =>
    some ("a value is required for '" ++ argument ++ "' but none was supplied")
  | repeated argument => some ("the argument '" ++ argument ++ "' cannot be used multiple times")
  | invalidValue value argument =>
    some ("invalid value '" ++ shown value ++ "' for '" ++ argument ++ "'")
  | noPath => some "the following required arguments were not provided:\n  <path>"
where
  /-- A text from the command line as messages show it. -/
  shown (text : String) : String := Text.withoutControlSequences text

end VarBlock.CommandLine
