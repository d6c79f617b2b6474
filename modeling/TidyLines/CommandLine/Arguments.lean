import TidyLines.CommandLine.Command
import TidyLines.Text

/-!
# Reading the arguments of the program

Arguments are read from the left.  Options have long names after two dashes and some have a letter
after one dash; letters may stand together, and a value may follow its option directly, after a
sign of equality or as the next argument.  Two dashes alone end the options.  The first argument
that is wrong decides, and so does a request for help.
-/

namespace TidyLines.CommandLine

/-- The options of the program. -/
inductive Name where
  | verbose
  | config
  | rules
  | exclude
  | stdin
  | format
  | dryRun
  | force
  | help
  | version
  deriving DecidableEq, Repr

namespace Name

/-- The long name of an option. -/
def long : Name → String
  | verbose => "verbose"
  | config => "config"
  | rules => "rules"
  | exclude => "exclude"
  | stdin => "stdin"
  | format => "format"
  | dryRun => "dry-run"
  | force => "force"
  | help => "help"
  | version => "version"

/-- The letter of an option, if it has one. -/
def letter? : Name → Option Char
  | verbose => some 'v'
  | config => some 'c'
  | exclude => some 'e'
  | format => some 'f'
  | help => some 'h'
  | version => some 'V'
  | _ => none

/-- Whether an option has a value. -/
def hasValue : Name → Bool
  | config => true
  | rules => true
  | exclude => true
  | format => true
  | _ => false

/-- Whether an option may come more than once. -/
def isRepeatable : Name → Bool
  | exclude => true
  | _ => false

/-- Whether an option accepts a value. -/
def accepts : Name → String → Bool
  | config, value => value != ""
  | format, value => (OutputFormat.ofName? value).isSome
  | _, _ => true

end Name

/-- Where arguments are read. -/
inductive Level where
  | program
  | check
  | format
  | listRules
  | init
  deriving DecidableEq, Repr

namespace Level

/-- The level of a command. -/
def ofCommand? : String → Option Level
  | "check" => some check
  | "format" => some format
  | "list-rules" => some listRules
  | "init" => some init
  | _ => none

/-- The options at a level. -/
def options : Level → List Name
  | program => [.verbose, .config, .help, .version]
  | check => [.verbose, .config, .help, .rules, .exclude, .stdin, .format]
  | format => [.verbose, .config, .help, .rules, .exclude, .stdin, .format, .dryRun]
  | listRules => [.verbose, .config, .help]
  | init => [.verbose, .config, .help, .force]

/-- Whether a path may be given at a level. -/
def takesPath : Level → Bool
  | check => true
  | format => true
  | _ => false

end Level

/-- Why the arguments name no command. -/
inductive Stop where
  | help
  | version
  | usage
  deriving DecidableEq, Repr

/-- What has been given at a level. -/
structure Given where
  /-- The options with their values, the last one first. -/
  reversed : List (Name × String) := []
  path : Option String := none
  deriving DecidableEq, Repr

namespace Given

/-- Whether an option has been given. -/
def has (given : Given) (name : Name) : Bool := given.reversed.any (·.1 == name)

/-- The value of an option. -/
def value? (given : Given) (name : Name) : Option String := given.reversed.lookup name

/-- The values of an option that may come more than once, in order. -/
def values (given : Given) (name : Name) : List String :=
  (given.reversed.reverse.filter (·.1 == name)).map Prod.snd

/-- Adds an option. -/
def add (given : Given) (name : Name) (value : String) : Except Stop Given :=
  match name with
  | .help => .error .help
  | .version => .error .version
  | _ =>
    if !name.isRepeatable && given.has name then .error .usage
    else if !name.accepts value then .error .usage
    else .ok { given with reversed := (name, value) :: given.reversed }

/-- Adds a path. -/
def addPath (given : Given) (level : Level) (path : String) : Except Stop Given :=
  if level.takesPath && given.path.isNone && path != "" then .ok { given with path := some path }
  else .error .usage

end Given

/-- The kinds of arguments by their spelling. -/
inductive Argument where
  | endOfOptions
  /-- A long name, perhaps with a value. -/
  | long (name : String) (value : Option String)
  | letters (text : Text)
  | plain (text : String)
  deriving DecidableEq, Repr

/-- The kind of an argument. -/
def Argument.ofString (argument : String) : Argument :=
  match argument.toList with
  | ['-', '-'] => .endOfOptions
  | '-' :: '-' :: rest =>
    let name := String.ofList (rest.takeWhile (· != '='))
    match rest.dropWhile (· != '=') with
    | [] => .long name none
    | _ :: value => .long name (some (String.ofList value))
  | '-' :: letter :: rest => .letters (letter :: rest)
  | _ => .plain argument

/-- What is left to do after some letters. -/
inductive AfterLetters where
  /-- Nothing. -/
  | nothing
  /-- An option awaits its value. -/
  | value (name : Name)
  deriving DecidableEq, Repr

/-- Reads letters at a level. -/
def readLetters (level : Level) (given : Given) : Text → Except Stop (Given × AfterLetters)
  | [] => .ok (given, .nothing)
  | letter :: rest =>
    match level.options.find? (fun name => name.letter? == some letter) with
    | none => .error .usage
    | some name =>
      if name.hasValue then
        match rest with
        | [] => .ok (given, .value name)
        | '=' :: value => do return (← given.add name (String.ofList value), .nothing)
        | value => do return (← given.add name (String.ofList value), .nothing)
      else do readLetters level (← given.add name "") rest

/-- Reads a long option at a level. -/
def readLong (level : Level) (given : Given) (name : String) (value : Option String) :
    Except Stop (Given × AfterLetters) :=
  match level.options.find? (fun option => option.long == name) with
  | none => .error .usage
  | some option =>
    if option.hasValue then
      match value with
      | some value => do return (← given.add option value, .nothing)
      | none => .ok (given, .value option)
    else if value.isSome then .error .usage
    else do return (← given.add option "", .nothing)

/-- Reads an argument that is an option. -/
def readOption (level : Level) (given : Given) (argument : Argument) :
    Except Stop (Given × AfterLetters) :=
  match argument with
  | .long name value => readLong level given name value
  | .letters text => readLetters level given text
  | _ => .error .usage

/-- Reads the value of an option from the next argument, which must not look like an option. -/
def readValue (given : Given) (name : Name) (argument : String) : Except Stop Given :=
  match Argument.ofString argument with
  | .plain value => given.add name value
  | _ => .error .usage

/-- Reads the arguments after a command. -/
def readCommand (level : Level) (given : Given) (arguments : List String) : Except Stop Given :=
  match arguments with
  | [] => .ok given
  | argument :: rest =>
    match Argument.ofString argument with
    | .endOfOptions => rest.foldlM (fun given path => given.addPath level path) given
    | .plain path => do readCommand level (← given.addPath level path) rest
    | option => do
      match ← readOption level given option with
      | (given, .nothing) => readCommand level given rest
      | (given, .value name) =>
        match rest with
        | [] => .error .usage
        | value :: rest => readCommand level (← readValue given name value) rest

/-- What has been read of the arguments of the program. -/
structure ReadArguments where
  before : Given
  level : Level
  after : Given

/-- Reads the arguments after the word that asks for help, which may name a command. -/
def helpFor (arguments : List String) : Stop :=
  match arguments with
  | [] => .help
  | ["help"] => .help
  | [command] => if (Level.ofCommand? command).isSome then .help else .usage
  | _ => .usage

/-- Reads the arguments of the program. -/
def readProgram (given : Given) (arguments : List String) : Except Stop ReadArguments :=
  match arguments with
  | [] => .error .usage
  | argument :: rest =>
    match Argument.ofString argument with
    | .endOfOptions => .error .usage
    | .plain "help" => .error (helpFor rest)
    | .plain word =>
      match Level.ofCommand? word with
      | none => .error .usage
      | some level => do
        return { before := given, level, after := ← readCommand level {} rest }
    | option => do
      match ← readOption .program given option with
      | (given, .nothing) => readProgram given rest
      | (given, .value name) =>
        match rest with
        | [] => .error .usage
        | value :: rest => readProgram (← readValue given name value) rest

/-- The name of the variable that gives the configuration file when no option does. -/
def configVariable : String := "TRIMLINT_CONFIG"

namespace ReadArguments

/-- The configuration file.  An option after the command beats one before it, and both beat the
variable, which must not be empty wherever an option is missing. -/
def config (read : ReadArguments) (environment : List (String × String)) :
    Except Stop (Option Path) :=
  let options := (read.after.value? .config).or (read.before.value? .config)
  let both := read.after.has .config && read.before.has .config
  match environment.lookup configVariable with
  | some "" =>
    if both then .ok (options.map Path.ofString) else .error .usage
  | variableValue => .ok ((options.or variableValue).map Path.ofString)

/-- What the command works on. -/
def target (read : ReadArguments) : Except Stop Target :=
  let given := read.after
  if given.has .stdin && given.path.isSome then .error .usage
  else .ok {
    path := given.path.map Path.ofString
    rules := given.value? .rules
    excluded := given.values .exclude
    standardInput := given.has .stdin }

/-- How results are shown. -/
def outputFormat (read : ReadArguments) : OutputFormat :=
  ((read.after.value? .format).bind OutputFormat.ofName?).getD .text

/-- The command. -/
def command (read : ReadArguments) : Except Stop Command := do
  match read.level with
  | .check => return .check (← read.target) read.outputFormat
  | .format => return .format (← read.target) (read.after.has .dryRun) read.outputFormat
  | .listRules => return .listRules
  | .init => return .init (read.after.has .force)
  | .program => throw .usage

end ReadArguments

/-- The invocation that arguments and variables stand for. -/
def Invocation.ofArguments (arguments : List String) (environment : List (String × String)) :
    Except Stop Invocation := do
  let read ← readProgram {} arguments
  return {
    command := ← read.command
    verbose := read.before.has .verbose || read.after.has .verbose
    config := ← read.config environment }

end TidyLines.CommandLine
