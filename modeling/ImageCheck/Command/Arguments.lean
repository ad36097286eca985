/-
# Command lines

`SPEC_FULL` §6; the command line that `Cli` and `Commands` declare.

```text
imgspec [option...] compile [option...] [--] CLAUSE
imgspec [option...] batch [option...] [--] FILE
```

| option | value | where |
| --- | --- | --- |
| `--context` | a text | anywhere |
| `--config` | a path | anywhere |
| `--json` | | anywhere |
| `--log-level` | a level | anywhere |
| `--threads` | a number of 64 bits | after `batch` |
| `--fail-fast` | | after `batch` |
| `--version`, `-V` | | before the command |
| `--help`, `-h` | | anywhere |

A value follows as the next argument or after an equals sign. Each option is
given once before the command and once after it, where the latter counts. The
arguments are read from left to right, and the first that makes no sense, or asks
for the version or for help, ends the reading. After `--` nothing is an option.

* `Word.ofString`: the form of one argument;
* `Reading.step`: one argument after others;
* `Request.ofArguments`: what a command line asks for.
-/

import ImageCheck.Log.Level
import ImageCheck.Number.Decimal

namespace ImageCheck
namespace Command

/-- An argument by its form. -/
inductive Word where
  /-- An option with its name, perhaps with a value after an equals sign. -/
  | long (name : String) (value : Option String)
  /-- A dash and letters, of which the first is given apart. -/
  | short (letter : Char) (more : List Char)
  /-- Two dashes alone. -/
  | separator
  /-- Anything else; a dash alone too. -/
  | operand (text : String)
  deriving DecidableEq, Repr

/-- The form of an argument. -/
def Word.ofString (argument : String) : Word :=
  match argument.toList with
  | ['-', '-'] => .separator
  | '-' :: '-' :: rest =>
    let name := String.ofList (rest.takeWhile (· != '='))
    match rest.dropWhile (· != '=') with
    | [] => .long name none
    | _ :: value => .long name (some (String.ofList value))
  | '-' :: letter :: more => .short letter more
  | _ => .operand argument

/-- The options. -/
inductive Flag where
  | context
  | config
  | json
  | logLevel
  | threads
  | failFast
  | version
  | help
  deriving DecidableEq, Repr

/-- The part of a command line that an argument stands in. -/
inductive Place where
  /-- Before the command. -/
  | program
  /-- After `compile`. -/
  | compile
  /-- After `batch`. -/
  | batch
  /-- After `help`. -/
  | help
  deriving DecidableEq, Repr

/-- Whether an argument can be what a command works on. A path is not empty, a clause may be. -/
def Place.accepts : Place → String → Bool
  | .batch, text => text != ""
  | _, _ => true

namespace Flag

/-- Every option. -/
def all : List Flag := [context, config, json, logLevel, threads, failFast, version, help]

/-- The name of an option, without dashes. -/
def name : Flag → String
  | context => "context"
  | config => "config"
  | json => "json"
  | logLevel => "log-level"
  | threads => "threads"
  | failFast => "fail-fast"
  | version => "version"
  | help => "help"

/-- The letter of an option, if it has one. -/
def letter? : Flag → Option Char
  | version => some 'V'
  | help => some 'h'
  | _ => none

/-- Whether an option needs a value. -/
def takesValue : Flag → Bool
  | context | config | logLevel | threads => true
  | json | failFast | version | help => false

/-- Whether an option may stand in a part of the command line. -/
def belongsTo : Flag → Place → Bool
  | threads, place | failFast, place => place = .batch
  | version, place => place = .program
  | _, _ => true

/-- The option of a name that may stand in a part of the command line. -/
def ofName? (place : Place) (name : String) : Option Flag :=
  all.find? fun flag => flag.name = name && flag.belongsTo place

/-- The option of a letter that may stand in a part of the command line. -/
def ofLetter? (place : Place) (letter : Char) : Option Flag :=
  all.find? fun flag => flag.letter? = some letter && flag.belongsTo place

end Flag

/-- Why a command line makes no sense. -/
inductive UsageError where
  | unknownOption (argument : String)
  | missingValue (flag : Flag)
  | unexpectedValue (flag : Flag)
  | invalidValue (flag : Flag) (value : String)
  | repeatedOption (flag : Flag)
  | unknownCommand (name : String)
  | missingCommand
  | unexpectedOperand (text : String)
  | invalidOperand (text : String)
  | missingOperand
  deriving DecidableEq, Repr

/-- The wording of a refusal. -/
def UsageError.message : UsageError → String
  | unknownOption argument => "unexpected argument '" ++ argument ++ "'"
  | missingValue flag => "option '--" ++ flag.name ++ "' needs a value"
  | unexpectedValue flag => "option '--" ++ flag.name ++ "' takes no value"
  | invalidValue flag value => "invalid value '" ++ value ++ "' for option '--" ++ flag.name ++ "'"
  | repeatedOption flag => "option '--" ++ flag.name ++ "' is given twice"
  | unknownCommand name => "unknown command '" ++ name ++ "'"
  | missingCommand => "a command is needed"
  | unexpectedOperand text => "unexpected argument '" ++ text ++ "'"
  | invalidOperand text => "invalid argument '" ++ text ++ "' of the command"
  | missingOperand => "the command needs an argument"

/-- An option with its value. -/
inductive Setting where
  | context (directory : String)
  | config (path : String)
  | json
  | logLevel (level : Level)
  | threads (count : Nat)
  | failFast
  deriving DecidableEq

namespace Setting

/-- The option that is set. -/
def flag : Setting → Flag
  | context _ => .context
  | config _ => .config
  | json => .json
  | logLevel _ => .logLevel
  | threads _ => .threads
  | failFast => .failFast

/-- The most threads that can be asked for. -/
def maxThreads : Nat := 18446744073709551615

/-- An option that needs a value, with that value. A path is not empty. -/
def ofValue? (flag : Flag) (value : String) : Option Setting :=
  match flag with
  | .context => some (.context value)
  | .config => if value = "" then none else some (.config value)
  | .logLevel => (Level.parse? value).map .logLevel
  | .threads => (Decimal.parsePlusBounded? maxThreads value.toList).map .threads
  | _ => none

/-- The directory of the images, if it is given. -/
def context? : Setting → Option String
  | context directory => some directory
  | _ => none

/-- The configuration file, if it is given. -/
def config? : Setting → Option String
  | config path => some path
  | _ => none

/-- The level of the log, if it is given. -/
def logLevel? : Setting → Option Level
  | logLevel level => some level
  | _ => none

/-- The number of threads, if it is given. -/
def threads? : Setting → Option Nat
  | threads count => some count
  | _ => none

end Setting

/-- What a command works on. -/
inductive Task where
  /-- One clause. -/
  | compile (clause : String)
  /-- The clauses of a file. -/
  | batch (file : String) (threads : Option Nat) (failFast : Bool)
  deriving DecidableEq

/-- A command with its options. -/
structure Invocation where
  /-- The directory of the images. -/
  context : Option String
  /-- The configuration file. -/
  config : Option String
  /-- Whether results are written as JSON. -/
  json : Bool
  /-- The level of the log. -/
  logLevel : Option Level
  /-- What to work on. -/
  task : Task
  deriving DecidableEq

/-- What a command line asks for. -/
inductive Request where
  | run (invocation : Invocation)
  | version
  | help
  | refused (cause : UsageError)
  deriving DecidableEq

/-- What the arguments read so far have told. -/
structure Reading where
  /-- Where the next argument stands. -/
  place : Place
  /-- The options before the command. -/
  outer : List Setting
  /-- The options after the command. -/
  inner : List Setting
  /-- The option whose value comes next. -/
  pending : Option Flag
  /-- Whether no argument is an option any more. -/
  literal : Bool
  /-- The clause, the file, or the command to be explained. -/
  operand : Option String

namespace Reading

/-- Nothing has been read. -/
def initial : Reading := ⟨.program, [], [], none, false, none⟩

/-- The options of the part being read. -/
def settings (r : Reading) : List Setting := if r.place = .program then r.outer else r.inner

/-- Keeps an option that has not been given in this part before. -/
def keep (r : Reading) (setting : Setting) : Except Request Reading :=
  if r.settings.any fun other => other.flag = setting.flag then
    .error (.refused (.repeatedOption setting.flag))
  else if r.place = .program then .ok { r with outer := setting :: r.outer, pending := none }
  else .ok { r with inner := setting :: r.inner, pending := none }

/-- Gives an option its value. -/
def give (r : Reading) (flag : Flag) (value : String) : Except Request Reading :=
  match Setting.ofValue? flag value with
  | some setting => r.keep setting
  | none => .error (.refused (.invalidValue flag value))

/-- Takes an option without a value. -/
def turnOn (r : Reading) : Flag → Except Request Reading
  | .json => r.keep .json
  | .failFast => r.keep .failFast
  | .version => .error .version
  | .help => .error .help
  | flag => .ok { r with pending := some flag }

/-- Takes an option, perhaps with a value after an equals sign. -/
def option (r : Reading) (flag : Flag) : Option String → Except Request Reading
  | none => r.turnOn flag
  | some value =>
    if flag.takesValue then r.give flag value else .error (.refused (.unexpectedValue flag))

/-- Takes an argument that is no option. -/
def take (r : Reading) (text : String) : Except Request Reading :=
  match r.place with
  | .program =>
    if r.literal then .error (.refused (.unexpectedOperand text))
    else if text = "compile" then .ok { r with place := .compile }
    else if text = "batch" then .ok { r with place := .batch }
    else if text = "help" then .ok { r with place := .help, literal := true }
    else .error (.refused (.unknownCommand text))
  | .help =>
    if r.operand.isSome ∨ text ∉ ["compile", "batch", "help"] then
      .error (.refused (.unknownCommand text))
    else .ok { r with operand := some text }
  | place =>
    if r.operand.isSome then .error (.refused (.unexpectedOperand text))
    else if place.accepts text then .ok { r with operand := some text }
    else .error (.refused (.invalidOperand text))

/-- Reads one more argument. -/
def step (r : Reading) (argument : String) : Except Request Reading :=
  match r.pending with
  | some flag =>
    match Word.ofString argument with
    | .operand value => r.give flag value
    | _ => .error (.refused (.missingValue flag))
  | none =>
    if r.literal then r.take argument
    else
      match Word.ofString argument with
      | .separator => .ok { r with literal := true }
      | .operand text => r.take text
      | .long name value =>
        match Flag.ofName? r.place name with
        | some flag => r.option flag value
        | none => .error (.refused (.unknownOption argument))
      | .short letter _ =>
        match Flag.ofLetter? r.place letter with
        | some flag => r.turnOn flag
        | none => .error (.refused (.unknownOption argument))

/-- A command with the options before and after it. -/
def invocation (r : Reading) (task : Task) : Invocation :=
  let settings := r.inner ++ r.outer
  { context := settings.findSome? Setting.context?
    config := settings.findSome? Setting.config?
    json := settings.any (· = .json)
    logLevel := settings.findSome? Setting.logLevel?
    task := task }

/-- What all arguments ask for. -/
def finish (r : Reading) : Request :=
  match r.pending, r.place, r.operand with
  | some flag, _, _ => .refused (.missingValue flag)
  | none, .program, _ => .refused .missingCommand
  | none, .help, _ => .help
  | none, _, none => .refused .missingOperand
  | none, .compile, some clause => .run (r.invocation (.compile clause))
  | none, .batch, some file =>
    let threads := r.inner.findSome? Setting.threads?
    .run (r.invocation (.batch file threads (r.inner.any (· = .failFast))))

end Reading

/-- What a command line asks for. -/
def Request.ofArguments (arguments : List String) : Request :=
  match arguments.foldlM Reading.step Reading.initial with
  | .ok r => r.finish
  | .error request => request

end Command
end ImageCheck
