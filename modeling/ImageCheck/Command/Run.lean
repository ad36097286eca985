/-
# Commands

`SPEC_FULL` §6; `main`, with `init_logging`, `run_compile` and `run_batch`.

What the program does for a command line: it starts the log, reads the
configuration, and compiles a clause or a file of clauses. A result goes to the
standard output; the log and failures go to the standard error.

| exit | meaning |
| --- | --- |
| `0` | everything compiled |
| `1` | something did not compile or could not be read |
| `2` | the command line makes no sense |

* `Invocation.response`: what a command answers;
* `respond`: what a command line is answered.
-/

import ImageCheck.Batch.Report
import ImageCheck.Command.Arguments
import ImageCheck.Config.File
import ImageCheck.Log.Session

namespace ImageCheck
namespace Command

/-- What a program writes, given the time that its work took, and how it ends. -/
structure Response where
  /-- The exit code. -/
  exit : UInt8
  /-- What goes to the standard output. -/
  stdout : Duration → String
  /-- What goes to the standard error. -/
  stderr : Duration → String

/-- What a program finds around it. -/
structure Surroundings where
  /-- The environment variables. -/
  environment : Environment
  /-- The files. -/
  files : Files
  /-- The time, in seconds. -/
  clock : Int
  /-- The threads of a batch for which none are given. -/
  threads : Nat

/-- Lines of text, each with its end. -/
def unlines (lines : List String) : String :=
  String.join (lines.map (· ++ "\n"))

/-- A value for the standard output, in lines. -/
def printed (value : Json) : String := String.ofList value.indented ++ "\n"

/-- The answer when the program cannot do its work. -/
def failure (log : Session) (name : String) : Response where
  exit := 1
  stdout _ := ""
  stderr _ := unlines log.lines ++ "Error: " ++ name ++ "\n"

namespace Invocation

/-- How the log is kept: a level on the command line also turns the log on. -/
def preferences (i : Invocation) (env : Environment) : Preferences :=
  let p := Preferences.ofEnvironment env
  match i.logLevel with
  | some level => { p with level := level, console := true }
  | none => p

/-- The log when the work begins. -/
def log (i : Invocation) (s : Surroundings) : Session :=
  let fresh := Session.fresh s.environment s.clock
  ((fresh.act (.install (i.preferences s.environment))).1.act .start).1

/-- The defaults of every clause: those of the configuration file, else those of the environment. -/
def defaults (i : Invocation) (s : Surroundings) : Except ConfigError Defaults :=
  match i.config with
  | some path => Defaults.load s.files path
  | none => .ok (Defaults.ofEnvironment s.environment)

/-- A clause on the command line, to the log. -/
def subject : Subject := ⟨"<command line>", 0⟩

/-- The answer for one clause. -/
def compileResponse (i : Invocation) (log : Session) (defaults : Defaults) (clause : String) :
    Response :=
  let c := Compilation.ofClause i.context defaults clause
  let log := log.reportAbout subject c.reports
  match c.result with
  | .ok spec =>
    { exit := 0
      stdout := fun _ => if i.json then printed spec.toJson else spec.report
      stderr := fun _ => unlines log.lines }
  | .error e =>
    { exit := 1
      stdout := fun _ => ""
      stderr := fun _ => unlines log.lines ++ e.report clause }

/-- The answer for the clauses of a file. -/
def batchResponse (i : Invocation) (s : Surroundings) (log : Session) (defaults : Defaults)
    (file : String) (threads : Option Nat) (failFast : Bool) : Response :=
  let options := ⟨threads.getD s.threads, failFast, i.context⟩
  match Batch.readClauses s.files file with
  | .error e => failure log e.name
  | .ok clauses =>
    match Batch.run defaults options clauses with
    | .error e => failure log e.name
    | .ok run =>
      { exit := if run.failed = 0 then 0 else 1
        stdout := fun elapsed => if i.json then printed run.toJson else run.report elapsed
        stderr := fun elapsed => unlines (log.write (run.events elapsed)).lines }

/-- The answer of a command. -/
def response (i : Invocation) (s : Surroundings) : Response :=
  let log := i.log s
  match i.defaults s with
  | .error e => failure log e.name
  | .ok defaults =>
    match i.task with
    | .compile clause => i.compileResponse log defaults clause
    | .batch file threads failFast => i.batchResponse s log defaults file threads failFast

end Invocation

/-- The name and the version of the program. -/
def versionLine : String := "imgspec 0.1.0\n"

/-- How the program is used. -/
def usage : String :=
  unlines
    ["Usage: imgspec [OPTIONS] compile <CLAUSE>",
     "       imgspec [OPTIONS] batch [--threads <N>] [--fail-fast] <FILE>",
     "",
     "Options:",
     "  --context <DIRECTORY>  directory of the images",
     "  --config <FILE>        TOML file with a table image_spec of defaults",
     "  --json                 write results as JSON",
     "  --log-level <LEVEL>    write a log of this level (error, warn, info, debug)",
     "  --threads <N>          number of threads of a batch",
     "  --fail-fast            stop a batch at the first failure",
     "  -h, --help             show this text",
     "  -V, --version          show the version"]

/-- The files that a request may read. -/
def Request.paths : Request → List String
  | .run i =>
    i.config.toList ++
      match i.task with
      | .compile _ => []
      | .batch file _ _ => [file]
  | _ => []

/-- What a request is answered. -/
def Request.response (s : Surroundings) : Request → Response
  | .run i => i.response s
  | .version => ⟨0, fun _ => versionLine, fun _ => ""⟩
  | .help => ⟨0, fun _ => usage, fun _ => ""⟩
  | .refused e => ⟨2, fun _ => "", fun _ => "error: " ++ e.message ++ "\n\n" ++ usage⟩

/-- What a command line is answered. -/
def respond (s : Surroundings) (arguments : List String) : Response :=
  (Request.ofArguments arguments).response s

end Command
end ImageCheck
