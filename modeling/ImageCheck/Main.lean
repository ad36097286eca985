/-
# The program

`SPEC_FULL` §6; the outermost part of `main`.

Reads the environment, the files and the clock, and hands them to the commands.
All decisions are made there.
-/

import ImageCheck.Command.Run
import Std.Time.DateTime.Timestamp

namespace ImageCheck
namespace Program

/-- The cause of a failure of the system. -/
def fileErrorOfSystem : IO.Error → FileError
  | .noFileOrDirectory _ _ _ => .notFound
  | .inappropriateType _ _ _ => .isDirectory
  | e => .other (toString e)

/-- The text of a file. -/
def readTextFile (path : String) : IO (Except FileError String) := do
  try
    let bytes ← IO.FS.readBinFile path
    match String.fromUTF8? bytes with
    | some text => return .ok text
    | none => return .error .notText
  catch e => return .error (fileErrorOfSystem e)

/-- The variables of the environment that matter. -/
def readEnvironment : IO Environment := do
  return {
    errorRate := ← IO.getEnv "IMGSPEC_DEFAULT_ERROR_RATE"
    tolerance := ← IO.getEnv "IMGSPEC_DEFAULT_TOLERANCE"
    structured := ← IO.getEnv "IMGSPEC_LOGGING_USE_STRUCTURED"
    console := ← IO.getEnv "IMGSPEC_LOGGING_ENABLE_CONSOLE"
    level := ← IO.getEnv "IMGSPEC_LOGGING_MIN_LEVEL" }

/-- The files that a request needs, read beforehand. -/
def readFiles (request : Command.Request) : IO Files := do
  let paths := request.paths
  let contents ← paths.mapM readTextFile
  let table := paths.zip contents
  return fun path => (table.lookup path).getD (.error .notFound)

/-- Answers a command line. -/
def answer (arguments : List String) : IO UInt32 := do
  let started ← IO.monoNanosNow
  let request := Command.Request.ofArguments arguments
  let now ← Std.Time.Timestamp.now
  let surroundings : Command.Surroundings := {
    environment := ← readEnvironment
    files := ← readFiles request
    clock := now.toSecondsSinceUnixEpoch.val
    threads := Batch.maxWorkers }
  let response := request.response surroundings
  let code := response.exit.toUInt32
  let finished ← IO.monoNanosNow
  let elapsed : Duration := ⟨finished - started⟩
  IO.eprint (response.stderr elapsed)
  IO.print (response.stdout elapsed)
  return code

end Program
end ImageCheck

/-- The program. -/
def main (arguments : List String) : IO UInt32 :=
  ImageCheck.Program.answer arguments
