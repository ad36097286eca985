/-
# A session of the log

`SPEC_FULL` §5 and §8a, Logging; `init_runtime_preferences`, `init_global_logging`,
`set_clause_context`, `clear_clause_context`, and `LoggingService` with `should_log` and
`log_event`.

The log of a process is set up at most once. Preferences may be installed before
that, also once; without them the environment decides. From its start on the log
writes to one sink, fixed by the preferences in force at that moment, and adds to
every report the clause being compiled, if one is set.

* `Session.install`, `Session.start`: the two steps of setting up;
* `Session.enter`, `Session.leave`: the clause that reports are about;
* `Session.report`: what the log writes for reports;
* `Session.act`: one action of a session, and what comes of it.
-/

import ImageCheck.Compile.Compilation
import ImageCheck.Config.Environment

namespace ImageCheck

/-- Where the log writes. -/
inductive Backend where
  /-- Nowhere. -/
  | discard
  /-- Lines of text. -/
  | plain
  /-- Lines of JSON. -/
  | structured
  deriving DecidableEq, Repr

/-- A backend with the most detailed level that it keeps. -/
structure Sink where
  /-- Where the log writes. -/
  backend : Backend
  /-- What the log keeps. -/
  level : Level
  deriving DecidableEq

namespace Sink

/-- The sink that preferences ask for. -/
def ofPreferences (p : Preferences) : Sink :=
  ⟨if p.console then if p.structured then .structured else .plain else .discard, p.level⟩

/-- Whether a sink keeps events of a level. -/
def keeps (s : Sink) (level : Level) : Bool := level.isKeptBy s.level

/-- The lines that a sink writes for events, at a time in seconds. -/
def write (s : Sink) (seconds : Int) (events : List Event) : List String :=
  let kept := events.filter fun e => s.keeps e.level
  match s.backend with
  | .discard => []
  | .plain => kept.map Event.line
  | .structured => kept.map (Event.jsonLine seconds)

end Sink

/-- Why a step of setting up the log is refused. -/
inductive SetupError where
  /-- Preferences have been installed before. -/
  | alreadyInstalled
  /-- The log has been started before. -/
  | alreadyStarted
  deriving DecidableEq, Repr

/-- The wording of a refusal. -/
def SetupError.message : SetupError → String
  | alreadyInstalled => "Runtime preferences already initialized"
  | alreadyStarted => "Global logger already initialized"

/-- The log of a process. -/
structure Session where
  /-- The environment of the process. -/
  environment : Environment
  /-- The time of every event, in seconds. -/
  clock : Int
  /-- The preferences, once they are installed. -/
  installed : Option Preferences
  /-- Where the log writes, once it is started. -/
  sink : Option Sink
  /-- The clause that reports are about. -/
  subject : Option Subject
  /-- The lines written so far. -/
  lines : List String

namespace Session

/-- A session in which nothing has happened. -/
def fresh (environment : Environment) (clock : Int) : Session :=
  ⟨environment, clock, none, none, none, []⟩

/-- The preferences in force: those installed, else those of the environment. -/
def preferences (s : Session) : Preferences :=
  s.installed.getD (.ofEnvironment s.environment)

/-- Whether details for debugging would be written. -/
def debugEnabled (s : Session) : Bool :=
  match s.sink with
  | some sink => sink.keeps .debug
  | none => false

/-- Writes events as they are. -/
def write (s : Session) (events : List Event) : Session :=
  match s.sink with
  | some sink => { s with lines := s.lines ++ sink.write s.clock events }
  | none => s

/-- Writes what the program tells the log about the clause that is set. -/
def report (s : Session) (reports : List Report) : Session :=
  s.write (reports.map (Report.event s.subject))

/-- Installs preferences, once. -/
def install (s : Session) (p : Preferences) : Except SetupError Session :=
  match s.installed with
  | some _ => .error .alreadyInstalled
  | none => .ok { s with installed := some p }

/-- The first event of a log that is started. -/
def greeting : Event := .success .logStarted "Global logging system initialized"

/-- Starts the log, once. -/
def start (s : Session) : Except SetupError Session :=
  match s.sink with
  | some _ => .error .alreadyStarted
  | none => .ok ({ s with sink := some (.ofPreferences s.preferences) }.write [greeting])

/-- Sets the clause that reports are about. -/
def enter (s : Session) (subject : Subject) : Session := { s with subject := some subject }

/-- Reports are about no clause any more. -/
def leave (s : Session) : Session := { s with subject := none }

/-- Reports about one clause; afterwards no clause is set. -/
def reportAbout (s : Session) (subject : Subject) (reports : List Report) : Session :=
  ((s.enter subject).report reports).leave

/-- What a session can be asked to do. -/
inductive Action where
  | install (p : Preferences)
  | start
  | enter (subject : Subject)
  | leave
  | report (r : Report)
  /-- Compile a clause, as the given subject or as the one that is set. -/
  | compile (subject : Option Subject) (directory : Option String) (defaults : Defaults)
      (text : String)

/-- What comes of an action. -/
inductive Reply where
  | done
  | accepted
  | refused (cause : SetupError)
  | compiled (result : Except CompileError Spec)

/-- One action of a session. -/
def act (s : Session) : Action → Session × Reply
  | .install p =>
    match s.install p with
    | .ok s => (s, .accepted)
    | .error e => (s, .refused e)
  | .start =>
    match s.start with
    | .ok s => (s, .accepted)
    | .error e => (s, .refused e)
  | .enter subject => (s.enter subject, .done)
  | .leave => (s.leave, .done)
  | .report r => (s.report [r], .done)
  | .compile subject directory defaults text =>
    let c := Compilation.ofClause directory defaults text
    match subject with
    | some subject => (s.reportAbout subject c.reports, .compiled c.result)
    | none => (s.report c.reports, .compiled c.result)

end Session
end ImageCheck
