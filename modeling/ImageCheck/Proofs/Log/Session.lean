/-
# What becomes of the calls of a session

`SPEC_FULL` §5 and §8a, Logging; `init_global_logging`, `with_clause_context`,
`attach_context`, `debug_enabled`, and `log_error` to `log_debug`.

A program sets up the log and talks to it by calls (`Call`), also from a body that is about one
clause (`Script.within`). What comes of a call depends on the calls before it:

| call | calls before it | reply | events |
| --- | --- | --- | --- |
| `install` | no `install` | accepted | none |
| `install` | an `install` | refused | none |
| `start` | no `start` | accepted | the greeting |
| `start` | a `start` | refused | none |
| `enter`, `leave` | any | done | none |
| `tell` | no `start` | done | none |
| `tell` | a `start` | done | the report, about the clause that was set last |

Events go to one sink (`Opened`): that of the preferences in force at the first `start`. These
are the preferences of the first `install`, if it came before, and otherwise those of the
environment (`FirstInstall`). The sink writes a line for each event that it keeps (`Emits`). The
clause is that of the last `enter` since which there was neither `enter` nor `leave` (`LastSet`).

`Answers` is the table, and `Reflects` what a session knows of the calls before. One call keeps
`Reflects` and is answered by the table (`Reflects.answer`); a whole script gives a
`Transcript`, in which every call is answered so. The actions of a session are scripts, and
the compiling of a clause is among them (`run_script`).
-/

import ImageCheck.Log.Session
import ImageCheck.Proofs.Log.Context

namespace ImageCheck
namespace Session

/-! ### Calls and scripts -/

/-- What a program can ask of the log. -/
inductive Call where
  | install (p : Preferences)
  | start
  | enter (subject : Subject)
  | leave
  /-- Tells the log something; a detail for debugging is dropped where it would not be written. -/
  | tell (r : Report)

/-- A program that talks to the log. -/
inductive Script where
  | done
  | call (c : Call) (rest : Script)
  /-- A body that is about a clause, and what follows it. -/
  | within (subject : Subject) (body rest : Script)

/-- The session after a call, and what comes of the call. -/
def answer (s : Session) : Call → Session × Reply
  | .install p => s.act (.install p)
  | .start => s.act .start
  | .enter subject => s.act (.enter subject)
  | .leave => s.act .leave
  | .tell r =>
    if r.level = .debug ∧ s.debugEnabled = false then (s, .done) else s.act (.report r)

/-- The session after calls, and what comes of each. -/
def answerAll (s : Session) : List Call → Session × List Reply
  | [] => (s, [])
  | c :: cs =>
    let (t, reply) := s.answer c
    let (u, replies) := t.answerAll cs
    (u, reply :: replies)

namespace Script

/-- The session after a script, and what comes of its calls. A body stands between the setting of
its clause and the clearing. -/
def run (s : Session) : Script → Session × List Reply
  | done => (s, [])
  | call c rest =>
    let (t, reply) := s.answer c
    let (u, replies) := rest.run t
    (u, reply :: replies)
  | within subject body rest =>
    let (t, entered) := s.act (.enter subject)
    let (u, inner) := body.run t
    let (v, left) := u.act .leave
    let (w, replies) := rest.run v
    (w, entered :: inner ++ left :: replies)

/-- The calls of a script, one after another. -/
def calls : Script → List Call
  | done => []
  | call c rest => c :: rest.calls
  | within subject body rest => .enter subject :: body.calls ++ .leave :: rest.calls

end Script

/-- The answers to two lists of calls are those to the first and then those to the second, from
where the first left the session. -/
theorem answerAll_append (s : Session) (cs ds : List Call) :
    s.answerAll (cs ++ ds) =
      (((s.answerAll cs).1.answerAll ds).1,
        (s.answerAll cs).2 ++ ((s.answerAll cs).1.answerAll ds).2) := by
  induction cs generalizing s with
  | nil => rfl
  | cons c cs ih => simp only [List.cons_append, answerAll, ih]

/-- A script does what its calls do. -/
theorem Script.run_eq (script : Script) (s : Session) :
    script.run s = s.answerAll script.calls := by
  induction script generalizing s with
  | done => rfl
  | call c rest ih => simp only [run, calls, answerAll, ih]
  | within subject body rest ihbody ihrest =>
    simp only [run, calls, answerAll, List.cons_append, answerAll_append, ihbody, ihrest]
    rfl

/-! ### What the calls before say -/

/-- The preferences that were installed first. -/
inductive FirstInstall : List Call → Option Preferences → Prop
  | never {done : List Call} (h : ∀ p, .install p ∉ done) : FirstInstall done none
  | first {before after : List Call} {p : Preferences} (h : ∀ q, .install q ∉ before) :
      FirstInstall (before ++ .install p :: after) (some p)

/-- The sink that preferences ask for. -/
inductive Chosen (p : Preferences) : Sink → Prop
  | discard (h : p.console = false) : Chosen p ⟨.discard, p.level⟩
  | plain (h : p.console = true) (hform : p.structured = false) : Chosen p ⟨.plain, p.level⟩
  | structured (h : p.console = true) (hform : p.structured = true) :
      Chosen p ⟨.structured, p.level⟩

/-- The sink that was opened: that of the preferences in force when the log was first started. -/
inductive Opened (environment : Environment) : List Call → Option Sink → Prop
  | never {done : List Call} (h : .start ∉ done) : Opened environment done none
  | first {before after : List Call} {installed : Option Preferences} {sink : Sink}
      (h : .start ∉ before) (hinstalled : FirstInstall before installed)
      (hsink : Chosen (installed.getD (.ofEnvironment environment)) sink) :
      Opened environment (before ++ .start :: after) (some sink)

/-- The calls that set or clear the clause. -/
def Call.setsSubject : Call → Bool
  | enter _ | leave => true
  | _ => false

/-- The clause that was set last, unless it was cleared since. -/
inductive LastSet : List Call → Option Subject → Prop
  | never {done : List Call} (h : ∀ c ∈ done, c.setsSubject = false) : LastSet done none
  | entered {before after : List Call} {subject : Subject}
      (h : ∀ c ∈ after, c.setsSubject = false) :
      LastSet (before ++ .enter subject :: after) (some subject)
  | left {before after : List Call} (h : ∀ c ∈ after, c.setsSubject = false) :
      LastSet (before ++ .leave :: after) none

/-- The event that tells a report while a clause is set or none. The names of the clause count more
than those of the report. -/
structure Tells (r : Report) (subject : Option Subject) (e : Event) : Prop where
  level : e.level = r.level
  code : e.code = r.code
  message : e.message = if r.level = .error then clamp r.message else r.message
  span : e.span = r.span
  clause : ∀ s ∈ subject, e.context.get? "clause" = some s.label ∧
    e.context.get? "clause_id" = some (toString s.index)
  fields : ∀ name, (subject.isSome → name ≠ "clause" ∧ name ≠ "clause_id") →
    e.context.get? name = (r.fields.reverse.lookup name).map clamp

/-- The lines that a sink writes for an event: one, unless it discards all events or the event is
more detailed than what it keeps. -/
inductive Emits (sink : Sink) (clock : Int) (e : Event) : List String → Prop
  | discarded (h : sink.backend = .discard) : Emits sink clock e []
  | filtered (h : sink.level.rank < e.level.rank) : Emits sink clock e []
  | line (h : sink.backend = .plain) (hlevel : e.level.rank ≤ sink.level.rank) :
      Emits sink clock e [e.line]
  | json (h : sink.backend = .structured) (hlevel : e.level.rank ≤ sink.level.rank) :
      Emits sink clock e [e.jsonLine clock]

/-- What comes of a call after the calls `done`, and the lines that the log writes for it. -/
inductive Answers (environment : Environment) (clock : Int) (done : List Call) :
    Call → Reply → List String → Prop
  | installed {p : Preferences} (h : ∀ q, .install q ∉ done) :
      Answers environment clock done (.install p) .accepted []
  | installedBefore {p q : Preferences} (h : .install q ∈ done) :
      Answers environment clock done (.install p) (.refused .alreadyInstalled) []
  | started {sink : Sink} {written : List String} (h : .start ∉ done)
      (hsink : Opened environment (done ++ [.start]) (some sink))
      (hcode : greeting.code.text = "I004") (hcontext : greeting.context.entries = [])
      (hwritten : Emits sink clock greeting written) :
      Answers environment clock done .start .accepted written
  | startedBefore (h : .start ∈ done) :
      Answers environment clock done .start (.refused .alreadyStarted) []
  | entered {subject : Subject} : Answers environment clock done (.enter subject) .done []
  | left : Answers environment clock done .leave .done []
  | toldBefore {r : Report} (h : .start ∉ done) : Answers environment clock done (.tell r) .done []
  | told {r : Report} {sink : Sink} {subject : Option Subject} {e : Event}
      {written : List String} (hsink : Opened environment done (some sink))
      (hsubject : LastSet done subject) (hevent : Tells r subject e)
      (hwritten : Emits sink clock e written) :
      Answers environment clock done (.tell r) .done written

/-- The calls of a program, what came of each, and the lines of the log. -/
inductive Transcript (environment : Environment) (clock : Int) :
    List Call → List Reply → List String → Prop
  | nil : Transcript environment clock [] [] []
  | snoc {done : List Call} {replies : List Reply} {lines written : List String} {c : Call}
      {reply : Reply} (h : Transcript environment clock done replies lines)
      (hanswer : Answers environment clock done c reply written) :
      Transcript environment clock (done ++ [c]) (replies ++ [reply]) (lines ++ written)

/-! ### One more call -/

section Snoc

variable {environment : Environment} {done : List Call} {c : Call}

/-- Preferences that were installed first stay the first. -/
theorem FirstInstall.snoc_some {p : Preferences} (h : FirstInstall done (some p)) :
    FirstInstall (done ++ [c]) (some p) := by
  cases h with
  | first h =>
    rw [List.append_assoc]
    exact .first h

/-- A call that installs nothing changes nothing about what was installed first. -/
theorem FirstInstall.snoc {installed : Option Preferences} (h : FirstInstall done installed)
    (hc : ∀ p, c ≠ .install p) : FirstInstall (done ++ [c]) installed := by
  cases h with
  | never h =>
    refine .never fun p hp => ?_
    rcases List.mem_append.1 hp with hp | hp
    · exact h p hp
    · exact hc p (List.mem_singleton.1 hp).symm
  | first h => exact snoc_some (.first h)

/-- If nothing was installed first, nothing was installed. -/
theorem FirstInstall.not_mem (h : FirstInstall done none) (p : Preferences) :
    .install p ∉ done := by
  cases h with
  | never h => exact h p

/-- If something was installed first, something was installed. -/
theorem FirstInstall.exists_mem {p : Preferences} (h : FirstInstall done (some p)) :
    ∃ q, .install q ∈ done := by
  cases h with
  | first => exact ⟨p, by simp⟩

/-- A sink that was opened stays the sink. -/
theorem Opened.snoc_some {sink : Sink} (h : Opened environment done (some sink)) :
    Opened environment (done ++ [c]) (some sink) := by
  cases h with
  | first h hinstalled hsink =>
    rw [List.append_assoc]
    exact .first h hinstalled hsink

/-- A call that starts nothing opens no sink. -/
theorem Opened.snoc {sink : Option Sink} (h : Opened environment done sink) (hc : c ≠ .start) :
    Opened environment (done ++ [c]) sink := by
  cases h with
  | never h =>
    refine .never fun hmem => ?_
    rcases List.mem_append.1 hmem with hmem | hmem
    · exact h hmem
    · exact hc (List.mem_singleton.1 hmem).symm
  | first h hinstalled hsink => exact snoc_some (.first h hinstalled hsink)

/-- If no sink was opened, the log was not started. -/
theorem Opened.not_mem (h : Opened environment done none) : .start ∉ done := by
  cases h with
  | never h => exact h

/-- If a sink was opened, the log was started. -/
theorem Opened.mem {sink : Sink} (h : Opened environment done (some sink)) : .start ∈ done := by
  cases h with
  | first => simp

/-- A call that neither sets nor clears the clause leaves it as it was set last. -/
theorem LastSet.snoc {subject : Option Subject} (h : LastSet done subject)
    (hc : c.setsSubject = false) : LastSet (done ++ [c]) subject := by
  have hsnoc {after : List Call} (hafter : ∀ d ∈ after, d.setsSubject = false) :
      ∀ d ∈ after ++ [c], d.setsSubject = false := by
    intro d hd
    rcases List.mem_append.1 hd with hd | hd
    · exact hafter d hd
    · rw [List.mem_singleton.1 hd, hc]
  cases h with
  | never h => exact .never (hsnoc h)
  | entered h =>
    rw [List.append_assoc]
    exact .entered (hsnoc h)
  | left h =>
    rw [List.append_assoc]
    exact .left (hsnoc h)

end Snoc

/-! ### One call -/

/-- The event of a report tells it. -/
theorem tells_event (r : Report) (subject : Option Subject) :
    Tells r subject (r.event subject) where
  level := rfl
  code := rfl
  message := rfl
  span := rfl
  clause s hs := by
    obtain rfl := Option.mem_def.1 hs
    exact ⟨Report.get?_context_some s r.fields "clause",
      Report.get?_context_some s r.fields "clause_id"⟩
  fields name hname := by
    cases subject with
    | none => exact Report.get?_context_none r.fields name
    | some s =>
      obtain ⟨hclause, hid⟩ := hname rfl
      refine (Report.get?_context_some s r.fields name).trans ?_
      rw [if_neg hid, if_neg hclause]

/-- The sink of preferences is the one that they ask for. -/
theorem chosen_ofPreferences (p : Preferences) : Chosen p (.ofPreferences p) := by
  rw [Sink.ofPreferences]
  cases hconsole : p.console with
  | false => exact .discard hconsole
  | true =>
    cases hform : p.structured with
    | false => exact .plain hconsole hform
    | true => exact .structured hconsole hform

/-- Events that a sink does not keep leave no line. -/
theorem write_of_not_keeps {sink : Sink} {e : Event} (h : sink.keeps e.level = false)
    (clock : Int) : sink.write clock [e] = [] := by
  simp only [Sink.write, List.filter_cons, h]
  cases sink.backend <;> rfl

/-- What a sink writes for one event is what its form and its level ask for. -/
theorem emits_write (sink : Sink) (clock : Int) (e : Event) :
    Emits sink clock e (sink.write clock [e]) := by
  cases hkeeps : sink.keeps e.level with
  | false =>
    rw [write_of_not_keeps hkeeps]
    exact .filtered (Nat.lt_of_not_le (of_decide_eq_false hkeeps))
  | true =>
    have hlevel : e.level.rank ≤ sink.level.rank := of_decide_eq_true hkeeps
    simp only [Sink.write, List.filter_cons, hkeeps, List.filter_nil, if_true, List.map_cons,
      List.map_nil]
    cases hbackend : sink.backend with
    | discard => exact .discarded hbackend
    | plain => exact .line hbackend hlevel
    | structured => exact .json hbackend hlevel

section Answer

variable {s : Session}

/-- The first preferences are accepted. -/
theorem answer_install_of_none (h : s.installed = none) (p : Preferences) :
    s.answer (.install p) = ({ s with installed := some p }, .accepted) := by
  simp only [answer, act, install, h]

/-- Any later ones are refused, and the session stays as it is. -/
theorem answer_install_of_some {q : Preferences} (h : s.installed = some q) (p : Preferences) :
    s.answer (.install p) = (s, .refused .alreadyInstalled) := by
  simp only [answer, act, install, h]

/-- The first start opens the sink that the preferences in force ask for. -/
theorem answer_start_of_none (h : s.sink = none) :
    s.answer .start =
      ({ s with
          sink := some (.ofPreferences s.preferences)
          lines := s.lines ++ (Sink.ofPreferences s.preferences).write s.clock [greeting] },
        .accepted) := by
  simp only [answer, act, start, h, write]

/-- Any later start is refused, and the session stays as it is. -/
theorem answer_start_of_some {sink : Sink} (h : s.sink = some sink) :
    s.answer .start = (s, .refused .alreadyStarted) := by
  simp only [answer, act, start, h]

/-- A log that was not started writes nothing. -/
theorem report_of_none (h : s.sink = none) (reports : List Report) : s.report reports = s := by
  rw [report, write, h]

/-- A started log writes its reports, about the clause that is set. -/
theorem report_of_some {sink : Sink} (h : s.sink = some sink) (reports : List Report) :
    s.report reports =
      { s with lines := s.lines ++ sink.write s.clock (reports.map (Report.event s.subject)) } := by
  rw [report, write, h]

/-- A detail that is dropped would not have been written. -/
theorem answer_tell (s : Session) (r : Report) : s.answer (.tell r) = (s.report [r], .done) := by
  rw [answer]
  by_cases h : r.level = .debug ∧ s.debugEnabled = false
  · rw [if_pos h]
    obtain ⟨hlevel, hdebug⟩ := h
    cases hsink : s.sink with
    | none => rw [report_of_none hsink]
    | some sink =>
      have hkeeps : sink.keeps (r.event s.subject).level = false := by
        rw [debugEnabled, hsink, ← hlevel] at hdebug
        exact hdebug
      rw [report_of_some hsink, List.map_cons, List.map_nil, write_of_not_keeps hkeeps,
        List.append_nil]
  · rw [if_neg h]
    rfl

/-- A call that is refused leaves the session as it is, so no later call notices it. -/
theorem answer_of_refused {c : Call} {cause : SetupError}
    (h : (s.answer c).2 = .refused cause) : (s.answer c).1 = s := by
  cases c with
  | install p =>
    cases hs : s.installed with
    | none =>
      rw [answer_install_of_none hs] at h
      cases h
    | some q => rw [answer_install_of_some hs]
  | start =>
    cases hs : s.sink with
    | none =>
      rw [answer_start_of_none hs] at h
      cases h
    | some sink => rw [answer_start_of_some hs]
  | enter | leave => cases h
  | tell r =>
    rw [answer_tell] at h
    cases h

end Answer

/-! ### Actions as scripts -/

/-- Tells reports one after another. -/
def Script.tellAll (reports : List Report) : Script :=
  reports.foldr (fun r rest => .call (.tell r) rest) .done

/-- An action as a script: to compile a clause is to tell what the compilation reports, as a body
about the clause if one is given. -/
def Action.script : Action → Script
  | .install p => .call (.install p) .done
  | .start => .call .start .done
  | .enter subject => .call (.enter subject) .done
  | .leave => .call .leave .done
  | .report r => .call (.tell r) .done
  | .compile none directory defaults text =>
    .tellAll (Compilation.ofClause directory defaults text).reports
  | .compile (some subject) directory defaults text =>
    .within subject (.tellAll (Compilation.ofClause directory defaults text).reports) .done

/-- Events are written one after another. -/
theorem write_append (sink : Sink) (clock : Int) (es fs : List Event) :
    sink.write clock (es ++ fs) = sink.write clock es ++ sink.write clock fs := by
  simp only [Sink.write, List.filter_append, List.map_append]
  cases sink.backend <;> rfl

/-- Reports may be told one after another. -/
theorem report_append (s : Session) (rs qs : List Report) :
    s.report (rs ++ qs) = (s.report rs).report qs := by
  cases hs : s.sink with
  | none => rw [report_of_none hs, report_of_none hs, report_of_none hs]
  | some sink =>
    have hsink : (s.report rs).sink = some sink := by
      rw [report_of_some hs]
      exact hs
    rw [report_of_some hsink, report_of_some hs, report_of_some hs, List.map_append, write_append,
      ← List.append_assoc]

theorem report_nil (s : Session) : s.report [] = s := by
  cases hs : s.sink with
  | none => exact report_of_none hs []
  | some sink =>
    have hwrite : sink.write s.clock [] = [] := by
      rw [Sink.write]
      cases sink.backend <;> rfl
    rw [report_of_some hs, List.map_nil, hwrite, List.append_nil]

/-- Telling reports one by one leaves the session as telling them at once does. -/
theorem run_tellAll (s : Session) (reports : List Report) :
    ((Script.tellAll reports).run s).1 = s.report reports := by
  induction reports generalizing s with
  | nil => exact s.report_nil.symm
  | cons r reports ih =>
    rw [← List.singleton_append, report_append, ← ih]
    exact congrArg (fun step => ((Script.tellAll reports).run step.1).1) (s.answer_tell r)

/-- **Every action of a session is a script**, the compiling of a clause included. -/
theorem run_script (s : Session) (a : Action) : (a.script.run s).1 = (s.act a).1 := by
  cases a with
  | install | start | enter | leave => rfl
  | report r => exact congrArg Prod.fst (s.answer_tell r)
  | compile subject directory defaults text =>
    cases subject with
    | none => exact run_tellAll s _
    | some subject => exact congrArg leave (run_tellAll (s.enter subject) _)

/-! ### What a session knows -/

/-- What a session knows of the calls before. -/
structure Reflects (environment : Environment) (clock : Int) (done : List Call) (s : Session) :
    Prop where
  /-- The environment and the clock are fixed. -/
  fixed : s.environment = environment ∧ s.clock = clock
  /-- The preferences are those installed first. -/
  installed : FirstInstall done s.installed
  /-- The sink is the one that was opened. -/
  opened : Opened environment done s.sink
  /-- The clause is the one that was set last. -/
  subject : LastSet done s.subject

section Reflects

variable {environment : Environment} {clock : Int} {done : List Call} {s : Session}

/-- Before the first call there is nothing to know. -/
theorem reflects_fresh (environment : Environment) (clock : Int) :
    Reflects environment clock [] (fresh environment clock) :=
  ⟨⟨rfl, rfl⟩, .never (by simp), .never (by simp), .never (by simp)⟩

/-- A session answers `install` from what it knows, and knows more after it. -/
theorem Reflects.install (h : Reflects environment clock done s) (p : Preferences) :
    Reflects environment clock (done ++ [.install p]) (s.answer (.install p)).1 ∧
      ∃ written, Answers environment clock done (.install p) (s.answer (.install p)).2 written ∧
        (s.answer (.install p)).1.lines = s.lines ++ written := by
  have hinstalled := h.installed
  cases hs : s.installed with
  | none =>
    rw [hs] at hinstalled
    rw [answer_install_of_none hs]
    exact ⟨⟨h.fixed, .first hinstalled.not_mem, h.opened.snoc (by simp), h.subject.snoc rfl⟩,
      [], .installed hinstalled.not_mem, (List.append_nil _).symm⟩
  | some q =>
    rw [hs] at hinstalled
    obtain ⟨q', hq'⟩ := hinstalled.exists_mem
    rw [answer_install_of_some hs]
    exact ⟨⟨h.fixed, hs ▸ hinstalled.snoc_some, h.opened.snoc (by simp), h.subject.snoc rfl⟩,
      [], .installedBefore hq', (List.append_nil _).symm⟩

/-- So it does for `start`. -/
theorem Reflects.start (h : Reflects environment clock done s) :
    Reflects environment clock (done ++ [.start]) (s.answer .start).1 ∧
      ∃ written, Answers environment clock done .start (s.answer .start).2 written ∧
        (s.answer .start).1.lines = s.lines ++ written := by
  have hopened := h.opened
  obtain ⟨henvironment, hclock⟩ := h.fixed
  cases hs : s.sink with
  | none =>
    rw [hs] at hopened
    have hpreferences : s.preferences = s.installed.getD (.ofEnvironment environment) := by
      rw [preferences, henvironment]
    rw [answer_start_of_none hs, hpreferences, hclock]
    have hfirst : Opened environment (done ++ [.start])
        (some (.ofPreferences (s.installed.getD (.ofEnvironment environment)))) :=
      .first hopened.not_mem h.installed (chosen_ofPreferences _)
    exact ⟨⟨⟨henvironment, rfl⟩, h.installed.snoc (by simp), hfirst, h.subject.snoc rfl⟩, _,
      .started hopened.not_mem hfirst rfl rfl (emits_write _ _ _), rfl⟩
  | some sink =>
    rw [hs] at hopened
    rw [answer_start_of_some hs]
    exact ⟨⟨h.fixed, h.installed.snoc (by simp), hs ▸ hopened.snoc_some, h.subject.snoc rfl⟩,
      [], .startedBefore hopened.mem, (List.append_nil _).symm⟩

/-- So it does for a report. -/
theorem Reflects.tell (h : Reflects environment clock done s) (r : Report) :
    Reflects environment clock (done ++ [.tell r]) (s.answer (.tell r)).1 ∧
      ∃ written, Answers environment clock done (.tell r) (s.answer (.tell r)).2 written ∧
        (s.answer (.tell r)).1.lines = s.lines ++ written := by
  have hopened := h.opened
  obtain ⟨henvironment, hclock⟩ := h.fixed
  rw [answer_tell]
  cases hs : s.sink with
  | none =>
    rw [hs] at hopened
    rw [report_of_none hs]
    exact ⟨⟨h.fixed, h.installed.snoc (by simp), h.opened.snoc (by simp), h.subject.snoc rfl⟩,
      [], .toldBefore hopened.not_mem, (List.append_nil _).symm⟩
  | some sink =>
    rw [hs] at hopened
    rw [report_of_some hs, hclock]
    exact ⟨⟨⟨henvironment, rfl⟩, h.installed.snoc (by simp), h.opened.snoc (by simp),
      h.subject.snoc rfl⟩, _,
      .told hopened h.subject (tells_event r s.subject) (emits_write _ _ _), rfl⟩

/-- **One call.** A session that reflects the calls before answers by the table, and reflects the
call as well. -/
theorem Reflects.answer (h : Reflects environment clock done s) (c : Call) :
    Reflects environment clock (done ++ [c]) (s.answer c).1 ∧
      ∃ written, Answers environment clock done c (s.answer c).2 written ∧
        (s.answer c).1.lines = s.lines ++ written := by
  cases c with
  | install p => exact h.install p
  | start => exact h.start
  | enter subject =>
    exact ⟨⟨h.fixed, h.installed.snoc (by simp), h.opened.snoc (by simp), .entered (by simp)⟩,
      [], .entered, (List.append_nil _).symm⟩
  | leave =>
    exact ⟨⟨h.fixed, h.installed.snoc (by simp), h.opened.snoc (by simp), .left (by simp)⟩,
      [], .left, (List.append_nil _).symm⟩
  | tell r => exact h.tell r

/-! ### A whole script -/

/-- The transcript of a session grows call by call. -/
theorem Reflects.transcript (h : Reflects environment clock done s) {replies : List Reply}
    (htranscript : Transcript environment clock done replies s.lines) (cs : List Call) :
    Transcript environment clock (done ++ cs) (replies ++ (s.answerAll cs).2)
      (s.answerAll cs).1.lines := by
  induction cs generalizing done replies s with
  | nil => simpa [answerAll] using htranscript
  | cons c cs ih =>
    obtain ⟨hreflects, written, hanswers, hlines⟩ := h.answer c
    have hmore := htranscript.snoc hanswers
    rw [← hlines] at hmore
    have hall := ih hreflects hmore
    rwa [List.append_assoc, List.append_assoc] at hall

end Reflects

/-- **The log is set up once.** In every program, whatever it calls and in whatever order, also
inside bodies about a clause, every call is answered by the table from the calls before it; and in
every session a call that is refused changes nothing. -/
theorem transcript_run (environment : Environment) (clock : Int) (script : Script) :
    Transcript environment clock script.calls (script.run (fresh environment clock)).2
        (script.run (fresh environment clock)).1.lines ∧
      ∀ (s : Session) (c : Call) (cause : SetupError),
        (s.answer c).2 = .refused cause → (s.answer c).1 = s := by
  refine ⟨?_, fun _ _ _ => answer_of_refused⟩
  rw [script.run_eq]
  exact (reflects_fresh environment clock).transcript .nil script.calls

/-- Preferences that come after the start, and a body about a clause inside one about another, with
a notice in each. -/
def lateScript : Script :=
  .call .start <| .call (.install ⟨false, true, .error⟩) <|
    .within ⟨"a", 0⟩
      (.within ⟨"b", 1⟩ (.call (.tell (.info "in b" [])) .done)
        (.call (.tell (.info "in a" [])) .done)) <|
    .call .start .done

/-- The log keeps writing notices as JSON, the inner body clears the clause for the outer one, and
the second start is refused. -/
theorem transcript_run_lateScript :
    let environment : Environment := ⟨none, none, some "true", some "true", none⟩
    let s := ((fresh environment 7).answer .start).1
    Transcript environment 7 lateScript.calls
        [.accepted, .accepted, .done, .done, .done, .done, .done, .done, .refused .alreadyStarted]
        [greeting.jsonLine 7,
          (((Event.info "in b").withContext "clause" "b").withContext "clause_id" "1").jsonLine 7,
          (Event.info "in a").jsonLine 7] ∧
      (s.answer .start).2 = .refused .alreadyStarted ∧ (s.answer .start).1 = s := by
  intro environment s
  obtain ⟨htranscript, hrefused⟩ := transcript_run environment 7 lateScript
  exact ⟨htranscript, rfl, hrefused s .start .alreadyStarted rfl⟩

end Session
end ImageCheck
