/-
# Compilations and what the log says about them

`SPEC_FULL` §4.1, Logging; the events that `compile_parameters` and `compile_clause`
log.

A compilation is one clause with all that the log has to know: how many
parameters it was split into, if it was, and what came of it. What is reported
follows from that alone.
-/

import ImageCheck.Compile.Clause
import ImageCheck.Log.Report

namespace ImageCheck

/-- The report of a failure to compile. -/
def CompileError.toReport (e : CompileError) : Report :=
  .error e.code e.message e.span? []

/-- What came of a clause. -/
structure Compilation where
  /-- The directory of the images. -/
  directory : Option String
  /-- The number of parameters, if the clause could be split. -/
  parameters : Option Nat
  /-- The specification, or why there is none. -/
  result : Except CompileError Spec

namespace Compilation

/-- Compiles parameters. -/
def ofParameters (directory : Option String) (defaults : Defaults) (ps : List Parameter) :
    Compilation :=
  ⟨directory, some ps.length, compileParameters directory defaults ps⟩

/-- Compiles a clause. -/
def ofClause (directory : Option String) (defaults : Defaults) (text : String) : Compilation :=
  match Clause.split text with
  | .error e => ⟨directory, none, .error (.split e)⟩
  | .ok ps => ofParameters directory defaults ps

/-- A compilation ends with what the clause compiles to. -/
theorem result_ofClause (directory : Option String) (defaults : Defaults) (text : String) :
    (ofClause directory defaults text).result = compileClause directory defaults text := by
  unfold ofClause compileClause
  split <;> simp_all [ofParameters]

/-- What the log hears before the parameters are applied. -/
def opening (c : Compilation) : List Report :=
  match c.parameters with
  | none => []
  | some n =>
    [.debug "Compiling image check"
      [("parameters", toString n), ("context_path", c.directory.getD "<none>")]]

/-- What the log hears about the result. -/
def closing (c : Compilation) : Report :=
  match c.result with
  | .ok spec =>
    .success .clauseCompiled "Image check compiled"
      [("image_paths", toString spec.images.length), ("filters", toString spec.totalFilters)]
  | .error e => e.toReport

/-- All that the log hears about a compilation, in order. -/
def reports (c : Compilation) : List Report :=
  c.opening ++ [c.closing]

end Compilation
end ImageCheck
