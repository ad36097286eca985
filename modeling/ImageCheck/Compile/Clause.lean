/-
# Compiling a clause

`SPEC_FULL` §4.1; `SpecAccumulator` (`apply`, `push_filter`, `finish`),
`resolve_image_path`, `compile_parameters` with `compile_inner` and `fold_parameters`,
and `compile_clause`; the limits `MAX_PARAMETERS_PER_CLAUSE` and
`MAX_FILTERS_PER_CHAIN`.

The parameters of a clause are applied one after another to a specification that
starts from the defaults. Images and filters add up, every other setting replaces
an earlier one, and the first parameter that fails ends the work. Without a
`file` parameter a clause never compiles, and no limit is reported for it.

* `Spec.apply`: one parameter;
* `compileParameters`: a list of parameters;
* `compileClause`: a clause.
-/

import ImageCheck.Clause.Key
import ImageCheck.Clause.Split
import ImageCheck.Compile.Value

namespace ImageCheck

/-- What a specification starts from. -/
structure Defaults where
  /-- The error rate of a clause that gives none. -/
  errorRate : ErrorRate
  /-- The tolerance of a clause that gives none. -/
  tolerance : UInt32
  deriving DecidableEq

/-- The defaults when nothing else is set: no difference, and a tolerance of 25. -/
def Defaults.builtin : Defaults := ⟨.zero, 25⟩

/-- A path below a directory; a missing or empty directory leaves the path alone. -/
def resolvePath (directory : Option String) (path : String) : String :=
  match directory with
  | none => path
  | some dir =>
    if dir = "" then path
    else if dir.toList.getLast? = some '/' then dir ++ path
    else dir ++ "/" ++ path

namespace Spec

/-- The specification before any parameter. -/
def initial (defaults : Defaults) : Spec where
  images := []
  errorRate := defaults.errorRate
  tolerance := defaults.tolerance
  analyzeOffset := none
  stretch := false
  cropIfOutside := false
  area := none
  baseline := []
  sample := []
  map := []

/-- Adds a filter to a chain that is not full. -/
def pushFilter (s : Spec) (f : FilterOp) (chain : Chain) : Except CompileError Spec :=
  if (s.filters chain).length < Limit.filtersPerChain.bound then
    .ok (s.setFilters (s.filters chain ++ [f]) chain)
  else .error (.limitExceeded .filtersPerChain)

/-- Sets what a key stands for. -/
def set (s : Spec) (directory : Option String) (key : Key) (value : String) :
    Except CompileError Spec :=
  match key with
  | .file => .ok { s with images := s.images ++ [resolvePath directory value] }
  | .error =>
    match ErrorRate.parse value with
    | .ok rate => .ok { s with errorRate := rate }
    | .error e => .error (.errorRate e)
  | .tolerance =>
    match Value.integer key.name value with
    | .ok n => .ok { s with tolerance := n }
    | .error e => .error e
  | .analyzeOffset =>
    match Value.integer key.name value with
    | .ok n => .ok { s with analyzeOffset := some n }
    | .error e => .error e
  | .area =>
    match Value.rect value with
    | .ok r => .ok { s with area := some r }
    | .error e => .error e
  | .stretch => .ok { s with stretch := true }
  | .cropIfOutside => .ok { s with cropIfOutside := true }
  | .filter | .filterA | .filterB | .mapFilter =>
    match Value.filter value with
    | .ok f => key.targets.foldlM (fun s chain => s.pushFilter f chain) s
    | .error e => .error e

/-- Applies one parameter. -/
def apply (directory : Option String) (s : Spec) (p : Parameter) : Except CompileError Spec :=
  match Key.ofName? p.key with
  | none => .error (.unknownParameter p.key)
  | some key => s.set directory key p.value

/-- Accepts a specification that has an image. -/
def finish (s : Spec) : Except CompileError Spec :=
  if s.images = [] then .error .noImages else .ok s

end Spec

/-- Whether some parameter names an image. -/
def declaresImage (ps : List Parameter) : Bool :=
  ps.any fun p => Key.ofName? p.key = some .file

/-- Applies parameters in order, if there are not too many, and asks for an image. -/
def applyAll (directory : Option String) (defaults : Defaults) (ps : List Parameter) :
    Except CompileError Spec :=
  if Limit.parameters.bound < ps.length then .error (.limitExceeded .parameters)
  else
    match ps.foldlM (Spec.apply directory) (Spec.initial defaults) with
    | .ok s => s.finish
    | .error e => .error e

/-- The specification that parameters stand for. Where no parameter names an image, that is reported
in place of a limit. -/
def compileParameters (directory : Option String) (defaults : Defaults) (ps : List Parameter) :
    Except CompileError Spec :=
  match applyAll directory defaults ps with
  | .error (.limitExceeded limit) =>
    if declaresImage ps then .error (.limitExceeded limit) else .error .noImages
  | result => result

/-- The specification that a clause stands for. -/
def compileClause (directory : Option String) (defaults : Defaults) (text : String) :
    Except CompileError Spec :=
  match Clause.split text with
  | .error e => .error (.split e)
  | .ok ps => compileParameters directory defaults ps

end ImageCheck
