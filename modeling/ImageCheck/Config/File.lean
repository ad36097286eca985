/-
# Settings from a file

`SPEC_FULL` §8a, Configuration; `from_toml_str`, `load_from_file` and `into_defaults`.

A configuration file is a TOML document. Its table `image_spec` may set the
default error rate, as a text, and the default tolerance, as a number; it must
not hold anything else. Other tables are for other programs. The settings may
also be written as an array of the two.

* `Defaults.ofToml`: the defaults that a document sets;
* `Defaults.load`: those of a file.
-/

import ImageCheck.Compile.Clause
import ImageCheck.Files
import ImageCheck.Toml.Document

namespace ImageCheck

/-- Why a configuration file gives no defaults. -/
inductive ConfigError where
  /-- The file cannot be read. -/
  | unreadable (path : String) (cause : FileError)
  /-- The text is no TOML, or not of the right shape. -/
  | malformed
  /-- The default error rate is none. -/
  | invalidErrorRate (value : String) (cause : ErrorRateError)
  deriving DecidableEq, Repr

namespace ConfigError

/-- The name of a failure, for a terminal. -/
def name : ConfigError → String
  | unreadable _ _ => "Io"
  | malformed => "Toml"
  | invalidErrorRate _ _ => "InvalidErrorRate"

/-- The wording of a failure. -/
def message : ConfigError → String
  | unreadable path cause =>
    "Failed to read configuration file '" ++ path ++ "': " ++ cause.message
  | malformed => "Invalid TOML configuration"
  | invalidErrorRate value cause =>
    "Invalid default error rate '" ++ value ++ "': " ++ cause.message

end ConfigError

/-- What a configuration file may set. -/
structure Settings where
  /-- The text of the default error rate. -/
  errorRate : Option String
  /-- The default tolerance. -/
  tolerance : Option UInt32

namespace Settings

/-- A text. -/
def string? : Toml.Item → Option String
  | .string s => some s
  | _ => none

/-- A whole number of 32 bits without a sign. -/
def tolerance? : Toml.Item → Option UInt32
  | .integer n => if 0 ≤ n ∧ n ≤ 4294967295 then some (UInt32.ofNat n.toNat) else none
  | _ => none

/-- A setting that may be missing. -/
def optional? {α : Type} (read? : Toml.Item → Option α) : Option Toml.Item → Option (Option α)
  | none => some none
  | some item => (read? item).map some

/-- The settings in the value of `image_spec`. -/
def ofItem? : Toml.Item → Option Settings
  | .table _ fields =>
    if fields.all fun (name, _) => name = "default_error_rate" || name = "default_tolerance" then do
      let errorRate ← optional? string? (fields.lookup "default_error_rate")
      let tolerance ← optional? tolerance? (fields.lookup "default_tolerance")
      return ⟨errorRate, tolerance⟩
    else none
  | .array (errorRate :: tolerance :: _) => do
    return ⟨some (← string? errorRate), some (← tolerance? tolerance)⟩
  | _ => none

/-- The settings of a document. -/
def ofToml? (text : String) : Option Settings := do
  let root ← Toml.parse? text
  match root.lookup "image_spec" with
  | none => some ⟨none, none⟩
  | some item => ofItem? item

end Settings

namespace Defaults

/-- The defaults that settings ask for. -/
def ofSettings (s : Settings) : Except ConfigError Defaults :=
  let tolerance := s.tolerance.getD builtin.tolerance
  match s.errorRate with
  | none => .ok ⟨builtin.errorRate, tolerance⟩
  | some text =>
    match ErrorRate.parse text with
    | .ok rate => .ok ⟨rate, tolerance⟩
    | .error e => .error (.invalidErrorRate text e)

/-- The defaults that a document sets. -/
def ofToml (text : String) : Except ConfigError Defaults :=
  match Settings.ofToml? text with
  | some settings => ofSettings settings
  | none => .error .malformed

/-- The defaults that a file sets. -/
def load (files : Files) (path : String) : Except ConfigError Defaults :=
  match files path with
  | .ok text => ofToml text
  | .error e => .error (.unreadable path e)

end Defaults
end ImageCheck
