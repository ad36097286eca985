/-
# What a list of parameters means

`SPEC_FULL` §4.1, the dispatch table: `file` and filter keys accumulate, others
overwrite.

`compileParameters` applies parameters one after another and stops at the first
that fails. This module says what the same list means without going through it:
which values count for each part of the specification.

| part of the specification | what it is made of |
| --- | --- |
| images | every `file` value, in order |
| error rate, tolerance, offset, area | the last value of its key |
| stretching, cropping | whether the key occurs |
| a chain of filters | every value of a key that feeds the chain, in order |

`valuesOf_concat`, `filtersFor_concat` and `lastOf_concat` say what one more
parameter at the end of the list changes. `Resolves` says which path an image has
below a directory.
-/

import ImageCheck.Compile.Clause
import Mathlib.Data.List.Forall2

namespace ImageCheck

namespace Chain

/-- The keys that feed a chain. -/
@[simp]
def keys : Chain → List Key
  | baseline => [.filter, .filterA]
  | sample => [.filter, .filterB]
  | map => [.mapFilter]

/-- A key feeds exactly the chains that it adds filters to. -/
theorem mem_targets_iff {key : Key} {chain : Chain} :
    chain ∈ key.targets ↔ key ∈ chain.keys := by
  cases chain <;> cases key <;> decide

end Chain

/-! ### The values that count -/

/-- The values given under some keys, in order. -/
def valuesOf (keys : List Key) (ps : List Parameter) : List String :=
  (ps.filter fun p => p.key ∈ keys.map Key.name).map Parameter.value

/-- The filters for a chain, in order. -/
def filtersFor (chain : Chain) (ps : List Parameter) : List FilterOp :=
  (valuesOf chain.keys ps).filterMap fun value => (Value.filter value).toOption

/-- The last value of a key, as its reader takes it. -/
def lastOf {ε α : Type} (read : String → Except ε α) (key : Key) (ps : List Parameter) :
    Option α :=
  (valuesOf [key] ps).getLast?.bind fun value => (read value).toOption

/-- **The specification that parameters stand for**, said without going through them. It is the
one that compiling gives where no parameter is at fault. -/
def meaning (directory : Option String) (defaults : Defaults) (ps : List Parameter) : Spec where
  images := (valuesOf [.file] ps).map (resolvePath directory)
  errorRate := (lastOf ErrorRate.parse .error ps).getD defaults.errorRate
  tolerance := (lastOf (Value.integer Key.tolerance.name) .tolerance ps).getD defaults.tolerance
  analyzeOffset := lastOf (Value.integer Key.analyzeOffset.name) .analyzeOffset ps
  stretch := valuesOf [.stretch] ps ≠ []
  cropIfOutside := valuesOf [.cropIfOutside] ps ≠ []
  area := lastOf Value.rect .area ps
  baseline := filtersFor .baseline ps
  sample := filtersFor .sample ps
  map := filtersFor .map ps

/-- Some parameter names an image. -/
def HasImage (ps : List Parameter) : Prop := ∃ p ∈ ps, p.key = Key.file.name

/-! ### Paths -/

/-- The path below a directory: a missing or empty directory leaves a path alone, and one that ends
with a slash gets no other. -/
inductive Resolves : Option String → String → String → Prop
  | missing (path : String) : Resolves none path path
  | empty (path : String) : Resolves (some "") path path
  | slash (dir path : String) : Resolves (some (dir ++ "/")) path (dir ++ "/" ++ path)
  | noSlash {dir : String} (path : String) (hne : dir ≠ "") (hslash : ∀ d, dir ≠ d ++ "/") :
      Resolves (some dir) path (dir ++ "/" ++ path)

/-- A directory ends with a slash exactly if it is some text and a slash. -/
theorem getLast?_eq_slash_iff {dir : String} :
    dir.toList.getLast? = some '/' ↔ ∃ d, dir = d ++ "/" := by
  constructor
  · intro h
    obtain ⟨ds, hds⟩ := List.getLast?_eq_some_iff.1 h
    refine ⟨String.ofList ds, String.toList_inj.1 ?_⟩
    simp [hds]
  · rintro ⟨d, rfl⟩
    simp

/-- A path is resolved as the rule for directories says. -/
theorem resolves_resolvePath (directory : Option String) (path : String) :
    Resolves directory path (resolvePath directory path) := by
  unfold resolvePath
  cases directory with
  | none => exact .missing path
  | some dir =>
    by_cases hne : dir = ""
    · subst hne
      exact .empty path
    · simp only [if_neg hne]
      by_cases hslash : dir.toList.getLast? = some '/'
      · rw [if_pos hslash]
        obtain ⟨d, rfl⟩ := getLast?_eq_slash_iff.1 hslash
        exact .slash d path
      · rw [if_neg hslash]
        exact .noSlash path hne fun d hd => hslash (getLast?_eq_slash_iff.2 ⟨d, hd⟩)

/-- The images are the `file` values, each below the directory. -/
theorem forall₂_resolves_images (directory : Option String) (defaults : Defaults)
    (ps : List Parameter) :
    List.Forall₂ (Resolves directory) (valuesOf [.file] ps)
      (meaning directory defaults ps).images := by
  show List.Forall₂ _ _ ((valuesOf [.file] ps).map (resolvePath directory))
  rw [List.forall₂_map_right_iff, List.forall₂_same]
  intro path _
  exact resolves_resolvePath directory path

/-! ### One more parameter -/

/-- One more parameter adds its value if its key is one of those asked for. -/
@[simp]
theorem valuesOf_concat (keys : List Key) (ps : List Parameter) (p : Parameter) :
    valuesOf keys (ps ++ [p]) =
      valuesOf keys ps ++ if p.key ∈ keys.map Key.name then [p.value] else [] := by
  unfold valuesOf
  split <;> simp_all

/-- The values of keys are those of the parameters with these keys. -/
theorem mem_valuesOf_iff {keys : List Key} {ps : List Parameter} {value : String} :
    value ∈ valuesOf keys ps ↔ ∃ p ∈ ps, (∃ key ∈ keys, p.key = key.name) ∧ p.value = value := by
  simp [valuesOf, and_assoc, eq_comm]

/-- One more parameter adds its filter to the chains that its key feeds. -/
@[simp]
theorem filtersFor_concat (chain : Chain) (ps : List Parameter) (p : Parameter) :
    filtersFor chain (ps ++ [p]) = filtersFor chain ps ++
      if p.key ∈ chain.keys.map Key.name then (Value.filter p.value).toOption.toList else [] := by
  unfold filtersFor
  rw [valuesOf_concat, List.filterMap_append]
  split
  · cases h : Value.filter p.value <;> simp [h, Except.toOption]
  · rfl

/-- One more parameter with the key replaces a setting. -/
@[simp]
theorem lastOf_concat {ε α : Type} (read : String → Except ε α) (key : Key)
    (ps : List Parameter) (p : Parameter) :
    lastOf read key (ps ++ [p]) =
      if p.key = key.name then (read p.value).toOption else lastOf read key ps := by
  unfold lastOf
  rw [valuesOf_concat]
  simp only [List.map_cons, List.map_nil, List.mem_singleton]
  split <;> simp

/-- A list means no image exactly if it names none. -/
theorem images_meaning_eq_nil_iff (directory : Option String) (defaults : Defaults)
    {ps : List Parameter} : (meaning directory defaults ps).images = [] ↔ ¬ HasImage ps := by
  simp [meaning, valuesOf, HasImage]

/-- The compiler looks for an image by key alone. -/
theorem declaresImage_iff {ps : List Parameter} : declaresImage ps = true ↔ HasImage ps := by
  simp [declaresImage, HasImage, Key.ofName?_eq_some_iff]

end ImageCheck
