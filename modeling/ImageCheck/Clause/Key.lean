/-
# Names of parameters

`SPEC_FULL` §4.1, the dispatch table; `ClauseKey`, with `from_key`, `as_str` and
`filter_targets`.

The eleven names that a clause may use, and the chains that a filter goes to.
Names are matched exactly, by letter case too.

| name | meaning |
| --- | --- |
| `file` | one more baseline image |
| `error`, `tolerance`, `analyze-offset`, `area` | a setting; the last one counts |
| `stretch`, `crop-if-outside` | a flag, whatever its value |
| `filter` | a filter for the baseline and the screenshot |
| `filter-a`, `filter-b`, `map-filter` | a filter for one chain |
-/

import ImageCheck.Spec

namespace ImageCheck

/-- What a parameter sets. -/
inductive Key where
  | file
  | error
  | tolerance
  | analyzeOffset
  | stretch
  | area
  | filter
  | filterA
  | filterB
  | mapFilter
  | cropIfOutside
  deriving DecidableEq, Repr

namespace Key

/-- The name of a key in a clause. -/
def name : Key → String
  | file => "file"
  | error => "error"
  | tolerance => "tolerance"
  | analyzeOffset => "analyze-offset"
  | stretch => "stretch"
  | area => "area"
  | filter => "filter"
  | filterA => "filter-a"
  | filterB => "filter-b"
  | mapFilter => "map-filter"
  | cropIfOutside => "crop-if-outside"

/-- Every key. -/
def all : List Key :=
  [file, error, tolerance, analyzeOffset, stretch, area, filter, filterA, filterB, mapFilter,
   cropIfOutside]

/-- The key with a name. -/
def ofName? (name : String) : Option Key :=
  all.find? fun key => key.name = name

/-- The chains that a key adds a filter to; none for the keys of other things. -/
def targets : Key → List Chain
  | filter => [.baseline, .sample]
  | filterA => [.baseline]
  | filterB => [.sample]
  | mapFilter => [.map]
  | _ => []

/-- A key is found by its name. -/
theorem ofName?_name (key : Key) : ofName? key.name = some key := by
  cases key <;> decide

/-- Only its own name finds a key. -/
theorem name_of_ofName?_eq_some {name : String} {key : Key} (h : ofName? name = some key) :
    key.name = name := by
  simpa using List.find?_some h

/-- No two keys share a name. -/
@[simp]
theorem name_inj {a b : Key} : a.name = b.name ↔ a = b := by
  constructor
  · intro h
    have hb := ofName?_name b
    rw [← h, ofName?_name a] at hb
    exact Option.some.inj hb
  · rintro rfl
    rfl

/-- A text is looked up as the key whose name it is. -/
theorem ofName?_eq_some_iff {name : String} {key : Key} :
    ofName? name = some key ↔ name = key.name := by
  constructor
  · intro h
    exact (name_of_ofName?_eq_some h).symm
  · rintro rfl
    exact ofName?_name key

/-- A text is unknown exactly if it is the name of no key. -/
theorem ofName?_eq_none_iff {name : String} :
    ofName? name = none ↔ ∀ key : Key, name ≠ key.name := by
  constructor
  · rintro h key rfl
    rw [ofName?_name] at h
    cases h
  · intro h
    cases hk : ofName? name with
    | none => rfl
    | some key => exact absurd (ofName?_eq_some_iff.1 hk) (h key)

/-- A filter goes to no chain twice. -/
theorem nodup_targets (key : Key) : key.targets.Nodup := by
  cases key <;> decide

end Key
end ImageCheck
