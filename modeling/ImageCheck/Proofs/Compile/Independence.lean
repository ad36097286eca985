/-
# What the directory and the defaults decide

`SPEC_FULL` §4.1; what `context_path` and `defaults` add to a clause.

A clause is compiled below a directory and from defaults. Two runs over one clause,
with two directories and two defaults, agree on all that neither of them decides:

| part of the outcome | two runs over one clause |
| --- | --- |
| whether it compiles, and the failure | the same |
| offset, area, stretching, cropping, chains | the same |
| error rate, tolerance | the same if the clause gives one, else the default of the run |
| images | the same values, below the directory of the run |

`compileClause_cases` is the reason: a clause fails in every run, with one failure, or
compiles in every run, to the meaning of one list of parameters. `meaning_alike` then
compares two meanings part by part. A directory counts only through the paths that it
gives (`compileClause_congr`), so a slash at its end makes no difference.
-/

import ImageCheck.Proofs.Compile.Admissible
import ImageCheck.Proofs.Compile.Failure

namespace ImageCheck

/-- Some parameter has a key. -/
def HasKey (key : Key) (ps : List Parameter) : Prop := ∃ p ∈ ps, p.key = key.name

/-- What two specifications have in common that come from the parameters `ps`, one below
`directory` and from `defaults`, the other below `directory'` and from `defaults'`. -/
structure Spec.Alike (ps : List Parameter) (directory directory' : Option String)
    (defaults defaults' : Defaults) (s t : Spec) : Prop where
  /-- The offset is the same. -/
  analyzeOffset : s.analyzeOffset = t.analyzeOffset
  /-- Both stretch, or none does. -/
  stretch : s.stretch = t.stretch
  /-- Both crop, or none does. -/
  cropIfOutside : s.cropIfOutside = t.cropIfOutside
  /-- The area is the same. -/
  area : s.area = t.area
  /-- Every chain is the same. -/
  filters : ∀ chain, s.filters chain = t.filters chain
  /-- An error rate that is given is the same. -/
  errorRate : HasKey .error ps → s.errorRate = t.errorRate
  /-- An error rate that is not given is the default of the run. -/
  defaultErrorRate : ¬ HasKey .error ps →
    s.errorRate = defaults.errorRate ∧ t.errorRate = defaults'.errorRate
  /-- A tolerance that is given is the same. -/
  tolerance : HasKey .tolerance ps → s.tolerance = t.tolerance
  /-- A tolerance that is not given is the default of the run. -/
  defaultTolerance : ¬ HasKey .tolerance ps →
    s.tolerance = defaults.tolerance ∧ t.tolerance = defaults'.tolerance
  /-- There are as many images. -/
  length_images : s.images.length = t.images.length
  /-- The images of the first are the `file` values below its directory. -/
  images : List.Forall₂ (Resolves directory) (valuesOf [.file] ps) s.images
  /-- The images of the second are the same values below its own. -/
  images' : List.Forall₂ (Resolves directory') (valuesOf [.file] ps) t.images

/-! ### The last value of a key -/

section Last

variable {ε α : Type} {read : String → Except ε α} {key : Key} {ps : List Parameter}

/-- A key without values is not given. -/
theorem valuesOf_singleton_eq_nil_iff : valuesOf [key] ps = [] ↔ ¬ HasKey key ps := by
  simp [valuesOf, HasKey]

/-- A setting whose key is not given is not set. -/
theorem lastOf_of_not_hasKey (h : ¬ HasKey key ps) : lastOf read key ps = none := by
  rw [lastOf, valuesOf_singleton_eq_nil_iff.2 h]
  rfl

/-- Where the reader takes every value of a key that occurs, it takes the last one. -/
theorem exists_lastOf_eq_some (h : HasKey key ps)
    (hread : ∀ p ∈ ps, p.key = key.name → ∃ a, read p.value = .ok a) :
    ∃ a, lastOf read key ps = some a := by
  cases hlast : (valuesOf [key] ps).getLast? with
  | none => exact absurd h (valuesOf_singleton_eq_nil_iff.1 (List.getLast?_eq_none_iff.1 hlast))
  | some value =>
    obtain ⟨p, hp, ⟨key', hkey', hname⟩, rfl⟩ := mem_valuesOf_iff.1 (List.mem_of_getLast? hlast)
    obtain rfl := List.mem_singleton.1 hkey'
    obtain ⟨a, ha⟩ := hread p hp hname
    exact ⟨a, by simp [lastOf, hlast, ha, Except.toOption]⟩

/-- A value that is given does not depend on what stands in for a missing one. -/
theorem getD_lastOf_eq (h : HasKey key ps)
    (hread : ∀ p ∈ ps, p.key = key.name → ∃ a, read p.value = .ok a) (a b : α) :
    (lastOf read key ps).getD a = (lastOf read key ps).getD b := by
  obtain ⟨c, hc⟩ := exists_lastOf_eq_some h hread
  rw [hc, Option.getD_some, Option.getD_some]

end Last

/-- In a list without fault every known key takes its value. -/
theorem Faultless.accepts {ps : List Parameter} (h : Faultless ps) {p : Parameter} (hp : p ∈ ps)
    {key : Key} (hkey : p.key = key.name) : key.Accepts p.value :=
  Key.rejection?_eq_none_iff.1 (h.rejection?_eq_none hp hkey)

/-! ### Two meanings -/

/-- **Two meanings of one list differ only where the directory and the defaults come in.** -/
theorem meaning_alike {ps : List Parameter} (h : Faultless ps)
    (directory directory' : Option String) (defaults defaults' : Defaults) :
    Spec.Alike ps directory directory' defaults defaults'
      (meaning directory defaults ps) (meaning directory' defaults' ps) where
  analyzeOffset := rfl
  stretch := rfl
  cropIfOutside := rfl
  area := rfl
  filters chain := by cases chain <;> rfl
  errorRate hkey := getD_lastOf_eq hkey (fun _ hp hname => h.accepts hp hname) _ _
  defaultErrorRate hkey := by
    simp only [meaning, lastOf_of_not_hasKey hkey, Option.getD_none, and_self]
  tolerance hkey := getD_lastOf_eq hkey (fun _ hp hname => h.accepts hp hname) _ _
  defaultTolerance hkey := by
    simp only [meaning, lastOf_of_not_hasKey hkey, Option.getD_none, and_self]
  length_images := by simp only [meaning, List.length_map]
  images := forall₂_resolves_images directory defaults ps
  images' := forall₂_resolves_images directory' defaults' ps

/-- A list of parameters fails in every run alike, or compiles in every run to its meaning. -/
theorem compileParameters_cases (ps : List Parameter) :
    (∃ e, ∀ directory defaults, compileParameters directory defaults ps = .error e) ∨
      Faultless ps ∧ ∀ directory defaults,
        compileParameters directory defaults ps = .ok (meaning directory defaults ps) := by
  rcases exists_fails_or_faultless ps with ⟨e, hfails⟩ | ⟨hlen, hfree, himage⟩
  · exact .inl ⟨e, fun directory defaults => hfails.compileParameters_eq directory defaults⟩
  · refine .inr ⟨hfree, fun directory defaults => ?_⟩
    rw [compileParameters_of_faultless directory defaults hlen hfree,
      if_pos (declaresImage_iff.2 himage)]

/-- **A clause fails in every run alike, or compiles in every run to the meaning of its
parameters.** -/
theorem compileClause_cases (text : String) :
    (∃ e, ∀ directory defaults, compileClause directory defaults text = .error e) ∨
      ∃ ps, Clause.split text = .ok ps ∧ Faultless ps ∧ ∀ directory defaults,
        compileClause directory defaults text = .ok (meaning directory defaults ps) := by
  unfold compileClause
  cases Clause.split text with
  | error e => exact .inl ⟨.split e, fun _ _ => rfl⟩
  | ok ps =>
    rcases compileParameters_cases ps with ⟨e, herror⟩ | ⟨hfree, hok⟩
    · exact .inl ⟨e, herror⟩
    · exact .inr ⟨ps, rfl, hfree, hok⟩

/-! ### Directories that give the same paths -/

/-- One slash behind a directory changes no path below it. -/
theorem resolvePath_append_slash {dir : String} (hne : dir ≠ "") (hslash : ∀ d, dir ≠ d ++ "/") :
    resolvePath (some (dir ++ "/")) = resolvePath (some dir) := by
  have hlast : dir.toList.getLast? ≠ some '/' := by
    intro h
    obtain ⟨d, hd⟩ := getLast?_eq_slash_iff.1 h
    exact hslash d hd
  have hlast' : (dir ++ "/").toList.getLast? = some '/' := getLast?_eq_slash_iff.2 ⟨dir, rfl⟩
  have hne' : dir ++ "/" ≠ "" := by
    intro h
    simp [h] at hlast'
  funext path
  simp only [resolvePath, if_neg hne, if_neg hne', if_neg hlast, if_pos hlast']

/-- A directory counts only through the paths below it. -/
theorem compileClause_congr {directory directory' : Option String}
    (h : resolvePath directory = resolvePath directory') (defaults : Defaults) (text : String) :
    compileClause directory defaults text = compileClause directory' defaults text := by
  rcases compileClause_cases text with ⟨e, herror⟩ | ⟨ps, -, -, hok⟩
  · rw [herror, herror]
  · rw [hok, hok, meaning, meaning, h]

/-! ### The result -/

/-- **The directory and the defaults decide nothing else.** Two runs over one clause fail with the
same failure, or both compile to specifications that are alike but for the paths of the images and
the settings that the clause leaves to the defaults. A directory with a slash added at its end gives
the same outcome. -/
theorem compileClause_alike (directory directory' : Option String)
    (defaults defaults' : Defaults) (text : String) :
    ((∃ e, compileClause directory defaults text = .error e ∧
        compileClause directory' defaults' text = .error e) ∨
      ∃ ps s t, Clause.split text = .ok ps ∧
        compileClause directory defaults text = .ok s ∧
        compileClause directory' defaults' text = .ok t ∧
        Spec.Alike ps directory directory' defaults defaults' s t) ∧
    ∀ dir : String, dir ≠ "" → (∀ d, dir ≠ d ++ "/") →
      compileClause (some dir) defaults text = compileClause (some (dir ++ "/")) defaults text := by
  refine ⟨?_, fun dir hne hslash => ?_⟩
  · rcases compileClause_cases text with ⟨e, herror⟩ | ⟨ps, hsplit, hfree, hok⟩
    · exact .inl ⟨e, herror _ _, herror _ _⟩
    · exact .inr ⟨ps, _, _, hsplit, hok _ _, hok _ _, meaning_alike hfree _ _ _ _⟩
  · exact compileClause_congr (resolvePath_append_slash hne hslash).symm defaults text

/-- A slash at the end of the directory changes nothing about a clause that names an image. -/
theorem compileClause_alike_slash :
    ("/specs" ≠ "" ∧ ∀ d, "/specs" ≠ d ++ "/") ∧
      compileClause (some "/specs") .builtin "file: a.png, error: 1%" =
        compileClause (some "/specs/") .builtin "file: a.png, error: 1%" := by
  have hne : "/specs" ≠ "" := by decide
  have hslash : ∀ d, "/specs" ≠ d ++ "/" := by
    intro d hd
    have hlast := getLast?_eq_slash_iff.2 ⟨d, hd⟩
    revert hlast
    decide
  refine ⟨⟨hne, hslash⟩, ?_⟩
  exact (compileClause_alike none none .builtin .builtin _).2 "/specs" hne hslash

end ImageCheck
