/-
# When the order of parameters counts

`SPEC_FULL` §8: order sensitivity.

Parameters that set different things may stand in any order. Those that set the same
thing share a slot, and within a slot their order counts: the images and the filters of
a chain come in order, and of the other settings the last one counts.

| slot | keys |
| --- | --- |
| images | `file` |
| error rate, tolerance, offset, area | the key of the setting |
| filters of the baseline | `filter`, `filter-a` |
| filters of the screenshot | `filter`, `filter-b` |
| filters of the map | `map-filter` |

A `filter` stands in two slots. `stretch` and `crop-if-outside` stand in none, since
they only have to occur.

Whether a list compiles is a matter of which parameters it has, in whatever order
(`faultless_iff_of_perm`): how full a chain is at some parameter does depend on the
order, but not how full it is in the end. What a list compiles to is its meaning, which
looks at each slot by itself (`meaning_eq_of_sameOrder`).
-/

import ImageCheck.Proofs.Compile.Admissible

namespace ImageCheck

/-- The groups of keys within which the order of parameters counts. -/
def slots : List (List Key) :=
  [[.file], [.error], [.tolerance], [.analyzeOffset], [.area], [.filter, .filterA],
   [.filter, .filterB], [.mapFilter]]

/-- The parameters with some keys are the same ones in the same order. -/
def SameOrder (keys : List Key) (ps qs : List Parameter) : Prop :=
  (ps.filter fun p => p.key ∈ keys.map Key.name) = qs.filter fun p => p.key ∈ keys.map Key.name

instance (keys : List Key) (ps qs : List Parameter) : Decidable (SameOrder keys ps qs) :=
  inferInstanceAs (Decidable (_ = _))

section Permutation

variable {ps qs : List Parameter}

/-! ### What a permutation keeps -/

/-- In any order the values of keys are the same ones. -/
theorem valuesOf_perm (h : ps.Perm qs) (keys : List Key) :
    (valuesOf keys ps).Perm (valuesOf keys qs) :=
  (h.filter _).map _

/-- Whether an image is named does not depend on the order. -/
theorem hasImage_iff_of_perm (h : ps.Perm qs) : HasImage ps ↔ HasImage qs := by
  unfold HasImage
  simp only [h.mem_iff]

/-- **A list is free of faults in every order or in none.** -/
theorem faultless_iff_of_perm (h : ps.Perm qs) : Faultless ps ↔ Faultless qs := by
  have hlength (chain : Chain) : (valuesOf chain.keys ps).length =
      (valuesOf chain.keys qs).length := (valuesOf_perm h chain.keys).length_eq
  simp only [faultless_iff, h.mem_iff, hlength]

/-- A list that compiles in one order compiles in every other, to its meaning there. -/
theorem compileParameters_eq_meaning_of_perm (h : ps.Perm qs) {directory : Option String}
    {defaults : Defaults} {s : Spec} (hok : compileParameters directory defaults ps = .ok s) :
    compileParameters directory defaults qs = .ok (meaning directory defaults qs) := by
  obtain ⟨hlen, hfree, himage⟩ := faultless_of_compileParameters_eq_ok hok
  rw [h.length_eq] at hlen
  rw [compileParameters_of_faultless directory defaults hlen ((faultless_iff_of_perm h).1 hfree),
    if_pos (declaresImage_iff.2 ((hasImage_iff_of_perm h).1 himage))]

/-! ### What the order within a slot keeps -/

/-- Keys whose parameters stand in one order have their values in one order. -/
theorem valuesOf_eq_of_sameOrder {keys : List Key} (h : SameOrder keys ps qs) :
    valuesOf keys ps = valuesOf keys qs :=
  congrArg (List.map Parameter.value) h

/-- A setting whose parameters stand in one order is set alike. -/
theorem lastOf_eq_of_sameOrder {ε α : Type} {read : String → Except ε α} {key : Key}
    (h : SameOrder [key] ps qs) : lastOf read key ps = lastOf read key qs := by
  rw [lastOf, lastOf, valuesOf_eq_of_sameOrder h]

/-- The keys of a chain are a slot. -/
theorem keys_mem_slots (chain : Chain) : chain.keys ∈ slots := by
  cases chain <;> decide

/-- A chain whose parameters stand in one order gets its filters in one order. -/
theorem filtersFor_eq_of_sameOrder {chain : Chain} (h : SameOrder chain.keys ps qs) :
    filtersFor chain ps = filtersFor chain qs := by
  rw [filtersFor, filtersFor, valuesOf_eq_of_sameOrder h]

/-- **What parameters mean depends on the order within each slot alone.** -/
theorem meaning_eq_of_sameOrder (hperm : ps.Perm qs) (h : ∀ keys ∈ slots, SameOrder keys ps qs)
    (directory : Option String) (defaults : Defaults) :
    meaning directory defaults ps = meaning directory defaults qs := by
  have himages := valuesOf_eq_of_sameOrder (h [.file] (by decide))
  have hflag (key : Key) : valuesOf [key] ps = [] ↔ valuesOf [key] qs = [] := by
    rw [← List.length_eq_zero_iff, (valuesOf_perm hperm [key]).length_eq, List.length_eq_zero_iff]
  have hfilters (chain : Chain) : filtersFor chain ps = filtersFor chain qs :=
    filtersFor_eq_of_sameOrder (h chain.keys (keys_mem_slots chain))
  simp only [meaning, himages, hflag, hfilters, ne_eq,
    lastOf_eq_of_sameOrder (h [.error] (by decide)),
    lastOf_eq_of_sameOrder (h [.tolerance] (by decide)),
    lastOf_eq_of_sameOrder (h [.analyzeOffset] (by decide)),
    lastOf_eq_of_sameOrder (h [.area] (by decide))]

/-! ### The result -/

/-- **Order counts only within a slot.** A list of parameters compiles in every order or in none,
and in two orders that agree within each slot it compiles to the same specification. -/
theorem compileParameters_of_perm (hperm : ps.Perm qs) (directory : Option String)
    (defaults : Defaults) :
    ((∃ s, compileParameters directory defaults qs = .ok s) ↔
      ∃ s, compileParameters directory defaults ps = .ok s) ∧
    ((∀ keys ∈ slots, SameOrder keys ps qs) → ∀ s,
      compileParameters directory defaults ps = .ok s →
        compileParameters directory defaults qs = .ok s) := by
  refine ⟨⟨?_, ?_⟩, ?_⟩
  · rintro ⟨s, hok⟩
    exact ⟨_, compileParameters_eq_meaning_of_perm hperm.symm hok⟩
  · rintro ⟨s, hok⟩
    exact ⟨_, compileParameters_eq_meaning_of_perm hperm hok⟩
  · intro horder s hok
    -- both orders compile to their meanings, so `s` is the meaning of `ps`
    have hmeaning := compileParameters_eq_meaning_of_perm (List.Perm.refl ps) hok
    rw [compileParameters_eq_meaning_of_perm hperm hok, ← hok, hmeaning,
      meaning_eq_of_sameOrder hperm horder]

end Permutation

/-- Parameters of several slots, with filters of three keys among each other. -/
def ordered : List Parameter :=
  [("file", "a.png"), ("filter-a", "blur 1"), ("filter-b", "blur 2"), ("tolerance", "3"),
   ("filter", "contrast 4"), ("stretch", ""), ("tolerance", "5"), ("file", "b.png")].map
    fun pair => ⟨pair.1, pair.2, .start⟩

/-- `ordered` with its slots shuffled and the order within each slot kept. -/
def reordered : List Parameter :=
  [("stretch", ""), ("tolerance", "3"), ("filter-b", "blur 2"), ("tolerance", "5"),
   ("filter-a", "blur 1"), ("file", "a.png"), ("file", "b.png"), ("filter", "contrast 4")].map
    fun pair => ⟨pair.1, pair.2, .start⟩

/-- `reordered` compiles to the specification of `ordered`. -/
theorem compileParameters_of_perm_reordered :
    ordered.Perm reordered ∧ (∀ keys ∈ slots, SameOrder keys ordered reordered) ∧
      ∃ s, compileParameters (some "/specs") .builtin ordered = .ok s ∧
        compileParameters (some "/specs") .builtin reordered = .ok s := by
  have hperm : ordered.Perm reordered := by decide
  have horder : ∀ keys ∈ slots, SameOrder keys ordered reordered := by decide
  have hok : (compileParameters (some "/specs") .builtin ordered).isOk = true := by
    decide +kernel
  refine ⟨hperm, horder, ?_⟩
  cases hs : compileParameters (some "/specs") .builtin ordered with
  | error e => simp [hs, Except.isOk, Except.toBool] at hok
  | ok s => exact ⟨s, rfl, (compileParameters_of_perm hperm _ _).2 horder s hs⟩

end ImageCheck
