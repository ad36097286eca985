/-
# Which lists of parameters compile, and to what

`SPEC_FULL` §4.1 and §8; when `compile_parameters` succeeds.

A list of parameters compiles exactly when it is admissible: not too long, every
name known, every value taken by the reader of its key, an image among them, and
no chain fed more than 256 filters. What it compiles to is its `meaning`.

That no parameter is at fault after those before it (`Faultless`) is a condition
on every prefix of the list. `faultless_iff` turns it into one on the list as a
whole: a chain that ends with at most 256 filters had room for each of them when
it came, since a chain never loses a filter.
-/

import ImageCheck.Proofs.Compile.Run

namespace ImageCheck

/-- The reader of a key takes a value. A key without a reader takes any value. -/
def Key.Accepts (key : Key) (value : String) : Prop :=
  match key with
  | .file | .stretch | .cropIfOutside => True
  | .error => ∃ rate, ErrorRate.parse value = .ok rate
  | .tolerance | .analyzeOffset => ∃ n, Value.integer key.name value = .ok n
  | .area => ∃ rect, Value.rect value = .ok rect
  | .filter | .filterA | .filterB | .mapFilter => ∃ f, Value.filter value = .ok f

/-- The number of parameters with a key. -/
def countOf (key : Key) (ps : List Parameter) : Nat :=
  ps.countP fun p => p.key = key.name

/-- The lists of parameters that compile, described without compiling them. -/
structure Admissible (ps : List Parameter) : Prop where
  /-- There are at most 1024 parameters. -/
  few : ps.length ≤ 1024
  /-- Every parameter has one of the eleven keys. -/
  known : ∀ p ∈ ps, ∃ key : Key, p.key = key.name
  /-- Every value is taken by the reader of its key. -/
  accepted : ∀ p ∈ ps, ∀ key : Key, p.key = key.name → key.Accepts p.value
  /-- Some parameter names an image. -/
  image : HasImage ps
  /-- The chain of the baseline is not fed too much. -/
  baseline : countOf .filter ps + countOf .filterA ps ≤ 256
  /-- The chain of the screenshot is not fed too much. -/
  sample : countOf .filter ps + countOf .filterB ps ≤ 256
  /-- The chain of the map is not fed too much. -/
  map : countOf .mapFilter ps ≤ 256

/-- A result without a failure is a success. -/
theorem failure?_eq_none_iff {ε α : Type} {r : Except ε α} :
    failure? r = none ↔ ∃ a, r = .ok a := by
  cases r <;> simp [failure?]

/-- A key does not reject a value exactly if its reader takes it. -/
theorem Key.rejection?_eq_none_iff {key : Key} {value : String} :
    key.rejection? value = none ↔ key.Accepts value := by
  cases key <;> simp [Key.rejection?, Key.Accepts, failure?_eq_none_iff]

/-! ### From prefixes to the whole list -/

/-- One more parameter keeps every chain within bounds when they were so before, and no chain that
its key feeds was full. -/
theorem length_valuesOf_concat_le_iff {ps : List Parameter} {p : Parameter} {key : Key}
    (hkey : p.key = key.name) :
    (∀ chain : Chain, (valuesOf chain.keys (ps ++ [p])).length ≤ 256) ↔
      (∀ chain : Chain, (valuesOf chain.keys ps).length ≤ 256) ∧ ¬ key.Crowded ps := by
  have hlength (chain : Chain) : (valuesOf chain.keys (ps ++ [p])).length =
      (valuesOf chain.keys ps).length + if key ∈ chain.keys then 1 else 0 := by
    have hfed : p.key ∈ chain.keys.map Key.name ↔ key ∈ chain.keys := by
      simp only [hkey, List.mem_map, Key.name_inj, exists_eq_right]
    rw [valuesOf_concat, List.length_append]
    by_cases h : key ∈ chain.keys
    · rw [if_pos (hfed.2 h), if_pos h]
      rfl
    · rw [if_neg (mt hfed.1 h), if_neg h]
      rfl
  unfold Key.Crowded
  constructor
  · intro h
    refine ⟨fun chain => ?_, ?_⟩
    · have := h chain
      rw [hlength] at this
      omega
    · rintro ⟨chain, -, hfed, hfull⟩
      have := h chain
      rw [hlength, if_pos hfed] at this
      omega
  · rintro ⟨hroom, hcrowded⟩ chain
    rw [hlength]
    by_cases hfed : key ∈ chain.keys
    · have : ¬ 256 ≤ (valuesOf chain.keys ps).length := fun hfull =>
        hcrowded ⟨chain, chain.mem_all, hfed, hfull⟩
      rw [if_pos hfed]
      omega
    · rw [if_neg hfed]
      exact hroom chain

/-- **No parameter of a list is at fault** exactly when every key is known, every value is taken,
and no chain is fed more than 256 filters in all. -/
theorem faultless_iff {ps : List Parameter} :
    Faultless ps ↔
      (∀ p ∈ ps, ∃ key : Key, p.key = key.name ∧ key.Accepts p.value) ∧
        ∀ chain : Chain, (valuesOf chain.keys ps).length ≤ 256 := by
  -- a fault looks at the parameters before, so the induction takes the last one off
  induction ps using List.reverseRecOn with
  | nil => simp [faultless_nil, valuesOf]
  | append_singleton ps p ih =>
    rw [faultless_concat, ih, fault?_eq_none_iff]
    simp only [List.mem_append, List.mem_singleton, Key.rejection?_eq_none_iff]
    constructor
    · rintro ⟨⟨hvalues, hroom⟩, key, hkey, haccepts, hcrowded⟩
      refine ⟨?_, (length_valuesOf_concat_le_iff hkey).2 ⟨hroom, hcrowded⟩⟩
      rintro q (hq | rfl)
      · exact hvalues q hq
      · exact ⟨key, hkey, haccepts⟩
    · rintro ⟨hvalues, hroom⟩
      obtain ⟨key, hkey, haccepts⟩ := hvalues p (.inr rfl)
      obtain ⟨hroom, hcrowded⟩ := (length_valuesOf_concat_le_iff hkey).1 hroom
      exact ⟨⟨fun q hq => hvalues q (.inl hq), hroom⟩, key, hkey, haccepts, hcrowded⟩

/-! ### Counting the keys of a chain -/

/-- A key has as many values as it is given times. -/
theorem length_valuesOf_singleton (key : Key) (ps : List Parameter) :
    (valuesOf [key] ps).length = countOf key ps := by
  simp [valuesOf, countOf, List.countP_eq_length_filter]

/-- Two different keys share no parameter, so their counts add up. -/
theorem length_valuesOf_pair {a b : Key} (hab : a ≠ b) (ps : List Parameter) :
    (valuesOf [a, b] ps).length = countOf a ps + countOf b ps := by
  have hcount (qs : List Parameter) : (valuesOf [a, b] qs).length =
      qs.countP fun p => p.key = a.name ∨ p.key = b.name := by
    simp [valuesOf, List.countP_eq_length_filter]
  rw [hcount]
  unfold countOf
  induction ps with
  | nil => rfl
  | cons p ps ih =>
    have hone : ¬ (p.key = a.name ∧ p.key = b.name) := by
      rintro ⟨ha, hb⟩
      exact hab (Key.name_inj.1 (ha.symm.trans hb))
    simp only [List.countP_cons, decide_eq_true_eq, ih]
    split_ifs <;> grind

/-- No chain is fed too much, said once for all chains and once by the counts of their keys. -/
theorem forall_length_valuesOf_le_iff {ps : List Parameter} :
    (∀ chain : Chain, (valuesOf chain.keys ps).length ≤ 256) ↔
      countOf .filter ps + countOf .filterA ps ≤ 256 ∧
        countOf .filter ps + countOf .filterB ps ≤ 256 ∧ countOf .mapFilter ps ≤ 256 := by
  rw [← length_valuesOf_pair (a := .filter) (b := .filterA) (by decide),
    ← length_valuesOf_pair (a := .filter) (b := .filterB) (by decide),
    ← length_valuesOf_singleton]
  constructor
  · intro h
    exact ⟨h .baseline, h .sample, h .map⟩
  · rintro ⟨hbaseline, hsample, hmap⟩ chain
    cases chain with
    | baseline => exact hbaseline
    | sample => exact hsample
    | map => exact hmap

/-- An admissible list is a short one with an image and without a fault. -/
theorem admissible_iff {ps : List Parameter} :
    Admissible ps ↔ ps.length ≤ 1024 ∧ Faultless ps ∧ HasImage ps := by
  rw [faultless_iff, forall_length_valuesOf_le_iff]
  constructor
  · rintro ⟨hfew, hknown, haccepted, himage, hbaseline, hsample, hmap⟩
    refine ⟨hfew, ⟨fun p hp => ?_, hbaseline, hsample, hmap⟩, himage⟩
    obtain ⟨key, hkey⟩ := hknown p hp
    exact ⟨key, hkey, haccepted p hp key hkey⟩
  · rintro ⟨hfew, ⟨hvalues, hbaseline, hsample, hmap⟩, himage⟩
    refine ⟨hfew, fun p hp => ?_, fun p hp key hkey => ?_, himage, hbaseline, hsample, hmap⟩
    · obtain ⟨key, hkey, -⟩ := hvalues p hp
      exact ⟨key, hkey⟩
    · obtain ⟨key', hkey', haccepts⟩ := hvalues p hp
      obtain rfl := Key.name_inj.1 (hkey.symm.trans hkey')
      exact haccepts

/-! ### The result -/

/-- A list that compiles is short, free of faults and names an image. -/
theorem faultless_of_compileParameters_eq_ok {directory : Option String} {defaults : Defaults}
    {ps : List Parameter} {s : Spec} (h : compileParameters directory defaults ps = .ok s) :
    ps.length ≤ 1024 ∧ Faultless ps ∧ HasImage ps := by
  by_cases hlen : ps.length ≤ 1024
  · rcases faultless_or_firstFault ps with hfree | ⟨e, hfault⟩
    · rw [compileParameters_of_faultless directory defaults hlen hfree] at h
      by_cases himage : HasImage ps
      · exact ⟨hlen, hfree, himage⟩
      · simp [mt declaresImage_iff.1 himage] at h
    · have herror := applyAll_of_firstFault directory defaults hlen hfault
      exact absurd h (compileParameters_ne_ok directory defaults herror s)
  · have herror := applyAll_of_lt_length directory defaults (Nat.lt_of_not_le hlen)
    exact absurd h (compileParameters_ne_ok directory defaults herror s)

/-- **What a list of parameters compiles to.** It compiles exactly when it is admissible, and then
to its meaning: the last of each setting, the filters of each chain in order, and the images in
order, each below the directory. -/
theorem compileParameters_eq_ok_iff (directory : Option String) (defaults : Defaults)
    (ps : List Parameter) (s : Spec) :
    (compileParameters directory defaults ps = .ok s ↔
      Admissible ps ∧ s = meaning directory defaults ps) ∧
    List.Forall₂ (Resolves directory) (valuesOf [.file] ps)
      (meaning directory defaults ps).images := by
  refine ⟨?_, forall₂_resolves_images directory defaults ps⟩
  rw [admissible_iff]
  constructor
  · intro h
    obtain ⟨hlen, hfree, himage⟩ := faultless_of_compileParameters_eq_ok h
    rw [compileParameters_of_faultless directory defaults hlen hfree,
      if_pos (declaresImage_iff.2 himage)] at h
    exact ⟨⟨hlen, hfree, himage⟩, (Except.ok.inj h).symm⟩
  · rintro ⟨⟨hlen, hfree, himage⟩, rfl⟩
    rw [compileParameters_of_faultless directory defaults hlen hfree,
      if_pos (declaresImage_iff.2 himage)]

end ImageCheck
