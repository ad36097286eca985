/-
# Offering parameters one by one

`SPEC_FULL` §4.1; `SpecAccumulator`, with `apply`, `push_filter` and `finish`.

A specification can be built up step by step: each parameter is offered to the
specification so far, and one that fails leaves it as it was (`Spec.offer`). The
parameters that were taken are `Spec.accepted`.

`Adds` says all that setting one key does to the parts that add up: which list gets
which new entry, and that no chain it feeds was full. What a whole run keeps follows
from it by induction: chains stay within their limit (`Fits`), and nothing that was
set is taken back (`Keeps`). A rejected parameter might as well not have been there,
so a run is the plain run over the accepted parameters (`foldlM_accepted`).
-/

import ImageCheck.Proofs.Compile.Run

namespace ImageCheck
namespace Spec

/-- The specification after a parameter is offered: one that fails leaves it as it was. -/
def offer (directory : Option String) (s : Spec) (p : Parameter) : Spec :=
  match s.apply directory p with
  | .ok t => t
  | .error _ => s

/-- The specification after parameters are offered in order. -/
def offerAll (directory : Option String) (s : Spec) (ps : List Parameter) : Spec :=
  ps.foldl (offer directory) s

/-- The offered parameters that were taken, in order. -/
def accepted (directory : Option String) (s : Spec) : List Parameter → List Parameter
  | [] => []
  | p :: ps =>
    match s.apply directory p with
    | .ok t => p :: accepted directory t ps
    | .error _ => accepted directory s ps

/-! ### What one parameter does -/

/-- What a value under a key does to the parts of a specification that add up. -/
structure Adds (directory : Option String) (key : Key) (value : String) (s t : Spec) : Prop where
  /-- A `file` adds its path, and nothing else adds one. -/
  images : t.images = s.images ++ if key = .file then [resolvePath directory value] else []
  /-- A filter is added to each chain that its key feeds, and to no other. -/
  filters : ∀ chain, t.filters chain =
    s.filters chain ++ if chain ∈ key.targets then (Value.filter value).toOption.toList else []
  /-- No chain that the key feeds was full. -/
  room : ∀ chain ∈ key.targets, (s.filters chain).length < 256
  /-- Stretching is set by its own key only. -/
  stretch : t.stretch = (s.stretch || key = .stretch)
  /-- Cropping is set by its own key only. -/
  cropIfOutside : t.cropIfOutside = (s.cropIfOutside || key = .cropIfOutside)

section Push

variable (f : FilterOp) {chains : List Chain} (s : Spec)

/-- A filter pushed onto chains, each once, is at the end of these and of no other. -/
theorem filters_foldl_setFilters (hnd : chains.Nodup) (d : Chain) :
    (chains.foldl (fun s chain => s.setFilters (s.filters chain ++ [f]) chain) s).filters d =
      s.filters d ++ if d ∈ chains then [f] else [] := by
  induction chains generalizing s with
  | nil => simp
  | cons c cs ih =>
    obtain ⟨hc, hcs⟩ := List.nodup_cons.1 hnd
    rw [List.foldl_cons, ih _ hcs, filters_setFilters]
    by_cases hd : d = c
    · subst hd
      simp [hc]
    · simp [hd]

/-- Pushing filters leaves everything else alone. -/
theorem foldl_setFilters_others :
    let t := chains.foldl (fun s chain => s.setFilters (s.filters chain ++ [f]) chain) s
    t.images = s.images ∧ t.stretch = s.stretch ∧ t.cropIfOutside = s.cropIfOutside := by
  induction chains generalizing s with
  | nil => exact ⟨rfl, rfl, rfl⟩
  | cons c cs ih =>
    obtain ⟨himages, hstretch, hcrop⟩ := ih (s.setFilters (s.filters c ++ [f]) c)
    cases c <;> exact ⟨himages, hstretch, hcrop⟩

/-- A filter that its key takes is added to the chains of the key. -/
theorem adds_of_foldlM_pushFilter {key : Key} (hfeeds : key.targets ≠ [])
    {directory : Option String} {value : String} (hf : Value.filter value = .ok f) {t : Spec}
    (h : key.targets.foldlM (fun s chain => s.pushFilter f chain) s = .ok t) :
    Adds directory key value s t := by
  rw [foldlM_pushFilter f key.nodup_targets] at h
  split at h
  · cases h
  · rename_i hroom
    obtain rfl := Except.ok.inj h
    obtain ⟨himages, hstretch, hcrop⟩ := @foldl_setFilters_others f key.targets s
    -- a key that feeds a chain is neither `file` nor a flag
    have hkey : key ≠ .file ∧ key ≠ .stretch ∧ key ≠ .cropIfOutside := by
      cases key <;> simp_all [Key.targets]
    refine ⟨?_, fun chain => ?_, fun chain hchain => ?_, ?_, ?_⟩
    · simp [himages, hkey.1]
    · rw [filters_foldl_setFilters f s key.nodup_targets, hf]
      rfl
    · exact Nat.lt_of_not_le fun hfull => hroom ⟨chain, hchain, hfull⟩
    · simp [hstretch, hkey.2.1]
    · simp [hcrop, hkey.2.2]

end Push

section Step

variable {directory : Option String} {s t : Spec}

/-- **All that setting a key does** to the parts that add up. -/
theorem adds_of_set {key : Key} {value : String} (h : s.set directory key value = .ok t) :
    Adds directory key value s t := by
  unfold set at h
  -- a key that feeds no chain adds no filter and has no limit
  have hplain (hkey : key.targets = []) (hfilters : ∀ chain, t.filters chain = s.filters chain) :
      (∀ chain, t.filters chain = s.filters chain ++
        if chain ∈ key.targets then (Value.filter value).toOption.toList else []) ∧
      ∀ chain ∈ key.targets, (s.filters chain).length < 256 := by
    simp [hkey, hfilters]
  cases key with
  | file | stretch | cropIfOutside =>
    obtain rfl := Except.ok.inj h
    obtain ⟨hfilters, hroom⟩ := hplain rfl fun chain => by cases chain <;> rfl
    exact ⟨by simp, hfilters, hroom, by simp, by simp⟩
  | error | tolerance | analyzeOffset | area =>
    simp only at h
    split at h
    · obtain rfl := Except.ok.inj h
      obtain ⟨hfilters, hroom⟩ := hplain rfl fun chain => by cases chain <;> rfl
      exact ⟨by simp, hfilters, hroom, by simp, by simp⟩
    · cases h
  | filter | filterA | filterB | mapFilter =>
    simp only at h
    split at h
    · rename_i f hf
      exact adds_of_foldlM_pushFilter f s (by simp [Key.targets]) hf h
    · cases h

/-- A parameter that is taken sets one key. -/
theorem exists_adds_of_apply {p : Parameter} (h : s.apply directory p = .ok t) :
    ∃ key, Adds directory key p.value s t := by
  unfold apply at h
  split at h
  · cases h
  · exact ⟨_, adds_of_set h⟩

/-- No chain is over its limit. -/
def Fits (s : Spec) : Prop := ∀ chain, (s.filters chain).length ≤ 256

/-- What was set is still there: nothing is taken from a list, and no flag is cleared. -/
structure Keeps (s t : Spec) : Prop where
  /-- The images go on from where they were. -/
  images : s.images <+: t.images
  /-- So does each chain. -/
  filters : ∀ chain, s.filters chain <+: t.filters chain
  /-- Stretching stays on. -/
  stretch : s.stretch = true → t.stretch = true
  /-- Cropping stays on. -/
  cropIfOutside : s.cropIfOutside = true → t.cropIfOutside = true

/-- No list has more than one new entry. -/
structure AddsAtMostOne (s t : Spec) : Prop where
  /-- At most one new image. -/
  images : t.images.length ≤ s.images.length + 1
  /-- At most one new filter in each chain. -/
  filters : ∀ chain, (t.filters chain).length ≤ (s.filters chain).length + 1

/-- A specification keeps itself. -/
theorem Keeps.refl (s : Spec) : s.Keeps s :=
  ⟨List.prefix_rfl, fun _ => List.prefix_rfl, id, id⟩

/-- Two steps that take nothing back take nothing back together. -/
theorem Keeps.trans {u : Spec} (h : s.Keeps t) (h' : t.Keeps u) : s.Keeps u :=
  ⟨h.images.trans h'.images, fun chain => (h.filters chain).trans (h'.filters chain),
    fun hs => h'.stretch (h.stretch hs), fun hs => h'.cropIfOutside (h.cropIfOutside hs)⟩

namespace Adds

variable {key : Key} {value : String}

/-- Setting a key takes nothing away. -/
theorem keeps (h : Adds directory key value s t) : s.Keeps t := by
  refine ⟨?_, fun chain => ?_, fun hs => ?_, fun hs => ?_⟩
  · rw [h.images]
    exact List.prefix_append _ _
  · rw [h.filters]
    exact List.prefix_append _ _
  · rw [h.stretch, hs, Bool.true_or]
  · rw [h.cropIfOutside, hs, Bool.true_or]

/-- Setting a key adds one entry to a list at most. -/
theorem addsAtMostOne (h : Adds directory key value s t) : s.AddsAtMostOne t := by
  refine ⟨?_, fun chain => ?_⟩
  · rw [h.images, List.length_append]
    split <;> simp
  · rw [h.filters, List.length_append]
    split
    · cases Value.filter value <;> simp [Except.toOption]
    · simp

/-- One more filter has its place in a chain that was not full. -/
theorem fits (h : Adds directory key value s t) (hs : s.Fits) : t.Fits := by
  intro chain
  have hone := h.addsAtMostOne.filters chain
  by_cases hfed : chain ∈ key.targets
  · have := h.room chain hfed
    omega
  · rw [h.filters, if_neg hfed, List.append_nil]
    exact hs chain

end Adds

/-- An offer is taken as the parameter applies, or changes nothing. -/
theorem offer_cases (directory : Option String) (s : Spec) (p : Parameter) :
    s.apply directory p = .ok (s.offer directory p) ∨
      (∃ e, s.apply directory p = .error e) ∧ s.offer directory p = s := by
  unfold offer
  cases h : s.apply directory p with
  | ok t => exact .inl rfl
  | error e => exact .inr ⟨⟨e, rfl⟩, rfl⟩

/-- What every offer keeps, taken or not. -/
theorem offer_keeps (directory : Option String) (s : Spec) (p : Parameter) :
    s.Keeps (s.offer directory p) ∧ s.AddsAtMostOne (s.offer directory p) ∧
      (s.Fits → (s.offer directory p).Fits) := by
  rcases offer_cases directory s p with htaken | ⟨-, hsame⟩
  · obtain ⟨key, hadds⟩ := exists_adds_of_apply htaken
    exact ⟨hadds.keeps, hadds.addsAtMostOne, hadds.fits⟩
  · rw [hsame]
    exact ⟨.refl s, ⟨Nat.le_succ _, fun _ => Nat.le_succ _⟩, id⟩

/-- A filter for baseline and screenshot goes to both, or to neither if one of them is full. -/
theorem apply_filter {p : Parameter} (hkey : p.key = Key.filter.name) {f : FilterOp}
    (hf : Value.filter p.value = .ok f) :
    s.apply directory p =
      if 256 ≤ s.baseline.length ∨ 256 ≤ s.sample.length then
        .error (.limitExceeded .filtersPerChain)
      else .ok { s with baseline := s.baseline ++ [f], sample := s.sample ++ [f] } := by
  have hset : s.apply directory p =
      Key.filter.targets.foldlM (fun s chain => s.pushFilter f chain) s := by
    rw [apply, hkey, Key.ofName?_name]
    show s.set directory .filter p.value = _
    unfold set
    simp only [hf]
  rw [hset, foldlM_pushFilter f Key.filter.nodup_targets]
  simp [Key.targets, filters, setFilters]

end Step

/-! ### A whole run -/

section Run

variable (directory : Option String)

/-- Offering two lists is offering the first and then the second. -/
theorem offerAll_append (s : Spec) (ps qs : List Parameter) :
    s.offerAll directory (ps ++ qs) = (s.offerAll directory ps).offerAll directory qs :=
  List.foldl_append

/-- A run of offers takes nothing away. -/
theorem keeps_offerAll (s : Spec) (ps : List Parameter) : s.Keeps (s.offerAll directory ps) := by
  induction ps generalizing s with
  | nil => exact .refl s
  | cons p ps ih => exact (offer_keeps directory s p).1.trans (ih _)

/-- A run of offers keeps every chain within its limit. -/
theorem fits_offerAll {s : Spec} (hs : s.Fits) (ps : List Parameter) :
    (s.offerAll directory ps).Fits := by
  induction ps generalizing s with
  | nil => exact hs
  | cons p ps ih => exact ih ((offer_keeps directory s p).2.2 hs)

/-- The parameters that are taken are some of those offered, in their order. -/
theorem accepted_sublist (s : Spec) (ps : List Parameter) :
    (s.accepted directory ps).Sublist ps := by
  induction ps generalizing s with
  | nil => exact .slnil
  | cons p ps ih =>
    rw [accepted]
    split
    · exact (ih _).cons_cons p
    · exact (ih s).cons p

/-- **A rejected parameter might as well not have been there**: the plain run over the accepted ones
ends where the offers did. -/
theorem foldlM_accepted (s : Spec) (ps : List Parameter) :
    (s.accepted directory ps).foldlM (apply directory) s = .ok (s.offerAll directory ps) := by
  induction ps generalizing s with
  | nil => rfl
  | cons p ps ih =>
    rw [accepted]
    show _ = Except.ok ((s.offer directory p).offerAll directory ps)
    unfold offer
    split
    · rename_i t ht
      rw [List.foldlM_cons, ht]
      exact ih t
    · exact ih s

/-- Parameters that all apply compile as the specification they lead to is finished. -/
theorem compileParameters_of_foldlM_eq_ok {defaults : Defaults} {ps : List Parameter} {s : Spec}
    (hlen : ps.length ≤ 1024) (h : ps.foldlM (apply directory) (initial defaults) = .ok s) :
    compileParameters directory defaults ps = s.finish := by
  have hall : applyAll directory defaults ps = s.finish := by
    rw [applyAll, if_neg (show ¬ Limit.parameters.bound < ps.length from Nat.not_lt.2 hlen), h]
  rw [compileParameters, hall, finish]
  by_cases hnone : s.images = []
  · simp only [if_pos hnone]
  · simp only [if_neg hnone]

/-- Whether one more parameter is among the accepted ones is up to the specification so far. -/
theorem accepted_concat (s : Spec) (ps : List Parameter) (p : Parameter) :
    s.accepted directory (ps ++ [p]) = s.accepted directory ps ++
      match (s.offerAll directory ps).apply directory p with
      | .ok _ => [p]
      | .error _ => [] := by
  induction ps generalizing s with
  | nil =>
    show s.accepted directory [p] = match s.apply directory p with
      | .ok _ => [p]
      | .error _ => []
    rw [accepted]
    cases s.apply directory p <;> rfl
  | cons q ps ih =>
    rw [List.cons_append, accepted, accepted]
    show _ = _ ++ match ((s.offer directory q).offerAll directory ps).apply directory p with
      | .ok _ => [p]
      | .error _ => []
    unfold offer
    cases s.apply directory q with
    | ok t => simp only [ih, List.cons_append]
    | error e => simp only [ih]

end Run

/-- **Offering parameters one by one comes to what compiling the accepted ones at once does.** At
every point of a run no chain is over its limit, earlier images, filters and flags are still there,
and the next parameter adds at most one entry to a list; a filter for two chains goes to both or, if
one is full, to neither. -/
theorem finish_offerAll_initial (directory : Option String) (defaults : Defaults)
    (ps : List Parameter) :
    let s := (initial defaults).offerAll directory ps
    let taken := (initial defaults).accepted directory ps
    s.Fits ∧
    (∀ done rest, ps = done ++ rest → ((initial defaults).offerAll directory done).Keeps s) ∧
    (∀ p, s.Keeps (s.offer directory p) ∧ s.AddsAtMostOne (s.offer directory p)) ∧
    (∀ p f, p.key = Key.filter.name → Value.filter p.value = .ok f →
      (256 ≤ s.baseline.length ∨ 256 ≤ s.sample.length →
        s.apply directory p = .error (.limitExceeded .filtersPerChain) ∧
          s.offer directory p = s) ∧
      (s.baseline.length < 256 ∧ s.sample.length < 256 →
        s.apply directory p = .ok (s.offer directory p) ∧
          (s.offer directory p).baseline = s.baseline ++ [f] ∧
          (s.offer directory p).sample = s.sample ++ [f])) ∧
    (taken.Sublist ps ∧ ∀ p, (initial defaults).accepted directory (ps ++ [p]) =
      taken ++ match s.apply directory p with
        | .ok _ => [p]
        | .error _ => []) ∧
    taken.foldlM (apply directory) (initial defaults) = .ok s ∧
    (taken.length ≤ 1024 → s.finish = compileParameters directory defaults taken) := by
  intro s taken
  have hempty : (initial defaults).Fits := fun chain => by cases chain <;> exact Nat.zero_le _
  have hrun : taken.foldlM (apply directory) (initial defaults) = .ok s :=
    foldlM_accepted directory _ ps
  refine ⟨fits_offerAll directory hempty ps, ?_, fun p => ?_, fun p f hkey hf => ?_,
    ⟨accepted_sublist directory _ ps, accepted_concat directory _ ps⟩, hrun, fun hlen => ?_⟩
  · intro done rest hps
    show Keeps _ ((initial defaults).offerAll directory ps)
    rw [hps, offerAll_append]
    exact keeps_offerAll directory _ rest
  · exact ⟨(offer_keeps directory s p).1, (offer_keeps directory s p).2.1⟩
  · have happly : s.apply directory p = _ := apply_filter hkey hf
    constructor
    · intro hfull
      rw [if_pos hfull] at happly
      exact ⟨happly, by rw [offer, happly]⟩
    · intro hroom
      rw [if_neg (by omega)] at happly
      rw [offer, happly]
      exact ⟨rfl, rfl, rfl⟩
  · exact (compileParameters_of_foldlM_eq_ok directory hlen hrun).symm

/-- A clause with a filter of no known kind in the middle. -/
def mixedOffers : List Parameter :=
  [⟨"file", "a.png", .start⟩, ⟨"filter", "sharpen 1", .start⟩, ⟨"stretch", "", .start⟩]

/-- Of `mixedOffers` the filter is rejected and the others compile; a known filter then goes to both
chains. -/
theorem finish_offerAll_mixedOffers :
    let s := (initial .builtin).offerAll none mixedOffers
    let taken : List Parameter := [⟨"file", "a.png", .start⟩, ⟨"stretch", "", .start⟩]
    (initial .builtin).accepted none mixedOffers = taken ∧
      s.finish = compileParameters none .builtin taken ∧
      (s.offer none ⟨"filter", "blur 2", .start⟩).baseline = [⟨.blur, 2⟩] ∧
      (s.offer none ⟨"filter", "blur 2", .start⟩).sample = [⟨.blur, 2⟩] := by
  obtain ⟨-, -, -, hfilter, -, -, hfinish⟩ := finish_offerAll_initial none .builtin mixedOffers
  have htaken : (initial .builtin).accepted none mixedOffers =
      [⟨"file", "a.png", .start⟩, ⟨"stretch", "", .start⟩] := by
    decide +kernel
  have hblur : Value.filter "blur 2" = .ok ⟨.blur, 2⟩ := by
    decide +kernel
  have hchains : ((initial .builtin).offerAll none mixedOffers).baseline = [] ∧
      ((initial .builtin).offerAll none mixedOffers).sample = [] := by
    decide +kernel
  have hboth := (hfilter ⟨"filter", "blur 2", .start⟩ ⟨.blur, 2⟩ rfl hblur).2
  rw [hchains.1, hchains.2] at hboth
  rw [htaken] at hfinish
  exact ⟨htaken, hfinish (by decide), (hboth (by decide)).2⟩

end Spec
end ImageCheck
