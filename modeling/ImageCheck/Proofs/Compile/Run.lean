/-
# Compiling step by step

`apply_meaning` is the step: on the meaning of the parameters so far, one more
parameter either fails with its own fault or leads to the meaning of the longer
list. `foldlM_apply_of_faultless` and `foldlM_apply_of_firstFault` are the run
over a whole list, by induction from its end. The rest of the module carries the
run through the two limits and the question for an image, to what
`compileParameters` answers.
-/

import ImageCheck.Proofs.Compile.Fault

namespace ImageCheck

namespace Spec

/-- A filter goes to the end of its chain, unless the chain is full. -/
theorem pushFilter_eq (s : Spec) (f : FilterOp) (chain : Chain) :
    s.pushFilter f chain =
      if 256 ≤ (s.filters chain).length then .error (.limitExceeded .filtersPerChain)
      else .ok (s.setFilters (s.filters chain ++ [f]) chain) := by
  unfold pushFilter
  simp only [Limit.bound, ← Nat.not_le, ite_not]

/-- Pushing a filter onto chains, each once, works when none of them is full, and fails as a whole
otherwise: a chain that was already extended is not kept. -/
theorem foldlM_pushFilter (f : FilterOp) {chains : List Chain} (hnd : chains.Nodup) (s : Spec) :
    chains.foldlM (fun s chain => s.pushFilter f chain) s =
      if ∃ chain ∈ chains, 256 ≤ (s.filters chain).length then
        .error (.limitExceeded .filtersPerChain)
      else .ok (chains.foldl (fun s chain => s.setFilters (s.filters chain ++ [f]) chain) s) := by
  induction chains generalizing s with
  | nil => rfl
  | cons c cs ih =>
    obtain ⟨hc, hcs⟩ := List.nodup_cons.1 hnd
    rw [List.foldlM_cons, pushFilter_eq]
    by_cases hfull : 256 ≤ (s.filters c).length
    · rw [if_pos hfull, if_pos ⟨c, List.mem_cons_self, hfull⟩]
      rfl
    · -- the chains that are left are others, so they are as full as before
      have hrest : (∃ d ∈ cs, 256 ≤ ((s.setFilters (s.filters c ++ [f]) c).filters d).length) ↔
          ∃ d ∈ c :: cs, 256 ≤ (s.filters d).length := by
        simp only [List.mem_cons, exists_eq_or_imp, hfull, false_or]
        refine exists_congr fun d => and_congr_right fun hd => ?_
        rw [filters_setFilters, if_neg (by rintro rfl; exact hc hd)]
      rw [if_neg hfull]
      show cs.foldlM _ _ = _
      rw [ih hcs]
      simp only [hrest, List.foldl_cons]

end Spec

section Run

variable (directory : Option String) (defaults : Defaults) {before : List Parameter}

/-- Each value for a chain of a list free of faults became a filter of the chain. -/
theorem length_filters_meaning (h : Faultless before) (chain : Chain) :
    ((meaning directory defaults before).filters chain).length =
      (valuesOf chain.keys before).length := by
  have hread : ∀ value ∈ valuesOf chain.keys before, ∃ f, Value.filter value = .ok f := by
    intro value hvalue
    obtain ⟨p, hp, ⟨key, hkey, hname⟩, rfl⟩ := mem_valuesOf_iff.1 hvalue
    exact filter_of_rejection?_eq_none hkey (h.rejection?_eq_none hp hname)
  have hfilters : (meaning directory defaults before).filters chain = filtersFor chain before := by
    cases chain <;> rfl
  rw [hfilters]
  unfold filtersFor
  rw [List.length_filterMap_eq_countP, List.countP_eq_length]
  intro value hvalue
  obtain ⟨f, hf⟩ := hread value hvalue
  rw [hf]
  rfl

/-- A filter at the end of the chains of its key is what one more parameter means. -/
theorem foldl_setFilters_meaning {p : Parameter} {key : Key} (hkey : p.key = key.name)
    (hfeeds : key.targets ≠ []) {f : FilterOp} (hf : Value.filter p.value = .ok f) :
    key.targets.foldl (fun s chain => s.setFilters (s.filters chain ++ [f]) chain)
      (meaning directory defaults before) = meaning directory defaults (before ++ [p]) := by
  cases key with
  | filter | filterA | filterB | mapFilter =>
    simp [Key.targets, Spec.setFilters, Spec.filters, meaning, hkey, hf, Except.toOption]
  | _ => exact absurd rfl hfeeds

/-- A filter goes to the chains of its key as the longer list means it, unless one is full. -/
theorem foldlM_pushFilter_meaning (h : Faultless before) {p : Parameter} {key : Key}
    (hkey : p.key = key.name) (hfeeds : key.targets ≠ []) {f : FilterOp}
    (hf : Value.filter p.value = .ok f) :
    key.targets.foldlM (fun s chain => s.pushFilter f chain) (meaning directory defaults before) =
      if key.Crowded before then .error (.limitExceeded .filtersPerChain)
      else .ok (meaning directory defaults (before ++ [p])) := by
  have hcrowded : (∃ chain ∈ key.targets,
      256 ≤ ((meaning directory defaults before).filters chain).length) ↔ key.Crowded before := by
    simp only [Key.crowded_iff, length_filters_meaning directory defaults h]
  rw [Spec.foldlM_pushFilter f key.nodup_targets,
    foldl_setFilters_meaning directory defaults hkey hfeeds hf]
  simp only [hcrowded]

/-- A value is set as the longer list means it, unless it is at fault. -/
theorem set_meaning (h : Faultless before) {p : Parameter} {key : Key} (hkey : p.key = key.name) :
    (meaning directory defaults before).set directory key p.value =
      match key.rejection? p.value with
      | some e => .error e
      | none =>
        if key.Crowded before then .error (.limitExceeded .filtersPerChain)
        else .ok (meaning directory defaults (before ++ [p])) := by
  unfold Spec.set
  cases key with
  | file => simp [Key.rejection?, Key.crowded_iff, Key.targets, meaning, hkey]
  | stretch => simp [Key.rejection?, Key.crowded_iff, Key.targets, meaning, hkey]
  | cropIfOutside => simp [Key.rejection?, Key.crowded_iff, Key.targets, meaning, hkey]
  | error =>
    cases hv : ErrorRate.parse p.value <;>
      simp [Key.rejection?, failure?, Key.crowded_iff, Key.targets, meaning, hkey, hv,
        Except.toOption]
  | tolerance =>
    cases hv : Value.integer Key.tolerance.name p.value <;>
      simp [Key.rejection?, failure?, Key.crowded_iff, Key.targets, meaning, hkey, hv,
        Except.toOption]
  | analyzeOffset =>
    cases hv : Value.integer Key.analyzeOffset.name p.value <;>
      simp [Key.rejection?, failure?, Key.crowded_iff, Key.targets, meaning, hkey, hv,
        Except.toOption]
  | area =>
    cases hv : Value.rect p.value <;>
      simp [Key.rejection?, failure?, Key.crowded_iff, Key.targets, meaning, hkey, hv,
        Except.toOption]
  | filter | filterA | filterB | mapFilter =>
    cases hf : Value.filter p.value with
    | error e => simp [Key.rejection?, failure?, hf]
    | ok f =>
      have hpush := foldlM_pushFilter_meaning directory defaults h hkey (by decide) hf
      simp only [Key.rejection?, failure?, hf]
      exact hpush

/-- **The step.** On the meaning of parameters free of faults, one more parameter fails with its own
fault, or leads to the meaning of the longer list. -/
theorem apply_meaning (h : Faultless before) (p : Parameter) :
    Spec.apply directory (meaning directory defaults before) p =
      match fault? before p with
      | some e => .error e
      | none => .ok (meaning directory defaults (before ++ [p])) := by
  unfold Spec.apply fault?
  cases hk : Key.ofName? p.key with
  | none => rfl
  | some key =>
    have hset := set_meaning directory defaults h (Key.ofName?_eq_some_iff.1 hk)
    simp only [hset]
    cases key.rejection? p.value with
    | some e => rfl
    | none => by_cases hc : key.Crowded before <;> simp [hc]

/-- The run over parameters free of faults ends with their meaning. -/
theorem foldlM_apply_of_faultless {ps : List Parameter} (h : Faultless ps) :
    ps.foldlM (Spec.apply directory) (Spec.initial defaults) =
      .ok (meaning directory defaults ps) := by
  induction ps using List.reverseRecOn with
  | nil => rfl
  | append_singleton ps p ih =>
    obtain ⟨hps, hp⟩ := faultless_concat.1 h
    rw [List.foldlM_append, ih hps]
    show [p].foldlM (Spec.apply directory) (meaning directory defaults ps) = _
    rw [List.foldlM_cons, apply_meaning directory defaults hps, hp]
    rfl

/-- The run over parameters with a fault ends with the first one, whatever follows it. -/
theorem foldlM_apply_of_firstFault {ps : List Parameter} {e : CompileError}
    (h : FirstFault ps e) :
    ps.foldlM (Spec.apply directory) (Spec.initial defaults) = .error e := by
  obtain ⟨before, p, after, rfl, hbefore, hp⟩ := h
  rw [List.foldlM_append, foldlM_apply_of_faultless directory defaults hbefore]
  show (p :: after).foldlM (Spec.apply directory) (meaning directory defaults before) = _
  rw [List.foldlM_cons, apply_meaning directory defaults hbefore, hp]
  rfl

/-! ### The outcome -/

variable {ps : List Parameter}

/-- Too many parameters are refused for their number. -/
theorem applyAll_of_lt_length (h : 1024 < ps.length) :
    applyAll directory defaults ps = .error (.limitExceeded .parameters) := by
  rw [applyAll, if_pos (show Limit.parameters.bound < ps.length from h)]

/-- Otherwise the first fault decides. -/
theorem applyAll_of_firstFault (hlen : ps.length ≤ 1024) {e : CompileError}
    (h : FirstFault ps e) : applyAll directory defaults ps = .error e := by
  rw [applyAll, if_neg (show ¬ Limit.parameters.bound < ps.length from Nat.not_lt.2 hlen),
    foldlM_apply_of_firstFault directory defaults h]

/-- Without a fault only the question for an image is left. -/
theorem applyAll_of_faultless (hlen : ps.length ≤ 1024) (h : Faultless ps) :
    applyAll directory defaults ps = (meaning directory defaults ps).finish := by
  rw [applyAll, if_neg (show ¬ Limit.parameters.bound < ps.length from Nat.not_lt.2 hlen),
    foldlM_apply_of_faultless directory defaults h]

/-- The parameters of a list free of faults compile to their meaning if one names an image. -/
theorem compileParameters_of_faultless (hlen : ps.length ≤ 1024) (h : Faultless ps) :
    compileParameters directory defaults ps =
      if declaresImage ps then .ok (meaning directory defaults ps) else .error .noImages := by
  unfold compileParameters
  rw [applyAll_of_faultless directory defaults hlen h, Spec.finish]
  by_cases himage : HasImage ps
  · rw [if_neg (by simpa [images_meaning_eq_nil_iff] using himage),
      if_pos (declaresImage_iff.2 himage)]
  · rw [if_pos ((images_meaning_eq_nil_iff directory defaults).2 himage),
      if_neg (by simpa [declaresImage_iff] using himage)]

/-- Compiling fails as applying does, where no limit is reported without an image. -/
theorem compileParameters_of_error {e : CompileError}
    (h : applyAll directory defaults ps = .error e)
    (himage : ∀ limit, e = .limitExceeded limit → HasImage ps) :
    compileParameters directory defaults ps = .error e := by
  rw [compileParameters, h]
  cases e with
  | limitExceeded limit => simp [declaresImage_iff.2 (himage limit rfl)]
  | _ => rfl

/-- Replacing one failure by another gives no specification. -/
theorem compileParameters_ne_ok {e : CompileError} (h : applyAll directory defaults ps = .error e)
    (s : Spec) : compileParameters directory defaults ps ≠ .ok s := by
  rw [compileParameters, h]
  cases e with
  | limitExceeded limit => cases hd : declaresImage ps <;> simp
  | _ => simp

/-- A limit gives way to a missing image. -/
theorem compileParameters_of_limitExceeded {limit : Limit}
    (h : applyAll directory defaults ps = .error (.limitExceeded limit))
    (himage : ¬ HasImage ps) : compileParameters directory defaults ps = .error .noImages := by
  rw [compileParameters, h]
  simp [mt declaresImage_iff.1 himage]

/-- Compiling looks at the names and values of parameters, not at their places. -/
theorem compileParameters_congr {qs : List Parameter}
    (h : ps.map (fun p => (p.key, p.value)) = qs.map fun p => (p.key, p.value)) :
    compileParameters directory defaults ps = compileParameters directory defaults qs := by
  have hlength : ps.length = qs.length := by
    simpa using congrArg List.length h
  have hfold (rs : List Parameter) (s : Spec) : rs.foldlM (Spec.apply directory) s =
      (rs.map fun p => (p.key, p.value)).foldlM
        (fun s pair => s.apply directory ⟨pair.1, pair.2, .start⟩) s := by
    rw [List.foldlM_map]
    rfl
  have himage (rs : List Parameter) : declaresImage rs =
      (rs.map fun p => (p.key, p.value)).any fun pair => Key.ofName? pair.1 = some .file := by
    rw [List.any_map]
    rfl
  unfold compileParameters applyAll
  rw [hlength, hfold ps, hfold qs, himage ps, himage qs, h]

end Run

end ImageCheck
