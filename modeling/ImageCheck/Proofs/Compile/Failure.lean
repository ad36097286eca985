/-
# Which failure is reported

`SPEC_FULL` §4.1, §7 and §8; which failure `compile_parameters` reports.

A list of parameters can be wrong in several places and several ways at once;
one failure is reported.

| the list | reported |
| --- | --- |
| more than 1024 parameters | that limit |
| a parameter at fault | the fault of the first such parameter |
| nothing wrong, no image | the missing image |

A limit is reported only where some parameter names an image, be it after the
place where the limit was hit; otherwise the missing image is. `Fails` is this
table, and `compileParameters_eq_error_iff` says that it is the whole truth.
-/

import ImageCheck.Proofs.Compile.Run

namespace ImageCheck

/-- The failure that is reported for a list of parameters. -/
inductive Fails (ps : List Parameter) : CompileError → Prop
  /-- Too many parameters, whatever they are. -/
  | tooMany (hlen : 1024 < ps.length) (himage : HasImage ps) :
      Fails ps (.limitExceeded .parameters)
  /-- Too many parameters, and none names an image. -/
  | tooManyNoImage (hlen : 1024 < ps.length) (himage : ¬ HasImage ps) : Fails ps .noImages
  /-- The first fault; a full chain needs an image to be reported. -/
  | fault {e : CompileError} (hlen : ps.length ≤ 1024) (hfault : FirstFault ps e)
      (himage : e = .limitExceeded .filtersPerChain → HasImage ps) : Fails ps e
  /-- The first fault is a full chain, and no parameter names an image. -/
  | fullNoImage (hlen : ps.length ≤ 1024)
      (hfault : FirstFault ps (.limitExceeded .filtersPerChain)) (himage : ¬ HasImage ps) :
      Fails ps .noImages
  /-- Nothing is wrong, but no parameter names an image. -/
  | noImage (hlen : ps.length ≤ 1024) (hfree : Faultless ps) (himage : ¬ HasImage ps) :
      Fails ps .noImages

/-! ### The kinds of faults -/

/-- The failures of the readers of values. -/
inductive CompileError.OfValue : CompileError → Prop
  | unknownFilter (name : String) : OfValue (.unknownFilter name)
  | invalidInteger (field value : String) : OfValue (.invalidInteger field value)
  | read (cause : ReadError) : OfValue (.read cause)
  | errorRate (cause : ErrorRateError) : OfValue (.errorRate cause)

/-- A failure to read a whole number is one of the value. -/
theorem Value.ofValue_of_integer {field value : String} {e : CompileError}
    (h : Value.integer field value = .error e) : e.OfValue := by
  unfold Value.integer at h
  split at h
  · cases h
  · cases h
    exact .invalidInteger field value

/-- A failure to read a rectangle is one of the value. -/
theorem Value.ofValue_of_rect {value : String} {e : CompileError}
    (h : Value.rect value = .error e) : e.OfValue := by
  unfold Value.rect at h
  split at h
  · cases h
    exact .read _
  · cases h

/-- A failure to read a filter is one of the value. -/
theorem Value.ofValue_of_filter {value : String} {e : CompileError}
    (h : Value.filter value = .error e) : e.OfValue := by
  unfold Value.filter at h
  split at h
  · cases h
    exact .read _
  · split at h
    · cases h
      exact .read _
    · split at h
      · cases h
        exact .unknownFilter _
      · split at h
        · cases h
          exact .read _
        · cases h

/-- The failure of a result is the one it fails with. -/
theorem failure?_eq_some_iff {ε α : Type} {r : Except ε α} {e : ε} :
    failure? r = some e ↔ r = .error e := by
  cases r <;> simp [failure?]

/-- A value is refused for what is wrong with the value. -/
theorem Key.ofValue_of_rejection? {key : Key} {value : String} {e : CompileError}
    (h : key.rejection? value = some e) : e.OfValue := by
  cases key with
  | file | stretch | cropIfOutside => cases h
  | error =>
    obtain ⟨cause, -, rfl⟩ := Option.map_eq_some_iff.1 h
    exact .errorRate cause
  | tolerance | analyzeOffset => exact Value.ofValue_of_integer (failure?_eq_some_iff.1 h)
  | area => exact Value.ofValue_of_rect (failure?_eq_some_iff.1 h)
  | filter | filterA | filterB | mapFilter =>
    exact Value.ofValue_of_filter (failure?_eq_some_iff.1 h)

/-- A fault is an unknown key, a refused value or a full chain, and nothing else. -/
theorem kind_of_fault? {before : List Parameter} {p : Parameter} {e : CompileError}
    (h : fault? before p = some e) :
    e = .unknownParameter p.key ∨ e.OfValue ∨ e = .limitExceeded .filtersPerChain := by
  unfold fault? at h
  split at h
  · exact .inl (Option.some.inj h).symm
  · rename_i key _
    split at h
    · rename_i e' hvalue
      obtain rfl := Option.some.inj h
      exact .inr (.inl (key.ofValue_of_rejection? hvalue))
    · split at h
      · exact .inr (.inr (Option.some.inj h).symm)
      · cases h

/-- A missing image is no fault of a parameter. -/
theorem FirstFault.ne_noImages {ps : List Parameter} {e : CompileError} (h : FirstFault ps e) :
    e ≠ .noImages := by
  obtain ⟨before, p, after, -, -, hp⟩ := h
  rcases kind_of_fault? hp with rfl | hvalue | rfl
  · simp
  · rintro rfl
    cases hvalue
  · simp

/-- The only limit that a parameter can be at fault for is that of a chain. -/
theorem FirstFault.eq_filtersPerChain {ps : List Parameter} {limit : Limit}
    (h : FirstFault ps (.limitExceeded limit)) : limit = .filtersPerChain := by
  obtain ⟨before, p, after, -, -, hp⟩ := h
  rcases kind_of_fault? hp with heq | hvalue | heq
  · cases heq
  · cases hvalue
  · exact CompileError.limitExceeded.inj heq

/-! ### The table holds -/

section Table

variable {ps : List Parameter} {e : CompileError}

/-- What the table says is reported. -/
theorem Fails.compileParameters_eq (directory : Option String) (defaults : Defaults)
    (h : Fails ps e) : compileParameters directory defaults ps = .error e := by
  cases h with
  | tooMany hlen himage =>
    exact compileParameters_of_error directory defaults
      (applyAll_of_lt_length directory defaults hlen) fun _ _ => himage
  | tooManyNoImage hlen himage =>
    exact compileParameters_of_limitExceeded directory defaults
      (applyAll_of_lt_length directory defaults hlen) himage
  | fault hlen hfault himage =>
    refine compileParameters_of_error directory defaults
      (applyAll_of_firstFault directory defaults hlen hfault) ?_
    rintro limit rfl
    exact himage (by rw [hfault.eq_filtersPerChain])
  | fullNoImage hlen hfault himage =>
    exact compileParameters_of_limitExceeded directory defaults
      (applyAll_of_firstFault directory defaults hlen hfault) himage
  | noImage hlen hfree himage =>
    rw [compileParameters_of_faultless directory defaults hlen hfree,
      if_neg (mt declaresImage_iff.1 himage)]

/-- The table has a row for every list that does not compile. -/
theorem exists_fails_or_faultless (ps : List Parameter) :
    (∃ e, Fails ps e) ∨ ps.length ≤ 1024 ∧ Faultless ps ∧ HasImage ps := by
  by_cases himage : HasImage ps
  · by_cases hlen : ps.length ≤ 1024
    · rcases faultless_or_firstFault ps with hfree | ⟨e, hfault⟩
      · exact .inr ⟨hlen, hfree, himage⟩
      · exact .inl ⟨e, .fault hlen hfault fun _ => himage⟩
    · exact .inl ⟨_, .tooMany (Nat.lt_of_not_le hlen) himage⟩
  · left
    by_cases hlen : ps.length ≤ 1024
    · rcases faultless_or_firstFault ps with hfree | ⟨e, hfault⟩
      · exact ⟨_, .noImage hlen hfree himage⟩
      · by_cases he : e = .limitExceeded .filtersPerChain
        · exact ⟨_, .fullNoImage hlen (he ▸ hfault) himage⟩
        · exact ⟨e, .fault hlen hfault fun h => absurd h he⟩
    · exact ⟨_, .tooManyNoImage (Nat.lt_of_not_le hlen) himage⟩

/-- Without an image, some failure is reported and it is no limit. -/
theorem exists_fails_of_not_hasImage (himage : ¬ HasImage ps) :
    ∃ e, Fails ps e ∧ ∀ limit, e ≠ .limitExceeded limit := by
  rcases exists_fails_or_faultless ps with ⟨e, h⟩ | ⟨-, -, h⟩
  · refine ⟨e, h, ?_⟩
    rintro limit rfl
    cases h with
    | tooMany _ h => exact himage h
    | fault _ hfault h => exact himage (h (by rw [hfault.eq_filtersPerChain]))
  · exact absurd h himage

/-- With an image, a missing one is not reported. -/
theorem not_fails_noImages (himage : HasImage ps) : ¬ Fails ps .noImages := by
  intro h
  cases h with
  | tooManyNoImage _ h => exact h himage
  | fault _ hfault _ => exact hfault.ne_noImages rfl
  | fullNoImage _ _ h => exact h himage
  | noImage _ _ h => exact h himage

/-- A list fails exactly as the table says. -/
theorem compileParameters_eq_error_iff_fails (directory : Option String) (defaults : Defaults) :
    compileParameters directory defaults ps = .error e ↔ Fails ps e := by
  constructor
  · intro h
    rcases exists_fails_or_faultless ps with ⟨e', h'⟩ | ⟨hlen, hfree, himage⟩
    · rw [h'.compileParameters_eq directory defaults] at h
      obtain rfl := Except.error.inj h
      exact h'
    · rw [compileParameters_of_faultless directory defaults hlen hfree,
        if_pos (declaresImage_iff.2 himage)] at h
      cases h
  · exact Fails.compileParameters_eq directory defaults

end Table

/-- **Which failure wins.** A list of parameters fails exactly as the table says. So a list without
an image never compiles and never reports a limit, and one with an image never reports that it is
missing. -/
theorem compileParameters_eq_error_iff (directory : Option String) (defaults : Defaults)
    (ps : List Parameter) :
    (∀ e, compileParameters directory defaults ps = .error e ↔ Fails ps e) ∧
      (¬ HasImage ps → ∃ e, compileParameters directory defaults ps = .error e ∧
        ∀ limit, e ≠ .limitExceeded limit) ∧
      (HasImage ps → compileParameters directory defaults ps ≠ .error .noImages) := by
  refine ⟨fun e => compileParameters_eq_error_iff_fails directory defaults, fun himage => ?_,
    fun himage h => ?_⟩
  · obtain ⟨e, h, hlimit⟩ := exists_fails_of_not_hasImage himage
    exact ⟨e, h.compileParameters_eq directory defaults, hlimit⟩
  · exact not_fails_noImages himage ((compileParameters_eq_error_iff_fails directory defaults).1 h)

end ImageCheck
