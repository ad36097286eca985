/-
# What is wrong with a parameter

`SPEC_FULL` §4.1 and §7; the failures of `apply` and `push_filter`.

A parameter is at fault for one of three reasons: its key is unknown, the reader
of its key refuses its value, or its filter is for a chain that the parameters
before it have filled. The third makes a fault depend on what came before, so
`fault?` takes the parameters before as well.

A list is `Faultless` when no parameter in it is at fault after those before it;
otherwise it has a `FirstFault` (`faultless_or_firstFault`).
-/

import ImageCheck.Proofs.Compile.Meaning
import Mathlib.Data.List.Induction

namespace ImageCheck

/-- The failure in a result, if it is one. -/
def failure? {ε α : Type} : Except ε α → Option ε
  | .ok _ => none
  | .error e => some e

/-- The failure of the reader of a key on a value. A key without a reader takes any value. -/
def Key.rejection? (key : Key) (value : String) : Option CompileError :=
  match key with
  | .file | .stretch | .cropIfOutside => none
  | .error => (failure? (ErrorRate.parse value)).map .errorRate
  | .tolerance | .analyzeOffset => failure? (Value.integer key.name value)
  | .area => failure? (Value.rect value)
  | .filter | .filterA | .filterB | .mapFilter => failure? (Value.filter value)

/-- A key whose filter has no place left: one of its chains already has 256 filters. -/
def Key.Crowded (key : Key) (before : List Parameter) : Prop :=
  ∃ chain ∈ Chain.all, key ∈ chain.keys ∧ 256 ≤ (valuesOf chain.keys before).length

instance (key : Key) (before : List Parameter) : Decidable (key.Crowded before) :=
  inferInstanceAs (Decidable (∃ chain ∈ Chain.all, _))

/-- A key is crowded exactly if one of its chains has 256 filters. -/
theorem Key.crowded_iff {key : Key} {before : List Parameter} :
    key.Crowded before ↔ ∃ chain ∈ key.targets, 256 ≤ (valuesOf chain.keys before).length := by
  unfold Key.Crowded
  simp only [Chain.mem_all, true_and, Chain.mem_targets_iff]

/-- What is wrong with a parameter that follows those in `before`, if anything: its key is unknown,
its value is refused, or its filter has no place left. -/
def fault? (before : List Parameter) (p : Parameter) : Option CompileError :=
  match Key.ofName? p.key with
  | none => some (.unknownParameter p.key)
  | some key =>
    match key.rejection? p.value with
    | some e => some e
    | none => if key.Crowded before then some (.limitExceeded .filtersPerChain) else none

/-- No parameter is at fault. -/
def Faultless (ps : List Parameter) : Prop :=
  ∀ before p after, ps = before ++ p :: after → fault? before p = none

/-- The first parameter at fault fails with `e`. -/
def FirstFault (ps : List Parameter) (e : CompileError) : Prop :=
  ∃ before p after, ps = before ++ p :: after ∧ Faultless before ∧ fault? before p = some e

/-- A parameter is without fault exactly if its key is known, takes the value and is not crowded. -/
theorem fault?_eq_none_iff {before : List Parameter} {p : Parameter} :
    fault? before p = none ↔
      ∃ key : Key, p.key = key.name ∧ key.rejection? p.value = none ∧ ¬ key.Crowded before := by
  unfold fault?
  cases hk : Key.ofName? p.key with
  | none =>
    have hne := Key.ofName?_eq_none_iff.1 hk
    simp [hne]
  | some key =>
    have hname := Key.ofName?_eq_some_iff.1 hk
    simp only [hname, Key.name_inj, exists_eq_left']
    cases key.rejection? p.value <;> simp

/-- The reader of its key takes the value of each parameter of a list free of faults. -/
theorem Faultless.rejection?_eq_none {ps : List Parameter} (h : Faultless ps) {p : Parameter}
    (hp : p ∈ ps) {key : Key} (hkey : p.key = key.name) : key.rejection? p.value = none := by
  obtain ⟨before, after, rfl⟩ := List.append_of_mem hp
  obtain ⟨key', hkey', hvalue, -⟩ := fault?_eq_none_iff.1 (h before p after rfl)
  obtain rfl := Key.name_inj.1 (hkey.symm.trans hkey')
  exact hvalue

/-- A key that feeds a chain reads its value as a filter. -/
theorem filter_of_rejection?_eq_none {key : Key} {chain : Chain} (hkey : key ∈ chain.keys)
    {value : String} (h : key.rejection? value = none) : ∃ f, Value.filter value = .ok f := by
  cases hf : Value.filter value with
  | ok f => exact ⟨f, rfl⟩
  | error e => cases chain <;> cases key <;> simp_all [Key.rejection?, failure?]

theorem faultless_nil : Faultless [] := by
  intro before p after h
  simp at h

/-- A list is free of faults when it is so up to its last parameter, and so is that one. -/
theorem faultless_concat {ps : List Parameter} {p : Parameter} :
    Faultless (ps ++ [p]) ↔ Faultless ps ∧ fault? ps p = none := by
  constructor
  · intro h
    refine ⟨fun before q after hps => ?_, h ps p [] rfl⟩
    exact h before q (after ++ [p]) (by simp [hps])
  · rintro ⟨hps, hp⟩ before q after heq
    rcases List.eq_nil_or_concat after with rfl | ⟨after, r, rfl⟩
    · obtain ⟨rfl, hpq⟩ := List.append_inj' heq rfl
      obtain rfl := List.singleton_inj.1 hpq
      exact hp
    · have h : ps ++ [p] = (before ++ q :: after) ++ [r] := by simp [heq]
      exact hps before q after (List.append_inj' h rfl).1

/-- **Every list is free of faults or has a first one.** -/
theorem faultless_or_firstFault (ps : List Parameter) :
    Faultless ps ∨ ∃ e, FirstFault ps e := by
  induction ps using List.reverseRecOn with
  | nil => exact .inl faultless_nil
  | append_singleton ps p ih =>
    rcases ih with h | ⟨e, before, q, after, rfl, hbefore, hq⟩
    · cases hp : fault? ps p with
      | none => exact .inl (faultless_concat.2 ⟨h, hp⟩)
      | some e => exact .inr ⟨e, ps, p, [], rfl, h, hp⟩
    · exact .inr ⟨e, before, q, after ++ [p], by simp, hbefore, hq⟩

end ImageCheck
