/-
# Every specification is the meaning of a clause

`SPEC_FULL` §3 and §4.1; the way back from `ImageCheckSpec` to a clause.

`Spec.clauseText` writes a specification as a clause:

```text
file: "<path>", …, error: <rate>, tolerance: <n>, analyze-offset: <n>, stretch,
crop-if-outside, area: <x> <y> <width> <height>, filter-a: <name> <n>, …,
filter-b: <name> <n>, …, map-filter: <name> <n>, …
```

with an item for each path and each filter, and none for what is not set. Compiling
the clause gives the specification back, whatever the defaults
(`compileClause_clauseText`): the clause splits into the items, each value is taken by
the reader of its key as what it was printed from (`ImageCheck.Proofs.Value.Printed`),
and since every key has its own part of the specification, `meaning` puts them
together again.
-/

import ImageCheck.Proofs.Compile.Admissible
import ImageCheck.Proofs.Compile.Writing
import ImageCheck.Proofs.Value.Printed

namespace ImageCheck

/-! ### Writing a specification -/

/-- The keys of a written specification, in the order of their items. A filter for two chains is
written as one for each. -/
def Key.writeOrder : List Key :=
  [.file, .error, .tolerance, .analyzeOffset, .stretch, .cropIfOutside, .area, .filterA, .filterB,
   .mapFilter]

namespace Spec

/-- The values that a specification gives to a key, in order. -/
def values (s : Spec) : Key → List String
  | .file => s.images
  | .error => [s.errorRate.text]
  | .tolerance => [toString s.tolerance.toNat]
  | .analyzeOffset => s.analyzeOffset.toList.map fun n => toString n.toNat
  | .stretch => if s.stretch then [""] else []
  | .cropIfOutside => if s.cropIfOutside then [""] else []
  | .area => s.area.toList.map Rect.text
  | .filter => []
  | .filterA => s.baseline.map FilterOp.text
  | .filterB => s.sample.map FilterOp.text
  | .mapFilter => s.map.map FilterOp.text

/-- The items of a written specification. -/
def items (s : Spec) : List (Key × String) :=
  Key.writeOrder.flatMap fun key => (s.values key).map fun value => (key, value)

/-- A specification as a clause. -/
def clauseText (s : Spec) : String := writeItems s.items

/-- The specifications that a clause can say. -/
structure Writable (s : Spec) : Prop where
  /-- There is an image. -/
  images : s.images ≠ []
  /-- No chain is longer than a clause may make it. -/
  filters : ∀ chain, (s.filters chain).length ≤ 256
  /-- The tolerance is a number that a parameter takes. -/
  tolerance : s.tolerance.toNat ≤ 2147483647
  /-- So is the offset. -/
  analyzeOffset : ∀ n ∈ s.analyzeOffset, n.toNat ≤ 2147483647
  /-- The error rate is finite. -/
  finite : s.errorRate.value.isFinite = true
  /-- The error rate has no minus sign. -/
  sign : s.errorRate.value.negative = false

end Spec

/-! ### Values are plain -/

/-- A digit may stand in a value without quotes. -/
theorem isOrdinary_of_isDigit {ch : Char} (h : ch.isDigit = true) : isOrdinary ch = true := by
  have hcomma : ch ≠ ',' := Decimal.ne_of_isDigit h (by decide)
  have hquote : ch ≠ '"' := Decimal.ne_of_isDigit h (by decide)
  simp [isOrdinary, Decimal.isBlank_of_isDigit h, hcomma, hquote]

/-- A whole number may stand without quotes, with its sign. -/
theorem plainText_toString_int (i : Int) :
    PlainText (toString i).toList ∧ (toString i).toList ≠ [] := by
  have hne : Decimal.digitsOf i.natAbs ≠ [] := Nat.toDigits_ne_nil
  rw [Decimal.toList_toString_int]
  refine ⟨.of_all ?_, List.append_ne_nil_of_right_ne_nil _ hne⟩
  rw [List.all_append, Bool.and_eq_true]
  constructor
  · split <;> decide
  · refine List.all_eq_true.2 fun ch hch => isOrdinary_of_isDigit ?_
    exact Decimal.allDigits_iff.1 (Decimal.allDigits_digitsOf _) ch hch

/-- So may a natural number. -/
theorem plainText_toString_nat (n : Nat) : PlainText (toString n).toList :=
  (plainText_toString_int n).1

/-- So may a finite error rate without a minus sign. -/
theorem plainText_rate {r : ErrorRate} (hfinite : r.value.isFinite = true)
    (hsign : r.value.negative = false) : PlainText r.text.toList := by
  obtain ⟨⟨n, k, hwrites⟩, -⟩ := Decimal.exists_writes_text hfinite hsign
  refine .of_all ?_
  rw [ErrorRate.text, String.toList_append, List.all_append, Bool.and_eq_true]
  constructor
  · refine List.all_eq_true.2 fun ch hch => ?_
    rcases hwrites.mem ch hch with hdigit | rfl
    · exact isOrdinary_of_isDigit hdigit
    · decide
  · cases r.unit <;> decide

/-- So may a rectangle. -/
theorem plainText_rect (r : Rect) : PlainText r.text.toList := by
  obtain ⟨hx, hxne⟩ := plainText_toString_int r.x.toInt
  obtain ⟨hy, hyne⟩ := plainText_toString_int r.y.toInt
  obtain ⟨hw, hwne⟩ := plainText_toString_int r.width.toInt
  obtain ⟨hh, hhne⟩ := plainText_toString_int r.height.toInt
  have hplain := hx.append_space hxne (hy.append_space hyne (hw.append_space hwne hh hhne)
    (by simp)) (by simp)
  simpa [Rect.text] using hplain

/-- So may a filter. -/
theorem plainText_filter (f : FilterOp) : PlainText f.text.toList := by
  obtain ⟨hvalue, hvaluene⟩ := plainText_toString_int f.value.toInt
  have hname : PlainText f.kind.name.toList ∧ f.kind.name.toList ≠ [] := by
    refine ⟨.of_all ?_, ?_⟩ <;> cases f.kind <;> decide
  have hplain := hname.1.append_space hname.2 hvalue hvaluene
  simpa [FilterOp.text] using hplain

namespace Spec

variable {s : Spec}

/-- Every value can be written with its key. -/
theorem Writable.canWrite (h : s.Writable) {key : Key} {value : String}
    (hvalue : value ∈ s.values key) : key.CanWrite value := by
  cases key with
  | file => trivial
  | error =>
    rw [List.mem_singleton.1 hvalue]
    exact plainText_rate h.finite h.sign
  | tolerance =>
    rw [List.mem_singleton.1 hvalue]
    exact plainText_toString_nat _
  | analyzeOffset =>
    obtain ⟨n, -, rfl⟩ := List.mem_map.1 hvalue
    exact plainText_toString_nat _
  | stretch | cropIfOutside =>
    simp only [values] at hvalue
    split at hvalue
    · exact List.mem_singleton.1 hvalue
    · cases hvalue
  | area =>
    obtain ⟨r, -, rfl⟩ := List.mem_map.1 hvalue
    exact plainText_rect r
  | filter => cases hvalue
  | filterA | filterB | mapFilter =>
    obtain ⟨f, -, rfl⟩ := List.mem_map.1 hvalue
    exact plainText_filter f

/-- Every value is taken by the reader of its key. -/
theorem Writable.accepts (h : s.Writable) {key : Key} {value : String}
    (hvalue : value ∈ s.values key) : key.Accepts value := by
  cases key with
  | file | stretch | cropIfOutside => trivial
  | error =>
    rw [List.mem_singleton.1 hvalue]
    exact ⟨_, ErrorRate.parse_text h.finite h.sign⟩
  | tolerance =>
    rw [List.mem_singleton.1 hvalue]
    exact ⟨_, Value.integer_toString _ h.tolerance⟩
  | analyzeOffset =>
    obtain ⟨n, hn, rfl⟩ := List.mem_map.1 hvalue
    exact ⟨_, Value.integer_toString _ (h.analyzeOffset n (Option.mem_toList.1 hn))⟩
  | area =>
    obtain ⟨r, -, rfl⟩ := List.mem_map.1 hvalue
    exact ⟨_, Value.rect_text r⟩
  | filter => cases hvalue
  | filterA | filterB | mapFilter =>
    obtain ⟨f, -, rfl⟩ := List.mem_map.1 hvalue
    exact ⟨_, Value.filter_text f⟩

end Spec

/-! ### From items to the meaning -/

/-- The parameters of a clause of items have the items' values under their keys. -/
theorem valuesOf_of_map_eq {ps : List Parameter} {items : List (Key × String)}
    (h : ps.map (fun p => (p.key, p.value)) = items.map fun item => (item.1.name, item.2))
    (keys : List Key) :
    valuesOf keys ps = (items.filter fun item => item.1 ∈ keys).map Prod.snd := by
  have hpairs : valuesOf keys ps =
      ((ps.map fun p => (p.key, p.value)).filter fun pair => pair.1 ∈ keys.map Key.name).map
        Prod.snd := by
    simp [valuesOf, List.filter_map, Function.comp_def]
  rw [hpairs, h]
  simp [List.filter_map, Function.comp_def]

/-- An item of a specification carries one of the values of its key. -/
theorem Spec.mem_values_of_mem_items {s : Spec} {item : Key × String} (h : item ∈ s.items) :
    item.2 ∈ s.values item.1 := by
  obtain ⟨key, -, hkey⟩ := List.mem_flatMap.1 h
  obtain ⟨value, hvalue, rfl⟩ := List.mem_map.1 hkey
  exact hvalue

/-- The values of a written specification under some keys. -/
theorem Spec.values_items (s : Spec) (keys : List Key) :
    (s.items.filter fun item => item.1 ∈ keys).map Prod.snd =
      (Key.writeOrder.filter (· ∈ keys)).flatMap s.values := by
  unfold items
  induction Key.writeOrder with
  | nil => rfl
  | cons key order ih =>
    rw [List.flatMap_cons, List.filter_append, List.map_append, ih, List.filter_cons]
    by_cases hkey : key ∈ keys
    · simp [hkey, List.filter_map, Function.comp_def]
    · simp [hkey, List.filter_map, Function.comp_def]

namespace Spec

/-- The parameters of a list are the items of a specification. -/
def Holds (s : Spec) (ps : List Parameter) : Prop :=
  ps.map (fun p => (p.key, p.value)) = s.items.map fun item => (item.1.name, item.2)

namespace Holds

variable {s : Spec} {ps : List Parameter}

/-- The values of keys, as written, are those that the specification has for them, key after key. -/
theorem valuesOf_eq (h : s.Holds ps) (keys : List Key) :
    valuesOf keys ps = (Key.writeOrder.filter (· ∈ keys)).flatMap s.values := by
  rw [valuesOf_of_map_eq h, s.values_items]

/-- A key of its own has its own values. -/
theorem valuesOf_singleton (h : s.Holds ps) {key : Key} (hkey : key ≠ .filter) :
    valuesOf [key] ps = s.values key := by
  have horder : Key.writeOrder.filter (· ∈ [key]) = [key] := by
    cases key with
    | filter => exact absurd rfl hkey
    | _ => decide
  rw [h.valuesOf_eq, horder, List.flatMap_singleton]

/-- A chain is fed its own filters. -/
theorem valuesOf_chain (h : s.Holds ps) (chain : Chain) :
    valuesOf chain.keys ps = (s.filters chain).map FilterOp.text := by
  rw [h.valuesOf_eq]
  cases chain with
  | baseline =>
    have horder : Key.writeOrder.filter (· ∈ Chain.baseline.keys) = [.filterA] := by decide
    rw [horder, List.flatMap_singleton]
    rfl
  | sample =>
    have horder : Key.writeOrder.filter (· ∈ Chain.sample.keys) = [.filterB] := by decide
    rw [horder, List.flatMap_singleton]
    rfl
  | map =>
    have horder : Key.writeOrder.filter (· ∈ Chain.map.keys) = [.mapFilter] := by decide
    rw [horder, List.flatMap_singleton]
    rfl

/-- The filters written for a chain are those of the specification. -/
theorem filtersFor_eq (h : s.Holds ps) (chain : Chain) :
    filtersFor chain ps = s.filters chain := by
  rw [filtersFor, h.valuesOf_chain, List.filterMap_map]
  have hread : ((fun value => (Value.filter value).toOption) ∘ FilterOp.text) = some := by
    funext f
    rw [Function.comp_apply, Value.filter_text]
    rfl
  rw [hread, List.filterMap_some]

/-- The last value of a key is the one that was printed. -/
theorem lastOf_eq {ε α : Type} (h : s.Holds ps) {key : Key} (hkey : key ≠ .filter)
    {read : String → Except ε α} (print : α → String) {x : Option α}
    (hvalues : s.values key = x.toList.map print) (hread : ∀ a ∈ x, read (print a) = .ok a) :
    lastOf read key ps = x := by
  rw [lastOf, h.valuesOf_singleton hkey, hvalues]
  cases x with
  | none => rfl
  | some a =>
    show (read (print a)).toOption = some a
    rw [hread a rfl]
    rfl

/-- **The items of a specification mean that specification**, whatever the defaults. -/
theorem meaning_eq (h : s.Holds ps) (hs : s.Writable) (defaults : Defaults) :
    meaning none defaults ps = s := by
  have himages : (valuesOf [.file] ps).map (resolvePath none) = s.images := by
    rw [h.valuesOf_singleton (by decide)]
    exact List.map_id _
  have hrate : lastOf ErrorRate.parse .error ps = some s.errorRate := by
    refine h.lastOf_eq (by decide) ErrorRate.text rfl ?_
    rintro _ ⟨rfl⟩
    exact ErrorRate.parse_text hs.finite hs.sign
  have htolerance : lastOf (Value.integer Key.tolerance.name) .tolerance ps = some s.tolerance := by
    refine h.lastOf_eq (by decide) (fun n => toString n.toNat) rfl ?_
    rintro _ ⟨rfl⟩
    exact Value.integer_toString _ hs.tolerance
  have hoffset : lastOf (Value.integer Key.analyzeOffset.name) .analyzeOffset ps =
      s.analyzeOffset := by
    refine h.lastOf_eq (by decide) (fun n => toString n.toNat) rfl ?_
    intro n hn
    exact Value.integer_toString _ (hs.analyzeOffset n hn)
  have harea : lastOf Value.rect .area ps = s.area :=
    h.lastOf_eq (by decide) Rect.text rfl fun r _ => Value.rect_text r
  have hstretch : decide (valuesOf [.stretch] ps ≠ []) = s.stretch := by
    rw [h.valuesOf_singleton (by decide), values]
    cases s.stretch <;> rfl
  have hcrop : decide (valuesOf [.cropIfOutside] ps ≠ []) = s.cropIfOutside := by
    rw [h.valuesOf_singleton (by decide), values]
    cases s.cropIfOutside <;> rfl
  unfold meaning
  rw [himages, hrate, htolerance, hoffset, harea, hstretch, hcrop, h.filtersFor_eq,
    h.filtersFor_eq, h.filtersFor_eq]
  rfl

/-- No parameter of a writable specification is at fault. -/
theorem faultless (h : s.Holds ps) (hs : s.Writable) : Faultless ps := by
  rw [faultless_iff]
  constructor
  · intro p hp
    have hpair : (p.key, p.value) ∈ ps.map fun p => (p.key, p.value) := List.mem_map_of_mem hp
    rw [h] at hpair
    obtain ⟨item, hitem, hpair⟩ := List.mem_map.1 hpair
    obtain ⟨hkey, hvalue⟩ := Prod.mk.inj hpair
    refine ⟨item.1, hkey.symm, ?_⟩
    rw [← hvalue]
    exact hs.accepts (mem_values_of_mem_items hitem)
  · intro chain
    rw [h.valuesOf_chain, List.length_map]
    exact hs.filters chain

/-- A specification with an image is written with one. -/
theorem hasImage (h : s.Holds ps) (hs : s.Writable) (defaults : Defaults) : HasImage ps := by
  by_contra hnone
  rw [← images_meaning_eq_nil_iff none defaults, h.meaning_eq hs] at hnone
  exact hs.images hnone

end Holds

/-- **Every specification can be written as a clause**, which compiles to it whatever the defaults,
as long as the clause is not too long and has not too many items. -/
theorem compileClause_clauseText (s : Spec) (hs : s.Writable) (hitems : s.items.length ≤ 1024)
    (hbytes : s.clauseText.utf8ByteSize ≤ 65536) (defaults : Defaults) :
    compileClause none defaults s.clauseText = .ok s := by
  have hwrite : ∀ item ∈ s.items, item.1.CanWrite item.2 :=
    fun item hitem => hs.canWrite (mem_values_of_mem_items hitem)
  obtain ⟨ps, hsegments, hholds⟩ :=
    exists_segments_writeItems hwrite .start (fun _ hch => absurd hch List.not_mem_nil)
  have hholds : s.Holds ps := hholds
  have hsplit : Clause.split s.clauseText = .ok ps := by
    rw [← Text.bytes_toList] at hbytes
    rw [Clause.split_of_le hbytes]
    exact Clause.splitFrom_eq_ok_iff.2 hsegments
  have hlength : ps.length ≤ 1024 := by
    have heq := congrArg List.length hholds
    rw [List.length_map, List.length_map] at heq
    omega
  rw [compileClause, hsplit]
  show compileParameters none defaults ps = .ok s
  rw [compileParameters_of_faultless none defaults hlength (hholds.faultless hs),
    if_pos (declaresImage_iff.2 (hholds.hasImage hs defaults)), hholds.meaning_eq hs]

/-- A specification with separators in a path and a number at the limit of 32 bits. -/
def awkward : Spec where
  images := ["a, \"b\"", " c: d\\"]
  errorRate := ⟨.ofFraction false 5 2, .percent⟩
  tolerance := 0
  analyzeOffset := some 2147483647
  stretch := true
  cropIfOutside := false
  area := some ⟨-2147483648, 0, 2147483647, -1⟩
  baseline := []
  sample := [⟨.blur, -2147483648⟩, ⟨.contrast, 7⟩]
  map := [⟨.denoise, 0⟩]

/-- The clause of `awkward`, which compiles to it. -/
theorem compileClause_awkward :
    awkward.clauseText =
      "file: \"a, \\\"b\\\"\", file: \" c: d\\\\\", error: 2.5%, tolerance: 0, " ++
        "analyze-offset: 2147483647, stretch, area: -2147483648 0 2147483647 -1, " ++
        "filter-b: blur -2147483648, filter-b: contrast 7, map-filter: denoise 0" ∧
      compileClause none .builtin awkward.clauseText = .ok awkward := by
  have hchains : ∀ chain, (awkward.filters chain).length ≤ 256 := by
    intro chain
    cases chain <;> decide
  have hoffset : ∀ n ∈ awkward.analyzeOffset, n.toNat ≤ 2147483647 := by
    rintro n ⟨rfl⟩
    decide
  have hfinite : awkward.errorRate.value.isFinite = true := by decide +kernel
  have hbytes : awkward.clauseText.utf8ByteSize ≤ 65536 := by decide +kernel
  have hwritable : awkward.Writable := ⟨by decide, hchains, by decide, hoffset, hfinite, rfl⟩
  refine ⟨by decide +kernel, ?_⟩
  exact compileClause_clauseText awkward hwritable (by decide) hbytes .builtin

end Spec
end ImageCheck
