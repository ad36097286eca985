/-
# Specifications read back from their JSON

`SPEC_FULL` §8a, Serialization; `ImageCheckSpec` written and read.

A specification whose error rate is finite and carries no minus sign is read back from
the text it is written as (`read?_compact_toJson`). The way goes through two halves: the
text gives back the JSON value (`Json.read?_compact`), and the value gives back the
specification (`ofJson?_toJson`).

For the second half each reader of a part is matched with its writer once: whole
numbers of 32 bits, lists (`list?_map`), parts that may be missing (`optional?_ofOption`),
and records, whose fields are found by name because no name stands there twice
(`record?_object`).
-/

import ImageCheck.Proofs.Json.ReadBack
import ImageCheck.Proofs.Value.Printed
import ImageCheck.Spec.Json

namespace ImageCheck

namespace Json

/-! ### The parts of a value -/

/-- A number of 32 bits with a sign is read back. -/
theorem int32?_integer (i : Int32) : int32? (integer i.toInt) = some i := by
  have hrange : -2147483648 ≤ i.toInt ∧ i.toInt ≤ 2147483647 := ⟨i.le_toInt, i.toInt_le⟩
  rw [int32?, integer?, if_pos hrange, Option.map_some, Int32.ofInt_toInt]

/-- So is one without. -/
theorem uint32?_integer (n : UInt32) : uint32? (integer n.toNat) = some n := by
  have hrange : 0 ≤ (n.toNat : Int) ∧ (n.toNat : Int) ≤ (4294967295 : Nat) := by
    have := n.toNat_lt
    omega
  rw [uint32?, nat?, integer?, if_pos hrange]
  simp

/-- A list is read back when each of its items is. -/
theorem list?_map {α : Type} {item? : Json → Option α} {toJson : α → Json}
    (h : ∀ a, item? (toJson a) = some a) (as : List α) :
    list? item? (array (as.map toJson)) = some as := by
  rw [list?]
  induction as with
  | nil => rfl
  | cons a as ih => simp [h a, ih]

/-- A part that may be missing is read back when its value is, and is not written as `null`. -/
theorem optional?_ofOption {α : Type} {value? : Json → Option α} {toJson : α → Json}
    (h : ∀ a, value? (toJson a) = some a) (hnull : ∀ a, toJson a ≠ null) (o : Option α) :
    optional? value? (some (ofOption toJson o)) = some o := by
  cases o with
  | none => rfl
  | some a =>
    rw [ofOption, optional?, h a]
    · rfl
    · exact hnull a

/-- In an object whose names differ a field is found by its name. -/
theorem field?_of_mem {fields : List (String × Json)} (hnames : (fields.map Prod.fst).Nodup)
    {field : String × Json} (h : field ∈ fields) :
    field? fields field.1 = some (some field.2) := by
  have hfilter : fields.filter (fun f => f.1 = field.1) = [field] := by
    induction fields with
    | nil => cases h
    | cons first fields ih =>
      obtain ⟨hfirst, hrest⟩ := List.nodup_cons.1 hnames
      rcases List.mem_cons.1 h with rfl | hmem
      · -- the names behind the field are others
        have hnone : fields.filter (fun f => f.1 = field.1) = [] := by
          refine List.filter_eq_nil_iff.2 fun f hf hname => hfirst ?_
          exact List.mem_map.2 ⟨f, hf, of_decide_eq_true hname⟩
        simp [hnone]
      · have hother : first.1 ≠ field.1 := fun hname =>
          hfirst (hname ▸ List.mem_map_of_mem hmem)
        simp [hother, ih hrest hmem]
  rw [field?, hfilter]

/-- **A record is read back from an object whose names differ.** -/
theorem record?_object {names : List String} (hdiffer : names.Nodup)
    {fields : List (String × Json)} (hnames : fields.map Prod.fst = names) :
    (object fields).record? names = some (fields.map fun f => some f.2) := by
  subst hnames
  have hread : ∀ part ⊆ fields,
      (part.map Prod.fst).mapM (field? fields) = some (part.map fun f => some f.2) := by
    intro part hpart
    induction part with
    | nil => rfl
    | cons f part ih =>
      obtain ⟨hf, hrest⟩ := List.cons_subset.1 hpart
      simp [field?_of_mem hdiffer hf, ih hrest]
  exact hread fields (List.Subset.refl fields)

end Json

/-! ### The parts of a specification -/

/-- A finite error rate without a minus sign is read back from its text. -/
theorem ErrorRate.ofJson?_toJson {r : ErrorRate} (hfinite : r.value.isFinite = true)
    (hsign : r.value.negative = false) : ofJson? r.toJson = some r := by
  simp [ofJson?, toJson, Json.string?, parse_text hfinite hsign, Except.toOption]

/-- A filter is read back from its object. -/
theorem FilterOp.ofJson?_toJson (f : FilterOp) : ofJson? f.toJson = some f := by
  have hrecord : f.toJson.record? ["filter", "value"] = _ :=
    Json.record?_object (by decide) rfl
  have hkind : kindOfJson? f.toJson.isArray (.string f.kind.name) = some f.kind :=
    FilterKind.ofName?_name f.kind
  simp only [ofJson?, hrecord, List.map_cons, List.map_nil]
  simp [hkind, Json.int32?_integer]

/-- The object of a filter is proper. -/
theorem FilterOp.proper_toJson (f : FilterOp) : f.toJson.Proper := by
  refine .object fun field hfield => ?_
  simp only [List.mem_cons, List.not_mem_nil, or_false] at hfield
  rcases hfield with rfl | rfl
  · exact .string _
  · exact .integer _

/-- A rectangle is read back from its record. -/
theorem Rect.ofJson?_toJson (r : Rect) : ofJson? r.toJson = some r := by
  have hrecord : r.toJson.record? ["x", "y", "width", "height"] = _ :=
    Json.record?_object (by decide) rfl
  simp only [ofJson?, hrecord, List.map_cons, List.map_nil]
  simp [Json.int32?_integer]

/-- The record of a rectangle is proper. -/
theorem Rect.proper_toJson (r : Rect) : r.toJson.Proper := by
  refine .object fun field hfield => ?_
  simp only [List.mem_cons, List.not_mem_nil, or_false] at hfield
  rcases hfield with rfl | rfl | rfl | rfl <;> exact .integer _

/-! ### Specifications -/

namespace Spec

/-- **A specification is read back from its JSON value.** -/
theorem ofJson?_toJson {s : Spec} (hfinite : s.errorRate.value.isFinite = true)
    (hsign : s.errorRate.value.negative = false) : ofJson? s.toJson = some s := by
  have hrecord : s.toJson.record? fieldNames = _ := Json.record?_object (by decide) rfl
  have hpath (path : String) : (Json.string path).string? = some path := rfl
  have himages := Json.list?_map hpath s.images
  have hfilters := Json.list?_map FilterOp.ofJson?_toJson
  have harea := Json.optional?_ofOption Rect.ofJson?_toJson (by simp [Rect.toJson]) s.area
  have hoffset := Json.optional?_ofOption Json.uint32?_integer (by simp) s.analyzeOffset
  simp only [ofJson?, hrecord, List.map_cons, List.map_nil]
  simp [himages, hfilters, harea, hoffset, ErrorRate.ofJson?_toJson hfinite hsign,
    Json.uint32?_integer, Json.bool?]

/-- The record of a specification is proper. -/
theorem proper_toJson (s : Spec) : s.toJson.Proper := by
  have hfilters (fs : List FilterOp) : (Json.array (fs.map FilterOp.toJson)).Proper := by
    refine .array fun item hitem => ?_
    obtain ⟨f, -, rfl⟩ := List.mem_map.1 hitem
    exact f.proper_toJson
  have himages : (Json.array (s.images.map .string)).Proper := by
    refine .array fun item hitem => ?_
    obtain ⟨path, -, rfl⟩ := List.mem_map.1 hitem
    exact .string path
  refine .object fun field hfield => ?_
  simp only [List.mem_cons, List.not_mem_nil, or_false] at hfield
  rcases hfield with rfl | rfl | rfl | rfl | rfl | rfl | rfl | rfl | rfl | rfl
  · exact himages
  · exact .string _
  · exact .integer _
  · cases s.analyzeOffset with
    | none => exact .null
    | some n => exact .integer _
  · exact .bool _
  · exact .bool _
  · cases s.area with
    | none => exact .null
    | some r => exact r.proper_toJson
  · exact hfilters _
  · exact hfilters _
  · exact hfilters _

/-- **A specification is read back from its JSON text**, if its error rate is finite and carries
no minus sign. The text holds no control character. -/
theorem read?_compact_toJson (s : Spec) (hfinite : s.errorRate.value.isFinite = true)
    (hsign : s.errorRate.value.negative = false) :
    (Json.read? (String.ofList s.toJson.compact)).bind ofJson? = some s ∧
      ∀ ch ∈ s.toJson.compact, 0x20 ≤ ch.toNat := by
  refine ⟨?_, s.proper_toJson.printable_compact⟩
  rw [Json.read?_compact s.proper_toJson]
  exact ofJson?_toJson hfinite hsign

/-- A specification with control characters, quotes and a character of four bytes in its paths, and
numbers at the limits of 32 bits. -/
def strange : Spec where
  images := ["a\u0000\n\x1f\"\\", "", "é😀\x7f"]
  errorRate := ⟨.ofFraction false 1 10, .pixels⟩
  tolerance := 4294967295
  analyzeOffset := some 4294967295
  stretch := false
  cropIfOutside := true
  area := some ⟨-2147483648, 2147483647, 0, -1⟩
  baseline := []
  sample := [⟨.quantinize, -2147483648⟩]
  map := [⟨.blur, 2147483647⟩, ⟨.blur, 0⟩]

/-- `strange` is read back from its text. -/
theorem read?_compact_strange :
    strange.errorRate.text = "0.1px" ∧
      (Json.read? (String.ofList strange.toJson.compact)).bind ofJson? = some strange ∧
      ∀ ch ∈ strange.toJson.compact, 0x20 ≤ ch.toNat := by
  have hfinite : strange.errorRate.value.isFinite = true := by decide +kernel
  refine ⟨by decide +kernel, ?_⟩
  exact read?_compact_toJson strange hfinite rfl

end Spec
end ImageCheck
