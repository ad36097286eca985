/-
# Spans and the texts they cover

`SPEC_FULL` §4.5; `advance_str`, `covering` and `slice`.

A position counts bytes in 64 bits and columns in 32, and both grow together, character by
character. As long as the column fits, so do the bytes, since no character has more than
four of them (`Checked.advanceBy_of_fits`), and then the checked position is the exact one.

A span covers a text from the position where it begins. The laws that the diagnostics rest on:

| law | where |
| --- | --- |
| the span cuts the covered text out of the whole | `slice_append` |
| its bytes are those of the covered text, its columns the characters | `size_covering`, `column_covering` |
| walking over two texts is walking over one and then the other | `Checked.advanceBy_append` |
| another text is cut exactly if both offsets are boundaries of it | `exists_slice_iff` |

The last one is about any text, also one that the span was never made for: `slice_eq_some_iff`
says what comes out there. `Covers` holds the laws of one span together.
-/

import ImageCheck.Proofs.Checked.Read
import ImageCheck.Proofs.Text.Boundary

namespace ImageCheck

/-! ### Machine positions -/

namespace Checked

/-- Walking over two texts is walking over the first and then over the second, traps included. -/
theorem advanceBy_append (p : Position) (cs ds : List Char) :
    advanceBy p (cs ++ ds) = advanceBy p cs >>= fun q => advanceBy q ds :=
  List.foldlM_append

/-- **A walk does not trap if its end fits.** -/
theorem advanceBy_of_fits {p : Position} {cs : List Char}
    (hoffset : p.offset + Text.bytes cs < 2 ^ 64) (hcolumn : p.column + cs.length < 2 ^ 32) :
    advanceBy p cs = .ok (p.advanceBy cs) := by
  induction cs generalizing p with
  | nil => rfl
  | cons c cs ih =>
    have hbytes : Text.bytes (c :: cs) = c.utf8Size + Text.bytes cs := rfl
    have hlength : (c :: cs).length = cs.length + 1 := rfl
    have hstep : advance p c = .ok (p.advance c) := by
      rw [advance, if_pos (by omega)]
    have hrest : advanceBy (p.advance c) cs = .ok ((p.advance c).advanceBy cs) := by
      refine ih ?_ ?_
      · show p.offset + c.utf8Size + Text.bytes cs < 2 ^ 64
        omega
      · show p.column + 1 + cs.length < 2 ^ 32
        omega
    rw [advanceBy, List.foldlM_cons, hstep, ok_bind]
    exact hrest

/-- The span of a text is built without a trap if its end fits. -/
theorem covering_of_fits {p : Position} {cs : List Char}
    (hoffset : p.offset + Text.bytes cs < 2 ^ 64) (hcolumn : p.column + cs.length < 2 ^ 32) :
    covering p cs = .ok (.covering p cs) := by
  rw [covering, advanceBy_of_fits hoffset hcolumn, ok_bind, newSpan,
    if_pos (Position.offset_le_advanceBy p cs)]
  rfl

end Checked

namespace Span

/-! ### Slices of any text -/

section Slice

variable {s : Span} {source : String} {cs w : List Char}

/-- **What a span cuts out of a text**: the characters between two places that take as many bytes as
its two offsets say. -/
theorem slice_eq_some_iff :
    s.slice cs = some w ↔
      ∃ front back, cs = front ++ (w ++ back) ∧ s.start.offset = Text.bytes front ∧
        s.stop.offset = Text.bytes (front ++ w) := by
  rw [slice]
  constructor
  · intro h
    split_ifs at h with horder
    obtain ⟨⟨front, after⟩, hfront, h⟩ := Option.bind_eq_some_iff.1 h
    obtain ⟨⟨inside, back⟩, hinside, h⟩ := Option.bind_eq_some_iff.1 h
    obtain rfl : inside = w := Option.some.inj h
    obtain ⟨rfl, hstart⟩ := Text.splitAtByte_eq_some_iff.1 hfront
    obtain ⟨rfl, hsize⟩ := Text.splitAtByte_eq_some_iff.1 hinside
    refine ⟨front, back, rfl, hstart, ?_⟩
    rw [Text.bytes_append, ← hstart, ← hsize, size]
    omega
  · rintro ⟨front, back, rfl, hstart, hstop⟩
    rw [Text.bytes_append, ← hstart] at hstop
    have hsize : s.size = Text.bytes w := by
      rw [size]
      omega
    rw [if_pos (by omega), hsize, hstart, Text.splitAtByte_append]
    show (Text.splitAtByte [] (Text.bytes w) (w ++ back) >>= _) = _
    rw [Text.splitAtByte_append]
    rfl

/-- **A span can be cut out of a text exactly if both its ends are boundaries of it.** -/
theorem exists_slice_iff (horder : s.start.offset ≤ s.stop.offset) :
    (∃ w, s.slice source.toList = some w) ↔
      Text.isBoundary source s.start.offset = true ∧
        Text.isBoundary source s.stop.offset = true := by
  simp only [slice_eq_some_iff, Text.isBoundary_iff]
  constructor
  · rintro ⟨w, front, back, hsource, hstart, hstop⟩
    exact ⟨⟨front, w ++ back, hsource, hstart⟩, front ++ w, back, by
      rw [hsource, List.append_assoc], hstop⟩
  · rintro ⟨⟨front, back, hfront, hstart⟩, ⟨front', back', hfront', hstop⟩⟩
    -- the shorter beginning begins the longer one, and the slice is what is left of it
    obtain ⟨w, rfl⟩ := Text.prefix_of_bytes_le ⟨back, hfront.symm⟩ ⟨back', hfront'.symm⟩
      (by omega)
    exact ⟨w, front, back', by rw [hfront', List.append_assoc], hstart, hstop⟩

end Slice

/-! ### Spans of a text -/

/-- The span of a text has the bytes of the text. -/
theorem size_covering (p : Position) (cs : List Char) : (covering p cs).size = Text.bytes cs := by
  rw [size, covering, Position.advanceBy_eq]
  show p.offset + Text.bytes cs - p.offset = Text.bytes cs
  omega

/-- It is empty only if the text is. -/
theorem isEmpty_covering_iff (p : Position) (cs : List Char) :
    (covering p cs).isEmpty = true ↔ cs = [] := by
  rw [isEmpty, covering, Position.advanceBy_eq, beq_iff_eq]
  constructor
  · intro h
    by_contra hne
    have hpos := Text.bytes_pos hne
    have h : p.offset = p.offset + Text.bytes cs := h
    omega
  · rintro rfl
    rfl

/-- It ends as many columns further on as the text has characters. -/
theorem column_covering (p : Position) (cs : List Char) :
    (covering p cs).stop.column = p.column + cs.length := by
  rw [covering, Position.advanceBy_eq]

/-- What the diagnostics rely on where the position behind `before` is `start` and the span of
`covered` from there is `sp`. -/
structure Covers (before covered after : String) (start : Position) (sp : Span) : Prop where
  /-- The position is worked out without a trap. -/
  walk : Checked.advanceBy .start before.toList = .ok start
  /-- The span is worked out without a trap. -/
  span : Checked.covering start covered.toList = .ok sp
  /-- The position is the exact one. -/
  start_eq : start = Position.start.advanceBy before.toList
  /-- The span is the exact one. -/
  span_eq : sp = covering start covered.toList
  /-- The span cuts the covered text out of the whole. -/
  slice : sp.slice (before ++ covered ++ after).toList = some covered.toList
  /-- It has the bytes of the covered text. -/
  bytes : sp.size = covered.utf8ByteSize
  /-- It is empty only if the covered text is. -/
  empty : sp.isEmpty = true ↔ covered = ""
  /-- It has as many columns as the covered text has characters. -/
  columns : sp.stop.column = sp.start.column + covered.length
  /-- Any text is cut by it exactly if both its offsets fall between characters of that text. -/
  cuts : ∀ input : String, (∃ w, sp.slice input.toList = some w) ↔
    Text.isBoundary input sp.start.offset = true ∧ Text.isBoundary input sp.stop.offset = true

/-- **The laws of spans.** In a text of fewer than `2^32 - 1` characters the position behind
`before`, and the span of `covered` from there, are worked out without a trap. The span cuts
`covered` out of the text; it has the bytes of `covered` and as many columns as `covered` has
characters, and it is empty only if `covered` is. Another text is cut exactly if both offsets
fall between characters of it. And from any position, walking over two texts in one go or one after
the other ends at the same place, or in the same trap. -/
theorem covering_laws (before covered after : String)
    (hlength : (before ++ covered ++ after).length < 2 ^ 32 - 1) :
    (∃ start sp, Covers before covered after start sp) ∧
      ∀ (p : Position) (x y : String),
        p.advanceBy (x ++ y).toList = (p.advanceBy x.toList).advanceBy y.toList ∧
        Checked.advanceBy p (x ++ y).toList =
          Checked.advanceBy p x.toList >>= fun q => Checked.advanceBy q y.toList := by
  have hbefore := Text.bytes_le before.toList
  have hcovered := Text.bytes_le covered.toList
  rw [Text.bytes_toList, String.length_toList] at hbefore hcovered
  rw [String.length_append, String.length_append] at hlength
  have hstart : Checked.advanceBy .start before.toList =
      .ok (Position.start.advanceBy before.toList) := by
    refine Checked.advanceBy_of_fits ?_ ?_
    · rw [Text.bytes_toList]
      show 0 + before.utf8ByteSize < 2 ^ 64
      omega
    · rw [String.length_toList]
      show 1 + before.length < 2 ^ 32
      omega
  have hspan : Checked.covering (Position.start.advanceBy before.toList) covered.toList =
      .ok (covering (Position.start.advanceBy before.toList) covered.toList) := by
    rw [Position.advanceBy_toList]
    refine Checked.covering_of_fits ?_ ?_
    · rw [Text.bytes_toList]
      show before.utf8ByteSize + covered.utf8ByteSize < 2 ^ 64
      omega
    · rw [String.length_toList]
      show 1 + before.length + covered.length < 2 ^ 32
      omega
  constructor
  · refine ⟨_, _, ⟨hstart, hspan, rfl, rfl, ?_, ?_, ?_, ?_, fun input => ?_⟩⟩
    · rw [String.toList_append, String.toList_append, List.append_assoc]
      exact slice_append before.toList covered.toList after.toList
    · rw [size_covering, Text.bytes_toList]
    · rw [isEmpty_covering_iff, String.toList_eq_nil_iff]
    · rw [column_covering, String.length_toList]
      rfl
    · exact exists_slice_iff (Position.offset_le_advanceBy _ _)
  · intro p x y
    rw [String.toList_append]
    exact ⟨Position.advanceBy_append p _ _, Checked.advanceBy_append p _ _⟩

/-- The span of `😀 b` behind `aé` goes from byte `3` to byte `9`. Digits are cut there too, but not
characters of two bytes each. -/
theorem covering_laws_emoji :
    ("aé" ++ "😀 b" ++ "ü").length < 2 ^ 32 - 1 ∧
      (covering ⟨3, 3⟩ "😀 b".toList).slice "aé😀 bü".toList = some "😀 b".toList ∧
      (∃ w, (covering ⟨3, 3⟩ "😀 b".toList).slice "123456789".toList = some w) ∧
      ¬ ∃ w, (covering ⟨3, 3⟩ "😀 b".toList).slice "ééééé".toList = some w := by
  have hlength : ("aé" ++ "😀 b" ++ "ü").length < 2 ^ 32 - 1 := by decide
  obtain ⟨⟨start, sp, hcovers⟩, -⟩ := covering_laws "aé" "😀 b" "ü" hlength
  have hstart : Position.start.advanceBy "aé".toList = ⟨3, 3⟩ := by decide
  obtain rfl : start = ⟨3, 3⟩ := hcovers.start_eq.trans hstart
  obtain rfl := hcovers.span_eq
  refine ⟨hlength, hcovers.slice, (hcovers.cuts _).2 (by decide), ?_⟩
  rw [hcovers.cuts]
  decide

end Span
end ImageCheck
