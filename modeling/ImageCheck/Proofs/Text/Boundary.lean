/-
# Boundaries between characters

A text is kept as bytes, and a place in it is a number of bytes. Whether the place falls
between two characters shows in the one byte behind it. A character is a byte that leads
it and at most three that continue it, and the two kinds are told apart by value:

| byte | role |
| --- | --- |
| `0x00`-`0x7F` | is a character |
| `0x80`-`0xBF` | continues a character |
| `0xC0`-`0xFF` | leads a character of two to four bytes |

`isBoundary` looks at that byte and at nothing else. `isBoundary_iff` says what it finds:
the place is behind some of the characters. So `splitAtByte`, which goes from character to
character and never looks at a byte, takes a text apart at these places and at no others
(`splitAtByte_eq_some_iff`).
-/

import ImageCheck.Proofs.Text.Place

namespace ImageCheck
namespace Text

/-! ### Bytes of a character -/

/-- A byte that continues a character. -/
def continues (b : UInt8) : Bool := 0x80 ≤ b && b < 0xC0

/-- The bytes of a text. -/
def encoding (source : String) : List UInt8 := source.toByteArray.data.toList

/-- Whether a text can be cut before byte `n`: at its two ends, and before a byte that does not
continue a character. -/
def isBoundary (source : String) (n : Nat) : Bool :=
  n = 0 ||
    match (encoding source)[n]? with
    | some b => !continues b
    | none => n = (encoding source).length

/-- The two bytes of `é` stand at `1` and `2`. -/
example : (List.range 6).filter (isBoundary "aéb") = [0, 1, 3, 4] := by decide

/-- The bytes that go on with a character are those from `0x80` up to `0xC0`. -/
theorem continues_ofNat {n : Nat} (h : n < 256) :
    continues (.ofNat n) = true ↔ 0x80 ≤ n ∧ n < 0xC0 := by
  have hvalue : (UInt8.ofNat n).toNat = n := UInt8.toNat_ofNat_of_lt' h
  rw [continues, Bool.and_eq_true, decide_eq_true_iff, decide_eq_true_iff, UInt8.le_iff_toNat_le,
    UInt8.lt_iff_toNat_lt, hvalue]
  rfl

/-- **A character is a byte that leads it and bytes that continue it.** -/
theorem exists_utf8EncodeChar_eq (c : Char) :
    ∃ lead more, String.utf8EncodeChar c = lead :: more ∧ continues lead = false ∧
      ∀ b ∈ more, continues b = true := by
  have hleads {n : Nat} (h : n < 0x80 ∨ 0xC0 ≤ n ∧ n < 256) : continues (.ofNat n) = false := by
    rw [← Bool.not_eq_true, continues_ofNat (by omega)]
    omega
  have hcontinues (n : Nat) : continues (.ofNat (n % 0x40 + 0x80)) = true := by
    rw [continues_ofNat (by omega)]
    omega
  fun_cases String.utf8EncodeChar c with
  | case1 v hv => exact ⟨_, [], rfl, hleads (by omega), fun b hb => absurd hb List.not_mem_nil⟩
  | case2 v _ hv =>
    exact ⟨_, _, rfl, hleads (by omega), List.forall_mem_singleton.2 (hcontinues _)⟩
  | case3 v _ _ hv =>
    exact ⟨_, _, rfl, hleads (by omega),
      List.forall_mem_cons.2 ⟨hcontinues _, List.forall_mem_singleton.2 (hcontinues _)⟩⟩
  | case4 v _ _ hv =>
    exact ⟨_, _, rfl, hleads (by omega), List.forall_mem_cons.2 ⟨hcontinues _,
      List.forall_mem_cons.2 ⟨hcontinues _, List.forall_mem_singleton.2 (hcontinues _)⟩⟩⟩

/-! ### Boundaries -/

/-- The bytes of a text are those of its characters, one after another. -/
theorem encoding_ofList (cs : List Char) :
    encoding (.ofList cs) = cs.flatMap String.utf8EncodeChar := by
  rw [encoding, String.toByteArray_ofList, List.utf8Encode, List.toList_data_toByteArray]

theorem encoding_ofList_cons (c : Char) (cs : List Char) :
    encoding (.ofList (c :: cs)) = String.utf8EncodeChar c ++ encoding (.ofList cs) := by
  rw [encoding_ofList, encoding_ofList, List.flatMap_cons]

/-- Two texts have the bytes of both. -/
theorem bytes_append (cs ds : List Char) : bytes (cs ++ ds) = bytes cs + bytes ds := by
  induction cs with
  | nil => exact (Nat.zero_add _).symm
  | cons c cs ih =>
    show c.utf8Size + bytes (cs ++ ds) = c.utf8Size + bytes cs + bytes ds
    omega

section Boundary

variable {source : String} {c : Char} {cs front back : List Char} {n : Nat}

/-- Where a text can be cut, by the byte alone. The first byte leads a character, so that the start
needs no rule of its own. -/
theorem isBoundary_iff_byte :
    isBoundary (.ofList cs) n = true ↔
      n = (encoding (.ofList cs)).length ∨
        ∃ b, (encoding (.ofList cs))[n]? = some b ∧ continues b = false := by
  by_cases hn : n = 0
  · subst hn
    refine iff_of_true rfl ?_
    cases cs with
    | nil => exact .inl (by rw [encoding_ofList]; rfl)
    | cons c cs =>
      obtain ⟨lead, more, hbytes, hlead, -⟩ := exists_utf8EncodeChar_eq c
      exact .inr ⟨lead, by rw [encoding_ofList_cons, hbytes]; rfl, hlead⟩
  · rw [isBoundary, decide_eq_false hn, Bool.false_or]
    cases hbyte : (encoding (.ofList cs))[n]? with
    | none => simp
    | some b =>
      have hlt : n < (encoding (.ofList cs)).length := (List.getElem?_eq_some_iff.1 hbyte).1
      simp [hlt.ne]

/-- **A boundary is at the start, or behind the first character at a boundary of the rest.** -/
theorem isBoundary_cons_iff :
    isBoundary (.ofList (c :: cs)) n = true ↔
      n = 0 ∨ c.utf8Size ≤ n ∧ isBoundary (.ofList cs) (n - c.utf8Size) = true := by
  obtain ⟨lead, more, hbytes, -, hmore⟩ := exists_utf8EncodeChar_eq c
  have hsize : (lead :: more).length = c.utf8Size := by
    rw [← hbytes, String.length_utf8EncodeChar]
  by_cases hn : n = 0
  · exact iff_of_true (hn ▸ rfl) (.inl hn)
  rw [isBoundary_iff_byte, encoding_ofList_cons, hbytes, List.length_append, hsize,
    or_iff_right hn]
  by_cases hle : c.utf8Size ≤ n
  · rw [and_iff_right hle, isBoundary_iff_byte, List.getElem?_append_right (by omega), hsize]
    have hlength : n = c.utf8Size + (encoding (.ofList cs)).length ↔
        n - c.utf8Size = (encoding (.ofList cs)).length := by
      omega
    rw [hlength]
  · -- inside the character every byte continues it
    refine iff_of_false ?_ fun h => hle h.1
    rintro (hlength | ⟨b, hb, hlead⟩)
    · omega
    · obtain ⟨m, rfl⟩ := Nat.exists_eq_succ_of_ne_zero hn
      rw [List.getElem?_append_left (by omega), List.getElem?_cons_succ] at hb
      rw [hmore b (List.mem_of_getElem? hb)] at hlead
      cases hlead

/-- **A place is a boundary exactly if it is behind some beginning of the text**, by induction over
the characters. -/
theorem isBoundary_ofList_iff :
    isBoundary (.ofList cs) n = true ↔ ∃ front back, cs = front ++ back ∧ n = bytes front := by
  induction cs generalizing n with
  | nil =>
    rw [isBoundary_iff_byte, encoding_ofList]
    constructor
    · rintro (rfl | ⟨b, hb, -⟩)
      · exact ⟨[], [], rfl, rfl⟩
      · cases hb
    · rintro ⟨front, back, hcs, rfl⟩
      obtain ⟨rfl, -⟩ := List.nil_eq_append_iff.1 hcs
      exact .inl rfl
  | cons c cs ih =>
    rw [isBoundary_cons_iff, ih]
    constructor
    · rintro (rfl | ⟨hle, front, back, rfl, hn⟩)
      · exact ⟨[], c :: cs, rfl, rfl⟩
      · refine ⟨c :: front, back, rfl, ?_⟩
        show n = c.utf8Size + bytes front
        omega
    · rintro ⟨front, back, hcs, rfl⟩
      cases front with
      | nil => exact .inl rfl
      | cons d front =>
        obtain ⟨rfl, rfl⟩ := List.cons.inj hcs
        have hbytes : bytes (c :: front) = c.utf8Size + bytes front := rfl
        exact .inr ⟨by omega, front, back, rfl, by omega⟩

/-- **A text can be cut behind each of its characters, and nowhere else.** -/
theorem isBoundary_iff :
    isBoundary source n = true ↔
      ∃ front back, source.toList = front ++ back ∧ n = bytes front := by
  have h : isBoundary (.ofList source.toList) n = true ↔ _ := isBoundary_ofList_iff
  rwa [String.ofList_toList] at h

/-! ### Cutting by characters -/

/-- A text that is cut at a byte has that many bytes in front of the cut. -/
theorem exists_of_splitAtByte {before : List Char}
    (h : splitAtByte before n cs = some (front, back)) :
    ∃ w, front = before.reverse ++ w ∧ cs = w ++ back ∧ n = bytes w := by
  fun_induction splitAtByte before n cs with
  | case1 before cs =>
    obtain ⟨rfl, rfl⟩ := Prod.mk.inj (Option.some.inj h)
    exact ⟨[], (List.append_nil _).symm, rfl, rfl⟩
  | case2 => cases h
  | case3 before n c cs hle ih =>
    obtain ⟨w, rfl, rfl, hn⟩ := ih h
    have hbytes : bytes (c :: w) = c.utf8Size + bytes w := rfl
    exact ⟨c :: w, by simp, rfl, by omega⟩
  | case4 => cases h

/-- A text is taken apart at an offset exactly if the characters before it take so many bytes. -/
theorem splitAtByte_eq_some_iff :
    splitAtByte [] n cs = some (front, back) ↔ cs = front ++ back ∧ n = bytes front := by
  constructor
  · intro h
    obtain ⟨w, rfl, hcs, hn⟩ := exists_of_splitAtByte h
    exact ⟨hcs, hn⟩
  · rintro ⟨rfl, rfl⟩
    exact splitAtByte_append [] front back

/-- Of two beginnings of a text the one with fewer bytes begins the other. -/
theorem prefix_of_bytes_le {front' : List Char} (h : front <+: cs) (h' : front' <+: cs)
    (hle : bytes front ≤ bytes front') : front <+: front' := by
  rcases List.prefix_or_prefix_of_prefix h h' with hprefix | ⟨more, rfl⟩
  · exact hprefix
  · rw [bytes_append] at hle
    have hmore : more = [] := by
      by_contra hne
      have hpos := bytes_pos hne
      omega
    subst hmore
    exact ⟨[], by simp⟩

end Boundary

end Text
end ImageCheck
