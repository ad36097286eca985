/-
# The longest beginning that the log keeps

`SPEC_FULL` §8a, Logging; the loop of `clamp_message`.

The log keeps at most 10000 bytes of a text. What is too long is cut at the last boundary
between characters up to that byte, and the boundary is looked for backwards: from byte
10000 on, one byte at a time, until the byte looked at leads a character.

`Text.takeBytes` goes the other way, from the first character on, as far as the bytes
last. Both end at the same place, since both find the longest beginning that fits:
`prefix_takeBytes` for the one, `lastBoundary_eq_ok` for the other. Hence the search
backwards always meets a boundary before it runs out of bytes, and it takes at most three
steps: a fourth byte would have made room for one more character. `KeepsLongest` says
what is kept.
-/

import ImageCheck.Proofs.Log.Context
import ImageCheck.Proofs.Text.Covering

namespace ImageCheck

namespace Checked

/-- The last boundary of a text up to byte `n`, looked for byte by byte toward the start. From the
start there is no step back. -/
def lastBoundary (source : String) : Nat → Checked Nat
  | 0 => if Text.isBoundary source 0 then .ok 0 else .error .overflow
  | n + 1 => if Text.isBoundary source (n + 1) then .ok (n + 1) else lastBoundary source n

/-- The longest beginning of a text that the log keeps, found from the end. -/
def clamp (source : String) : Checked String := do
  if source.utf8ByteSize ≤ maxMessageBytes then return source
  else
    let stop ← lastBoundary source maxMessageBytes
    return .ofList (← cut source .start { Position.start with offset := stop })

/-- **The search backwards ends at the last boundary.** -/
theorem lastBoundary_eq_ok {source : String} {n stop : Nat}
    (hstop : Text.isBoundary source stop = true) (hle : stop ≤ n)
    (hlast : ∀ k, Text.isBoundary source k = true → k ≤ n → k ≤ stop) :
    lastBoundary source n = .ok stop := by
  induction n with
  | zero =>
    obtain rfl : stop = 0 := by omega
    rw [lastBoundary, if_pos hstop]
  | succ n ih =>
    rw [lastBoundary]
    split_ifs with hn
    · have hlast := hlast (n + 1) hn (Nat.le_refl _)
      rw [show stop = n + 1 by omega]
    · have hne : stop ≠ n + 1 := by
        rintro rfl
        exact hn hstop
      exact ih (by omega) fun k hk hkn => hlast k hk (by omega)

end Checked

namespace Text

section TakeBytes

variable {budget : Nat} {cs front : List Char}

/-- What is taken is a beginning of the text. -/
theorem takeBytes_prefix (budget : Nat) (cs : List Char) : takeBytes budget cs <+: cs := by
  induction cs generalizing budget with
  | nil => exact List.prefix_refl []
  | cons c cs ih =>
    rw [takeBytes]
    split_ifs
    · exact List.cons_prefix_cons.2 ⟨rfl, ih _⟩
    · exact List.nil_prefix

/-- It stays within the budget. -/
theorem bytes_takeBytes_le (budget : Nat) (cs : List Char) :
    bytes (takeBytes budget cs) ≤ budget := by
  induction cs generalizing budget with
  | nil => exact Nat.zero_le _
  | cons c cs ih =>
    rw [takeBytes]
    split_ifs with hfits
    · have hrest := ih (budget - c.utf8Size)
      show c.utf8Size + bytes (takeBytes (budget - c.utf8Size) cs) ≤ budget
      omega
    · exact Nat.zero_le _

/-- **Every beginning within the bound is part of what is kept.** -/
theorem prefix_takeBytes (h : front <+: cs) (hle : bytes front ≤ budget) :
    front <+: takeBytes budget cs := by
  induction cs generalizing budget front with
  | nil => exact h
  | cons c cs ih =>
    cases front with
    | nil => exact List.nil_prefix
    | cons d front =>
      obtain ⟨rfl, hfront⟩ := List.cons_prefix_cons.1 h
      have hbytes : bytes (d :: front) = d.utf8Size + bytes front := rfl
      rw [takeBytes, if_pos (by omega)]
      exact List.cons_prefix_cons.2 ⟨rfl, ih hfront (by omega)⟩

/-- Of a text that is too long at most three bytes of the bound are left unused: the next
character, which has four bytes at most, does not fit. -/
theorem lt_bytes_takeBytes (h : budget < bytes cs) : budget < bytes (takeBytes budget cs) + 4 := by
  have hle := bytes_takeBytes_le budget cs
  obtain ⟨rest, hrest⟩ := takeBytes_prefix budget cs
  cases rest with
  | nil =>
    rw [List.append_nil] at hrest
    rw [hrest] at hle
    omega
  | cons c rest =>
    by_contra hroom
    have hsize := c.utf8Size_le_four
    have hnext : takeBytes budget cs ++ [c] <+: cs :=
      ⟨rest, by rw [List.append_assoc, List.singleton_append, hrest]⟩
    have hbytes : bytes (takeBytes budget cs ++ [c]) = bytes (takeBytes budget cs) + c.utf8Size :=
      bytes_append _ _
    have hkept : takeBytes budget cs ++ [c] <+: takeBytes budget cs :=
      prefix_takeBytes hnext (by omega)
    have hlength := hkept.length_le
    rw [List.length_append, List.length_singleton] at hlength
    omega

end TakeBytes
end Text

section Clamp

variable (text : String)

/-- A clamped text is what 10000 bytes have room for. -/
theorem toList_clamp : (clamp text).toList = Text.takeBytes 10000 text.toList :=
  String.toList_ofList

theorem utf8ByteSize_clamp :
    (clamp text).utf8ByteSize = Text.bytes (Text.takeBytes 10000 text.toList) := by
  rw [← Text.bytes_toList, toList_clamp]

/-- A clamped text has at most 10000 bytes. -/
theorem utf8ByteSize_clamp_le : (clamp text).utf8ByteSize ≤ 10000 := by
  rw [utf8ByteSize_clamp]
  exact Text.bytes_takeBytes_le 10000 text.toList

/-- A clamped text begins the text. -/
theorem exists_append_clamp : ∃ rest, text = clamp text ++ rest := by
  obtain ⟨rest, hrest⟩ := Text.takeBytes_prefix 10000 text.toList
  refine ⟨.ofList rest, String.toList_inj.1 ?_⟩
  rw [String.toList_append, toList_clamp, String.toList_ofList, hrest]

/-- A text is kept whole exactly if it is within the bound. -/
theorem clamp_eq_self_iff : clamp text = text ↔ text.utf8ByteSize ≤ 10000 := by
  constructor
  · intro h
    rw [← h]
    exact utf8ByteSize_clamp_le text
  · intro h
    rw [← Text.bytes_toList] at h
    rw [← String.toList_inj, toList_clamp, Text.takeBytes_eq_self h]

/-- No boundary within the bound is behind the end of what is kept. -/
theorem le_utf8ByteSize_clamp {n : Nat} (h : Text.isBoundary text n = true) (hle : n ≤ 10000) :
    n ≤ (clamp text).utf8ByteSize := by
  obtain ⟨front, back, htext, rfl⟩ := Text.isBoundary_iff.1 h
  obtain ⟨more, hmore⟩ := Text.prefix_takeBytes ⟨back, htext.symm⟩ hle
  rw [utf8ByteSize_clamp, ← hmore, Text.bytes_append]
  omega

/-- **The search backwards ends where what is kept ends.** -/
theorem lastBoundary_eq_clamp :
    Checked.lastBoundary text 10000 = .ok (clamp text).utf8ByteSize := by
  obtain ⟨rest, hrest⟩ := Text.takeBytes_prefix 10000 text.toList
  have hboundary : Text.isBoundary text (clamp text).utf8ByteSize = true :=
    Text.isBoundary_iff.2 ⟨_, rest, hrest.symm, utf8ByteSize_clamp text⟩
  exact Checked.lastBoundary_eq_ok hboundary (utf8ByteSize_clamp_le text)
    fun k hk hle => le_utf8ByteSize_clamp text hk hle

/-- **Cutting at the boundary found backwards gives what is kept**, without a trap. -/
theorem clamp_noTrap : Checked.clamp text = .ok (clamp text) := by
  rw [Checked.clamp]
  split_ifs with hshort
  · rw [(clamp_eq_self_iff text).2 hshort]
    rfl
  · obtain ⟨rest, hrest⟩ := Text.takeBytes_prefix 10000 text.toList
    have hslice : (Span.mk .start { Position.start with
        offset := (clamp text).utf8ByteSize }).slice text.toList = some (clamp text).toList := by
      rw [Span.slice_eq_some_iff, toList_clamp]
      exact ⟨[], rest, hrest.symm, rfl, utf8ByteSize_clamp text⟩
    have hsearch : Checked.lastBoundary text maxMessageBytes = _ := lastBoundary_eq_clamp text
    rw [hsearch, Checked.ok_bind, Checked.cut, hslice]
    show Except.ok (String.ofList (clamp text).toList) = _
    rw [String.ofList_toList]

end Clamp

/-- What it is for `kept` to be the longest beginning of a text that a message has room for. -/
structure KeepsLongest (text kept : String) : Prop where
  /-- What is kept begins the text. -/
  begins : ∃ rest, text = kept ++ rest
  /-- It fits. -/
  fits : kept.utf8ByteSize ≤ 10000
  /-- Every longer beginning does not. -/
  longest : ∀ front rest, text = front ++ rest → kept.utf8ByteSize < front.utf8ByteSize →
    10000 < front.utf8ByteSize
  /-- The text is kept whole exactly if it fits. -/
  whole_iff : kept = text ↔ text.utf8ByteSize ≤ 10000
  /-- Otherwise no more than three bytes of the room are left. -/
  near : 10000 < text.utf8ByteSize → 9997 ≤ kept.utf8ByteSize

/-- **The log keeps the longest beginning that fits.** What is kept of a text begins it and ends
between two characters, has at most 10000 bytes, and every longer beginning has more. It is the
text itself exactly if that has at most 10000 bytes, otherwise it has at least 9997, and it is kept
whole the next time. The search for its end, backwards from byte 10000, meets a boundary before it
runs out of bytes: it ends where what is kept ends, and the text is cut there without a trap. -/
theorem clamp_longest (text : String) :
    KeepsLongest text (clamp text) ∧ clamp (clamp text) = clamp text ∧
      Checked.lastBoundary text 10000 = .ok (clamp text).utf8ByteSize ∧
      Checked.clamp text = .ok (clamp text) := by
  have hfits := utf8ByteSize_clamp_le text
  refine ⟨⟨exists_append_clamp text, hfits, ?_, clamp_eq_self_iff text, ?_⟩,
    (clamp_eq_self_iff _).2 hfits, lastBoundary_eq_clamp text, clamp_noTrap text⟩
  · intro front rest htext hlonger
    by_contra hroom
    have hboundary : Text.isBoundary text front.utf8ByteSize = true :=
      Text.isBoundary_iff.2 ⟨front.toList, rest.toList, by rw [htext, String.toList_append],
        (Text.bytes_toList front).symm⟩
    have hkept := le_utf8ByteSize_clamp text hboundary (by omega)
    omega
  · intro hlong
    rw [← Text.bytes_toList] at hlong
    have hnear := Text.lt_bytes_takeBytes hlong
    rw [← utf8ByteSize_clamp] at hnear
    omega

/-- Behind one byte the bound falls into the last of 5000 characters of two bytes each: that
character is not kept, and all before it are. -/
theorem clamp_longest_umlauts :
    10000 < (String.ofList ('a' :: List.replicate 5000 'é')).utf8ByteSize ∧
      9999 ≤ (clamp (String.ofList ('a' :: List.replicate 5000 'é'))).utf8ByteSize ∧
      clamp (String.ofList ('a' :: List.replicate 5000 'é')) ≠
        String.ofList ('a' :: List.replicate 5000 'é') := by
  have hsplit : String.ofList ('a' :: List.replicate 5000 'é') =
      String.ofList ('a' :: List.replicate 4999 'é') ++ "é" := by
    rw [← String.toList_inj, String.toList_append, String.toList_ofList, String.toList_ofList,
      List.replicate_succ']
    rfl
  have hbytes (n : Nat) :
      (String.ofList ('a' :: List.replicate n 'é')).utf8ByteSize = 2 * n + 1 := by
    rw [← Text.bytes_toList, String.toList_ofList]
    induction n with
    | zero => rfl
    | succ n ih =>
      rw [List.replicate_succ', ← List.cons_append, Text.bytes_append, ih]
      rfl
  obtain ⟨hkeeps, -⟩ := clamp_longest (String.ofList ('a' :: List.replicate 5000 'é'))
  have hlong := hbytes 5000
  have hfront := hbytes 4999
  refine ⟨by omega, ?_, ?_⟩
  · by_contra hshort
    have hmore := hkeeps.longest _ _ hsplit (by omega)
    omega
  · rw [Ne, hkeeps.whole_iff]
    omega

end ImageCheck
