/-
# Writing parameters

The other way from reading: a key and a value are written as one item of a clause,
and items with `, ` between them as a clause. There are three forms of an item:

| keys | item |
| --- | --- |
| `file` | `key: "value"`, the value escaped |
| `stretch`, `crop-if-outside` | `key` |
| every other | `key: value` |

A value without quotes has to be plain: no comma in it, no blank at its ends, no
quote at its head (`PlainText`). `parameterText_write` says that an item is a
parameter of the grammar, and `exists_segments_writeItems` that a list of items is a
clause with these keys and values, in order.
-/

import ImageCheck.Clause.Key
import ImageCheck.Proofs.Clause.Quoting

namespace ImageCheck

/-- A text that is read as it stands when it is given as a value. -/
structure PlainText (w : List Char) : Prop where
  /-- A comma would end the value. -/
  comma : ',' ∉ w
  /-- Blanks before the value are skipped, and a quote would open a quoted one. -/
  head : ∀ ch ∈ w.head?, Text.isBlank ch = false ∧ ch ≠ '"'
  /-- Blanks after the value are trimmed. -/
  last : ∀ ch ∈ w.getLast?, Text.isBlank ch = false

/-- A character that is neither blank nor looked at by a reader of clauses. -/
def isOrdinary (ch : Char) : Bool := !Text.isBlank ch && ch != ',' && ch != '"'

namespace PlainText

/-- A text of ordinary characters is plain. -/
theorem of_all {w : List Char} (h : w.all isOrdinary = true) : PlainText w := by
  have hmem : ∀ ch ∈ w, Text.isBlank ch = false ∧ ch ≠ ',' ∧ ch ≠ '"' := by
    intro ch hch
    simpa [isOrdinary, and_assoc] using List.all_eq_true.1 h ch hch
  refine ⟨fun hcomma => (hmem _ hcomma).2.1 rfl, fun ch hch => ?_, fun ch hch => ?_⟩
  · obtain ⟨hblank, -, hquote⟩ := hmem ch (List.mem_of_head? hch)
    exact ⟨hblank, hquote⟩
  · exact (hmem ch (List.mem_of_getLast? hch)).1

/-- Plain texts with a space between them are plain. -/
theorem append_space {v w : List Char} (hv : PlainText v) (hvne : v ≠ []) (hw : PlainText w)
    (hwne : w ≠ []) : PlainText (v ++ ' ' :: w) where
  comma hmem := by
    rcases List.mem_append.1 hmem with hmem | hmem
    · exact hv.comma hmem
    · rcases List.mem_cons.1 hmem with hspace | hmem
      · cases hspace
      · exact hw.comma hmem
  head ch hch := by
    obtain ⟨d, more, rfl⟩ := List.exists_cons_of_ne_nil hvne
    exact hv.head ch hch
  last ch hch := by
    rcases List.eq_nil_or_concat w with rfl | ⟨w, d, rfl⟩
    · exact absurd rfl hwne
    · refine hw.last ch ?_
      simpa [List.getLast?_append, List.getLast?_cons] using hch

end PlainText

theorem allBlank_space : Clause.AllBlank [' '] := by decide

namespace Key

/-- A parameter as it is written. -/
def write (key : Key) (value : String) : String :=
  match key with
  | .file => key.name ++ ": \"" ++ Clause.escape value ++ "\""
  | .stretch | .cropIfOutside => key.name
  | _ => key.name ++ ": " ++ value

/-- The values that a key can be written with. -/
def CanWrite (key : Key) (value : String) : Prop :=
  match key with
  | .file => True
  | .stretch | .cropIfOutside => value = ""
  | _ => PlainText value.toList

/-- The name of every key may stand as a name in a clause. -/
theorem keyText (key : Key) : Clause.KeyText key.name.toList := by
  cases key <;> exact ⟨⟨_, rfl, by decide⟩, by decide, by decide⟩

/-- No name of a key ends with a blank. -/
theorem trimEnd_name (key : Key) : Text.trimEnd key.name.toList = key.name.toList := by
  cases key <;> decide

/-- A plain value behind a name, a colon and a blank is a parameter. -/
theorem parameterText_plain (key : Key) {value : String} (h : PlainText value.toList) :
    Clause.ParameterText (key.name ++ ": " ++ value).toList key.name.toList value.toList := by
  have hpair := Clause.ParameterText.pair key.keyText allBlank_space (.unquoted h.comma h.head)
  rw [Text.trimEnd_eq_self h.last, key.trimEnd_name] at hpair
  simpa using hpair

/-- A name alone is a parameter with an empty value. -/
theorem parameterText_flag (key : Key) :
    Clause.ParameterText key.name.toList key.name.toList [] := by
  have hflag := Clause.ParameterText.flag key.keyText
  rwa [trimEnd_name] at hflag

/-- A written parameter is one of the grammar, with the same name and value. -/
theorem parameterText_write {key : Key} {value : String} (h : key.CanWrite value) :
    Clause.ParameterText (key.write value).toList key.name.toList value.toList := by
  cases key with
  | file =>
    have hnone : Clause.AllBlank [] := by decide
    have hpair := Clause.ParameterText.pair Key.file.keyText allBlank_space
      (.quoted (Clause.quoted_escape value) hnone)
    rw [trimEnd_name] at hpair
    simpa [write] using hpair
  | stretch | cropIfOutside =>
    obtain rfl : value = "" := h
    exact parameterText_flag _
  | error | tolerance | analyzeOffset | area | filter | filterA | filterB | mapFilter =>
    exact parameterText_plain _ h

end Key

/-! ### A clause of items -/

/-- Keys with values, as a clause. -/
def writeItems (items : List (Key × String)) : String :=
  ", ".intercalate (items.map fun item => item.1.write item.2)

/-- A written clause is a clause of the grammar, with the keys and values in order. -/
theorem exists_segments_writeItems {items : List (Key × String)}
    (hitems : ∀ item ∈ items, item.1.CanWrite item.2) (start : Position) {blanks : List Char}
    (hblanks : Clause.AllBlank blanks) :
    ∃ ps, Clause.Segments start (blanks ++ (writeItems items).toList) ps ∧
      ps.map (fun p => (p.key, p.value)) = items.map fun item => (item.1.name, item.2) := by
  -- each item but the first has a space before it, so the blanks are generalised
  induction items generalizing start blanks with
  | nil =>
    refine ⟨_, .last (.blank ?_), rfl⟩
    simpa [writeItems] using hblanks
  | cons item items ih =>
    have hsegment : Clause.Segment start (blanks ++ (item.1.write item.2).toList) _ :=
      .parameter hblanks (Key.parameterText_write (hitems item List.mem_cons_self))
    cases items with
    | nil =>
      refine ⟨_, .last hsegment, ?_⟩
      simp
    | cons next items =>
      have htext : blanks ++ (writeItems (item :: next :: items)).toList =
          blanks ++ (item.1.write item.2).toList ++
            ',' :: ([' '] ++ (writeItems (next :: items)).toList) := by
        simp [writeItems, String.intercalate_cons_cons]
      obtain ⟨ps, hps, hmap⟩ := ih (fun i hi => hitems i (List.mem_cons_of_mem _ hi))
        ((start.advanceBy (blanks ++ (item.1.write item.2).toList)).advance ',') allBlank_space
      rw [htext]
      exact ⟨_, .cons hsegment hps, by simp [hmap]⟩

end ImageCheck
