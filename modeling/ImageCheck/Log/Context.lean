/-
# Context of an event

`SPEC_FULL` §8a, Logging; the context that `with_context` of `LogEvent` fills.

Named texts that say what an event is about, in the order of their names. Setting
a name again replaces its text.
-/

namespace ImageCheck

/-- Names with texts, each name once, in increasing order. -/
structure Context where
  /-- The names with their texts. -/
  entries : List (String × String)
  /-- The names increase. -/
  sorted : entries.Pairwise fun a b => a.1 < b.1

namespace Context

/-- No name is set. -/
def empty : Context := ⟨[], List.Pairwise.nil⟩

/-- Puts a name with its text where it belongs, in place of an earlier text. -/
def insertEntry (name text : String) : List (String × String) → List (String × String)
  | [] => [(name, text)]
  | entry :: rest =>
    if name < entry.1 then (name, text) :: entry :: rest
    else if name = entry.1 then (name, text) :: rest
    else entry :: insertEntry name text rest

/-- Setting a name adds no entry but its own. -/
theorem mem_insertEntry {name text : String} {entries : List (String × String)}
    {e : String × String} (h : e ∈ insertEntry name text entries) :
    e = (name, text) ∨ e ∈ entries := by
  induction entries with
  | nil => simpa [insertEntry] using h
  | cons entry rest ih =>
    unfold insertEntry at h
    split at h
    · simpa using h
    · split at h
      · rcases List.mem_cons.1 h with h | h
        · exact .inl h
        · exact .inr (List.mem_cons_of_mem _ h)
      · rcases List.mem_cons.1 h with h | h
        · exact .inr (h ▸ List.mem_cons_self)
        · exact (ih h).imp id (List.mem_cons_of_mem _)

/-- Setting a name keeps the names in their order, each there once. -/
theorem pairwise_insertEntry (name text : String) {entries : List (String × String)}
    (h : entries.Pairwise fun a b => a.1 < b.1) :
    (insertEntry name text entries).Pairwise fun a b => a.1 < b.1 := by
  induction entries with
  | nil => simp [insertEntry]
  | cons entry rest ih =>
    obtain ⟨hall, hrest⟩ := List.pairwise_cons.1 h
    unfold insertEntry
    split
    · rename_i hlt
      refine List.pairwise_cons.2 ⟨fun b hb => ?_, h⟩
      rcases List.mem_cons.1 hb with rfl | hb
      · exact hlt
      · exact String.lt_trans hlt (hall b hb)
    · rename_i hge
      split
      · rename_i heq
        refine List.pairwise_cons.2 ⟨fun b hb => ?_, hrest⟩
        exact heq ▸ hall b hb
      · rename_i hne
        refine List.pairwise_cons.2 ⟨fun b hb => ?_, ih hrest⟩
        rcases mem_insertEntry hb with rfl | hb
        · exact Decidable.not_not.1 fun hlt =>
            hne (String.le_antisymm (String.not_lt.1 hlt) (String.not_lt.1 hge))
        · exact hall b hb

/-- Sets the text of a name. -/
def set (c : Context) (name text : String) : Context :=
  ⟨insertEntry name text c.entries, pairwise_insertEntry name text c.sorted⟩

end Context
end ImageCheck
