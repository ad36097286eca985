/-
# Lines of the structured log

`SPEC_FULL` §8a, Logging; the constructors of `LogEvent`, `with_span`, `with_context`
and `format_json`.

An event is begun in one of five ways (`Event.Origin`), and then spans and names of its
context are added to it in any order (`Event.Addition`). Its line in the structured log is
a JSON object:

| field | there | holds |
| --- | --- | --- |
| `category`, `code`, `level`, `message`, `severity`, `timestamp` | always | a text or a number |
| `context` | if a name was added | every name with the text that it was given last |
| `error_metadata` | if the event is a failure | what the catalogue says about the code |
| `span` | if a span was added | the two columns of the last one |

`Event.table` is this table, and a line holds the rows that are there (`toJson_eq`). As the
names of the rows increase, so do those of the fields, whichever are missing, and a field
is found by its name (`Json.get?_present`). `Head.ofJson?` reads level, code, message and
columns out of a line again. `Lossless` is all that a line gives back.
-/

import ImageCheck.Log.Event
import ImageCheck.Proofs.Json.ReadBack
import ImageCheck.Proofs.Log.Context

namespace ImageCheck

/-! ### Objects in order -/

namespace Json

/-- Every object of the value has its names in increasing order, each of them once, and every part
of it has a text of its own. -/
inductive SortedKeys : Json → Prop
  | null : SortedKeys null
  | bool (b : Bool) : SortedKeys (bool b)
  | integer (n : Int) : SortedKeys (integer n)
  | string (s : String) : SortedKeys (string s)
  | array {items : List Json} (h : ∀ item ∈ items, SortedKeys item) : SortedKeys (array items)
  | object {fields : List (String × Json)} (hnames : (fields.map Prod.fst).Pairwise (· < ·))
      (h : ∀ field ∈ fields, SortedKeys field.2) : SortedKeys (object fields)

/-- A value whose names increase is proper. -/
theorem SortedKeys.proper {j : Json} (h : SortedKeys j) : Proper j := by
  induction h with
  | null => exact .null
  | bool b => exact .bool b
  | integer n => exact .integer n
  | string s => exact .string s
  | array _ ih => exact .array ih
  | object _ _ ih => exact .object ih

/-- The fields of a table that are there. -/
def present (table : List (String × Option Json)) : List (String × Json) :=
  table.filterMap fun row => row.2.map fun value => (row.1, value)

section Table

variable {table : List (String × Option Json)}

/-- A field that is not there is left out. -/
theorem present_cons_none (name : String) : present ((name, none) :: table) = present table := rfl

theorem present_cons_some (name : String) (value : Json) :
    present ((name, some value) :: table) = (name, value) :: present table := rfl

/-- The fields of an object are those of its table that are there. -/
theorem mem_present_iff {field : String × Json} :
    field ∈ present table ↔ (field.1, some field.2) ∈ table := by
  rw [present, List.mem_filterMap]
  constructor
  · rintro ⟨⟨name, value⟩, hrow, hvalue⟩
    obtain ⟨v, rfl, rfl⟩ := Option.map_eq_some_iff.1 hvalue
    exact hrow
  · intro hrow
    exact ⟨_, hrow, rfl⟩

/-- Missing fields leave the names of the others in order. -/
theorem names_present_sublist (table : List (String × Option Json)) :
    ((present table).map Prod.fst).Sublist (table.map Prod.fst) := by
  induction table with
  | nil => exact .slnil
  | cons row table ih =>
    obtain ⟨name, _ | value⟩ := row
    · exact ih.cons name
    · exact ih.cons_cons name

/-- An object is sorted if its table is and its values are. -/
theorem sortedKeys_present (hnames : (table.map Prod.fst).Pairwise (· < ·))
    (h : ∀ row ∈ table, ∀ value ∈ row.2, SortedKeys value) :
    SortedKeys (object (present table)) := by
  refine .object (hnames.sublist (names_present_sublist table)) fun field hfield => ?_
  exact h _ (mem_present_iff.1 hfield) field.2 rfl

/-- **A field is found by its name**, if no name stands in the table twice. -/
theorem get?_present (hnames : (table.map Prod.fst).Pairwise (· < ·)) (name : String) :
    (object (present table)).get? name = (table.lookup name).join := by
  show (present table).lookup name = _
  induction table with
  | nil => rfl
  | cons row table ih =>
    obtain ⟨other, value⟩ := row
    rw [List.map_cons, List.pairwise_cons] at hnames
    have hrest := ih hnames.2
    by_cases hname : name = other
    · subst hname
      rw [List.lookup_cons_self]
      cases value with
      | none =>
        -- the name comes again in no other row
        rw [present_cons_none]
        refine List.lookup_eq_none_iff.2 fun field hfield => ?_
        have hmem : field.1 ∈ table.map Prod.fst := List.mem_map_of_mem (mem_present_iff.1 hfield)
        rw [bne_iff_ne]
        rintro rfl
        exact String.lt_irrefl _ (hnames.1 _ hmem)
      | some value => rw [present_cons_some, List.lookup_cons_self]; rfl
    · have hne : (name == other) = false := beq_eq_false_iff_ne.2 hname
      rw [List.lookup_cons, hne]
      cases value with
      | none => rw [present_cons_none, hrest]
      | some value => rw [present_cons_some, List.lookup_cons, hne, hrest]

end Table
end Json

namespace Event

/-! ### Building an event -/

/-- How an event begins. -/
inductive Origin where
  | error (code : Code) (message : String)
  | success (code : Code) (message : String)
  | warning (message : String)
  | info (message : String)
  | debug (message : String)

/-- The event at its beginning. -/
def Origin.event : Origin → Event
  | error code message => .error code message
  | success code message => .success code message
  | warning message => .warning message
  | info message => .info message
  | debug message => .debug message

/-- What is added to an event. -/
inductive Addition where
  | span (s : Span)
  | context (name text : String)

namespace Addition

/-- The span that is added. -/
def span? : Addition → Option Span
  | span s => some s
  | context _ _ => none

/-- The name that is added to the context, and its text. -/
def entry? : Addition → Option (String × String)
  | span _ => none
  | context name text => some (name, text)

end Addition

/-- The event with one addition. -/
def add (e : Event) : Addition → Event
  | .span s => e.withSpan s
  | .context name text => e.withContext name text

/-- The event with all additions, one after another. -/
def built (origin : Origin) (additions : List Addition) : Event :=
  additions.foldl add origin.event

/-- The names of the context that were added, with their texts, in order. -/
def namesAdded (additions : List Addition) : List (String × String) :=
  additions.filterMap Addition.entry?

/-- The last span that was added. -/
def lastSpan? (additions : List Addition) : Option Span :=
  (additions.filterMap Addition.span?).getLast?

section Building

variable (e : Event) (additions : List Addition)

/-- Additions leave level, code and message as they are. -/
theorem foldl_add_head :
    (additions.foldl add e).level = e.level ∧ (additions.foldl add e).code = e.code ∧
      (additions.foldl add e).message = e.message := by
  induction additions generalizing e with
  | nil => exact ⟨rfl, rfl, rfl⟩
  | cons addition additions ih =>
    rw [List.foldl_cons]
    cases addition with
    | span s => exact ih (e.withSpan s)
    | context name text => exact ih (e.withContext name text)

/-- The last span counts. -/
theorem span_foldl_add :
    (additions.foldl add e).span = (lastSpan? additions).or e.span := by
  induction additions using List.reverseRecOn with
  | nil => rfl
  | append_singleton additions addition ih =>
    rw [List.foldl_append, List.foldl_cons, List.foldl_nil, lastSpan?, List.filterMap_append]
    cases addition with
    | span s => simp [add, withSpan, Addition.span?]
    | context name text => simpa [add, withContext, Addition.span?, lastSpan?] using ih

/-- The names are set one after another, whatever spans come between. -/
theorem context_foldl_add :
    (additions.foldl add e).context =
      (namesAdded additions).foldl (fun c entry => c.set entry.1 entry.2) e.context := by
  induction additions generalizing e with
  | nil => rfl
  | cons addition additions ih =>
    rw [List.foldl_cons, ih]
    cases addition with
    | span s => rfl
    | context name text => rfl

end Building

section Built

variable (origin : Origin) (additions : List Addition)

/-- Additions leave level, code and message as they are. -/
theorem head_built :
    (built origin additions).level = origin.event.level ∧
      (built origin additions).code = origin.event.code ∧
      (built origin additions).message = origin.event.message :=
  foldl_add_head origin.event additions

/-- An event begins without a context. -/
theorem context_origin (origin : Origin) : origin.event.context = .empty := by
  cases origin <;> rfl

/-- The last span that was added counts. -/
theorem span_built : (built origin additions).span = lastSpan? additions := by
  have hnone : origin.event.span = none := by cases origin <;> rfl
  rw [built, span_foldl_add, hnone, Option.or_none]

/-- A name has the text that it was given last. -/
theorem get?_context_built (name : String) :
    (built origin additions).context.get? name = (namesAdded additions).reverse.lookup name := by
  have hlast := Context.get?_foldl_set .empty id (namesAdded additions) name
  rw [built, context_foldl_add, context_origin]
  rwa [show Context.empty.get? name = none from rfl, Option.or_none, Option.map_id] at hlast

/-- The context is empty if no name was added. -/
theorem entries_context_built_eq_nil_iff :
    (built origin additions).context.entries = [] ↔ namesAdded additions = [] := by
  constructor
  · intro hentries
    rcases List.eq_nil_or_concat (namesAdded additions) with hnone | ⟨front, ⟨name, text⟩, hlast⟩
    · exact hnone
    · -- the name that was added last would be found
      have hname := get?_context_built origin additions name
      rw [Context.get?, hentries, hlast, List.concat_eq_append, List.reverse_concat,
        List.lookup_cons_self] at hname
      cases hname
  · intro hnone
    rw [built, context_foldl_add, hnone, context_origin]
    rfl

end Built

/-! ### The fields of a line -/

section Fields

variable (seconds : Int) (e : Event)

/-- The fields of an event, each with its value if it is there. -/
def table : List (String × Option Json) :=
  [("category", some (.string e.code.category)),
   ("code", some (.string e.code.text)),
   ("context", if e.context.entries.isEmpty then none else some (contextJson e.context)),
   ("error_metadata", if e.level = .error then some e.metadata else none),
   ("level", some (.string e.level.tag)),
   ("message", some (.string e.message)),
   ("severity", some (.string e.code.severity.name)),
   ("span", e.span.map columns),
   ("timestamp", some (.integer (max 0 seconds)))]

/-- The table of an event has its names in increasing order. -/
theorem names_table : ((e.table seconds).map Prod.fst).Pairwise (· < ·) := by
  show ["category", "code", "context", "error_metadata", "level", "message", "severity", "span",
    "timestamp"].Pairwise (· < ·)
  decide

/-- A line holds the rows of the table that are there. -/
theorem toJson_eq : e.toJson seconds = .object (Json.present (e.table seconds)) := by
  unfold toJson table
  by_cases hcontext : e.context.entries.isEmpty = true <;> by_cases hlevel : e.level = .error <;>
    cases e.span <;> simp [hcontext, hlevel, Json.present]

/-- A field of the object is there exactly if its row of the table is. -/
theorem get?_toJson (name : String) :
    (e.toJson seconds).get? name = ((e.table seconds).lookup name).join := by
  rw [toJson_eq, Json.get?_present (names_table seconds e)]

/-- The context has its names with their texts. -/
theorem get?_contextJson (c : Context) (name : String) :
    (contextJson c).get? name = (c.get? name).map .string := by
  show (c.entries.map fun entry => (entry.1, Json.string entry.2)).lookup name = _
  rw [Context.get?]
  induction c.entries with
  | nil => rfl
  | cons entry entries ih =>
    obtain ⟨other, text⟩ := entry
    rw [List.map_cons, List.lookup_cons, List.lookup_cons]
    cases name == other
    · exact ih
    · rfl

/-- The names of a context increase. -/
theorem sortedKeys_contextJson (c : Context) : (contextJson c).SortedKeys := by
  refine .object ?_ fun field hfield => ?_
  · rw [List.map_map]
    exact List.pairwise_map.2 c.sorted
  · obtain ⟨entry, -, rfl⟩ := List.mem_map.1 hfield
    exact .string entry.2

/-- So do those of what the catalogue says. -/
theorem sortedKeys_metadata : e.metadata.SortedKeys := by
  refine .object ?_ fun field hfield => ?_
  · show ["description", "recommended_action", "recoverable", "requires_halt"].Pairwise (· < ·)
    decide
  · simp only [List.mem_cons, List.not_mem_nil, or_false] at hfield
    rcases hfield with rfl | rfl | rfl | rfl
    · exact .string _
    · exact .string _
    · exact .bool _
    · exact .bool _

/-- And those of the columns of a span. -/
theorem sortedKeys_columns (s : Span) : (columns s).SortedKeys := by
  refine .object ?_ fun field hfield => ?_
  · show ["end_column", "start_column"].Pairwise (· < ·)
    decide
  · simp only [List.mem_cons, List.not_mem_nil, or_false] at hfield
    rcases hfield with rfl | rfl <;> exact .integer _

/-- **Every object of a line has its names in order.** -/
theorem sortedKeys_toJson : (e.toJson seconds).SortedKeys := by
  rw [toJson_eq]
  refine Json.sortedKeys_present (names_table seconds e) fun row hrow value hvalue => ?_
  simp only [table, List.mem_cons, List.not_mem_nil, or_false] at hrow
  rcases hrow with rfl | rfl | rfl | rfl | rfl | rfl | rfl | rfl | rfl
  case inr.inr.inl =>
    split at hvalue
    · cases hvalue
    · obtain rfl := Option.some.inj hvalue
      exact sortedKeys_contextJson e.context
  case inr.inr.inr.inl =>
    split at hvalue
    · obtain rfl := Option.some.inj hvalue
      exact sortedKeys_metadata e
    · cases hvalue
  case inr.inr.inr.inr.inr.inr.inr.inl =>
    obtain ⟨s, -, rfl⟩ := Option.map_eq_some_iff.1 hvalue
    exact sortedKeys_columns s
  all_goals
    obtain rfl := Option.some.inj hvalue
    constructor

end Fields

/-! ### Reading a line -/

/-- What a line says first about its event. -/
structure Head where
  /-- How much it matters. -/
  level : Level
  /-- What kind of event it is. -/
  code : Code
  /-- What happened. -/
  message : String
  /-- The first column of the span, and the column behind it. -/
  columns : Option (Nat × Nat)
  deriving DecidableEq

namespace Head

/-- A number of an object. -/
def number? (name : String) (j : Json) : Option Nat :=
  match j.get? name with
  | some (.integer n) => n.toNat?
  | _ => none

/-- The columns of a span. -/
def columns? (j : Json) : Option (Nat × Nat) := do
  return (← number? "start_column" j, ← number? "end_column" j)

/-- Reads a line. -/
def ofJson? (j : Json) : Option Head := do
  let level ← Json.named? Level.all Level.tag (← (← j.get? "level").string?)
  let code ← (← j.get? "code").string?
  let message ← (← j.get? "message").string?
  match j.get? "span" with
  | none => return ⟨level, ⟨code⟩, message, none⟩
  | some span => return ⟨level, ⟨code⟩, message, some (← columns? span)⟩

/-- A level is found again by its mark. -/
theorem named?_tag (level : Level) : Json.named? Level.all Level.tag level.tag = some level := by
  cases level <;> rfl

/-- The columns of a span are read back. -/
theorem columns?_columns (s : Span) :
    columns? (Event.columns s) = some (s.start.column, s.stop.column) := rfl

/-- **Level, code, message and columns are read back from a line.** -/
theorem ofJson?_toJson (seconds : Int) (e : Event) :
    ofJson? (e.toJson seconds) =
      some ⟨e.level, e.code, e.message, e.span.map fun s => (s.start.column, s.stop.column)⟩ := by
  have hlevel : (e.toJson seconds).get? "level" = some (.string e.level.tag) :=
    get?_toJson seconds e "level"
  have hcode : (e.toJson seconds).get? "code" = some (.string e.code.text) :=
    get?_toJson seconds e "code"
  have hmessage : (e.toJson seconds).get? "message" = some (.string e.message) :=
    get?_toJson seconds e "message"
  have hspan : (e.toJson seconds).get? "span" = e.span.map Event.columns :=
    get?_toJson seconds e "span"
  rw [ofJson?, hlevel, hcode, hmessage, hspan]
  simp only [Option.bind_eq_bind, Option.bind_some, Json.string?, named?_tag]
  cases e.span with
  | none => rfl
  | some s => simp only [Option.map_some, columns?_columns]; rfl

end Head

/-! ### Lines are lossless -/

section Built

variable (seconds : Int) (origin : Origin) (additions : List Addition)

/-- There is a context if a name was added. -/
theorem get?_context_toJson_built :
    ((built origin additions).toJson seconds).get? "context" =
      if namesAdded additions = [] then none
      else some (contextJson (built origin additions).context) := by
  have hrow : ((built origin additions).toJson seconds).get? "context" =
      if (built origin additions).context.entries.isEmpty then none
      else some (contextJson (built origin additions).context) :=
    get?_toJson seconds _ "context"
  simp only [hrow, List.isEmpty_iff, entries_context_built_eq_nil_iff]

/-- The catalogue is asked about a failure. -/
theorem get?_metadata_toJson_built :
    ((built origin additions).toJson seconds).get? "error_metadata" =
      if origin.event.level = .error then some (built origin additions).metadata else none := by
  have hrow : ((built origin additions).toJson seconds).get? "error_metadata" =
      if (built origin additions).level = .error then some (built origin additions).metadata
      else none :=
    get?_toJson seconds _ "error_metadata"
  rw [hrow, (head_built origin additions).1]

end Built

/-- What it is for a line to give back the event that was begun as `origin` and added to: it reads
as an object with these fields. -/
structure Lossless (origin : Origin) (additions : List Addition) (line : String)
    (fields : List (String × Json)) : Prop where
  /-- The line reads as the object. -/
  reads : Json.read? line = some (.object fields)
  /-- It has no control character, so that it is one line. -/
  printable : ∀ ch ∈ line.toList, 0x20 ≤ ch.toNat
  /-- The names of every object increase. -/
  sorted : (Json.object fields).SortedKeys
  /-- Level, code, message and the columns of the last span are as they were given. -/
  head : Head.ofJson? (.object fields) =
    some ⟨origin.event.level, origin.event.code, origin.event.message,
      (lastSpan? additions).map fun s => (s.start.column, s.stop.column)⟩
  /-- There is a context exactly if a name was added. -/
  context_iff : (∃ context, (Json.object fields).get? "context" = some context) ↔
    namesAdded additions ≠ []
  /-- The context gives every name the text of its last addition. -/
  context : ∀ context, (Json.object fields).get? "context" = some context →
    (∃ entries, context = .object entries) ∧
      ∀ name, context.get? name = ((namesAdded additions).reverse.lookup name).map Json.string
  /-- What the catalogue says about the code is there exactly for a failure. -/
  metadata_iff : (∃ metadata, (Json.object fields).get? "error_metadata" = some metadata) ↔
    origin.event.level = .error
  /-- A halt is required exactly if the failure is not recoverable. -/
  metadata : ∀ metadata, (Json.object fields).get? "error_metadata" = some metadata →
    ∃ recoverable, metadata.get? "recoverable" = some (.bool recoverable) ∧
      metadata.get? "requires_halt" = some (.bool !recoverable)

/-- **A line of the structured log is lossless.** However an event was begun and whatever was added
to it, its line has no control character, so that it is one line. It reads as an object with level,
code, message and the columns of the last span as they are, and the names of every object increase.
There is a context exactly if a name was added, and it gives every name the text of its last
addition. What the catalogue says about the code is there exactly for a failure, and a halt is
required exactly if the failure is not recoverable. -/
theorem jsonLine_lossless (seconds : Int) (origin : Origin) (additions : List Addition) :
    ∃ fields, Lossless origin additions ((built origin additions).jsonLine seconds) fields := by
  obtain ⟨hlevel, hcode, hmessage⟩ := head_built origin additions
  have hsorted := sortedKeys_toJson seconds (built origin additions)
  refine ⟨Json.present ((built origin additions).table seconds), ?_⟩
  have hcontext := get?_context_toJson_built seconds origin additions
  have hmetadata := get?_metadata_toJson_built seconds origin additions
  rw [toJson_eq] at hsorted hcontext hmetadata
  constructor
  case reads =>
    rw [jsonLine, toJson_eq]
    exact Json.read?_compact hsorted.proper
  case printable =>
    rw [jsonLine, toJson_eq, String.toList_ofList]
    exact hsorted.proper.printable_compact
  case sorted => exact hsorted
  case head => rw [← toJson_eq, Head.ofJson?_toJson, span_built, hlevel, hcode, hmessage]
  case context_iff =>
    rw [hcontext]
    by_cases hnames : namesAdded additions = [] <;> simp [hnames]
  case context =>
    intro context hget
    rw [hcontext] at hget
    split at hget
    · cases hget
    · obtain rfl := Option.some.inj hget
      refine ⟨⟨_, rfl⟩, fun name => ?_⟩
      rw [get?_contextJson, get?_context_built]
  case metadata_iff =>
    rw [hmetadata]
    by_cases herror : origin.event.level = .error <;> simp [herror]
  case metadata =>
    intro metadata hget
    rw [hmetadata] at hget
    split at hget
    · obtain rfl := Option.some.inj hget
      exact ⟨_, rfl, rfl⟩
    · cases hget

/-- A failure whose message and context hold quotes, line ends and other control characters, and
whose name `clause` is given twice: the line keeps the message and the second text. -/
theorem jsonLine_lossless_control :
    ∃ fields, Json.read? ((built (.error ⟨"E091"⟩ "a\n\"b\"\x1f")
        [.context "clause" "1", .span ⟨⟨6, 7⟩, ⟨8, 8⟩⟩, .context "clause" "\r\n"]).jsonLine 0) =
          some (.object fields) ∧
      Head.ofJson? (.object fields) =
        some ⟨.error, ⟨"E091"⟩, "a\n\"b\"\x1f", some (7, 8)⟩ ∧
      ∃ context, (Json.object fields).get? "context" = some context ∧
        context.get? "clause" = some (.string "\r\n") := by
  obtain ⟨fields, hline⟩ := jsonLine_lossless 0 (.error ⟨"E091"⟩ "a\n\"b\"\x1f")
    [.context "clause" "1", .span ⟨⟨6, 7⟩, ⟨8, 8⟩⟩, .context "clause" "\r\n"]
  obtain ⟨context, hget⟩ := hline.context_iff.2 (by decide)
  exact ⟨fields, hline.reads, hline.head, context, hget, (hline.context context hget).2 "clause"⟩

end Event
end ImageCheck
