/-
# Compiling a clause without a trap

`SPEC_FULL` §4.1; `compile_clause`, and `format_error` for its failures.

A clause is compiled and its failure, if there is one, shown, all as one checked
computation: `compileAndReport`. It never traps, whatever the clause is, however long,
and gives what `compileClause` and `CompileError.report` give: `compileAndReport_noTrap`.

Two facts carry the checks from the clause to its values. No value is longer than the
clause, quotes and escapes included, so the bound on the clause bounds every column. And
every failure quotes text at the place that it names, so the span that is worked out
for the log and again for the excerpt ends within the text.
-/

import ImageCheck.Proofs.Checked.Read
import ImageCheck.Proofs.Checked.Split
import ImageCheck.Proofs.Clause.Places
import ImageCheck.Proofs.Compile.Run

namespace ImageCheck

/-- What a failure to split quotes stands at its place. -/
def SplitError.PlacedIn (text : String) : SplitError → Prop
  | unexpectedAfterQuote quoted position => Found text quoted.toList position
  | _ => True

namespace Clause

/-! ### Values are no longer than their clause -/

/-- A quoted text stands for no more characters than it has. -/
theorem Quoted.length_le {w v : List Char} (h : Quoted w v) : v.length ≤ w.length := by
  induction h with
  | nil => exact Nat.le_refl _
  | plain _ _ _ ih => exact Nat.succ_le_succ ih
  | quote _ ih =>
    simp only [List.length_cons]
    omega
  | backslash _ ih =>
    simp only [List.length_cons]
    omega
  | other _ _ _ ih => exact Nat.succ_le_succ (Nat.succ_le_succ ih)

/-- A value is no longer than what is written for it, with its quotes and blanks. -/
theorem ValueText.length_le {w v : List Char} (h : ValueText w v) : v.length ≤ w.length := by
  cases h with
  | unquoted _ _ => exact (Text.trimEnd_prefix_self w).length_le
  | quoted hquoted _ =>
    have hle := hquoted.length_le
    simp only [List.length_cons, List.length_append]
    omega

/-- The value of a segment is no longer than the segment. -/
theorem Segment.length_value_le {start : Position} {w : List Char} {o : Option Parameter}
    (h : Segment start w o) : ∀ p ∈ o, p.value.length ≤ w.length := by
  cases h with
  | blank _ =>
    intro p hp
    cases hp
  | parameter _ hparameter =>
    rintro p ⟨⟩
    cases hparameter with
    | flag _ => exact Nat.zero_le _
    | pair _ _ hvalue =>
      have hle := hvalue.length_le
      simp only [String.length_ofList, List.length_append, List.length_cons]
      omega

/-- No value of a clause is longer than the clause. -/
theorem Segments.length_value_le {start : Position} {w : List Char} {ps : List Parameter}
    (h : Segments start w ps) : ∀ p ∈ ps, p.value.length ≤ w.length := by
  induction h with
  | last hsegment =>
    intro p hp
    exact hsegment.length_value_le p (Option.mem_toList.1 hp)
  | cons hsegment _ ih =>
    intro p hp
    simp only [List.length_append, List.length_cons]
    rcases List.mem_append.1 hp with hp | hp
    · have hle := hsegment.length_value_le p (Option.mem_toList.1 hp)
      omega
    · have hle := ih p hp
      omega

/-- **No value is longer than a clause may be.** -/
theorem length_value_le_of_split {text : String} {ps : List Parameter} (h : split text = .ok ps) :
    ∀ p ∈ ps, p.value.length ≤ maxClauseBytes := by
  intro p hp
  have hbytes := bytes_le_of_split_eq_ok h
  have hvalue := ((split_eq_ok_iff_segments hbytes).1 h).length_value_le p hp
  have hlength := Checked.length_le_of_bytes_le hbytes
  rw [String.length_toList] at hvalue
  omega

/-! ### Failures to split quote the clause -/

/-- The stray text that a failure to split quotes stands at its place in the clause. -/
theorem placedIn_of_split {text : String} {e : SplitError} (h : split text = .error e) :
    e.PlacedIn text := by
  rcases exists_faults_of_split h with ⟨rfl, -⟩ | ⟨-, before, fault, after, htext, hfaults⟩
  · trivial
  · cases hfaults with
    | emptyKey | unterminatedQuote => trivial
    | unexpectedAfterQuote =>
      rw [SplitError.PlacedIn, String.toList_ofList]
      exact found_of_eq_append htext

end Clause

namespace Checked

/-! ### The checked compiler -/

/-- Sets what a key stands for. Only the values of rectangles and filters are read by place. -/
def set (s : Spec) (directory : Option String) (key : Key) (value : String) :
    Checked (Except CompileError Spec) :=
  match key with
  | .area => do
    match ← rect value with
    | .ok r => return .ok { s with area := some r }
    | .error e => return .error e
  | .filter | .filterA | .filterB | .mapFilter => do
    match ← filter value with
    | .ok f => return key.targets.foldlM (fun s chain => s.pushFilter f chain) s
    | .error e => return .error e
  | .file | .error | .tolerance | .analyzeOffset | .stretch | .cropIfOutside =>
    return s.set directory key value

/-- Applies one parameter. -/
def apply (directory : Option String) (s : Spec) (p : Parameter) :
    Checked (Except CompileError Spec) :=
  match Key.ofName? p.key with
  | none => return .error (.unknownParameter p.key)
  | some key => set s directory key p.value

/-- Applies parameters in order, up to the first that fails. -/
def applyFrom (directory : Option String) :
    Spec → List Parameter → Checked (Except CompileError Spec)
  | s, [] => return .ok s
  | s, p :: ps => do
    match ← apply directory s p with
    | .ok s => applyFrom directory s ps
    | .error e => return .error e

/-- Applies parameters in order, if there are not too many, and asks for an image. -/
def applyAll (directory : Option String) (defaults : Defaults) (ps : List Parameter) :
    Checked (Except CompileError Spec) := do
  if Limit.parameters.bound < ps.length then return .error (.limitExceeded .parameters)
  else
    match ← applyFrom directory (Spec.initial defaults) ps with
    | .ok s => return s.finish
    | .error e => return .error e

/-- The part of the clause that a failure to split is about, where it has one. -/
def splitSpan? : SplitError → Checked (Option Span)
  | .clauseTooLong _ => return none
  | .emptyKey position => return some (.point position)
  | .unterminatedQuote position => return some (.point position)
  | .unexpectedAfterQuote text position => return some (← covering position text.toList)

/-- The part of the text that a failure is about. -/
def span? : CompileError → Checked (Option Span)
  | .read cause => return some (← readSpan cause)
  | .split cause => splitSpan? cause
  | _ => return none

/-- A result, after its failure went to the log with its span. -/
def logged (result : Except CompileError Spec) : Checked (Except CompileError Spec) := do
  match result with
  | .ok s => return .ok s
  | .error e =>
    let _ ← span? e
    return .error e

/-- The specification that parameters stand for. -/
def compileParameters (directory : Option String) (defaults : Defaults) (ps : List Parameter) :
    Checked (Except CompileError Spec) := do
  match ← applyAll directory defaults ps with
  | .error (.limitExceeded limit) =>
    logged (if declaresImage ps then .error (.limitExceeded limit) else .error .noImages)
  | result => logged result

/-- The specification that a clause stands for. -/
def compileClause (directory : Option String) (defaults : Defaults) (text : String) :
    Checked (Except CompileError Spec) := do
  match ← split text with
  | .error e => logged (.error (.split e))
  | .ok ps => compileParameters directory defaults ps

/-- A failure as text for a terminal. Its span is worked out even where it is not shown. -/
def report (clause : String) (e : CompileError) : Checked String := do
  let message := "[" ++ e.code.text ++ "] " ++ e.message
  match e, ← span? e with
  | .split _, some span => return span.excerpt clause message
  | _, _ => return "error: " ++ message ++ "\n"

/-- Compiles a clause, and shows the failure if it has one. -/
def compileAndReport (directory : Option String) (defaults : Defaults) (text : String) :
    Checked (Except (CompileError × String) Spec) := do
  match ← compileClause directory defaults text with
  | .ok s => return .ok s
  | .error e => return .error (e, ← report text e)

/-! ### No trap -/

/-- **Setting what a key stands for hits no trap**, if the value is no longer than a clause. -/
theorem set_eq (s : Spec) (directory : Option String) (key : Key) {value : String}
    (hshort : value.length ≤ maxClauseBytes) :
    set s directory key value = .ok (s.set directory key value) := by
  have hrect := rect_eq hshort
  have hfilter := filter_eq hshort
  unfold set Spec.set
  cases key with
  | area =>
    simp only [hrect, ok_bind]
    cases Value.rect value <;> rfl
  | filter | filterA | filterB | mapFilter =>
    simp only [hfilter, ok_bind]
    cases Value.filter value <;> rfl
  | file | error | tolerance | analyzeOffset | stretch | cropIfOutside => rfl

/-- Applying one such parameter hits no trap. -/
theorem apply_eq (directory : Option String) (s : Spec) {p : Parameter}
    (hshort : p.value.length ≤ maxClauseBytes) :
    apply directory s p = .ok (s.apply directory p) := by
  rw [apply, Spec.apply]
  cases Key.ofName? p.key with
  | none => rfl
  | some key => exact set_eq s directory key hshort

/-- Nor does applying them one after another. -/
theorem applyFrom_eq (directory : Option String) (s : Spec) {ps : List Parameter}
    (hshort : ∀ p ∈ ps, p.value.length ≤ maxClauseBytes) :
    applyFrom directory s ps = .ok (ps.foldlM (Spec.apply directory) s) := by
  induction ps generalizing s with
  | nil => rfl
  | cons p ps ih =>
    have hp := apply_eq directory s (hshort p List.mem_cons_self)
    have hps := fun s => ih s fun q hq => hshort q (List.mem_cons_of_mem p hq)
    rw [applyFrom, hp, ok_bind, List.foldlM_cons]
    cases Spec.apply directory s p with
    | error e => rfl
    | ok s => exact hps s

/-- Nor do the two limits and the question for an image. -/
theorem applyAll_eq (directory : Option String) (defaults : Defaults) {ps : List Parameter}
    (hshort : ∀ p ∈ ps, p.value.length ≤ maxClauseBytes) :
    applyAll directory defaults ps = .ok (ImageCheck.applyAll directory defaults ps) := by
  rw [applyAll, ImageCheck.applyAll, applyFrom_eq directory _ hshort, ok_bind]
  split_ifs
  · rfl
  · cases ps.foldlM (Spec.apply directory) (Spec.initial defaults) <;> rfl

/-! ### Failures have their spans -/

/-- A refused value is refused for something at its place in the value. -/
theorem placedIn_set {s : Spec} {directory : Option String} {key : Key} {value : String}
    {e : CompileError} (he : s.set directory key value = .error e) : e.PlacedIn value := by
  have hinteger {field : String} (he : Value.integer field value = .error e) :
      e.PlacedIn value := by
    unfold Value.integer at he
    split at he
    · cases he
    · obtain rfl := Except.error.inj he
      trivial
  unfold Spec.set at he
  cases key with
  | file | stretch | cropIfOutside => cases he
  | error =>
    simp only at he
    split at he
    · cases he
    · obtain rfl := Except.error.inj he
      trivial
  | tolerance | analyzeOffset =>
    simp only at he
    split at he
    · cases he
    · rename_i hvalue
      obtain rfl := Except.error.inj he
      exact hinteger hvalue
  | area =>
    simp only at he
    split at he
    · cases he
    · rename_i hvalue
      obtain rfl := Except.error.inj he
      exact placedIn_rect hvalue
  | filter | filterA | filterB | mapFilter =>
    simp only at he
    split at he
    · rw [Spec.foldlM_pushFilter _ (Key.nodup_targets _)] at he
      split_ifs at he
      obtain rfl := Except.error.inj he
      trivial
    · rename_i hvalue
      obtain rfl := Except.error.inj he
      exact placedIn_filter hvalue

/-- So is a refused parameter. -/
theorem placedIn_apply {s : Spec} {directory : Option String} {p : Parameter} {e : CompileError}
    (he : s.apply directory p = .error e) : e.PlacedIn p.value := by
  unfold Spec.apply at he
  split at he
  · obtain rfl := Except.error.inj he
    trivial
  · exact placedIn_set he

/-- The failure of a whole list is placed in one of its values. -/
theorem exists_placedIn_foldlM {directory : Option String} {s : Spec} {ps : List Parameter}
    {e : CompileError} (he : ps.foldlM (Spec.apply directory) s = .error e) :
    ∃ p ∈ ps, e.PlacedIn p.value := by
  induction ps generalizing s with
  | nil => cases he
  | cons p ps ih =>
    rw [List.foldlM_cons] at he
    cases happly : s.apply directory p with
    | error e' =>
      rw [happly] at he
      obtain rfl := Except.error.inj he
      exact ⟨p, List.mem_cons_self, placedIn_apply happly⟩
    | ok t =>
      rw [happly] at he
      obtain ⟨q, hq, hplaced⟩ := ih he
      exact ⟨q, List.mem_cons_of_mem p hq, hplaced⟩

/-- The span of a failure that is placed in a short value is built without a trap. -/
theorem span?_eq_of_placedIn {value : String} (hshort : value.length ≤ maxClauseBytes)
    {e : CompileError} (he : e.PlacedIn value) : span? e = .ok e.span? := by
  cases e with
  | read cause =>
    rw [span?, readSpan_eq hshort he]
    rfl
  | split cause => exact he.elim
  | unknownParameter _ | unknownFilter _ | invalidInteger _ _ | noImages | limitExceeded _
  | errorRate _ => rfl

/-- So is that of any failure of a list of parameters. -/
theorem span?_eq_of_applyAll {directory : Option String} {defaults : Defaults}
    {ps : List Parameter} (hshort : ∀ p ∈ ps, p.value.length ≤ maxClauseBytes) {e : CompileError}
    (he : ImageCheck.applyAll directory defaults ps = .error e) : span? e = .ok e.span? := by
  unfold ImageCheck.applyAll at he
  split_ifs at he
  · obtain rfl := Except.error.inj he
    rfl
  · split at he
    · unfold Spec.finish at he
      split_ifs at he
      obtain rfl := Except.error.inj he
      rfl
    · rename_i hfold
      obtain rfl := Except.error.inj he
      obtain ⟨p, hp, hplaced⟩ := exists_placedIn_foldlM hfold
      exact span?_eq_of_placedIn (hshort p hp) hplaced

/-- And that of any failure to split. -/
theorem span?_eq_of_split {text : String} {e : SplitError} (he : Clause.split text = .error e) :
    span? (.split e) = .ok e.span? := by
  by_cases hbytes : text.utf8ByteSize ≤ maxClauseBytes
  · have hshort := length_le_of_bytes_le hbytes
    have hplaced := Clause.placedIn_of_split he
    cases e with
    | unexpectedAfterQuote quoted position =>
      rw [span?, splitSpan?, covering_eq hshort hplaced]
      rfl
    | clauseTooLong _ | emptyKey _ | unterminatedQuote _ => rfl
  · rw [Clause.split_of_long (Nat.lt_of_not_le hbytes)] at he
    obtain rfl := Except.error.inj he
    rfl

/-! ### Clauses -/

/-- A failure whose span is built goes to the log without a trap. -/
theorem logged_error {e : CompileError} (h : span? e = .ok e.span?) :
    logged (.error e) = .ok (.error e) := by
  rw [logged, h]
  rfl

/-- **Compiling parameters hits no trap**, if no value is longer than a clause. -/
theorem compileParameters_eq (directory : Option String) (defaults : Defaults)
    {ps : List Parameter} (hshort : ∀ p ∈ ps, p.value.length ≤ maxClauseBytes) :
    compileParameters directory defaults ps =
      .ok (ImageCheck.compileParameters directory defaults ps) := by
  rw [compileParameters, ImageCheck.compileParameters, applyAll_eq directory defaults hshort,
    ok_bind]
  cases happly : ImageCheck.applyAll directory defaults ps with
  | ok s => rfl
  | error e =>
    have hspan := span?_eq_of_applyAll hshort happly
    cases e with
    | limitExceeded limit =>
      simp only
      split_ifs <;> rfl
    | unknownParameter _ | unknownFilter _ | invalidInteger _ _ | noImages | read _ | errorRate _
    | split _ => exact logged_error hspan

/-- **Compiling a clause hits no trap**, whatever the clause is. -/
theorem compileClause_eq (directory : Option String) (defaults : Defaults) (text : String) :
    compileClause directory defaults text =
      .ok (ImageCheck.compileClause directory defaults text) := by
  rw [compileClause, ImageCheck.compileClause, split_eq, ok_bind]
  cases hsplit : Clause.split text with
  | error e => exact logged_error (span?_eq_of_split hsplit)
  | ok ps => exact compileParameters_eq directory defaults (Clause.length_value_le_of_split hsplit)

/-- The span of a failure of parameters is built without a trap, also where a missing image takes
the place of a limit. -/
theorem span?_eq_of_compileParameters {directory : Option String} {defaults : Defaults}
    {ps : List Parameter} (hshort : ∀ p ∈ ps, p.value.length ≤ maxClauseBytes) {e : CompileError}
    (he : ImageCheck.compileParameters directory defaults ps = .error e) :
    span? e = .ok e.span? := by
  unfold ImageCheck.compileParameters at he
  split at he
  · split_ifs at he <;> obtain rfl := Except.error.inj he <;> rfl
  · exact span?_eq_of_applyAll hshort he

/-- A failure whose span is built is shown without a trap. -/
theorem report_eq (clause : String) {e : CompileError} (h : span? e = .ok e.span?) :
    report clause e = .ok (e.report clause) := by
  rw [report, h, ok_bind]
  cases e with
  | split cause =>
    simp only [CompileError.span?, CompileError.report]
    cases cause.span? <;> rfl
  | unknownParameter _ | unknownFilter _ | invalidInteger _ _ | noImages | limitExceeded _ | read _
  | errorRate _ => rfl

/-- The span of any failure of a clause is built without a trap. -/
theorem span?_eq_of_compileClause {directory : Option String} {defaults : Defaults} {text : String}
    {e : CompileError} (he : ImageCheck.compileClause directory defaults text = .error e) :
    span? e = .ok e.span? := by
  unfold ImageCheck.compileClause at he
  split at he
  · rename_i hsplit
    obtain rfl := Except.error.inj he
    exact span?_eq_of_split hsplit
  · rename_i hsplit
    exact span?_eq_of_compileParameters (Clause.length_value_le_of_split hsplit) he

/-- **Compiling a clause and showing its failure hits no trap**, for every clause of any length: no
text is cut off its boundaries, no offset or column overflows, no span ends before it starts, and
no loop goes round without having read a character. The outcome is that of `compileClause`, with the
text that `CompileError.report` gives. In particular, anywhere in a clause that is looked at, a call
for the next parameter that gives one, and a pass over empty segments that goes on, has read at
least one character. -/
theorem compileAndReport_noTrap (directory : Option String) (defaults : Defaults) (text : String) :
    compileAndReport directory defaults text =
      .ok ((ImageCheck.compileClause directory defaults text).mapError fun e =>
        (e, e.report text)) ∧
    (text.utf8ByteSize ≤ 65536 → ∀ c : Cursor, c.StandsIn text →
      (∀ p q, nextParameter text c.position = .ok (.ok (some (p, q))) →
        c.position.column < q.column) ∧
      (∀ q, segmentPass text c.position = .ok (.again q) → c.position.column < q.column)) := by
  constructor
  · rw [compileAndReport, compileClause_eq, ok_bind]
    cases hcompile : ImageCheck.compileClause directory defaults text with
    | ok s => rfl
    | error e =>
      simp only [report_eq text (span?_eq_of_compileClause hcompile), ok_bind]
      rfl
  · intro hbytes c hc
    have hshort := length_le_of_bytes_le hbytes
    exact ⟨fun p q => column_lt_of_nextParameter hshort hc,
      fun q => column_lt_of_segmentPass hshort hc⟩

/-- Stray text behind a quoted value, after an empty segment and among characters of several
bytes. -/
theorem compileAndReport_stray :
    compileAndReport none .builtin ",é: \"ß\" 😀 5" =
        .ok (.error (.split (.unexpectedAfterQuote "😀 5" ⟨10, 9⟩),
          "error: [E043] Unexpected text '😀 5' after quoted value at column 9\n" ++
            "  --> column 9\n   |\n   | ,é: \"ß\" 😀 5\n   |         ^^^\n")) ∧
      ∀ p q, nextParameter ",é: \"ß\" 😀 5" .start = .ok (.ok (some (p, q))) → 1 < q.column := by
  obtain ⟨hrun, hprogress⟩ := compileAndReport_noTrap none .builtin ",é: \"ß\" 😀 5"
  refine ⟨?_, (hprogress (by decide) _ (Cursor.standsIn_ofList _)).1⟩
  have hsplit : Clause.split ",é: \"ß\" 😀 5" = .error (.unexpectedAfterQuote "😀 5" ⟨10, 9⟩) := by
    decide +kernel
  rw [hrun, ImageCheck.compileClause, hsplit]
  decide +kernel

end Checked
end ImageCheck
