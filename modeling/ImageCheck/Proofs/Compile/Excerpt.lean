/-
# Excerpts with carets

`SPEC_FULL` §4.6; what `format_error` shows for a `SplitError`.

A clause that cannot be split is shown with carets below what is wrong:

```text
error: [code] message
  --> column p+1
   |
   | clause
   | (p spaces)(w carets)
```

`Clause.Faults` says what is wrong and what stands before it. The carets are counted in
columns, so they stand below exactly those characters, whatever their bytes are: `p` is
the number of characters before the fault, and `w` the number of its own
(`Clause.Faults.exists_span`). The spans of the first two failures are empty, and the one
caret that an empty span gets is the one for the character there.

Only `split` fails to split (`split_of_compileClause`): no other step of the compiler
reports such a failure, so the text shown is the one that was split.
-/

import ImageCheck.Proofs.Clause.Places
import ImageCheck.Proofs.Compile.Failure

namespace ImageCheck

/-- A clause fails to split only in `split`. -/
theorem split_of_compileClause {directory : Option String} {defaults : Defaults} {text : String}
    {e : SplitError} (h : compileClause directory defaults text = .error (.split e)) :
    Clause.split text = .error e := by
  unfold compileClause at h
  cases hsplit : Clause.split text with
  | error e' =>
    rw [hsplit] at h
    cases h
    rfl
  | ok ps =>
    rw [hsplit] at h
    cases (compileParameters_eq_error_iff_fails directory defaults).1 h with
    | fault _ hfault _ =>
      obtain ⟨_, _, _, -, -, hp⟩ := hfault
      rcases kind_of_fault? hp with heq | hvalue | heq
      · cases heq
      · cases hvalue
      · cases heq

namespace Clause

section Faults

variable {e : SplitError} {before fault after : List Char}

/-- The span of a failure begins behind what stands before the fault. -/
theorem Faults.exists_span (h : Faults e before fault after) :
    ∃ span, e.span? = some span ∧ span.start.column = before.length + 1 ∧
      span.width = fault.length := by
  have hstart : (Position.start.advanceBy before).column = before.length + 1 := by
    rw [Position.advanceBy_eq, Position.start]
    exact Nat.add_comm _ _
  cases h with
  | emptyKey => exact ⟨_, rfl, hstart, by simp [Span.width, Span.point]⟩
  | unterminatedQuote _ _ => exact ⟨_, rfl, hstart, by simp [Span.width, Span.point]⟩
  | unexpectedAfterQuote hne _ _ _ =>
    have hpos := List.length_pos_iff.2 hne
    refine ⟨_, rfl, hstart, ?_⟩
    rw [String.toList_ofList, Span.width, Span.covering, Position.advanceBy_eq _ fault]
    simp only
    omega

end Faults

end Clause

/-- A failure to split that has a span is shown with the clause. -/
theorem CompileError.report_split {e : SplitError} {span : Span} (h : e.span? = some span)
    (clause : String) :
    (CompileError.split e).report clause =
      span.excerpt clause ("[" ++ e.code.text ++ "] " ++ e.message) := by
  unfold CompileError.report
  simp only
  rw [h]
  rfl

/-- The line of carets below a text: `p` spaces, then `w` carets. -/
def caretLine (p w : Nat) : String :=
  "   | " ++ String.ofList (List.replicate p ' ') ++ String.ofList (List.replicate w '^')

/-- An excerpt counts in columns. -/
theorem Span.excerpt_eq {s : Span} {p w : Nat} (hstart : s.start.column = p + 1)
    (hwidth : s.width = w) (source message : String) :
    s.excerpt source message =
      "error: " ++ message ++ "\n" ++
        "  --> column " ++ toString (p + 1) ++ "\n" ++
        "   |\n" ++
        "   | " ++ source ++ "\n" ++
        caretLine p w ++ "\n" := by
  have hunderline : s.underline = caretLine p w := by
    rw [underline, hstart, hwidth, Nat.add_sub_cancel, caretLine]
  unfold excerpt
  rw [hunderline, hstart]

/-- **The carets stand below exactly what is wrong.** A clause that cannot be split, for another
reason than its length, is taken apart into what stands before the fault, the fault and the rest.
The text for the terminal ends with the clause and a line that has a space for each character
before the fault and a caret for each character of it, and it names the column of the first. -/
theorem report_split_underlines {directory : Option String} {defaults : Defaults} {text : String}
    {e : SplitError} (h : compileClause directory defaults text = .error (.split e))
    (hlong : ∀ length, e ≠ .clauseTooLong length) :
    ∃ before fault after, text.toList = before ++ (fault ++ after) ∧
      Clause.Faults e before fault after ∧
      (CompileError.split e).report text =
        "error: " ++ ("[" ++ e.code.text ++ "] " ++ e.message) ++ "\n" ++
          "  --> column " ++ toString (before.length + 1) ++ "\n" ++
          "   |\n" ++
          "   | " ++ text ++ "\n" ++
          caretLine before.length fault.length ++ "\n" := by
  rcases Clause.exists_faults_of_split (split_of_compileClause h) with
    ⟨rfl, -⟩ | ⟨-, before, fault, after, htext, hfaults⟩
  · exact absurd rfl (hlong _)
  · obtain ⟨span, hspan, hstart, hwidth⟩ := hfaults.exists_span
    exact ⟨before, fault, after, htext, hfaults,
      (CompileError.report_split hspan text).trans (Span.excerpt_eq hstart hwidth text _)⟩

/-- A quote that is not closed, since the quote at the end is escaped, behind characters of several
bytes. -/
theorem report_split_underlines_quote :
    compileClause none .builtin "größe, file: \"ß\\\"" =
        .error (.split (.unterminatedQuote ⟨15, 14⟩)) ∧
      ∃ before fault after, "größe, file: \"ß\\\"".toList = before ++ (fault ++ after) ∧
        Clause.Faults (.unterminatedQuote ⟨15, 14⟩) before fault after ∧
        (CompileError.split (.unterminatedQuote ⟨15, 14⟩)).report "größe, file: \"ß\\\"" =
          "error: " ++ ("[" ++ (SplitError.unterminatedQuote ⟨15, 14⟩).code.text ++ "] " ++
              (SplitError.unterminatedQuote ⟨15, 14⟩).message) ++ "\n" ++
            "  --> column " ++ toString (before.length + 1) ++ "\n" ++
            "   |\n" ++
            "   | " ++ "größe, file: \"ß\\\"" ++ "\n" ++
            caretLine before.length fault.length ++ "\n" := by
  have hsplit : Clause.split "größe, file: \"ß\\\"" = .error (.unterminatedQuote ⟨15, 14⟩) := by
    decide +kernel
  have hcompile : compileClause none .builtin "größe, file: \"ß\\\"" =
      .error (.split (.unterminatedQuote ⟨15, 14⟩)) := by
    rw [compileClause, hsplit]
  exact ⟨hcompile, report_split_underlines hcompile (by simp)⟩

end ImageCheck
