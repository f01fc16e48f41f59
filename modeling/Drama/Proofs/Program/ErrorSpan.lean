-- SUMMARY: Where an assembly error points to: into one line of the text, which its description shows with carets under it.
import Drama.Proofs.Program.Outcome
import Drama.Proofs.Source.Naming
import Drama.Proofs.Source.Stretch

/-!
# Spans of errors

An error is about unrecognised source, a label, a statement or an address expression, unless it is that the
program is too large. Each of these was read from a stretch of lexemes with no barrier among them, so the span of
the error lies within one line. The description of the error shows that line, and its carets stand under just
those characters that lie in the span.
-/

namespace Drama

open Text

/-! ## Spans of what is wrong -/

namespace CompilationUnit

variable {text : List Char} {lexemes : List Lexeme} {e : AssemblyError} {span : Span}

/-- A symbol in a statement is referred to by an expression, which was read from a stretch of lexemes. -/
theorem span_of_reference {c : CommandStatement} {r : Reference}
    (hstatement : .statement ⟨.command c, span⟩ ∈ (ofLexemes lexemes).elements) (hr : r ∈ c.references) :
    r.2.OfStretch lexemes := by
  obtain ⟨a, ha, hr⟩ := List.mem_flatMap.1 hr
  cases a with
  | register | condition => cases hr
  | address expression =>
    obtain ⟨t, -, ht⟩ := List.mem_filterMap.1 hr
    have hspan : r.2 = expression.span := by
      cases t with
      | literal => cases ht
      | symbol name positive =>
        cases ht
        rfl
    have hnaming : (expression.span, expression.names) ∈ (Element.statement ⟨.command c, span⟩).naming :=
      List.mem_filterMap.2 ⟨_, ha, rfl⟩
    obtain ⟨first, more, hrun, hclear, hcovers, -⟩ :=
      (parses_ofLexemes lexemes).readFrom (List.suffix_refl lexemes) _ hstatement _ hnaming
    exact ⟨first, more, hrun, hclear, hspan.trans hcovers⟩

/-- Each element of a unit is made of a stretch of its lexemes. -/
theorem exists_madeOf :
    ∀ e ∈ (ofLexemes lexemes).elements, ∃ first more, first :: more <:+: lexemes ∧ e.MadeOf first more := by
  obtain ⟨run, hmoves, hdivided, -⟩ := (parses_ofLexemes lexemes).divided
  obtain rfl : lexemes = run := hmoves.ahead.trans (List.append_nil run)
  exact hdivided.exists_madeOf

theorem span_of_statement {s : Statement} (h : .statement s ∈ (ofLexemes lexemes).elements) :
    s.span.OfStretch lexemes := by
  obtain ⟨first, more, hrun, hmade⟩ := exists_madeOf _ h
  cases hmade with
  | statement hclear hspan => exact ⟨first, more, hrun, hclear, hspan⟩

/-- The span of an error is that of a stretch of lexemes with no barrier among them. -/
theorem FailsWith.span_ofStretch (h : (ofLexemes lexemes).FailsWith e) (hspan : e.span = some span) :
    span.OfStretch lexemes := by
  cases h with
  | @unrecognised source _ hsources =>
    cases hspan
    have hsource : source ∈ (ofLexemes lexemes).unrecognised := hsources ▸ List.mem_cons_self
    obtain ⟨element, helement, hunrecognised⟩ := List.mem_filterMap.1 hsource
    obtain ⟨first, more, hrun, hmade⟩ := exists_madeOf element helement
    cases hmade with
    | unrecognised hclear =>
      cases hunrecognised
      exact ⟨first, more, hrun, hclear, rfl⟩
    | statement | label | comment | terminator => cases hunrecognised
  | @duplicate before after name span _ hbody =>
    cases hspan
    have hmem : .label name span ∈ (ofLexemes lexemes).body := hbody ▸ (by simp)
    obtain ⟨first, more, hrun, hmade⟩ := exists_madeOf _ ((List.takeWhile_prefix _).subset hmem)
    cases hmade with
    | label hclear hspan => exact ⟨first, more, hrun, hclear, hspan⟩
  | overflow => cases hspan
  | @statement before after s e _ _ _ hstatements _ hfails =>
    have hmem : s ∈ Element.statementsIn (ofLexemes lexemes).body := hstatements ▸ (by simp)
    have hstatement := mem_elements_of_mem_statementsIn hmem
    cases hfails with
    | @undefined c _ r hfirst =>
      cases hspan
      exact span_of_reference hstatement (List.mem_of_find?_eq_some hfirst)
    | format =>
      cases hspan
      exact span_of_statement hstatement

/-- Only a program that is too large is no error of any one place. -/
theorem FailsWith.overflow_of_span {u : CompilationUnit} (h : u.FailsWith e) (hspan : e.span = none) :
    ∃ n, e.cause = .overflow n := by
  cases h with
  | unrecognised | duplicate => cases hspan
  | overflow => exact ⟨_, rfl⟩
  | statement _ _ _ _ _ hfails => cases hfails <;> cases hspan

end CompilationUnit

/-! ## Lines with carets -/

/-- A line with its number, and carets under a stretch of it. -/
def underlined (number : Nat) (line : List Char) (column width : Nat) : String :=
  String.ofList (padLeft 4 (toString number).toList ++ " | ".toList ++ line ++ ['\n'] ++
    "     | ".toList ++ (List.replicate column ' ' ++ List.replicate width '^'))

/-- What stands in the span stands behind the column of its start, in the line that its start is in. -/
theorem Span.InLine.exists_line {text : List Char} {span : Span} (h : span.InLine text) :
    ∃ line, (sourceLines text)[lineOf text span.start - 1]? = some line ∧
      (line.drop (columnOf text span.start)).take (span.stop - span.start) = span.extract text := by
  obtain ⟨line, hline, hdrop⟩ := exists_line_eq text span.start
  refine ⟨line, hline, ?_⟩
  have hlength : (span.extract text).length = span.stop - span.start := by
    have hle := h.le_length
    rw [extract, List.length_take, List.length_drop]
    omega
  have hkept : ∀ c ∈ span.extract text, (c != '\n') = true := fun c hc =>
    bne_iff_ne.2 (ne_of_mem_of_not_mem hc h.newline)
  -- the characters of the span are the first ones that stand behind its start
  have hsplit : text.drop span.start =
      span.extract text ++ (text.drop span.start).drop (span.stop - span.start) :=
    (List.take_append_drop ..).symm
  rw [hdrop, hsplit, List.takeWhile_append_of_pos hkept]
  exact List.take_left' hlength

theorem Span.InLine.showSpan_eq {text line : List Char} {span : Span} (h : span.InLine text)
    (hline : (sourceLines text)[lineOf text span.start - 1]? = some line) :
    Script.showSpan text span =
      underlined (lineOf text span.start) line (columnOf text span.start) (span.stop - span.start) := by
  have hget : (sourceLines text).getD (lineOf text span.start - 1) [] = line := by
    rw [List.getD_eq_getElem?_getD, hline]
    rfl
  have hwidth : max (span.stop - span.start) 1 = span.stop - span.start :=
    max_eq_left (Nat.sub_pos_of_lt h.nonempty)
  rw [Script.showSpan, hget, hwidth]
  rfl

namespace Script

/-- A script belongs to the text that it was made of. -/
theorem settled_of_ofText {text : List Char} {s : Script} (h : ofText text = .ok s) :
    s.text = text ∧ s.Settled := by
  obtain ⟨lexemes, hlex⟩ | ⟨error, hlex, -⟩ := lex_ok_or_tooLong text
  · obtain hscript | hscript := ofText_cases hlex
    · cases hscript.symm.trans h
      exact ⟨rfl, .of_assemble hlex rfl rfl⟩
    · cases hscript.symm.trans h
  · rw [ofText, hlex] at h
    cases h

theorem describeError?_eq {s : Script} {e : AssemblyError} {span : Span} {line : List Char}
    (herror : s.error? = some e) (hspan : e.span = some span) (h : span.InLine s.text)
    (hline : (sourceLines s.text)[lineOf s.text span.start - 1]? = some line) :
    s.describeError? = some (e.message ++ ", at line " ++ toString (lineOf s.text span.start) ++ "\n\n" ++
      underlined (lineOf s.text span.start) line (columnOf s.text span.start) (span.stop - span.start)) := by
  rw [describeError?, herror, Option.map_some, describe, hspan, ← h.showSpan_eq hline]
  rfl

end Script

/-- The error of a text points into it: its span is not empty and lies in one line, and its description shows
this line with a caret under each character of the span. The only error without a span is that of a program
that is too large. -/
theorem error_points_into_text {text : List Char} {s : Script} (hscript : Script.ofText text = .ok s)
    {e : AssemblyError} (herror : s.error? = some e) :
    (∀ span, e.span = some span →
      span.start < span.stop ∧ span.stop ≤ text.length ∧ '\n' ∉ span.extract text ∧
      lineOf text span.start = (text.take span.start).count '\n' + 1 ∧
      ∃ line, (sourceLines text)[lineOf text span.start - 1]? = some line ∧
        (line.drop (columnOf text span.start)).take (span.stop - span.start) = span.extract text ∧
        s.describeError? = some (e.message ++ ", at line " ++ toString (lineOf text span.start) ++ "\n\n" ++
          underlined (lineOf text span.start) line (columnOf text span.start)
            (span.stop - span.start))) ∧
    (e.span = none → ∃ n, e.cause = .overflow n) := by
  obtain ⟨rfl, hsettled⟩ := Script.settled_of_ofText hscript
  have hfails := (hsettled.error e).1 herror
  refine ⟨fun span hspan => ?_, hfails.overflow_of_span⟩
  rw [hsettled.parsed] at hfails
  have hin := (hfails.span_ofStretch hspan).inLine hsettled.lexed
  obtain ⟨line, hline, hextract⟩ := hin.exists_line
  have hnumber : lineOf s.text span.start = (s.text.take span.start).count '\n' + 1 := by
    rw [lineOf, clampPosition, if_neg (Int.not_lt.2 (Int.natCast_nonneg _))]
    rfl
  exact ⟨hin.nonempty, hin.le_length, hin.newline, hnumber, line, hline, hextract,
    Script.describeError?_eq herror hspan hin hline⟩

/-- A symbol that is not defined, in the second line of three. -/
theorem error_points_into_text_of_undefined_symbol :
    ∃ s e, Script.ofText "HIA R1, 5\nSPR.w here\nHIA lost".toList = .ok s ∧ s.error? = some e ∧
      e.span = some ⟨16, 20⟩ ∧ s.describeError? = some
        "Undefined symbol 'here' (statement 1), at line 2\n\n   2 | SPR.w here\n     |       ^^^^" := by
  obtain ⟨lexemes, hlex, hwords, hassemble⟩ :
      ∃ lexemes, lex "HIA R1, 5\nSPR.w here\nHIA lost".toList = .ok lexemes ∧
        Element.wordsIn (CompilationUnit.ofLexemes lexemes).body = 3 ∧
        (CompilationUnit.ofLexemes lexemes).assemble =
          .error ⟨.undefinedSymbol "here".toList, some ⟨16, 20⟩, some 1⟩ := ⟨_, rfl, rfl, rfl⟩
  have hsize : 3 < Numeral.writeBound :=
    (show 3 < tenPow 1 by decide).trans_le (tenPow_le (by decide))
  have hscript := Script.ofText_eq hlex (CompilationUnit.checkAddresses_place (hwords ▸ hsize))
    fun e he => by
      cases hassemble.symm.trans he
      rfl
  have herror := congrArg (fun outcome => Script.error?
    ⟨"HIA R1, 5\nSPR.w here\nHIA lost".toList, lexemes, .ofLexemes lexemes, outcome⟩) hassemble
  obtain ⟨-, -, -, -, line, hline, -, hdescribed⟩ :=
    (error_points_into_text hscript herror).1 ⟨16, 20⟩ rfl
  obtain rfl : "SPR.w here".toList = line := Option.some.inj hline
  refine ⟨_, _, hscript, herror, rfl, hdescribed.trans ?_⟩
  decide +kernel

end Drama
