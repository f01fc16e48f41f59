-- SUMMARY: Where the carets of a description stand: under the source of the error, as long as the number of its line has four digits at most.
import Drama.Proofs.Program.ErrorSpan

/-!
# Carets

The description of an error ends with the line that the error is in, behind the number of the line, and with
carets below it, behind a margin. Both are as wide as the number of the line asks for, unless this number has more
digits than the margin has room for. So the carets stand under what is wrong in each of the first 9999 lines, and
in a line further on they stand one place to the left for each digit too many.
-/

namespace Drama

open Text

/-! ## The last two lines of a description -/

/-- A description ends with a line and, below it, a number of carets. These stand some places to the left of where
they would stand under the characters of the line from a column on. -/
def EndsWithCarets (described line : List Char) (column width displacement : Nat) : Prop :=
  ∃ front head margin,
    sourceLines described = front ++ [head ++ line, margin ++ List.replicate width '^'] ∧ '^' ∉ margin ∧
      margin.length + displacement = head.length + column

/-- How many places the carets have been moved follows from the two lines. -/
theorem endsWithCarets_iff {described line head margin : List Char} {front : List (List Char)}
    {column width displacement : Nat}
    (h : sourceLines described = front ++ [head ++ line, margin ++ List.replicate width '^'])
    (hmargin : '^' ∉ margin) :
    EndsWithCarets described line column width displacement ↔
      margin.length + displacement = head.length + column := by
  constructor
  · rintro ⟨front', head', margin', h', -, hplace⟩
    obtain ⟨-, hlast⟩ := List.append_inj' (h.symm.trans h') rfl
    obtain ⟨hhead, hmargins⟩ := List.cons.inj hlast
    rw [List.append_cancel_right hhead, List.append_cancel_right (List.cons.inj hmargins).1]
    exact hplace
  · exact fun hplace => ⟨front, head, margin, h, hmargin, hplace⟩

/-- A number in front of a line of source. -/
def numberColumn (number : Nat) : List Char := padLeft 4 (toString number).toList ++ " | ".toList

theorem length_numberColumn (number : Nat) :
    (numberColumn number).length = max (toString number).length 4 + 3 := by
  simp only [numberColumn, padLeft, List.length_append, List.length_replicate, String.length_toList]
  show 4 - (toString number).length + (toString number).length + 3 = _
  omega

theorem newline_not_mem_numberColumn (number : Nat) : '\n' ∉ numberColumn number := by
  have hdigits : '\n' ∉ Nat.toDigits 10 number := fun h =>
    absurd (Nat.isDigit_of_mem_toDigits (by decide) (by decide) h) (by decide)
  simp [numberColumn, padLeft, hdigits]

/-- A line of source with its number, and carets behind a margin of the same width and behind a column. -/
def caretLines (number : Nat) (line : List Char) (column width : Nat) : List (List Char) :=
  [numberColumn number ++ line, "     | ".toList ++ List.replicate column ' ' ++ List.replicate width '^']

theorem sourceLines_underlined (before : List Char) (number : Nat) {line : List Char} (hline : '\n' ∉ line)
    (column width : Nat) :
    sourceLines (before ++ '\n' :: (underlined number line column width).toList) =
      sourceLines before ++ caretLines number line column width := by
  have hsource : '\n' ∉ numberColumn number ++ line := by
    simp [newline_not_mem_numberColumn, hline]
  have hcarets : '\n' ∉ "     | ".toList ++ List.replicate column ' ' ++ List.replicate width '^' := by
    simp
  have hunderlined : (underlined number line column width).toList = (numberColumn number ++ line) ++
      '\n' :: ("     | ".toList ++ List.replicate column ' ' ++ List.replicate width '^') := by
    simp [underlined, numberColumn]
  have hkept {text : List Char} (h : '\n' ∉ text) : ∀ c ∈ text, (c == '\n') = false := fun c hc =>
    beq_eq_false_iff_ne.2 (ne_of_mem_of_not_mem hc h)
  rw [hunderlined, sourceLines, splitBy_append_separator rfl, splitBy_append (hkept hsource) rfl,
    splitBy_eq_singleton (hkept hcarets)]
  rfl

/-- Numbers of four digits fill the column that is kept free for them. -/
theorem length_toString_le_four {number : Nat} : (toString number).length ≤ 4 ↔ number < 10000 := by
  rw [← String.length_toList, Nat.toString_eq_repr, Nat.toList_repr]
  exact Nat.length_toDigits_le_iff (by decide) (by decide)

/-- The carets stand to the left by the digits that the number of the line has beyond four. -/
theorem endsWithCarets_caretLines {described line : List Char} {front : List (List Char)}
    {number column width displacement : Nat}
    (h : sourceLines described = front ++ caretLines number line column width) :
    EndsWithCarets described line column width displacement ↔
      displacement = (toString number).length - 4 := by
  have hmargin : '^' ∉ "     | ".toList ++ List.replicate column ' ' := by simp
  rw [endsWithCarets_iff h hmargin, length_numberColumn, List.length_append, List.length_replicate]
  show 7 + column + displacement = _ ↔ _
  omega

/-! ## Descriptions -/

namespace Script

variable {text : List Char} {s : Script} {e : AssemblyError} {span : Span}

theorem inLine_of_error (hscript : ofText text = .ok s) (herror : s.error? = some e)
    (hspan : e.span = some span) : span.InLine text := by
  obtain ⟨rfl, hsettled⟩ := settled_of_ofText hscript
  have hfails := (hsettled.error e).1 herror
  rw [hsettled.parsed] at hfails
  exact (hfails.span_ofStretch hspan).inLine hsettled.lexed

/-- A text that is not assembled makes a script with the error, if no number in it is too long. -/
theorem exists_of_assemble {lexemes : List Lexeme} (hlex : lex text = .ok lexemes)
    (haddresses : (CompilationUnit.ofLexemes lexemes).place.1.checkAddresses = .ok ())
    (hassemble : (CompilationUnit.ofLexemes lexemes).assemble = .error e) (hmessage : e.checkMessage = .ok ()) :
    ∃ s, ofText text = .ok s ∧ s.error? = some e := by
  have hscript := ofText_eq hlex haddresses fun e' he' => by
    cases hassemble.symm.trans he'
    exact hmessage
  refine ⟨_, hscript, ?_⟩
  rw [error?, hassemble]

/-- The description of an error that has a span ends with the line of the span and with carets. -/
theorem exists_described (hscript : ofText text = .ok s) (herror : s.error? = some e)
    (hspan : e.span = some span) :
    ∃ described front line, s.describeError? = some described ∧
      (sourceLines text)[lineOf text span.start - 1]? = some line ∧
      (line.drop (columnOf text span.start)).take (span.stop - span.start) = span.extract text ∧
      sourceLines described.toList = front ++
        caretLines (lineOf text span.start) line (columnOf text span.start) (span.stop - span.start) := by
  have hin := inLine_of_error hscript herror hspan
  obtain ⟨rfl, -⟩ := settled_of_ofText hscript
  obtain ⟨line, hline, hextract⟩ := hin.exists_line
  have hnewline : '\n' ∉ line := fun hmem => by
    have hkept := not_isSeparator_of_mem_splitBy (List.mem_of_getElem? hline) '\n' hmem
    cases hkept
  have htext (first second : String) :
      (first ++ "\n\n" ++ second).toList = (first.toList ++ ['\n']) ++ '\n' :: second.toList := by simp
  have hlines := sourceLines_underlined
    ((e.message ++ ", at line " ++ toString (lineOf s.text span.start)).toList ++ ['\n'])
    (lineOf s.text span.start) hnewline (columnOf s.text span.start) (span.stop - span.start)
  rw [← htext] at hlines
  exact ⟨_, _, line, describeError?_eq herror hspan hin hline, hline, hextract, hlines⟩

end Script

/-- The description of an error ends with the line that the error is in and as many carets below it as there are
characters in the span. The first caret stands under the first one of these exactly if the line is one of the
first 9999, and otherwise to the left of it by the digits that the number of the line has beyond four. -/
theorem carets_under_source {text : List Char} {s : Script} (hscript : Script.ofText text = .ok s)
    {e : AssemblyError} (herror : s.error? = some e) {span : Span} (hspan : e.span = some span) :
    ∃ described line, s.describeError? = some described ∧
      (sourceLines text)[lineOf text span.start - 1]? = some line ∧
      (line.drop (columnOf text span.start)).take (span.stop - span.start) = span.extract text ∧
      (EndsWithCarets described.toList line (columnOf text span.start) (span.stop - span.start) 0 ↔
        lineOf text span.start < 10000) ∧
      ∀ displacement, EndsWithCarets described.toList line (columnOf text span.start)
          (span.stop - span.start) displacement ↔
        displacement = (toString (lineOf text span.start)).length - 4 := by
  obtain ⟨described, front, line, hdescribed, hline, hextract, hlines⟩ :=
    Script.exists_described hscript herror hspan
  refine ⟨described, line, hdescribed, hline, hextract, ?_, fun _ => endsWithCarets_caretLines hlines⟩
  rw [endsWithCarets_caretLines hlines, ← length_toString_le_four, eq_comm, Nat.sub_eq_zero_iff_le]

/-- Source that is not recognised, in the second line behind two blanks. -/
theorem carets_under_source_of_unrecognised :
    ∃ s e described, Script.ofText "STP\n  @ 5".toList = .ok s ∧ s.error? = some e ∧ e.span = some ⟨6, 9⟩ ∧
      s.describeError? = some described ∧ EndsWithCarets described.toList "  @ 5".toList 2 3 0 := by
  obtain ⟨lexemes, e, hlex, haddresses, hassemble, hmessage, hspan⟩ :
      ∃ lexemes e, lex "STP\n  @ 5".toList = .ok lexemes ∧
        (CompilationUnit.ofLexemes lexemes).place.1.checkAddresses = .ok () ∧
        (CompilationUnit.ofLexemes lexemes).assemble = .error e ∧ e.checkMessage = .ok () ∧
        e.span = some ⟨6, 9⟩ := ⟨_, _, rfl, rfl, rfl, rfl, rfl⟩
  obtain ⟨s, hscript, herror⟩ := Script.exists_of_assemble hlex haddresses hassemble hmessage
  obtain ⟨described, line, hdescribed, hline, -, hcarets, -⟩ := carets_under_source hscript herror hspan
  obtain rfl : "  @ 5".toList = line := Option.some.inj hline
  exact ⟨s, e, described, hscript, herror, hspan, hdescribed, hcarets.2 (by decide)⟩

/-! ## Lines whose numbers have five digits -/

/-- Empty lines are so many newlines. -/
theorem Lexing.exists_scans_newlines (rest : List Char) (position count : Nat) :
    ∃ lexemes, Scans rest position (List.replicate count '\n') lexemes ∧
      ∀ l ∈ lexemes, l.kind = .statementTerminator := by
  induction count generalizing position with
  | zero => exact ⟨[], .nil position, List.forall_mem_nil _⟩
  | succ count ih =>
    obtain ⟨lexemes, hscans, hkind⟩ := ih (position + 1)
    exact ⟨_, .lexeme (readFrom_newline _) hscans, List.forall_mem_cons.2 ⟨rfl, hkind⟩⟩

/-- Separators make no elements. -/
theorem CompilationUnit.exists_parses_separators {separators : List Lexeme}
    (h : ∀ l ∈ separators, l.kind = .statementTerminator) (rest : List Lexeme) (position lastStop : Nat) :
    ∃ position' lastStop', Parses ⟨position, lastStop, separators ++ rest⟩ [] ⟨position', lastStop', rest⟩ := by
  induction separators generalizing position lastStop with
  | nil => exact ⟨position, lastStop, .nil _⟩
  | cons l separators ih =>
    obtain ⟨hkind, h⟩ := List.forall_mem_cons.1 h
    obtain ⟨position', lastStop', hparses⟩ := ih h (position + 1) l.stop
    exact ⟨position', lastStop', .separator rfl hkind hparses⟩

/-- A letter that is no instruction, alone behind empty lines, is what is wrong with a text. -/
theorem Script.exists_late_error (count : Nat) :
    ∃ s e, ofText (List.replicate count '\n' ++ ['x']) = .ok s ∧ s.error? = some e ∧
      e.span = some ⟨count, count + 1⟩ := by
  obtain ⟨separators, hscans, hkind⟩ := Lexing.exists_scans_newlines ['x'] 0 count
  have hletter : Token.ReadFrom .identifier ['x'] [] := ⟨⟨'x', [], rfl, by decide⟩, rfl⟩
  have hlex : lex (List.replicate count '\n' ++ ['x']) =
      .ok (separators ++ [⟨.identifier, ['x'], count, count + 1⟩]) := by
    have hall := lex_eq_ok_iff_scans.2 (hscans.append (.lexeme hletter (.nil _)))
    rwa [List.length_replicate, Nat.zero_add] at hall
  obtain ⟨position, lastStop, hseparators⟩ :=
    CompilationUnit.exists_parses_separators hkind [⟨.identifier, ['x'], count, count + 1⟩] 0 0
  have hparses := hseparators.append (.element rfl nofun (.nil _))
  have hunit : CompilationUnit.ofLexemes (separators ++ [⟨.identifier, ['x'], count, count + 1⟩]) = ⟨_⟩ :=
    congrArg CompilationUnit.mk (hparses.elementsFrom_eq rfl (Nat.le_refl _))
  obtain ⟨s, hscript, herror⟩ := exists_of_assemble hlex (by rw [hunit]; rfl) (by rw [hunit]; rfl) rfl
  exact ⟨s, _, hscript, herror, rfl⟩

theorem lineOf_behind_newlines (count : Nat) (rest : List Char) :
    lineOf (List.replicate count '\n' ++ rest) count = count + 1 := by
  have htake : (List.replicate count '\n' ++ rest).take count = List.replicate count '\n' :=
    List.take_left' List.length_replicate
  rw [lineOf, clampPosition, if_neg (Int.not_lt.2 (Int.natCast_nonneg _)), Int.toNat_natCast, htake,
    List.count_replicate_self]

theorem columnOf_behind_newlines (count : Nat) (rest : List Char) :
    columnOf (List.replicate count '\n' ++ rest) count = 0 := by
  have htake : (List.replicate count '\n' ++ rest).take count = List.replicate count '\n' :=
    List.take_left' List.length_replicate
  rw [columnOf, htake, List.reverse_replicate]
  simp

/-- How that error is described. -/
theorem Script.exists_late_description (count : Nat) :
    ∃ s e described front, ofText (List.replicate count '\n' ++ ['x']) = .ok s ∧ s.error? = some e ∧
      e.span = some ⟨count, count + 1⟩ ∧
      (sourceLines (List.replicate count '\n' ++ ['x']))[count]? = some ['x'] ∧
      s.describeError? = some described ∧
      sourceLines described.toList = front ++ caretLines (count + 1) ['x'] 0 1 := by
  obtain ⟨s, e, hscript, herror, hspan⟩ := exists_late_error count
  obtain ⟨described, front, line, hdescribed, hline, -, hlines⟩ := exists_described hscript herror hspan
  obtain ⟨line', hline', hdrop⟩ := exists_line_eq (List.replicate count '\n' ++ ['x']) count
  have hletter : (List.replicate count '\n' ++ ['x']).drop count = ['x'] :=
    List.drop_left' List.length_replicate
  simp only [lineOf_behind_newlines, columnOf_behind_newlines, Nat.add_sub_cancel, Nat.add_sub_cancel_left]
    at hline hline' hlines hdrop
  rw [hletter, List.drop_zero] at hdrop
  obtain rfl : line = ['x'] := (Option.some.inj (hline.symm.trans hline')).trans hdrop
  exact ⟨s, e, described, front, hscript, herror, hspan, hline, hdescribed, hlines⟩

/-- An error in line 10000, at the start of the line. The caret does not stand under it but one place to the left,
in the last line of the description. -/
theorem caret_left_of_source_in_late_line :
    ∃ s e described front, Script.ofText (List.replicate 9999 '\n' ++ ['x']) = .ok s ∧ s.error? = some e ∧
      e.span = some ⟨9999, 10000⟩ ∧ (sourceLines (List.replicate 9999 '\n' ++ ['x']))[9999]? = some ['x'] ∧
      s.describeError? = some described ∧
      sourceLines described.toList = front ++ ["10000 | x".toList, "     | ^".toList] ∧
      ¬EndsWithCarets described.toList ['x'] 0 1 0 := by
  obtain ⟨s, e, described, front, hscript, herror, hspan, hline, hdescribed, hlines⟩ :=
    Script.exists_late_description 9999
  have hcarets : EndsWithCarets described.toList ['x'] 0 1 0 ↔ 0 = (toString 10000).length - 4 :=
    endsWithCarets_caretLines hlines
  have hshown : caretLines 10000 ['x'] 0 1 = ["10000 | x".toList, "     | ^".toList] := by decide +kernel
  exact ⟨s, e, described, front, hscript, herror, hspan, hline, hdescribed, hshown ▸ hlines,
    hcarets.not.2 (by decide +kernel)⟩

end Drama
