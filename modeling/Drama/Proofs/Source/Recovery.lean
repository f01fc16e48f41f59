-- SUMMARY: Malformed source does not change how other lines are parsed.
import Drama.Proofs.Source.Scan
import Drama.Proofs.Source.Surroundings

/-!
# Recovery

A line corresponds to itself between other lines, so its parsing does the same there, and the elements of
two texts with a newline between them are those of the first and those of the second, moved on. This holds
for malformed source as well, which ends with its line.
-/

namespace Drama

/-- An element in a text that starts `n` characters further on. The error that unrecognised source has there
need only be of the same class. -/
inductive Element.SameAt (n : Nat) : Element → Element → Prop
  | shift (e : Element) : SameAt n e (e.shift n)
  | unrecognised {first : Lexeme} {others : List Lexeme} {error error' : ParseError}
      (h : error'.cause.errorClass = error.cause.errorClass) :
      SameAt n (.unrecognised ⟨first, others, error⟩)
        (.unrecognised ⟨first.shift n, others.map (.shift n), error'⟩)

theorem Surroundings.sameAt_of_elements {s : Surroundings} {e e' : Element}
    (h : s.correspondence.Elements e e') : e.SameAt s.offset e' := by
  cases h with
  | statement h => exact eq_of_statements h ▸ .shift (.statement _)
  | label hname hspan =>
    rw [eq_of_spans hspan, show _ = _ from hname]
    exact .shift (.label _ _)
  | comment htext hspan =>
    rw [eq_of_spans hspan, show _ = _ from htext]
    exact .shift (.comment _ _)
  | terminator hspan =>
    rw [eq_of_spans hspan]
    exact .shift (.terminator _)
  | unrecognised hfirst hothers herror =>
    rw [eq_of_lexemes _ _ hfirst, eq_of_forall₂ eq_of_lexemes hothers]
    exact .unrecognised herror

/-! ## Units -/

namespace CompilationUnit

/-- The elements of lexemes between other lines. -/
theorem Parses.place {s : Surroundings} {c c' : Cursor} {elements : List Element}
    (h : Parses c elements c') :
    ∃ elements', Parses (s.place c) elements' (s.place c') ∧
      elements.Forall₂ s.correspondence.Elements elements' := by
  obtain ⟨elements', d', hparses, helements, hd⟩ := h.corresponds (s.cursors_place c)
  rw [Surroundings.eq_of_cursors hd] at hparses
  exact ⟨elements', hparses, helements⟩

/-- Two texts with a newline between them, the first of which does not end the program, have the elements
that correspond to those of each. -/
theorem elements_append_newline {text rest : List Char} {lexemes others : List Lexeme}
    (htext : lex text = .ok lexemes) (hrest : lex rest = .ok others)
    (hterminator : ∀ l ∈ lexemes, l.kind ≠ .programTerminator) :
    ∃ all, lex (text ++ '\n' :: rest) = .ok all ∧
      ∃ (first second : Surroundings) (before behind : List Element),
        first.offset = 0 ∧ second.offset = text.length + 1 ∧
        (ofLexemes all).elements = before ++ behind ∧
        (ofLexemes lexemes).elements.Forall₂ first.correspondence.Elements before ∧
        (ofLexemes others).elements.Forall₂ second.correspondence.Elements behind := by
  have hlex := lex_append_newline htext hterminator hrest
  generalize hnewline : Lexeme.mk .statementTerminator ['\n'] text.length (text.length + 1) = newline
    at hlex
  have hkind : newline.kind = .statementTerminator := by rw [← hnewline]; rfl
  let first : Surroundings :=
    ⟨0, 0, newline :: others.map (.shift (text.length + 1)), by simpa using hkind⟩
  let second : Surroundings := ⟨lexemes.length + 1, text.length + 1, [], by simp⟩
  obtain ⟨before, hbefore, hsame⟩ := (parses_ofLexemes lexemes).place (s := first)
  obtain ⟨behind, hbehind, hsame'⟩ := (parses_ofLexemes others).place (s := second)
  -- Behind the newline the second text is ahead, with the first one and the newline before it.
  have hmiddle : (first.place (Cursor.ofLexemes lexemes).toEnd).advance =
      second.place (.ofLexemes others) := by
    simp [first, second, Surroundings.place, Cursor.toEnd, Cursor.ofLexemes, Cursor.advance, ← hnewline]
  have hstart : first.place (.ofLexemes lexemes) =
      .ofLexemes (lexemes ++ newline :: others.map (.shift (text.length + 1))) := by
    have hshift : lexemes.map (Lexeme.shift 0) = lexemes := List.map_id' lexemes
    simp only [first, Surroundings.place, Cursor.ofLexemes, hshift]
  rw [← hmiddle] at hbehind
  have hparses := hbefore.append (.separator rfl hkind hbehind)
  rw [hstart] at hparses
  exact ⟨_, hlex, first, second, before, behind, rfl, rfl,
    hparses.elementsFrom_eq rfl (Nat.le_refl _), hsame, hsame'⟩

end CompilationUnit

/-- The elements of two texts with a newline between them are those of the first one, if it does not end
the program, and those of the second one further on. -/
theorem parse_append_newline {text rest : List Char} {lexemes others : List Lexeme}
    (htext : lex text = .ok lexemes) (hrest : lex rest = .ok others)
    (hterminator : ∀ l ∈ lexemes, l.kind ≠ .programTerminator) :
    ∃ all, lex (text ++ '\n' :: rest) = .ok all ∧
      ∃ before behind, (CompilationUnit.ofLexemes all).elements = before ++ behind ∧
        (CompilationUnit.ofLexemes lexemes).elements.Forall₂ (Element.SameAt 0) before ∧
        (CompilationUnit.ofLexemes others).elements.Forall₂ (Element.SameAt (text.length + 1))
          behind := by
  obtain ⟨all, hlex, first, second, before, behind, hfirst, hsecond, helements, hbefore, hbehind⟩ :=
    CompilationUnit.elements_append_newline htext hrest hterminator
  rw [← hfirst, ← hsecond]
  exact ⟨all, hlex, before, behind, helements,
    hbefore.imp fun _ _ he => Surroundings.sameAt_of_elements he,
    hbehind.imp fun _ _ he => Surroundings.sameAt_of_elements he⟩

/-- An index that is not closed at the end of the first text, and malformed source in the second one. -/
theorem parse_append_newline_of_open_index :
    ∃ lexemes others,
      lex "x: HIA R1, 5(R2".toList = .ok lexemes ∧ lex ")\nSPR x".toList = .ok others ∧
      (CompilationUnit.ofLexemes lexemes).unrecognised.map (·.lexemes.length) = [6] ∧
      (CompilationUnit.ofLexemes others).unrecognised.map (·.lexemes.length) = [1] ∧
      ∃ all, lex ("x: HIA R1, 5(R2".toList ++ '\n' :: ")\nSPR x".toList) = .ok all ∧
        ∃ before behind, (CompilationUnit.ofLexemes all).elements = before ++ behind ∧
          (CompilationUnit.ofLexemes lexemes).elements.Forall₂ (Element.SameAt 0) before ∧
          (CompilationUnit.ofLexemes others).elements.Forall₂ (Element.SameAt 16) behind :=
  ⟨_, _, rfl, rfl, by decide +kernel, by decide +kernel,
    parse_append_newline (show lex "x: HIA R1, 5(R2".toList = .ok _ from rfl) rfl (by decide +kernel)⟩

end Drama
