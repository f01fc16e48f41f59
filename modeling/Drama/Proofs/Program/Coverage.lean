-- SUMMARY: No part of a source text is lost: elements share out its lexemes, and programs hold those before their end.
import Drama.Proofs.Program.Layout
import Drama.Proofs.Source.Division

/-!
# Coverage

The lexemes of a text before the first program terminator are divided into the elements that a program is
made of. If the unit can be assembled, none of these is unrecognised source, each statement is placed, and
each label has an address. So each lexeme that is no comment and no separator has become part of the
program.
-/

namespace Drama

/-- The elements before the first terminator are made of the lexemes before it. -/
theorem Divided.body {lexemes : List Lexeme} {elements : List Element}
    (h : Divided lexemes elements) :
    Divided (lexemes.takeWhile (·.kind ≠ .programTerminator)) (Element.body elements) := by
  induction h with
  | nil => exact .nil
  | @separator l lexemes elements hkind _ ih =>
    rw [List.takeWhile_cons_of_pos (by simp [hkind])]
    exact .separator hkind ih
  | @element e first more lexemes elements hmade _ ih =>
    by_cases hfirst : first.kind = .programTerminator
    · obtain rfl := hmade.eq_terminator List.mem_cons_self hfirst
      rw [List.cons_append, List.takeWhile_cons_of_neg (by simp [hfirst])]
      exact .nil
    · have hrun : ∀ l ∈ first :: more, l.kind ≠ .programTerminator := by
        cases hmade with
        | comment | terminator => exact List.forall_mem_singleton.2 hfirst
        | statement hclear | label hclear | unrecognised hclear =>
          exact fun l hl hkind => hclear l hl (hkind ▸ by decide)
      have he : e.isTerminator = false := by
        cases hmade with
        | terminator h => exact absurd h hfirst
        | comment | statement | label | unrecognised => rfl
      rw [List.takeWhile_append_of_pos (fun l hl => by simpa using hrun l hl), Element.body,
        List.takeWhile_cons_of_pos (by simp [he])]
      exact .element hmade ih

/-- A lexeme belongs to a statement of a program, or to a label among the elements that it defines. -/
def Program.Holds (p : Program) (elements : List Element) (l : Lexeme) : Prop :=
  (∃ placed ∈ p.statements, l.span.Within placed.statement.span) ∨
    ∃ name span, .label name span ∈ elements ∧ l.span.Within span ∧
      (p.symbols.lookup name).isSome

namespace CompilationUnit

variable {u : CompilationUnit} {p : Program}

theorem unrecognised_eq_nil (h : u.assemble = .ok p) : u.unrecognised = [] := by
  obtain ⟨l, hlayout, -⟩ := of_bind_eq_ok h
  unfold layout place at hlayout
  cases hunrecognised : u.unrecognised with
  | nil => rfl
  | cons source others => simp [hunrecognised] at hlayout

/-- What is written before the first terminator is part of the program, comments apart. -/
theorem holds_of_assemble {lexemes : List Lexeme} (h : u.assemble = .ok p)
    (hdivided : Divided lexemes u.elements) (horder : Lexeme.InOrder lexemes) {l : Lexeme}
    (hl : l ∈ lexemes.takeWhile (·.kind ≠ .programTerminator))
    (hseparator : l.kind ≠ .statementTerminator) (hcomment : l.kind ≠ .comment) :
    p.Holds (Element.body u.elements) l := by
  have hlaid := laidOut_of_assemble h
  have horder' := horder.sublist (List.takeWhile_prefix (·.kind ≠ .programTerminator)).sublist
  obtain ⟨e, he, first, more, hinfix, hmade, hmem⟩ := hdivided.body.exists_mem l hl hseparator
  have hwithin := hmade.within (horder'.sublist hinfix.sublist) hmem
  cases hmade with
  | comment hfirst =>
    rw [List.mem_singleton.1 hmem] at hcomment
    exact absurd hfirst hcomment
  | terminator hfirst =>
    rw [List.mem_singleton.1 hmem] at hl
    have hnot := List.mem_takeWhile_imp hl
    simp [hfirst] at hnot
  | @statement s =>
    have hs : s ∈ p.statements.toList.map (·.statement) := by
      rw [hlaid.statements]
      exact List.mem_filterMap.2 ⟨_, he, rfl⟩
    obtain ⟨placed, hplaced, rfl⟩ := List.mem_map.1 hs
    exact .inl ⟨placed, Array.mem_toList_iff.1 hplaced, hwithin⟩
  | @label name span =>
    obtain ⟨before, after, hbody⟩ := List.append_of_mem he
    have hlookup := (hlaid.symbols name _).2 ⟨before, span, after, hbody, rfl⟩
    exact .inr ⟨name, span, he, hwithin, Option.isSome_iff_exists.2 ⟨_, hlookup⟩⟩
  | @unrecognised _ _ error =>
    have hsource : ⟨first, more, error⟩ ∈ u.unrecognised :=
      List.mem_filterMap.2 ⟨_, (List.takeWhile_prefix _).subset he, rfl⟩
    rw [unrecognised_eq_nil h] at hsource
    cases hsource

end CompilationUnit

/-- Parsing reads all lexemes of a text and shares them out to elements. If these can be assembled, all
that is written before the first terminator is part of the program, comments apart. -/
theorem parse_covers {text : List Char} {lexemes : List Lexeme} (hlex : lex text = .ok lexemes) :
    let u := CompilationUnit.ofLexemes lexemes
    (∃ c, CompilationUnit.parser.run (.ofLexemes lexemes) = .ok u c ∧ c.ahead = [] ∧
      CompilationUnit.Parses (.ofLexemes lexemes) u.elements c) ∧
    Element.Partition lexemes u.elements ∧
    ∀ p, u.assemble = .ok p → ∀ l ∈ lexemes.takeWhile (·.kind ≠ .programTerminator),
      l.kind ≠ .statementTerminator → l.kind ≠ .comment → p.Holds (Element.body u.elements) l := by
  have hparses := CompilationUnit.parses_ofLexemes lexemes
  obtain ⟨run, hmoves, hdivided, -⟩ := hparses.divided
  obtain rfl : lexemes = run := hmoves.ahead.trans (List.append_nil run)
  have horder := lex_inOrder hlex
  refine ⟨⟨_, rfl, rfl, hparses⟩, hdivided.partition horder, fun p h l hl hseparator hcomment => ?_⟩
  exact CompilationUnit.holds_of_assemble h hdivided horder hl hseparator hcomment

/-- Brackets where no construct fits before a comment, and a program with a label in front. -/
theorem parse_covers_of_malformed_line :
    (∃ lexemes, lex "HIA R1, ) 5 | closed\n: (\nSPR 2".toList = .ok lexemes ∧
      (CompilationUnit.ofLexemes lexemes).unrecognised.map (·.lexemes.length) = [5, 2] ∧
      Element.Partition lexemes (CompilationUnit.ofLexemes lexemes).elements) ∧
    ∃ lexemes p, lex "loop: HIA R1, 5 | start\nSPR loop\nEINDPR (".toList = .ok lexemes ∧
      (CompilationUnit.ofLexemes lexemes).assemble = .ok p ∧
      ∀ l ∈ lexemes.takeWhile (·.kind ≠ .programTerminator),
        l.kind ≠ .statementTerminator → l.kind ≠ .comment →
          p.Holds (Element.body (CompilationUnit.ofLexemes lexemes).elements) l := by
  have hmalformed : ∃ lexemes, lex "HIA R1, ) 5 | closed\n: (\nSPR 2".toList = .ok lexemes ∧
      (CompilationUnit.ofLexemes lexemes).unrecognised.map (·.lexemes.length) = [5, 2] :=
    ⟨_, rfl, by decide +kernel⟩
  have hassembles : ∃ p, Assembles "loop: HIA R1, 5 | start\nSPR loop\nEINDPR (".toList p :=
    ⟨_, _, rfl, rfl⟩
  obtain ⟨lexemes, hlex, hunrecognised⟩ := hmalformed
  obtain ⟨p, lexemes', hlex', hassemble⟩ := hassembles
  exact ⟨⟨lexemes, hlex, hunrecognised, (parse_covers hlex).2.1⟩,
    lexemes', p, hlex', hassemble, (parse_covers hlex').2.2 p hassemble⟩

end Drama
