-- SUMMARY: The source of a construct, cut out at its span, is parsed to the same element by itself.
import Drama.Proofs.Source.Detached
import Drama.Proofs.Source.Recovery

/-!
# Excerpts

A stretch of text that ends where a lexeme does is divided into the same lexemes if nothing stands behind it
(`Lexing.Scans.alone`). So the source in the span of a construct, by itself, is divided into the lexemes that
the construct was read from. The construct does not need what stands behind these, so parsing them gives one
element, which is the same up to where its text starts.
-/

namespace Drama

open Text

/-! ## Lexemes of an excerpt -/

namespace Token

/-- A blank is never part of a suffix. -/
theorem addressingMode?_of_blank {c : Char} (h : isHorizontalBlank c = true) :
    addressingMode? ['.', c] = none := by
  have hblank : ∀ c' ∈ [c].head?, isWordChar c' = false := by
    rintro _ ⟨rfl⟩
    exact isWordChar_of_isHorizontalBlank h
  have hignores : Ignores .identifier [] [c] := .of_not_word hblank nofun nofun
  exact hignores.point rfl

end Token

namespace Lexing.Scans

variable {rest run : List Char} {position : Nat} {lexemes others : List Lexeme}

/-- A point in front of the last character of a stretch makes no suffix of it where nothing stands behind,
if it does not do so in front of the rest of the text. -/
theorem addressingMode?_alone {c : Char} (h : Scans rest position [c] lexemes)
    (hpoint : Token.addressingMode? ('.' :: c :: rest) = none) : Token.addressingMode? ['.', c] = none := by
  generalize hrun : [c] = run at h
  cases h with
  | nil => cases hrun
  | blank hblank =>
    cases hrun
    exact Token.addressingMode?_of_blank hblank
  | @lexeme _ t piece run lexemes hpiece =>
    obtain ⟨d, more, rfl, -⟩ := hpiece.head
    obtain ⟨rfl, hmore⟩ := List.cons.inj hrun
    obtain ⟨rfl, rfl⟩ := List.append_eq_nil_iff.1 hmore.symm
    by_cases hterminator : t = .programTerminator
    · subst hterminator
      obtain rfl := Token.rest_eq_nil_of_read hpiece.read_eq
      exact hpoint
    · exact Token.addressingMode?_of_read hpiece.ne_nil hpiece.read_eq hterminator hpoint

/-- A stretch that ends where a lexeme does is divided in the same way if nothing stands behind it. -/
theorem alone (h : Scans rest position run lexemes) : Scans [] position run lexemes := by
  induction h with
  | nil => exact .nil _
  | blank hblank _ ih => exact .blank hblank ih
  | @lexeme position t piece run lexemes hpiece hrun ih =>
    refine .lexeme (hpiece.congr ?_) ih
    match run with
    | [] => exact ⟨nofun, nofun, fun _ => rfl, fun _ _ => nofun, fun _ _ => rfl⟩
    | [c] => exact .of_head? rfl hrun.addressingMode?_alone
    | c :: d :: run => exact .of_head? rfl id

theorem unique (h : Scans rest position run lexemes) (h' : Scans rest position run others) :
    lexemes = others := by
  have heq := congrArg Lexing.lexemes (h.scan_eq.symm.trans h'.scan_eq)
  exact List.append_cancel_right heq

/-- A stretch of a text, as a text of its own. -/
theorem lex_alone (h : Scans rest position run lexemes) :
    ∃ own, lex run = .ok own ∧ own.map (.shift position) = lexemes := by
  obtain ⟨own, hown, -⟩ := h.alone.exists_moved 0
  have hshifted := hown.shift position
  rw [Nat.zero_add] at hshifted
  exact ⟨own, lex_eq_ok_iff_scans.2 hown, hshifted.unique h.alone⟩

/-- A scan is taken apart behind any of its lexemes. -/
theorem exists_cut (h : Scans rest position run (lexemes ++ others)) :
    ∃ here there, run = here ++ there ∧ Scans (there ++ rest) position here lexemes ∧
      (lexemes.getLast?.map (·.stop)).getD position = position + here.length := by
  generalize hall : lexemes ++ others = all at h
  induction h generalizing lexemes with
  | nil position =>
    obtain ⟨rfl, rfl⟩ := List.append_eq_nil_iff.1 hall
    exact ⟨[], [], rfl, .nil position, rfl⟩
  | @blank position c run all hblank _ ih =>
    cases lexemes with
    | nil => exact ⟨[], c :: run, rfl, .nil position, rfl⟩
    | cons first lexemes =>
      obtain ⟨here, there, rfl, hhere, hstop⟩ := ih hall
      refine ⟨c :: here, there, rfl, .blank hblank hhere, ?_⟩
      rw [List.getLast?_cons] at hstop ⊢
      rw [List.length_cons]
      exact hstop.trans (by omega)
  | @lexeme position t piece run all hpiece _ ih =>
    cases lexemes with
    | nil => exact ⟨[], piece ++ run, rfl, .nil position, rfl⟩
    | cons first lexemes =>
      obtain ⟨rfl, hothers⟩ := List.cons.inj hall
      obtain ⟨here, there, rfl, hhere, hstop⟩ := ih hothers
      refine ⟨piece ++ here, there, (List.append_assoc ..).symm, .lexeme ?_ hhere, ?_⟩
      · rwa [← List.append_assoc]
      · rw [List.getLast?_cons, List.length_append, ← Nat.add_assoc, ← hstop]
        cases lexemes.getLast? <;> rfl

end Lexing.Scans

/-- The text from one lexeme to another, by itself, is divided into the lexemes from the one to the other. -/
theorem lex_extract {text : List Char} {before more behind : List Lexeme} {first : Lexeme}
    (h : lex text = .ok (before ++ first :: (more ++ behind))) :
    ∃ own, lex (Span.extract ⟨first.start, (more.getLastD first).stop⟩ text) = .ok own ∧
      own.map (.shift first.start) = first :: more := by
  obtain ⟨front, tail, rfl, -, hfirst, hstart, hstop, htail⟩ := (lex_eq_ok_iff_scans.1 h).exists_split
  obtain ⟨here, there, rfl, hhere, hlast⟩ := htail.exists_cut
  rw [List.append_nil] at hhere hfirst
  rw [Nat.zero_add] at hstart
  have hstretch : Lexing.Scans there first.start (first.text ++ here) (first :: more) := by
    rw [hstop] at hhere
    have hscans := hhere.lexeme hfirst
    rwa [← hstop] at hscans
  have hstop' : (more.getLastD first).stop = first.stop + here.length := by
    rw [List.getLastD_eq_getLast?, ← hlast]
    cases more.getLast? <;> rfl
  have hlength : (more.getLastD first).stop - first.start = (first.text ++ here).length := by
    rw [hstop', hstop, Nat.add_assoc, Nat.add_sub_cancel_left, List.length_append]
  have hextract : Span.extract ⟨first.start, (more.getLastD first).stop⟩
      (front ++ (first.text ++ (here ++ there))) = first.text ++ here := by
    rw [Span.extract, hlength, hstart, List.drop_left, ← List.append_assoc, List.take_left]
  rw [hextract]
  exact hstretch.lex_alone

/-! ## Elements of an excerpt -/

namespace Element

variable {c c' : Cursor} {e : Element} {first : Lexeme} {rest : List Lexeme}

/-- What the constructs read is read in one step. -/
theorem next_of_ofConstructs (h : ofConstructs c = .ok (e, c')) (hahead : c.ahead = first :: rest) :
    first.kind ≠ .statementTerminator ∧ next c first rest = (e, c') := by
  obtain ⟨first', more, hpasses, -⟩ := of_ofConstructs h
  obtain ⟨rfl, -⟩ := List.cons.inj (hahead.symm.trans hpasses.ahead)
  have hclear := hpasses.clear first List.mem_cons_self
  refine ⟨fun hkind => hclear (hkind ▸ by decide), ?_⟩
  unfold next
  split
  · rename_i hcomment
    exact absurd (hcomment ▸ by decide) hclear
  · rename_i hterminator
    exact absurd (hterminator ▸ by decide) hclear
  · rw [h]

end Element

/-- If a construct reads all lexemes of a text, there is one element. -/
theorem CompilationUnit.elements_of_ofConstructs {lexemes : List Lexeme} {c' : Cursor} {e : Element}
    (h : Element.ofConstructs (.ofLexemes lexemes) = .ok (e, c')) (hend : c'.ahead = []) :
    (ofLexemes lexemes).elements = [e] := by
  obtain ⟨first, more, hpasses, -⟩ := Element.of_ofConstructs h
  have hahead := hpasses.ahead
  rw [hend, List.append_nil] at hahead
  obtain ⟨hkind, hnext⟩ := Element.next_of_ofConstructs h hahead
  have hparses : Parses (.ofLexemes lexemes) [e] c' := by
    have hone : Parses (Element.next (.ofLexemes lexemes) first more).2 [] c' := by
      rw [hnext]
      exact .nil c'
    have hparses := hone.element hahead hkind
    rwa [hnext] at hparses
  exact hparses.elementsFrom_eq hend (Nat.le_refl _)

/-- Lexemes that a construct is read from make the same element where they stand alone, up to its place. -/
theorem CompilationUnit.elements_alone {d d' : Cursor} {own run : List Lexeme} {e : Element} {offset : Nat}
    (h : Element.ofConstructs d = .ok (e, d')) (hmoves : d.Moves run d')
    (hown : own.map (.shift offset) = run) :
    ∃ e', (ofLexemes own).elements = [e'] ∧ e'.shift offset = e := by
  let s : Surroundings := ⟨d.position, offset, [], nofun⟩
  have hplace : s.place (.ofLexemes own) = (d.cut d'.ahead.length).stoppedAt offset := by
    have hrun : d.ahead.take (d.ahead.length - d'.ahead.length) = run := by
      rw [hmoves.ahead, List.length_append, Nat.add_sub_cancel, List.take_left]
    show Cursor.mk (0 + d.position) (0 + offset) (own.map (.shift offset) ++ []) =
      Cursor.mk d.position offset (d.ahead.take (d.ahead.length - d'.ahead.length))
    rw [hrun, hown, List.append_nil, Nat.zero_add, Nat.zero_add]
  have hattempts := Correspondence.attempts_ofConstructs (s.cursors_place (.ofLexemes own))
  rw [hplace, Element.ofConstructs_alone h] at hattempts
  generalize hfound : Element.ofConstructs (.ofLexemes own) = found at hattempts
  cases hattempts with
  | @ok e' _ c' _ he hc =>
    have hend : c'.ahead = [] := by
      obtain ⟨row, hrow, hlexemes⟩ := hc.ahead
      have hlength := congrArg List.length hrow
      rw [Cursor.length_ahead_cut, Nat.sub_self, List.length_append] at hlength
      exact List.length_eq_zero_iff.1 (hlexemes.length_eq.trans (by omega))
    refine ⟨e', elements_of_ofConstructs hfound hend, ?_⟩
    have hsame := Surroundings.sameAt_of_elements he
    cases hsame with
    | shift => rfl
    | unrecognised => cases Element.isConstruct_of_ofConstructs h

/-- The source of a statement or a label, by itself, is parsed to one element, which is the same but for its
places: they are counted from the start of the excerpt. -/
theorem parse_extract {text : List Char} {lexemes : List Lexeme} {e : Element}
    (hlex : lex text = .ok lexemes)
    (he : e ∈ (CompilationUnit.ofLexemes lexemes).elements) (hconstruct : e.isConstruct = true) :
    ∃ own e', lex (e.span.extract text) = .ok own ∧ (CompilationUnit.ofLexemes own).elements = [e'] ∧
      e'.shift e.span.start = e := by
  obtain ⟨run, d, d', hmoves, hread⟩ := CompilationUnit.exists_ofConstructs he hconstruct
  obtain ⟨first, more, hpasses, hmade, -⟩ := Element.of_ofConstructs hread
  have hlexemes : lexemes = run ++ first :: (more ++ d'.ahead) := by
    rw [← List.cons_append, ← hpasses.ahead]
    exact hmoves.ahead
  rw [hlexemes] at hlex
  obtain ⟨own, hown, hshifted⟩ := lex_extract hlex
  obtain ⟨e', helements, hshift⟩ := CompilationUnit.elements_alone hread hpasses.toMoves hshifted
  rw [hmade.span_eq]
  exact ⟨own, e', hown, helements, hshift⟩

/-- A command between a label and an allocation. The sign in front of its last term and the word behind that
term stand where its parser looks at what follows. -/
theorem parse_extract_of_neighbours :
    ∃ lexemes e, lex "x: HIA R1, a -1 RESGR 2".toList = .ok lexemes ∧
      e ∈ (CompilationUnit.ofLexemes lexemes).elements ∧ e.isConstruct = true ∧ e.span = ⟨3, 15⟩ ∧
      ∃ own e', lex "HIA R1, a -1".toList = .ok own ∧ (CompilationUnit.ofLexemes own).elements = [e'] ∧
        e'.shift 3 = e := by
  obtain ⟨lexemes, hlex, e, he, hconstruct, hspan⟩ : ∃ lexemes,
      lex "x: HIA R1, a -1 RESGR 2".toList = .ok lexemes ∧
      ∃ e ∈ (CompilationUnit.ofLexemes lexemes).elements, e.isConstruct = true ∧ e.span = ⟨3, 15⟩ :=
    ⟨_, rfl, by decide +kernel⟩
  have hexcerpt := parse_extract hlex he hconstruct
  rw [hspan] at hexcerpt
  exact ⟨lexemes, e, hlex, he, hconstruct, hspan, hexcerpt⟩

end Drama
