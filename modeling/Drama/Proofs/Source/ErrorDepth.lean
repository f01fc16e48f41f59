-- SUMMARY: Unrecognised source keeps the deepest error: that of the construct which got furthest into it.
import Drama.Proofs.Source.Division
import Drama.Proofs.Source.Reach
import Mathlib.Data.List.Forall2
import Mathlib.Data.List.Nodup

/-!
# Depth of errors

Where no construct fits, the errors of all of them are compared, and the first one with the largest depth is
kept with the source. Its depth is the index of a lexeme of that source or of the one behind it, since no
construct gets over a barrier, and its span is that of the lexeme with this index.
-/

namespace Drama

open Drama.Parser

/-! ## The deepest error -/

namespace ParseError

/-- The first of the errors with the largest depth. -/
def IsDeepest (errors : List ParseError) (e : ParseError) : Prop :=
  ∃ before after, errors = before ++ e :: after ∧ (∀ f ∈ before, f.depth < e.depth) ∧
    ∀ f ∈ after, f.depth ≤ e.depth

namespace IsDeepest

variable {errors : List ParseError} {e f : ParseError}

theorem mem (h : IsDeepest errors e) : e ∈ errors := by
  obtain ⟨before, after, rfl, -⟩ := h
  exact List.mem_append_right before List.mem_cons_self

theorem depth_le (h : IsDeepest errors e) (hf : f ∈ errors) : f.depth ≤ e.depth := by
  obtain ⟨before, after, rfl, hbefore, hafter⟩ := h
  obtain hf | hf := List.mem_append.1 hf
  · exact (hbefore f hf).le
  · obtain rfl | hf := List.mem_cons.1 hf
    · exact Nat.le_refl _
    · exact hafter f hf

end IsDeepest

theorem isDeepest_deepest (e : ParseError) (rest : List ParseError) :
    IsDeepest (e :: rest) (e.deepest rest) := by
  induction rest generalizing e with
  | nil => exact ⟨[], [], rfl, List.forall_mem_nil _, List.forall_mem_nil _⟩
  | cons f rest ih =>
    have hrest := ih f
    rw [deepest, orDeeper]
    split
    · rename_i hdeeper
      obtain ⟨before, after, hsplit, hbefore, hafter⟩ := hrest
      exact ⟨e :: before, after, congrArg (e :: ·) hsplit, List.forall_mem_cons.2 ⟨hdeeper, hbefore⟩, hafter⟩
    · rename_i hdeeper
      refine ⟨[], f :: rest, rfl, List.forall_mem_nil _, fun g hg => ?_⟩
      exact (hrest.depth_le hg).trans (Nat.not_lt.1 hdeeper)

end ParseError

/-- A parser fails with the error where it starts at the cursor. -/
def Parser.FailsWith {α : Type} (p : Parser α) (c : Cursor) (e : ParseError) : Prop :=
  ∃ c', p.run c = .error e c'

/-- The error of a parser that keeps to the lexemes of constructs stands at a place that is reached over lexemes
which are no barriers. -/
theorem Parser.Keeps.exists_place {α : Type} {p : Parser α} {c : Cursor} {e : ParseError}
    (hp : Keeps Element.constructKinds c p) (h : p.FailsWith c e) :
    ∃ place run cause, c.Moves run place ∧ (∀ l ∈ run, l.kind ∉ Element.barriers) ∧
      e = place.error cause := by
  obtain ⟨c', hrun⟩ := h
  have hkept := hp c (.refl c)
  rw [hrun] at hkept
  cases hkept with
  | error hreaches =>
    obtain ⟨run, hmoves, hkinds⟩ := hreaches
    have hdisjoint : ∀ kind ∈ Element.constructKinds, kind ∉ Element.barriers := by decide
    exact ⟨_, run, _, hmoves, fun l hl => hdisjoint _ (hkinds l hl), rfl⟩

/-- Each of the errors is that of one of the parsers. -/
theorem Parser.exists_failsWith_of_mem {α : Type} {c : Cursor} {parsers : List (Parser α)}
    {errors : List ParseError} {e : ParseError} (h : parsers.Forall₂ (·.FailsWith c ·) errors)
    (he : e ∈ errors) : ∃ p ∈ parsers, p.FailsWith c e := by
  induction h with
  | nil => cases he
  | cons hfails _ ih =>
    obtain rfl | he := List.mem_cons.1 he
    · exact ⟨_, List.mem_cons_self, hfails⟩
    · obtain ⟨p, hp, hfails⟩ := ih he
      exact ⟨p, List.mem_cons_of_mem _ hp, hfails⟩

/-- If none of some parsers fits, all of them fail, and the deepest of their errors is the outcome. -/
theorem Element.of_firstOf_error {c : Cursor} {parser : Parser Element} {others : List (Parser Element)}
    {e : ParseError} (h : firstOf c parser others = .error e) :
    ∃ errors, (parser :: others).Forall₂ (·.FailsWith c ·) errors ∧ ParseError.IsDeepest errors e := by
  suffices hall : ∃ first rest, (parser :: others).Forall₂ (·.FailsWith c ·) (first :: rest) ∧
      e = first.deepest rest by
    obtain ⟨first, rest, hfails, rfl⟩ := hall
    exact ⟨first :: rest, hfails, first.isDeepest_deepest rest⟩
  induction others generalizing parser e with
  | nil =>
    rw [firstOf] at h
    split at h
    · cases h
    · rename_i hrun
      cases h
      exact ⟨e, [], .cons ⟨_, hrun⟩ .nil, rfl⟩
  | cons other others ih =>
    rw [firstOf] at h
    split at h
    · cases h
    · rename_i first c' hrun
      cases hothers : firstOf c other others with
      | ok found =>
        rw [hothers] at h
        cases h
      | error e' =>
        rw [hothers] at h
        cases h
        obtain ⟨next, rest, hfails, rfl⟩ := ih hothers
        exact ⟨first, next :: rest, .cons ⟨c', hrun⟩ hfails, rfl⟩

/-! ## Where elements start -/

namespace Cursor

variable {c c' : Cursor} {run lexemes : List Lexeme}

/-- The cursor behind the first `i` lexemes. -/
def behindFirst (lexemes : List Lexeme) (i : Nat) : Cursor :=
  ⟨i, ((lexemes.take i).getLast?.map (·.stop)).getD 0, lexemes.drop i⟩

theorem Moves.eq_behindFirst (h : (ofLexemes lexemes).Moves run c) :
    c = behindFirst lexemes run.length := by
  obtain ⟨position, lastStop, ahead⟩ := c
  obtain ⟨hahead, hposition, hstop⟩ := h
  obtain rfl : lexemes = run ++ ahead := hahead
  obtain rfl : position = 0 + run.length := hposition
  obtain rfl : lastStop = (run.getLast?.map (·.stop)).getD 0 := hstop
  rw [behindFirst, List.take_left, List.drop_left, Nat.zero_add]

/-- An error behind some lexemes has their number as its depth, and the span of the lexeme with that index. -/
theorem Moves.error_eq {i : Nat} (h : (behindFirst lexemes i).Moves run c) (cause : ParseError.Cause) :
    (c.error cause).depth = i + run.length ∧
      (c.error cause).span = lexemes[i + run.length]?.map Lexeme.span := by
  have hahead : lexemes.drop i = run ++ c.ahead := h.ahead
  refine ⟨h.position, ?_⟩
  rw [← List.getElem?_drop, hahead, List.getElem?_append_right (Nat.le_refl _), Nat.sub_self,
    ← List.head?_eq_getElem?]
  rfl

end Cursor

namespace Element

variable {c c' : Cursor} {first : Lexeme} {rest : List Lexeme}

/-- Unrecognised source starts where no construct fits, and reaches up to the next barrier. -/
theorem of_next_unrecognised {u : UnrecognisedSource} (h : (next c first rest).1 = .unrecognised u)
    (hfirst : first.kind ≠ .statementTerminator) :
    ofConstructs c = .error u.error ∧
      u.lexemes = (first :: rest).takeWhile fun l => !l.isOf barriers := by
  unfold next at h
  split at h
  · cases h
  · cases h
  · rename_i hcomment hterminator
    split at h
    · rename_i found hfound
      have hconstruct := isConstruct_of_ofConstructs hfound
      rw [h] at hconstruct
      cases hconstruct
    · rename_i error herror
      have hclear : first.isOf barriers = false := by
        simpa [Lexeme.isOf, barriers, hfirst] using And.intro hcomment hterminator
      cases h
      refine ⟨herror, ?_⟩
      rw [List.takeWhile_cons_of_pos (by simp [hclear])]
      rfl

/-- The error of a construct stands at a place that is reached over lexemes which are no barriers. -/
theorem exists_place_of_failsWith {p : Parser Element} {e : ParseError} (hp : p ∈ constructs)
    (h : p.FailsWith c e) :
    ∃ place run cause, c.Moves run place ∧ (∀ l ∈ run, l.kind ∉ barriers) ∧ e = place.error cause :=
  (keeps_of_mem_constructs hp).exists_place h

end Element

/-! ## The result -/

namespace UnrecognisedSource

variable {u : UnrecognisedSource} {lexemes : List Lexeme} {i j : Nat}

/-- The source is made of the lexemes with the indices from `i` up to but without `j`. -/
structure Takes (u : UnrecognisedSource) (lexemes : List Lexeme) (i j : Nat) : Prop where
  lexemes_eq : (lexemes.drop i).take (j - i) = u.lexemes
  le : j ≤ lexemes.length

theorem Takes.length_eq (h : u.Takes lexemes i j) : j = i + u.lexemes.length := by
  have hlength := congrArg List.length h.lexemes_eq
  have hpos : 0 < u.lexemes.length := Nat.succ_pos _
  rw [List.length_take, List.length_drop] at hlength
  have := h.le
  omega

theorem Takes.getElem?_eq (h : u.Takes lexemes i j) : lexemes[i]? = some u.first := by
  have hlength := h.length_eq
  have hpos : 0 < u.lexemes.length := Nat.succ_pos _
  have hfirst := congrArg List.head? h.lexemes_eq
  rw [List.head?_take, if_neg (by omega), List.head?_drop] at hfirst
  exact hfirst

/-- A source stands at one place only, since the lexemes of a text differ in their places. -/
theorem Takes.unique (horder : Lexeme.InOrder lexemes) {i' j' : Nat} (h : u.Takes lexemes i j)
    (h' : u.Takes lexemes i' j') : i' = i ∧ j' = j := by
  have hnodup : lexemes.Nodup := by
    refine horder.increasing.imp_of_mem fun {l l'} hl _ hbefore heq => ?_
    rw [← heq] at hbefore
    exact absurd (horder.nonempty l hl) (Nat.not_lt.2 hbefore)
  obtain ⟨hi, hget⟩ := List.getElem?_eq_some_iff.1 h.getElem?_eq
  obtain ⟨hi', hget'⟩ := List.getElem?_eq_some_iff.1 h'.getElem?_eq
  obtain rfl : i' = i := (List.Nodup.getElem_inj_iff hnodup).1 (hget'.trans hget.symm)
  exact ⟨rfl, h'.length_eq.trans h.length_eq.symm⟩

/-- All constructs fail at the first lexeme of the source, whose index is `i`, and the error kept with it is the
deepest of theirs. It stands at a lexeme of the source or at the one behind it, whose index is `j`. -/
structure Explained (u : UnrecognisedSource) (lexemes : List Lexeme) (i j : Nat) : Prop where
  deepest : ∃ errors, Element.constructs.Forall₂ (·.FailsWith (.behindFirst lexemes i) ·) errors ∧
    ParseError.IsDeepest errors u.error
  depth : i ≤ u.error.depth ∧ u.error.depth ≤ j
  span : u.error.span = lexemes[u.error.depth]?.map Lexeme.span
  span_eq_none : u.error.span = none ↔ u.error.depth = lexemes.length

/-- The places up to the next barrier are those of the source and the one behind it. -/
theorem explained_of_place {run : List Lexeme} {place : Cursor} {cause : ParseError.Cause}
    (hsource : u.lexemes = (lexemes.drop i).takeWhile fun l => !l.isOf Element.barriers)
    (hi : i ≤ lexemes.length)
    (hmoves : (Cursor.behindFirst lexemes i).Moves run place)
    (hclear : ∀ l ∈ run, l.kind ∉ Element.barriers) (herror : u.error = place.error cause) :
    (i ≤ u.error.depth ∧ u.error.depth ≤ i + u.lexemes.length) ∧
      u.error.span = lexemes[u.error.depth]?.map Lexeme.span ∧
      (u.error.span = none ↔ u.error.depth = lexemes.length) := by
  have hahead : lexemes.drop i = run ++ place.ahead := hmoves.ahead
  obtain ⟨hdepth, hspan⟩ := hmoves.error_eq cause
  rw [← hdepth, ← herror] at hspan
  rw [← herror] at hdepth
  have hwithin : run.length ≤ u.lexemes.length := by
    rw [hsource, hahead, List.takeWhile_append_of_pos fun l hl => ?_]
    · exact List.length_append ▸ Nat.le_add_right _ _
    · simpa [Lexeme.isOf, Element.barriers] using hclear l hl
  have hle : u.error.depth ≤ lexemes.length := by
    have hlength := congrArg List.length hahead
    rw [List.length_drop, List.length_append] at hlength
    omega
  refine ⟨⟨?_, ?_⟩, hspan, ?_⟩
  · omega
  · omega
  · rw [hspan, Option.map_eq_none_iff, List.getElem?_eq_none_iff]
    omega

end UnrecognisedSource

/-- Source that was not recognised is a stretch of the lexemes of the text, and the error kept with it is the
deepest of those that the constructs end in there. -/
theorem unrecognised_explained {text : List Char} {lexemes : List Lexeme} {u : UnrecognisedSource}
    (hlex : lex text = .ok lexemes) (hu : .unrecognised u ∈ (CompilationUnit.ofLexemes lexemes).elements) :
    (∃ i j, u.Takes lexemes i j) ∧ ∀ i j, u.Takes lexemes i j → u.Explained lexemes i j := by
  obtain ⟨run, d, first, rest, hmoves, hahead, hfirst, hnext⟩ :=
    (CompilationUnit.parses_ofLexemes lexemes).exists_next hu
  obtain ⟨herror, hsource⟩ := Element.of_next_unrecognised hnext hfirst
  obtain ⟨errors, hfails, hdeepest⟩ := Element.of_firstOf_error herror
  obtain rfl := hmoves.eq_behindFirst
  have hlexemes : lexemes = run ++ (first :: rest) := hahead ▸ hmoves.ahead
  have hdrop : lexemes.drop run.length = first :: rest := hahead
  have htakes : u.Takes lexemes run.length (run.length + u.lexemes.length) := by
    have hprefix := List.takeWhile_prefix (fun l : Lexeme => !l.isOf Element.barriers) (l := first :: rest)
    rw [← hsource] at hprefix
    refine ⟨?_, ?_⟩
    · rw [hdrop, Nat.add_sub_cancel_left]
      exact (List.prefix_iff_eq_take.1 hprefix).symm
    · rw [hlexemes, List.length_append]
      exact Nat.add_le_add_left hprefix.length_le _
  obtain ⟨p, hp, hfailed⟩ := Parser.exists_failsWith_of_mem hfails hdeepest.mem
  obtain ⟨place, passed, cause, hplace, hclear, hcause⟩ := Element.exists_place_of_failsWith hp hfailed
  obtain ⟨hdepth, hspan, hnone⟩ := UnrecognisedSource.explained_of_place (hdrop ▸ hsource)
    (hlexemes ▸ by simp) hplace hclear hcause
  refine ⟨⟨_, _, htakes⟩, fun i j hij => ?_⟩
  obtain ⟨rfl, rfl⟩ := htakes.unique (lex_inOrder hlex) hij
  exact ⟨⟨errors, hfails, hdeepest⟩, hdepth, hspan, hnone⟩

/-- An index that is not closed: the error of the command stands at the end of the text, behind those of the
other constructs. -/
theorem unrecognised_explained_of_open_index :
    ∃ lexemes u, lex "x: HIA R1, 5(R2".toList = .ok lexemes ∧
      .unrecognised u ∈ (CompilationUnit.ofLexemes lexemes).elements ∧
      (u.Takes lexemes 2 8 ∧ u.error.depth = 8 ∧ u.error.span = none) ∧
      ((∃ i j, u.Takes lexemes i j) ∧ ∀ i j, u.Takes lexemes i j → u.Explained lexemes i j) := by
  obtain ⟨lexemes, hlex, u, hu, htaken, hle, hdepth, hspan⟩ : ∃ lexemes,
      lex "x: HIA R1, 5(R2".toList = .ok lexemes ∧ ∃ u ∈ (CompilationUnit.ofLexemes lexemes).unrecognised,
        (lexemes.drop 2).take 6 = u.lexemes ∧ 8 ≤ lexemes.length ∧ u.error.depth = 8 ∧
          u.error.span = none := ⟨_, rfl, by decide +kernel⟩
  obtain ⟨e, he, hu⟩ := List.mem_filterMap.1 hu
  obtain rfl : e = .unrecognised u := by
    cases e with
    | unrecognised => exact congrArg _ (Option.some.inj hu)
    | statement | label | comment | terminator => cases hu
  exact ⟨lexemes, u, hlex, he, ⟨⟨htaken, hle⟩, hdepth, hspan⟩, unrecognised_explained hlex he⟩

end Drama
