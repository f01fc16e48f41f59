-- SUMMARY: The elements of a unit divide its lexemes: each takes up a stretch of them, and separators stand between.
import Drama.Proofs.Source.Lexing
import Drama.Proofs.Source.Progress
import Mathlib.Data.List.Pairwise

/-!
# Division into elements

`CompilationUnit.Parses` is the parsing of a unit step by step, without a bound on the steps. There are no
more of them than lexemes, so the elements of a unit are those found when nothing is ahead any more. In
each step an element takes up one or more lexemes (`Element.MadeOf`), so the elements of a unit divide its
lexemes, and the spans of elements lie one behind the other like the lexemes do.
-/

namespace Drama

/-! ## Single elements -/

/-- The elements made of the lexeme `first` and the lexemes `more` behind it. A comment and the terminator
of the program stand alone, in other elements there is no barrier. -/
inductive Element.MadeOf : Element → (first : Lexeme) → (more : List Lexeme) → Prop
  | comment {first : Lexeme} (h : first.kind = .comment) :
      MadeOf (.comment first.text first.span) first []
  | terminator {first : Lexeme} (h : first.kind = .programTerminator) :
      MadeOf (.terminator first.span) first []
  | statement {s : Statement} {first : Lexeme} {more : List Lexeme}
      (hclear : ∀ l ∈ first :: more, l.kind ∉ barriers)
      (hspan : s.span = ⟨first.start, (more.getLastD first).stop⟩) :
      MadeOf (.statement s) first more
  | label {name : List Char} {span : Span} {first : Lexeme} {more : List Lexeme}
      (hclear : ∀ l ∈ first :: more, l.kind ∉ barriers)
      (hspan : span = ⟨first.start, (more.getLastD first).stop⟩) :
      MadeOf (.label name span) first more
  | unrecognised {first : Lexeme} {more : List Lexeme} {e : ParseError}
      (hclear : ∀ l ∈ first :: more, l.kind ∉ barriers) :
      MadeOf (.unrecognised ⟨first, more, e⟩) first more

namespace Element

variable {e : Element} {first : Lexeme} {more rest : List Lexeme}

theorem MadeOf.span_eq (h : e.MadeOf first more) :
    e.span = ⟨first.start, (more.getLastD first).stop⟩ := by
  cases h with
  | comment | terminator | unrecognised => rfl
  | statement _ hspan => exact hspan
  | label _ hspan => exact hspan

/-- No element has a statement terminator in it. -/
theorem MadeOf.kind_ne (h : e.MadeOf first more) {l : Lexeme} (hl : l ∈ first :: more) :
    l.kind ≠ .statementTerminator := by
  have hclear (hclear : ∀ l ∈ first :: more, l.kind ∉ barriers) : l.kind ≠ .statementTerminator := by
    intro hkind
    exact hclear l hl (hkind ▸ by decide)
  cases h with
  | comment h | terminator h =>
    rw [List.mem_singleton.1 hl, h]
    decide
  | statement h | label h | unrecognised h => exact hclear h

theorem MadeOf.eq_comment (h : e.MadeOf first more) {l : Lexeme} (hl : l ∈ first :: more)
    (hkind : l.kind = .comment) : e = .comment l.text l.span := by
  cases h with
  | comment => rw [List.mem_singleton.1 hl]
  | terminator hfirst => cases hfirst.symm.trans (List.mem_singleton.1 hl ▸ hkind)
  | statement hclear | label hclear | unrecognised hclear =>
    exact absurd (hkind ▸ by decide) (hclear l hl)

theorem MadeOf.eq_terminator (h : e.MadeOf first more) {l : Lexeme} (hl : l ∈ first :: more)
    (hkind : l.kind = .programTerminator) : e = .terminator l.span := by
  cases h with
  | terminator => rw [List.mem_singleton.1 hl]
  | comment hfirst => cases hfirst.symm.trans (List.mem_singleton.1 hl ▸ hkind)
  | statement hclear | label hclear | unrecognised hclear =>
    exact absurd (hkind ▸ by decide) (hclear l hl)

/-- The first construct that fits gives the element. -/
theorem of_firstOf {c c' : Cursor} {parser : Parser Element} {others : List (Parser Element)}
    (h : firstOf c parser others = .ok (e, c')) : ∃ p ∈ parser :: others, p.run c = .ok e c' := by
  induction others generalizing parser with
  | nil =>
    rw [firstOf] at h
    split at h
    · cases h
      exact ⟨parser, List.mem_singleton_self _, ‹_›⟩
    · cases h
  | cons other others ih =>
    rw [firstOf] at h
    split at h
    · cases h
      exact ⟨parser, List.mem_cons_self, ‹_›⟩
    · cases hothers : firstOf c other others with
      | error e => simp [hothers, Except.mapError] at h
      | ok found =>
        rw [hothers] at h
        cases h
        obtain ⟨p, hp, hrun⟩ := ih hothers
        exact ⟨p, List.mem_cons_of_mem _ hp, hrun⟩

/-- Whether what an element is made of exists: the instruction and the registers of a statement. -/
def InRange : Element → Prop
  | .statement s => s.body.InRange
  | .label .. | .comment .. | .terminator _ | .unrecognised _ => True

/-- The elements of constructs. -/
theorem of_ofConstructs {c c' : Cursor} (h : ofConstructs c = .ok (e, c')) :
    ∃ first more, c.Passes (first :: more) c' ∧ e.MadeOf first more ∧ (c.InRange → e.InRange) := by
  obtain ⟨p, hp, hrun⟩ := of_firstOf h
  have hstatement {parser : Parser Statement}
      (hspans : parser.Spans Statement.span fun s => s.body.InRange)
      (hrun : (Element.statement <$> parser).run c = .ok e c') :
      ∃ first more, c.Passes (first :: more) c' ∧ e.MadeOf first more ∧ (c.InRange → e.InRange) := by
    obtain ⟨s, hs, rfl⟩ := Parser.of_run_map hrun
    obtain ⟨⟨first, more, hpasses⟩, hspan, hgood⟩ := hspans c s c' hs
    rw [hpasses.spanTo_eq] at hspan
    exact ⟨first, more, hpasses, .statement hpasses.clear hspan, hgood⟩
  simp only [List.mem_cons, List.not_mem_nil, or_false] at hp
  obtain rfl | rfl | rfl | rfl := hp
  · exact hstatement CommandStatement.spans hrun
  · exact hstatement Statement.spans_valueParser hrun
  · exact hstatement Statement.spans_allocationParser hrun
  · obtain ⟨⟨first, more, hpasses⟩, name, rfl⟩ := label_of_labelParser hrun
    exact ⟨first, more, hpasses, .label hpasses.clear hpasses.spanTo_eq, fun _ => trivial⟩

/-- Statements and labels are what the constructs read. -/
def isConstruct : Element → Bool
  | .statement _ | .label .. => true
  | .comment .. | .terminator _ | .unrecognised _ => false

theorem isConstruct_of_ofConstructs {c c' : Cursor} (h : ofConstructs c = .ok (e, c')) :
    e.isConstruct = true := by
  obtain ⟨p, hp, hrun⟩ := of_firstOf h
  simp only [List.mem_cons, List.not_mem_nil, or_false] at hp
  obtain rfl | rfl | rfl | rfl := hp
  iterate 3
    obtain ⟨s, -, rfl⟩ := Parser.of_run_map hrun
    rfl
  obtain ⟨-, name, rfl⟩ := label_of_labelParser hrun
  rfl

/-- A step that reads a statement or a label does so by the constructs. -/
theorem ofConstructs_of_next {c : Cursor} (h : (next c first rest).1.isConstruct = true) :
    ofConstructs c = .ok (next c first rest) := by
  unfold next at h ⊢
  split at h
  · cases h
  · cases h
  · split at h
    · rename_i found hfound
      rw [hfound]
    · cases h

theorem moves_recover {c : Cursor} (error : ParseError) (hahead : c.ahead = first :: rest) :
    c.Moves (first :: rest.takeWhile fun l => !l.isOf barriers) (recover c first rest error).2 where
  ahead := by
    rw [hahead, List.cons_append]
    exact congrArg (first :: ·) (List.prefix_iff_eq_append.1 (List.takeWhile_prefix _)).symm
  position := rfl
  lastStop := by
    rw [List.getLast?_cons]
    exact congrArg Lexeme.stop (List.getLastD_eq_getLast? ..)

/-- Unrecognised source ends before the next barrier. -/
theorem madeOf_recover {c : Cursor} (error : ParseError) (hfirst : first.kind ∉ barriers) :
    (recover c first rest error).1.MadeOf first (rest.takeWhile fun l => !l.isOf barriers) := by
  refine .unrecognised (List.forall_mem_cons.2 ⟨hfirst, fun l hl => ?_⟩)
  have hnot : l.isOf barriers = false := by simpa using List.mem_takeWhile_imp hl
  simpa [Lexeme.isOf, barriers] using hnot

/-- One step takes up at least one lexeme. -/
theorem madeOf_next {c : Cursor} (hahead : c.ahead = first :: rest)
    (hfirst : first.kind ≠ .statementTerminator) :
    ∃ more, c.Moves (first :: more) (next c first rest).2 ∧ (next c first rest).1.MadeOf first more ∧
      (c.InRange → (next c first rest).1.InRange) := by
  unfold next
  split
  · exact ⟨[], .advance hahead, .comment ‹_›, fun _ => trivial⟩
  · exact ⟨[], .advance hahead, .terminator ‹_›, fun _ => trivial⟩
  · rename_i hcomment hterminator
    split
    · rename_i found hfound
      obtain ⟨first', more, hpasses, hmade, hrange⟩ := of_ofConstructs hfound
      obtain ⟨rfl, -⟩ := List.cons.inj (hahead.symm.trans hpasses.ahead)
      exact ⟨more, hpasses.toMoves, hmade, hrange⟩
    · rename_i error _
      have hclear : first.kind ∉ barriers := by
        simpa [barriers, hfirst] using And.intro hcomment hterminator
      exact ⟨_, moves_recover error hahead, madeOf_recover error hclear, fun _ => trivial⟩

end Element

/-! ## Parsing step by step -/

/-- Lexemes divided into elements, with separators between these. -/
inductive Divided : List Lexeme → List Element → Prop
  | nil : Divided [] []
  | separator {l : Lexeme} {lexemes : List Lexeme} {elements : List Element}
      (hkind : l.kind = .statementTerminator) (h : Divided lexemes elements) :
      Divided (l :: lexemes) elements
  | element {e : Element} {first : Lexeme} {more lexemes : List Lexeme} {elements : List Element}
      (hmade : e.MadeOf first more) (h : Divided lexemes elements) :
      Divided (first :: more ++ lexemes) (e :: elements)

namespace CompilationUnit

/-- The elements that are read one after the other on the way from one cursor to another. -/
inductive Parses : Cursor → List Element → Cursor → Prop
  | nil (c : Cursor) : Parses c [] c
  | separator {c c' : Cursor} {first : Lexeme} {rest : List Lexeme} {elements : List Element}
      (hahead : c.ahead = first :: rest) (hkind : first.kind = .statementTerminator)
      (h : Parses c.advance elements c') : Parses c elements c'
  | element {c c' : Cursor} {first : Lexeme} {rest : List Lexeme} {elements : List Element}
      (hahead : c.ahead = first :: rest) (hkind : first.kind ≠ .statementTerminator)
      (h : Parses (Element.next c first rest).2 elements c') :
      Parses c ((Element.next c first rest).1 :: elements) c'

variable {c c' c'' : Cursor} {elements others : List Element}

namespace Parses

theorem append (h : Parses c elements c') (h' : Parses c' others c'') :
    Parses c (elements ++ others) c'' := by
  induction h with
  | nil => exact h'
  | separator hahead hkind _ ih => exact .separator hahead hkind (ih h')
  | element hahead hkind _ ih => exact .element hahead hkind (ih h')

/-- What is passed over on the way is divided into the elements that are read. -/
theorem divided (h : Parses c elements c') :
    ∃ run, c.Moves run c' ∧ Divided run elements ∧ (c.InRange → ∀ e ∈ elements, e.InRange) := by
  induction h with
  | nil c => exact ⟨[], .refl c, .nil, fun _ => List.forall_mem_nil _⟩
  | separator hahead hkind _ ih =>
    obtain ⟨run, hmoves, hdivided, hrange⟩ := ih
    have hfirst := Cursor.Moves.advance hahead
    exact ⟨_, hfirst.trans hmoves, .separator hkind hdivided, fun hc => hrange (hfirst.inRange hc)⟩
  | element hahead hkind _ ih =>
    obtain ⟨run, hmoves, hdivided, hrange⟩ := ih
    obtain ⟨more, hfirst, hmade, hgood⟩ := Element.madeOf_next hahead hkind
    refine ⟨_, hfirst.trans hmoves, .element hmade hdivided, fun hc => ?_⟩
    exact List.forall_mem_cons.2 ⟨hgood hc, hrange (hfirst.inRange hc)⟩

/-- Each element is read in one step, from a place on the way. -/
theorem exists_next {e : Element} (h : Parses c elements c') (he : e ∈ elements) :
    ∃ run d first rest, c.Moves run d ∧ d.ahead = first :: rest ∧
      first.kind ≠ .statementTerminator ∧ (Element.next d first rest).1 = e := by
  induction h with
  | nil => cases he
  | separator hahead hkind _ ih =>
    obtain ⟨run, d, first, rest, hmoves, hnext⟩ := ih he
    exact ⟨_, d, first, rest, (Cursor.Moves.advance hahead).trans hmoves, hnext⟩
  | @element c c' first rest elements hahead hkind _ ih =>
    obtain rfl | he := List.mem_cons.1 he
    · exact ⟨[], c, first, rest, .refl c, hahead, hkind, rfl⟩
    · obtain ⟨run, d, first', rest', hmoves, hnext⟩ := ih he
      obtain ⟨more, hfirst, -⟩ := Element.madeOf_next hahead hkind
      exact ⟨_, d, first', rest', hfirst.trans hmoves, hnext⟩

/-- There are enough rounds to read everything that is ahead. -/
theorem exists_of_rounds {rounds : Nat} (h : c.ahead.length ≤ rounds) :
    ∃ c', Parses c (elementsFrom rounds c) c' ∧ c'.ahead = [] := by
  induction rounds generalizing c with
  | zero => exact ⟨c, .nil c, List.length_eq_zero_iff.1 (Nat.le_zero.1 h)⟩
  | succ rounds ih =>
    rw [elementsFrom]
    cases hahead : c.ahead with
    | nil => exact ⟨c, .nil c, hahead⟩
    | cons first rest =>
      have hfewer {more : List Lexeme} {c₁ : Cursor} (hmoves : c.Moves (first :: more) c₁) :
          c₁.ahead.length ≤ rounds := by
        rw [hmoves.ahead, List.length_append, List.length_cons] at h
        omega
      dsimp only
      split
      · obtain ⟨c', hparses, hend⟩ := ih (hfewer (.advance hahead))
        exact ⟨c', .separator hahead ‹_› hparses, hend⟩
      · obtain ⟨more, hmoves, -⟩ := Element.madeOf_next hahead ‹_›
        obtain ⟨c', hparses, hend⟩ := ih (hfewer hmoves)
        exact ⟨c', .element hahead ‹_› hparses, hend⟩

/-- What is read up to the end does not depend on how many rounds there are. -/
theorem elementsFrom_eq (h : Parses c elements c') (hend : c'.ahead = []) {rounds : Nat}
    (hrounds : c.ahead.length ≤ rounds) : elementsFrom rounds c = elements := by
  induction h generalizing rounds with
  | nil c =>
    cases rounds with
    | zero => rfl
    | succ rounds => rw [elementsFrom, hend]
  | @separator c c' first rest elements hahead hkind _ ih =>
    rw [(Cursor.Moves.advance hahead).ahead] at hrounds
    cases rounds with
    | zero => cases hrounds
    | succ rounds =>
      rw [elementsFrom, hahead]
      simp only [hkind, if_true]
      exact ih hend (Nat.le_of_succ_le_succ hrounds)
  | @element c c' first rest elements hahead hkind _ ih =>
    obtain ⟨more, hmoves, -⟩ := Element.madeOf_next hahead hkind
    rw [hmoves.ahead] at hrounds
    cases rounds with
    | zero => cases hrounds
    | succ rounds =>
      rw [elementsFrom, hahead]
      simp only [hkind, if_false]
      refine congrArg _ (ih hend ?_)
      rw [List.length_append, List.length_cons] at hrounds
      omega

end Parses

theorem parses_ofLexemes (lexemes : List Lexeme) :
    Parses (.ofLexemes lexemes) (ofLexemes lexemes).elements (Cursor.ofLexemes lexemes).toEnd := by
  obtain ⟨c', hparses, hend⟩ := Parses.exists_of_rounds (c := .ofLexemes lexemes) (Nat.le_refl _)
  obtain ⟨run, hmoves, -⟩ := hparses.divided
  have hc' : c' = (Cursor.ofLexemes lexemes).toEnd := by
    obtain ⟨position, lastStop, ahead⟩ := c'
    obtain ⟨hahead, rfl, rfl⟩ := hmoves
    obtain rfl : ahead = [] := hend
    rw [List.append_nil] at hahead
    rw [← hahead]
    rfl
  rwa [← hc']

/-- The statements and labels of a unit are read by the constructs, each from a place on the way. -/
theorem exists_ofConstructs {lexemes : List Lexeme} {e : Element} (h : e ∈ (ofLexemes lexemes).elements)
    (he : e.isConstruct = true) :
    ∃ run d d', (Cursor.ofLexemes lexemes).Moves run d ∧ Element.ofConstructs d = .ok (e, d') := by
  obtain ⟨run, d, first, rest, hmoves, -, -, rfl⟩ := (parses_ofLexemes lexemes).exists_next h
  exact ⟨run, d, _, hmoves, Element.ofConstructs_of_next he⟩

end CompilationUnit

/-! ## Places of elements -/

namespace Span

/-- A span lies in another one. -/
def Within (inner outer : Span) : Prop := outer.start ≤ inner.start ∧ inner.stop ≤ outer.stop

/-- One of two spans ends before the other starts, or where it does. -/
def Apart (s s' : Span) : Prop := s.stop ≤ s'.start ∨ s'.stop ≤ s.start

theorem Apart.symm {s s' : Span} (h : s.Apart s') : s'.Apart s := Or.symm h

/-- Spans that stand apart have no characters in common. -/
theorem Within.not_apart {s outer outer' : Span} (h : s.Within outer) (h' : s.Within outer')
    (hs : s.start < s.stop) : ¬outer.Apart outer' := by
  obtain ⟨hstart, hstop⟩ := h
  obtain ⟨hstart', hstop'⟩ := h'
  rintro (hbefore | hbefore) <;> omega

end Span

namespace Lexeme.InOrder

variable {first l : Lexeme} {more lexemes : List Lexeme}

theorem start_le (h : InOrder (first :: more)) (hl : l ∈ first :: more) : first.start ≤ l.start := by
  obtain rfl | hl := List.mem_cons.1 hl
  · exact Nat.le_refl _
  · exact (h.nonempty first List.mem_cons_self).le.trans (List.rel_of_pairwise_cons h.increasing hl)

theorem le_stop (h : InOrder (first :: more)) (hl : l ∈ first :: more) :
    l.stop ≤ (more.getLastD first).stop := by
  induction more generalizing first l with
  | nil => rw [List.mem_singleton.1 hl, List.getLastD_nil]
  | cons next more ih =>
    rw [List.getLastD_cons]
    have hnext {l : Lexeme} (hl : l ∈ next :: more) := ih (h.sublist (List.sublist_cons_self _ _)) hl
    obtain rfl | hl := List.mem_cons.1 hl
    · have hbefore := List.rel_of_pairwise_cons h.increasing (List.mem_cons_self (a := next))
      have hne := h.nonempty next (List.mem_cons_of_mem _ List.mem_cons_self)
      exact hbefore.trans (hne.le.trans (hnext List.mem_cons_self))
    · exact hnext hl

/-- A lexeme that is not in a run of them stands before it or behind it. -/
theorem apart (h : InOrder lexemes) (hrun : first :: more <:+: lexemes) (hl : l ∈ lexemes)
    (hnot : l ∉ first :: more) : l.span.Apart ⟨first.start, (more.getLastD first).stop⟩ := by
  obtain ⟨before, after, rfl⟩ := hrun
  have hincreasing := h.increasing
  rw [List.append_assoc, List.pairwise_append, List.pairwise_append] at hincreasing
  obtain ⟨-, ⟨-, -, hafter⟩, hbefore⟩ := hincreasing
  simp only [List.mem_append, or_assoc] at hl
  obtain hl | hl | hl := hl
  · exact .inl (hbefore l hl first (List.mem_append_left after List.mem_cons_self))
  · exact absurd hl hnot
  · exact .inr (hafter _ List.getLastD_mem_cons l hl)

end Lexeme.InOrder

/-- What an element is made of lies within its span. -/
theorem Element.MadeOf.within {e : Element} {first l : Lexeme} {more : List Lexeme}
    (h : e.MadeOf first more) (horder : Lexeme.InOrder (first :: more)) (hl : l ∈ first :: more) :
    l.span.Within e.span := by
  rw [h.span_eq]
  exact ⟨horder.start_le hl, horder.le_stop hl⟩

namespace Divided

variable {lexemes : List Lexeme} {elements : List Element}

/-- Each element is made of lexemes that stand in a row. -/
theorem exists_madeOf (h : Divided lexemes elements) :
    ∀ e ∈ elements, ∃ first more, first :: more <:+: lexemes ∧ e.MadeOf first more := by
  induction h with
  | nil => exact List.forall_mem_nil _
  | separator _ _ ih =>
    intro e he
    obtain ⟨first, more, hrun, hmade⟩ := ih e he
    exact ⟨first, more, List.infix_cons hrun, hmade⟩
  | element hmade _ ih =>
    refine List.forall_mem_cons.2 ⟨⟨_, _, (List.prefix_append _ _).isInfix, hmade⟩, fun e he => ?_⟩
    obtain ⟨first, more, hrun, hmade⟩ := ih e he
    exact ⟨first, more, hrun.trans (List.suffix_append _ _).isInfix, hmade⟩

/-- Some element is made of each lexeme that is no separator. -/
theorem exists_mem (h : Divided lexemes elements) :
    ∀ l ∈ lexemes, l.kind ≠ .statementTerminator →
      ∃ e ∈ elements, ∃ first more, first :: more <:+: lexemes ∧ e.MadeOf first more ∧
        l ∈ first :: more := by
  induction h with
  | nil => exact List.forall_mem_nil _
  | separator hkind _ ih =>
    refine List.forall_mem_cons.2 ⟨fun hl => absurd hkind hl, fun l hl hne => ?_⟩
    obtain ⟨e, he, first, more, hrun, hmade⟩ := ih l hl hne
    exact ⟨e, he, first, more, List.infix_cons hrun, hmade⟩
  | element hmade _ ih =>
    intro l hl hne
    obtain hl | hl := List.mem_append.1 hl
    · exact ⟨_, List.mem_cons_self, _, _, (List.prefix_append _ _).isInfix, hmade, hl⟩
    · obtain ⟨e, he, first, more, hrun, hmade⟩ := ih l hl hne
      exact ⟨e, List.mem_cons_of_mem _ he, first, more,
        hrun.trans (List.suffix_append _ _).isInfix, hmade⟩

theorem increasing (h : Divided lexemes elements) (horder : Lexeme.InOrder lexemes) :
    elements.Pairwise fun e e' => e.span.stop ≤ e'.span.start := by
  induction h with
  | nil => exact .nil
  | separator _ _ ih => exact ih (horder.sublist (List.sublist_cons_self _ _))
  | element hmade hrest ih =>
    refine .cons (fun e he => ?_) (ih (horder.sublist (List.sublist_append_right _ _)))
    obtain ⟨first, more, hrun, hothers⟩ := hrest.exists_madeOf e he
    rw [hmade.span_eq, hothers.span_eq]
    exact (List.pairwise_append.1 horder.increasing).2.2 _ List.getLastD_mem_cons _
      (hrun.subset List.mem_cons_self)

end Divided

/-- Elements share out lexemes: nothing is left over but separators, and nothing is shared. -/
structure Element.Partition (lexemes : List Lexeme) (elements : List Element) : Prop where
  made : ∀ e ∈ elements, ∃ first more, first :: more <:+: lexemes ∧ e.MadeOf first more
  nonempty : ∀ e ∈ elements, e.span.start < e.span.stop
  increasing : elements.Pairwise fun e e' => e.span.stop ≤ e'.span.start
  covered : ∀ l ∈ lexemes, l.kind ≠ .statementTerminator →
    ∃! e, e ∈ elements ∧ l.span.Within e.span
  separators : ∀ l ∈ lexemes, l.kind = .statementTerminator → ∀ e ∈ elements,
    l.span.Apart e.span
  comments : ∀ l ∈ lexemes, l.kind = .comment → .comment l.text l.span ∈ elements
  terminators : ∀ l ∈ lexemes, l.kind = .programTerminator → .terminator l.span ∈ elements

theorem Divided.partition {lexemes : List Lexeme} {elements : List Element}
    (h : Divided lexemes elements) (horder : Lexeme.InOrder lexemes) :
    Element.Partition lexemes elements := by
  have : Std.Symm fun e e' : Element => e.span.Apart e'.span := ⟨fun _ _ => Span.Apart.symm⟩
  have hapart : elements.Pairwise fun e e' => e.span.Apart e'.span :=
    (h.increasing horder).imp fun hbefore => .inl hbefore
  have hrun {first : Lexeme} {more : List Lexeme} (hrun : first :: more <:+: lexemes) :=
    horder.sublist hrun.sublist
  refine ⟨h.exists_madeOf, fun e he => ?_, h.increasing horder, fun l hl hne => ?_,
    fun l hl hkind e he => ?_, fun l hl hkind => ?_, fun l hl hkind => ?_⟩
  · obtain ⟨first, more, hinfix, hmade⟩ := h.exists_madeOf e he
    obtain ⟨hstart, hstop⟩ := hmade.within (hrun hinfix) List.mem_cons_self
    exact hstart.trans_lt (((hrun hinfix).nonempty first List.mem_cons_self).trans_le hstop)
  · obtain ⟨e, he, first, more, hinfix, hmade, hmem⟩ := h.exists_mem l hl hne
    have hwithin := hmade.within (hrun hinfix) hmem
    refine ⟨e, ⟨he, hwithin⟩, fun e' ⟨he', hwithin'⟩ => ?_⟩
    by_contra hne'
    exact hwithin'.not_apart hwithin (horder.nonempty l hl) (hapart.forall he' he hne')
  · obtain ⟨first, more, hinfix, hmade⟩ := h.exists_madeOf e he
    rw [hmade.span_eq]
    exact horder.apart hinfix hl fun hmem => hmade.kind_ne hmem hkind
  · obtain ⟨e, he, first, more, -, hmade, hmem⟩ := h.exists_mem l hl (by rw [hkind]; decide)
    rwa [← hmade.eq_comment hmem hkind]
  · obtain ⟨e, he, first, more, -, hmade, hmem⟩ := h.exists_mem l hl (by rw [hkind]; decide)
    rwa [← hmade.eq_terminator hmem hkind]

end Drama
