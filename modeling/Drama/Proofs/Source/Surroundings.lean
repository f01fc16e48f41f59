-- SUMMARY: What parsers do with lexemes does not depend on the lines around them, places apart.
import Drama.Proofs.Source.Correspondence

/-!
# Surroundings

Lexemes can stand alone or between other lines, behind some lexemes and before a separator. Then they
correspond to themselves with all places moved on, and so do the elements that are made of them.
-/

namespace Drama

/-! ## Places moved on -/

section

variable (n : Nat)

def AddressExpression.shift (e : AddressExpression) : AddressExpression :=
  { e with span := e.span.shift n }

def WrittenArgument.shift : WrittenArgument → WrittenArgument
  | .register number => .register number
  | .condition c => .condition c
  | .address e => .address (e.shift n)

def CommandStatement.shift (c : CommandStatement) : CommandStatement :=
  { c with
    arguments := c.arguments.map (.shift n)
    instructionSpan := c.instructionSpan.shift n }

def Statement.Body.shift : Statement.Body → Statement.Body
  | .command c => .command (c.shift n)
  | .value v => .value v
  | .allocation size => .allocation size

def Statement.shift (s : Statement) : Statement := ⟨s.body.shift n, s.span.shift n⟩

/-- An element with all its places moved on, those in an error apart. -/
def Element.shift : Element → Element
  | .statement s => .statement (s.shift n)
  | .label name span => .label name (span.shift n)
  | .comment text span => .comment text (span.shift n)
  | .terminator span => .terminator (span.shift n)
  | .unrecognised source =>
    .unrecognised ⟨source.first.shift n, source.others.map (.shift n), source.error⟩

end

/-! ## Between other lines -/

/-- Other lines around some lexemes: how many lexemes and characters stand before these, and the lexemes
behind them, the first of which is a separator. -/
structure Surroundings where
  position : Nat
  offset : Nat
  behind : List Lexeme
  separated : ∀ l ∈ behind.head?, l.kind = .statementTerminator

namespace Surroundings

variable (s : Surroundings)

/-- The cursor at the same place between the other lines. -/
def place (c : Cursor) : Cursor :=
  ⟨c.position + s.position, c.lastStop + s.offset, c.ahead.map (.shift s.offset) ++ s.behind⟩

/-- Lexemes that stand alone correspond to the same ones between the other lines. -/
def correspondence : Correspondence where
  position := s.position
  behind := s.behind
  separated := s.separated
  places n n' := n' = n + s.offset
  texts _ text text' := text' = text
  toUpper_eq := by
    rintro _ _ rfl
    rfl
  head?_eq := by
    rintro _ _ rfl
    rfl

theorem cursors_place (c : Cursor) : s.correspondence.Cursors c (s.place c) where
  position_eq := rfl
  lastStop := rfl
  ahead := by
    refine ⟨c.ahead.map (.shift s.offset), rfl, ?_⟩
    rw [List.forall₂_map_right_iff, List.forall₂_same]
    exact fun l _ => ⟨rfl, rfl, rfl, rfl⟩

variable {s}

/-! ## What corresponds is moved on -/

theorem eq_of_forall₂ {α : Type} {related : α → α → Prop} {move : α → α}
    (h : ∀ a a', related a a' → a' = move a) {as as' : List α} (has : as.Forall₂ related as') :
    as' = as.map move := by
  induction has with
  | nil => rfl
  | cons ha _ ih => rw [List.map_cons, h _ _ ha, ih]

theorem eq_of_lexemes (l l' : Lexeme) (h : s.correspondence.Lexemes l l') : l' = l.shift s.offset := by
  obtain ⟨htoken, htext, hstart, hstop⟩ := h
  exact Lexeme.mk.injEq .. |>.mpr ⟨htoken, htext, hstart, hstop⟩

theorem eq_of_spans {span span' : Span} (h : s.correspondence.Spans span span') :
    span' = span.shift s.offset := Span.mk.injEq .. |>.mpr ⟨h.start, h.stop⟩

theorem eq_of_cursors {c c' : Cursor} (h : s.correspondence.Cursors c c') : c' = s.place c := by
  obtain ⟨hposition, hstop, row, hrow, hlexemes⟩ := h
  rw [eq_of_forall₂ eq_of_lexemes hlexemes] at hrow
  exact Cursor.mk.injEq .. |>.mpr ⟨hposition, hstop, hrow⟩

theorem eq_of_addresses {e e' : AddressExpression} (h : s.correspondence.Addresses e e') :
    e' = e.shift s.offset := by
  have hterms := Correspondence.eq_of_terms (fun _ _ hname => hname) h.terms
  exact AddressExpression.mk.injEq .. |>.mpr ⟨hterms, h.index_eq, eq_of_spans h.span⟩

theorem eq_of_arguments (a a' : WrittenArgument) (h : s.correspondence.Arguments a a') :
    a' = a.shift s.offset := by
  cases h with
  | register | condition => rfl
  | address h => rw [eq_of_addresses h]; rfl

theorem eq_of_bodies {b b' : Statement.Body} (h : s.correspondence.Bodies b b') :
    b' = b.shift s.offset := by
  cases h with
  | value | allocation => rfl
  | command h =>
    exact congrArg _ (CommandStatement.mk.injEq .. |>.mpr ⟨h.instruction_eq, h.mode_eq,
      eq_of_forall₂ eq_of_arguments h.arguments, eq_of_spans h.span⟩)

theorem eq_of_statements {t t' : Statement} (h : s.correspondence.Statements t t') :
    t' = t.shift s.offset :=
  Statement.mk.injEq .. |>.mpr ⟨eq_of_bodies h.body, eq_of_spans h.span⟩

end Surroundings

end Drama
