-- SUMMARY: How far parsers get: they stop, and their errors stand, at places reached over lexemes of a few kinds.
import Drama.Proofs.Source.Progress

/-!
# Reach of parsers

Between the place where a parser starts and the place where it stops, or where the error stands that it ends
in, there are only lexemes of the kinds that its construct consists of. An error may stand in front of lexemes
that have been read already, but never in front of the construct. What a parser keeps to (`Parser.Keeps`) is
stated from a fixed origin, since a construct can put its error back to where it started.
-/

namespace Drama

/-! ## Places that are reached -/

namespace Cursor

/-- One cursor stands behind another, and all lexemes between them are of the given kinds. -/
def Reaches (kinds : List LexemeKind) (c c' : Cursor) : Prop :=
  ∃ run, c.Moves run c' ∧ ∀ l ∈ run, l.kind ∈ kinds

namespace Reaches

variable {kinds : List LexemeKind} {c c' c'' : Cursor}

theorem refl (c : Cursor) : Reaches kinds c c := ⟨[], .refl c, List.forall_mem_nil _⟩

theorem trans (h : Reaches kinds c c') (h' : Reaches kinds c' c'') : Reaches kinds c c'' := by
  obtain ⟨run, hmoves, hrun⟩ := h
  obtain ⟨run', hmoves', hrun'⟩ := h'
  exact ⟨run ++ run', hmoves.trans hmoves', List.forall_mem_append.2 ⟨hrun, hrun'⟩⟩

theorem advance {l : Lexeme} (hl : c.next? = some l) (hkind : l.kind ∈ kinds) :
    Reaches kinds c c.advance := by
  obtain ⟨rest, hahead⟩ := List.head?_eq_some_iff.1 hl
  exact ⟨[l], .advance hahead, List.forall_mem_singleton.2 hkind⟩

theorem widen {kinds' : List LexemeKind} (h : Reaches kinds c c') (hkinds : kinds ⊆ kinds') :
    Reaches kinds' c c' := by
  obtain ⟨run, hmoves, hrun⟩ := h
  exact ⟨run, hmoves, fun l hl => hkinds (hrun l hl)⟩

end Reaches

end Cursor

/-- Nothing is made of lexemes of other kinds, so a lexeme of which something is made is of one of these. -/
theorem Lexeme.Only.kind_mem {α : Type} {kinds : List LexemeKind} {f : Lexeme → Option α} (hf : Only kinds f)
    {l : Lexeme} {a : α} (h : f l = some a) : l.kind ∈ kinds := by
  by_contra hkind
  rw [hf l hkind] at h
  cases h

/-! ## Parsers that keep to lexemes of a few kinds -/

namespace Parser

variable {α β : Type} {kinds own : List LexemeKind} {origin : Cursor} {f : Lexeme → Option α}

/-- The result of a parser that has stopped at a place reached from the origin, or ended in an error there. -/
inductive Kept (kinds : List LexemeKind) (origin : Cursor) : EStateM.Result ParseError Cursor α → Prop
  | ok {a : α} {c : Cursor} (h : origin.Reaches kinds c) : Kept kinds origin (.ok a c)
  | error {place c : Cursor} {cause : ParseError.Cause} (h : origin.Reaches kinds place) :
      Kept kinds origin (.error (place.error cause) c)

def Keeps (kinds : List LexemeKind) (origin : Cursor) (p : Parser α) : Prop :=
  ∀ c, origin.Reaches kinds c → Kept kinds origin (p.run c)

namespace Keeps

theorem pure (a : α) : Keeps kinds origin (pure a) := fun _ hc => .ok hc

theorem bind {p : Parser α} {f : α → Parser β} (hp : Keeps kinds origin p)
    (hf : ∀ a, Keeps kinds origin (f a)) : Keeps kinds origin (p >>= f) := by
  intro c hc
  have h := hp c hc
  generalize hrun : p.run c = r at h
  cases h with
  | ok hc' =>
    rw [run_bind hrun]
    exact hf _ _ hc'
  | error hplace =>
    rw [run_bind_error hrun]
    exact .error hplace

/-- A parser that knows where it is knows a place reached from the origin. -/
theorem bind_get {f : Cursor → Parser α} (hf : ∀ c, origin.Reaches kinds c → Keeps kinds origin (f c)) :
    Keeps kinds origin (get >>= f) := fun c hc => hf c hc c hc

theorem map {p : Parser α} {g : α → β} (hp : Keeps kinds origin p) : Keeps kinds origin (g <$> p) := by
  rw [map_eq_pure_bind]
  exact hp.bind fun a => .pure (g a)

theorem attempt {p : Parser α} (hp : Keeps kinds origin p) : Keeps kinds origin (attempt p) := by
  intro c hc
  have h := hp c hc
  generalize hrun : p.run c = r at h
  show Kept kinds origin (EStateM.tryCatch p _ c)
  rw [EStateM.tryCatch, show p c = r from hrun]
  cases h with
  | ok hc' => exact .ok hc'
  | error hplace => exact .error hplace

theorem repeated {p : Parser (Option α)} (hp : Keeps kinds origin p) : Keeps kinds origin (repeated p) := by
  have hrounds (limit : Nat) : Keeps kinds origin (repeatAtMost p limit) := by
    induction limit with
    | zero => exact .pure []
    | succ limit ih =>
      apply hp.bind
      intro r
      cases r with
      | none => exact .pure []
      | some a => exact ih.bind fun others => .pure (a :: others)
  exact fun c hc => hrounds _ c hc

/-- What keeps to lexemes of a few kinds wherever it starts keeps to those of more kinds. -/
theorem widen {kinds' : List LexemeKind} {p : Parser α} (hp : ∀ c, Keeps kinds c p) (hkinds : kinds ⊆ kinds') :
    Keeps kinds' origin p := by
  intro c hc
  have h := hp c c (.refl c)
  generalize p.run c = r at h
  cases h with
  | ok hc' => exact .ok (hc.trans (hc'.widen hkinds))
  | error hplace => exact .error (hc.trans (hplace.widen hkinds))

end Keeps

theorem keeps_fail (cause : ParseError.Cause) : Keeps (α := α) kinds origin (fail cause) :=
  fun _ hc => .error hc

theorem keeps_failAt {place : Cursor} (hplace : origin.Reaches kinds place) (cause : ParseError.Cause) :
    Keeps (α := α) kinds origin (failAt place cause) := fun _ _ => .error hplace

/-- What follows a look at the next lexeme knows that this lexeme is of one of the kinds, if it is seen. -/
theorem Keeps.bind_peekMap {g : Option α → Parser β} (hf : Lexeme.Only own f) (hown : own ⊆ kinds)
    (hnone : Keeps kinds origin (g none))
    (hsome : ∀ a c, origin.Reaches kinds c.advance → origin.Reaches kinds c →
      Kept kinds origin ((g (some a)).run c)) : Keeps kinds origin (peekMap f >>= g) := by
  intro c hc
  have hrun : (peekMap f).run c = .ok (c.next?.bind f) c := rfl
  rw [run_bind hrun]
  cases hmade : c.next?.bind f with
  | none => exact hnone c hc
  | some a =>
    obtain ⟨l, hl, ha⟩ := Option.bind_eq_some_iff.1 hmade
    exact hsome a c (hc.trans (.advance hl (hown (hf.kind_mem ha)))) hc

theorem keeps_readIf (hf : Lexeme.Only own f) (hown : own ⊆ kinds) : Keeps kinds origin (readIf f) :=
  .bind_peekMap hf hown (.pure none) fun _ _ hadvance _ => .ok hadvance

theorem keeps_read {expected : List LexemeKind} (hf : Lexeme.Only own f) (hown : own ⊆ kinds) :
    Keeps kinds origin (read expected f) := by
  apply (keeps_readIf hf hown).bind
  intro r
  cases r with
  | some a => exact .pure a
  | none => exact .bind_get fun c _ => keeps_fail _

end Parser

open Drama.Parser

variable {origin : Cursor}

/-! ## Addresses and arguments -/

/-- The kinds of lexemes that the arguments of commands consist of. -/
def WrittenArgument.lexemeKinds : List LexemeKind :=
  [.register, .condition, .literal, .identifier, .operator, .scope, .argumentSeparator]

theorem Term.keeps : Keeps WrittenArgument.lexemeKinds origin parser :=
  keeps_read Lexeme.only_term? (by decide)

theorem Term.keeps_further : Keeps WrittenArgument.lexemeKinds origin further := by
  apply Keeps.bind_peekMap Lexeme.only_operator? (by decide)
  · apply (keeps_readIf Lexeme.only_negativeLiteral? (by decide)).bind
    exact fun _ => .pure _
  · intro operator c hadvance hc
    dsimp only
    split
    · exact (keeps.attempt.bind fun t => .pure _) c.advance hadvance
    · exact keeps_fail _ c hc

namespace Index

theorem keeps_checkOperators (before after : Option Operator) :
    Keeps WrittenArgument.lexemeKinds origin (checkOperators before after) := by
  unfold checkOperators
  split
  · exact keeps_fail _
  · split
    · exact keeps_fail _
    · exact .pure ()

theorem keeps_inner : Keeps WrittenArgument.lexemeKinds origin inner := by
  apply (keeps_readIf Lexeme.only_operator? (by decide)).bind
  intro before
  apply (keeps_read Lexeme.only_register? (by decide)).bind
  intro register
  apply (keeps_readIf Lexeme.only_operator? (by decide)).bind
  intro after
  apply (keeps_checkOperators before after).bind
  intro _
  apply Keeps.bind_get
  intro closing hclosing
  apply (keeps_read Lexeme.only_bracket? (by decide)).bind
  intro bracket
  cases bracket with
  | opening => exact keeps_failAt hclosing _
  | closing => exact .pure _

theorem keeps : Keeps WrittenArgument.lexemeKinds origin parser := by
  apply Keeps.bind_get
  intro start hstart
  apply (keeps_readIf Lexeme.only_bracket? (by decide)).bind
  intro bracket
  match bracket with
  | none => exact .pure none
  | some .closing => exact keeps_failAt hstart _
  | some .opening => exact keeps_inner.bind fun i => .pure (some i)

end Index

theorem AddressExpression.keeps : Keeps WrittenArgument.lexemeKinds origin parser := by
  apply Keeps.bind_get
  intro start _
  apply Term.keeps.attempt.bind
  intro first
  apply Term.keeps_further.repeated.bind
  intro others
  apply Index.keeps.bind
  intro index
  exact .bind_get fun stop _ => .pure _

theorem WrittenArgument.keeps : Keeps lexemeKinds origin parser := by
  apply (keeps_readIf Lexeme.only_register? (by decide)).bind
  intro register
  cases register with
  | some number => exact .pure _
  | none =>
    apply (keeps_readIf Lexeme.only_condition? (by decide)).bind
    intro named
    cases named with
    | some condition => exact .pure _
    | none => exact AddressExpression.keeps.attempt.bind fun e => .pure _

namespace CommandStatement

theorem keeps_furtherArgument : Keeps WrittenArgument.lexemeKinds origin furtherArgument := by
  have hseparator := Lexeme.only_ofKinds (List.cons_ne_nil LexemeKind.argumentSeparator [])
  apply (keeps_readIf hseparator (by decide)).bind
  intro separator
  cases separator with
  | none => exact .pure none
  | some _ => exact WrittenArgument.keeps.bind fun a => .pure (some a)

theorem keeps_argumentsParser : Keeps WrittenArgument.lexemeKinds origin argumentsParser := by
  have hstart := Lexeme.only_ofKinds (List.cons_ne_nil LexemeKind.register [.condition, .literal, .identifier])
  apply Keeps.bind_peekMap hstart (by decide) (.pure [])
  intro _ c _ hc
  refine WrittenArgument.keeps.bind (fun first => ?_) c hc
  exact keeps_furtherArgument.repeated.bind fun others => .pure (first :: others)

end CommandStatement

/-! ## Constructs -/

namespace Element

/-- The kinds of lexemes that commands, values, allocations and labels consist of. -/
def constructKinds : List LexemeKind := .addressingMode :: .labelMarker :: WrittenArgument.lexemeKinds

/-- The constructs in the order in which they are tried. -/
def constructs : List (Parser Element) :=
  [.statement <$> CommandStatement.parser, .statement <$> Statement.valueParser,
    .statement <$> Statement.allocationParser, labelParser]

end Element

theorem CommandStatement.keeps : Keeps Element.constructKinds origin parser := by
  apply Keeps.bind_get
  intro start hstart
  apply (keeps_read Lexeme.only_identifier? (by decide)).bind
  intro name
  apply Keeps.bind_get
  intro behindName _
  cases InstructionSet.standard.find? (String.ofList (Text.toUpper name)) with
  | none => exact keeps_failAt hstart _
  | some instruction =>
    apply (keeps_readIf Lexeme.only_mode? (by decide)).bind
    intro mode
    apply (Keeps.widen (fun c => keeps_argumentsParser) (by decide)).bind
    intro arguments
    exact .bind_get fun stop _ => .pure _

theorem Statement.keeps_valueParser : Keeps Element.constructKinds origin valueParser := by
  apply Keeps.bind_get
  intro start _
  apply (keeps_read Lexeme.only_literal? (by decide)).bind
  intro value
  exact .bind_get fun stop _ => .pure _

theorem Statement.keeps_allocationParser : Keeps Element.constructKinds origin allocationParser := by
  have hkeyword := Lexeme.only_ofKinds (List.cons_ne_nil LexemeKind.identifier [])
  apply Keeps.bind_get
  intro start hstart
  apply (keeps_read hkeyword (by decide)).bind
  intro keyword
  split
  · exact keeps_failAt hstart _
  · apply Keeps.bind_get
    intro beforeSize hbefore
    apply (keeps_read Lexeme.only_literal? (by decide)).bind
    intro size
    split
    · exact keeps_failAt hbefore _
    · exact .bind_get fun stop _ => .pure _

theorem Element.keeps_labelParser : Keeps constructKinds origin labelParser := by
  have hmarker := Lexeme.only_ofKinds (List.cons_ne_nil LexemeKind.labelMarker [])
  apply Keeps.bind_get
  intro start hstart
  apply (keeps_read Lexeme.only_identifier? (by decide)).bind
  intro name
  apply (keeps_readIf hmarker (by decide)).bind
  intro marker
  cases marker with
  | none => exact keeps_failAt hstart _
  | some _ => exact .bind_get fun stop _ => .pure _

/-- No construct gets over a lexeme of another kind, not even with its error. -/
theorem Element.keeps_of_mem_constructs {p : Parser Element} (hp : p ∈ constructs) :
    Keeps constructKinds origin p := by
  simp only [constructs, List.mem_cons, List.not_mem_nil, or_false] at hp
  obtain rfl | rfl | rfl | rfl := hp
  · exact CommandStatement.keeps.map
  · exact Statement.keeps_valueParser.map
  · exact Statement.keeps_allocationParser.map
  · exact keeps_labelParser

end Drama
