-- SUMMARY: A construct that is tried leaves the cursor where it was, or behind what it has read and before the next barrier.
import Drama.Proofs.Source.Detached
import Drama.Proofs.Source.ErrorDepth

/-!
# Backtracking

A construct can be tried at any place among the lexemes of a text. If it fails, the cursor is back at that
place, and the error stands between there and the next barrier. If it succeeds, it has read at least one lexeme
and none from the next barrier on, and its span is that of the lexemes read. There is no third way out: the only
error that quotes a number is that of an allocation with a negative size, and it can be written, since the
literals of a text are not too long for that.
-/

namespace Drama

open Drama.Parser

/-! ## Constructs -/

/-- What can be read on its own. -/
inductive Construct
  | term
  | address
  | command
  | value
  | allocation
  | label

namespace Construct

/-- What is made of a construct. -/
def Made : Construct → Type
  | .term => Term
  | .address => AddressExpression
  | .command | .value | .allocation => Statement
  | .label => Element

def parser : (k : Construct) → Parser k.Made
  | .term => Term.parser
  | .address => AddressExpression.parser
  | .command => CommandStatement.parser
  | .value => Statement.valueParser
  | .allocation => Statement.allocationParser
  | .label => Element.labelParser

/-- The span of what is made of a construct. Single terms have none. -/
def span? : (k : Construct) → k.Made → Option Span
  | .term, _ => none
  | .address, e => some e.span
  | .command, s | .value, s | .allocation, s => some s.span
  | .label, e => some e.span

end Construct

/-! ## Where constructs stop -/

namespace Parser

variable {α β : Type} {p : Parser α} {c c' : Cursor} {e : ParseError}

theorem run_attempt_error (h : p.run c = .error e c') : (attempt p).run c = .error e c := by
  show EStateM.tryCatch p _ c = _
  rw [EStateM.tryCatch, show p c = .error e c' from h]
  rfl

/-- A sequence that fails has done so in its first part or in its second one. -/
theorem of_run_bind_error {f : α → Parser β} (h : (p >>= f).run c = .error e c') :
    p.run c = .error e c' ∨ ∃ a c₁, p.run c = .ok a c₁ ∧ (f a).run c₁ = .error e c' := by
  cases hp : p.run c with
  | ok a c₁ => exact .inr ⟨a, c₁, rfl, (run_bind hp).symm.trans h⟩
  | error e₁ c₁ =>
    cases (run_bind_error hp).symm.trans h
    exact .inl rfl

end Parser

/-- A term is a single lexeme. -/
theorem Term.passedSome {c c' : Cursor} {t : Term} (h : parser.run c = .ok t c') : c.PassedSome c' := by
  obtain ⟨l, -, -, hl⟩ := of_run_read Lexeme.only_term? (by decide) h
  exact ⟨l, [], hl⟩

theorem AddressExpression.spans : Spans parser AddressExpression.span InRange := by
  intro c e c' h
  obtain ⟨-, hgood⟩ := gives c e c' h
  obtain ⟨start, c₁, hstart, h₁⟩ := of_run_bind h
  obtain ⟨first, c₂, hfirst, h₂⟩ := of_run_bind h₁
  obtain ⟨others, c₃, hothers, h₃⟩ := of_run_bind h₂
  obtain ⟨index, c₄, hindex, h₄⟩ := of_run_bind h₃
  obtain ⟨stop, c₅, hstop, h₅⟩ := of_run_bind h₄
  cases hstart
  cases hstop
  cases h₅
  have hfirst := Term.passedSome (of_run_attempt hfirst)
  obtain ⟨hothers, -⟩ := (Gives.repeated (Term.gives_further.mono fun _ _ _ _ => trivial)) _ _ _ hothers
  obtain ⟨hindex, -⟩ := Index.gives _ _ _ hindex
  exact ⟨hfirst.trans (hothers.trans hindex), rfl, hgood⟩

namespace Construct

variable {c c' origin : Cursor}

/-- A construct takes up at least one lexeme and no barrier, and its span is that of the lexemes taken up. -/
theorem passedSome (k : Construct) {a : k.Made} (h : k.parser.run c = .ok a c') :
    c.PassedSome c' ∧ ∀ span ∈ k.span? a, span = c.spanTo c' := by
  have of_spans {α : Type} {p : Parser α} {span : α → Span} {good : α → Prop} {a : α}
      (hspans : p.Spans span good) (hrun : p.run c = .ok a c') :
      c.PassedSome c' ∧ ∀ s ∈ some (span a), s = c.spanTo c' := by
    obtain ⟨hpassed, hspan, -⟩ := hspans c a c' hrun
    exact ⟨hpassed, fun _ hs => (Option.mem_some.1 hs).symm.trans hspan⟩
  cases k with
  | term => exact ⟨Term.passedSome h, nofun⟩
  | address => exact of_spans AddressExpression.spans h
  | command => exact of_spans CommandStatement.spans h
  | value => exact of_spans Statement.spans_valueParser h
  | allocation => exact of_spans Statement.spans_allocationParser h
  | label =>
    obtain ⟨hpassed, name, rfl⟩ := Element.label_of_labelParser h
    exact ⟨hpassed, fun _ hs => (Option.mem_some.1 hs).symm⟩

/-- Neither a construct nor its error gets over a lexeme of a kind that no construct has. -/
theorem keeps (k : Construct) : Keeps Element.constructKinds origin k.parser := by
  cases k with
  | term => exact .widen (fun _ => Term.keeps) (by decide)
  | address => exact .widen (fun _ => AddressExpression.keeps) (by decide)
  | command => exact CommandStatement.keeps
  | value => exact Statement.keeps_valueParser
  | allocation => exact Statement.keeps_allocationParser
  | label => exact Element.keeps_labelParser

end Construct

/-! ## Numbers in errors -/

/-- Whether all literals ahead can be written. -/
def Cursor.Writable (c : Cursor) : Prop :=
  ∀ l ∈ c.ahead, ∀ value, l.token = .literal value → value.natAbs < Numeral.writeBound

/-- Errors have messages unless a number in them is too long to be written. -/
def ParseError.Cause.checkMessage : ParseError.Cause → Except Numeral.Error Unit
  | .negativeSize size => discard (Numeral.write size)
  | _ => .ok ()

namespace Parser

variable {α β : Type} {p : Parser α} {f : Lexeme → Option α}

/-- All errors of a parser have messages, whatever is ahead. -/
def Reports (p : Parser α) : Prop := ∀ c e c', p.run c = .error e c' → e.cause.checkMessage = .ok ()

namespace Reports

theorem pure (a : α) : Reports (pure a) := by
  intro c e c' h
  cases h

theorem bind {g : α → Parser β} (hp : Reports p) (hg : ∀ a, Reports (g a)) : Reports (p >>= g) := by
  intro c e c' h
  obtain h | ⟨a, c₁, -, h⟩ := of_run_bind_error h
  · exact hp c e c' h
  · exact hg a c₁ e c' h

theorem attempt (hp : Reports p) : Reports (attempt p) := by
  intro c e c' h
  cases hrun : p.run c with
  | ok a c₁ => cases (run_attempt hrun).symm.trans h
  | error e₁ c₁ =>
    cases (run_attempt_error hrun).symm.trans h
    exact hp c e c₁ hrun

theorem repeated {p : Parser (Option α)} (hp : Reports p) : Reports (repeated p) := by
  have hrounds (limit : Nat) : Reports (repeatAtMost p limit) := by
    induction limit with
    | zero => exact .pure []
    | succ limit ih =>
      apply hp.bind
      intro r
      cases r with
      | none => exact .pure []
      | some a => exact ih.bind fun others => .pure (a :: others)
  exact fun c e c' h => hrounds _ c e c' h

end Reports

theorem reports_get : Reports get := by
  intro c e c' h
  cases h

theorem reports_modify {g : Cursor → Cursor} : Reports (modify g) := by
  intro c e c' h
  cases h

theorem reports_peekMap : Reports (peekMap f) := by
  intro c e c' h
  cases h

theorem reports_fail {cause : ParseError.Cause} (h : cause.checkMessage = .ok ()) :
    Reports (α := α) (fail cause) := by
  intro c e c' hrun
  cases hrun
  exact h

theorem reports_failAt {place : Cursor} {cause : ParseError.Cause} (h : cause.checkMessage = .ok ()) :
    Reports (α := α) (failAt place cause) := by
  intro c e c' hrun
  cases hrun
  exact h

theorem reports_readIf : Reports (readIf f) := by
  apply reports_peekMap.bind
  intro r
  cases r with
  | none => exact .pure none
  | some a => exact reports_modify.bind fun _ => .pure (some a)

theorem reports_read {expected : List LexemeKind} : Reports (read expected f) := by
  apply reports_readIf.bind
  intro r
  cases r with
  | some a => exact .pure a
  | none => exact reports_get.bind fun c => reports_fail rfl

end Parser

theorem Term.reports : Reports parser := reports_read

theorem Term.reports_further : Reports further := by
  apply reports_peekMap.bind
  intro operator
  cases operator with
  | none => exact reports_readIf.bind fun r => .pure _
  | some operator =>
    dsimp only
    split
    · exact reports_modify.bind fun _ => reports.attempt.bind fun t => .pure _
    · exact reports_fail rfl

namespace Index

theorem reports_checkOperators (before after : Option Operator) : Reports (checkOperators before after) := by
  unfold checkOperators
  split
  · exact reports_fail rfl
  · split
    · exact reports_fail rfl
    · exact .pure ()

theorem reports_inner : Reports inner := by
  apply reports_readIf.bind
  intro before
  apply reports_read.bind
  intro register
  apply reports_readIf.bind
  intro after
  apply (reports_checkOperators before after).bind
  intro _
  apply reports_get.bind
  intro closing
  apply reports_read.bind
  intro bracket
  cases bracket with
  | opening => exact reports_failAt rfl
  | closing => exact .pure _

theorem reports : Reports parser := by
  apply reports_get.bind
  intro start
  apply reports_readIf.bind
  intro bracket
  match bracket with
  | none => exact .pure none
  | some .closing => exact reports_failAt rfl
  | some .opening => exact reports_inner.bind fun i => .pure (some i)

end Index

theorem AddressExpression.reports : Reports parser := by
  apply reports_get.bind
  intro start
  apply Term.reports.attempt.bind
  intro first
  apply Term.reports_further.repeated.bind
  intro others
  apply Index.reports.bind
  intro index
  exact reports_get.bind fun stop => .pure _

theorem WrittenArgument.reports : Reports parser := by
  apply reports_readIf.bind
  intro register
  cases register with
  | some number => exact .pure _
  | none =>
    apply reports_readIf.bind
    intro named
    cases named with
    | some condition => exact .pure _
    | none => exact AddressExpression.reports.attempt.bind fun e => .pure _

namespace CommandStatement

theorem reports_furtherArgument : Reports furtherArgument := by
  apply reports_readIf.bind
  intro separator
  cases separator with
  | none => exact .pure none
  | some _ => exact WrittenArgument.reports.bind fun a => .pure (some a)

theorem reports_argumentsParser : Reports argumentsParser := by
  apply reports_peekMap.bind
  intro start
  cases start with
  | none => exact .pure []
  | some _ =>
    apply WrittenArgument.reports.bind
    intro first
    exact reports_furtherArgument.repeated.bind fun others => .pure (first :: others)

theorem reports : Reports parser := by
  apply reports_get.bind
  intro start
  apply reports_read.bind
  intro name
  apply reports_get.bind
  intro behindName
  cases InstructionSet.standard.find? (String.ofList (Text.toUpper name)) with
  | none => exact reports_failAt rfl
  | some instruction =>
    apply reports_readIf.bind
    intro mode
    apply reports_argumentsParser.bind
    intro arguments
    exact reports_get.bind fun stop => .pure _

end CommandStatement

theorem Statement.reports_valueParser : Reports valueParser := by
  apply reports_get.bind
  intro start
  apply reports_read.bind
  intro value
  exact reports_get.bind fun stop => .pure _

theorem Element.reports_labelParser : Reports labelParser := by
  apply reports_get.bind
  intro start
  apply reports_read.bind
  intro name
  apply reports_readIf.bind
  intro marker
  cases marker with
  | none => exact reports_failAt rfl
  | some _ => exact reports_get.bind fun stop => .pure _

theorem Lexeme.token_of_literal? {l : Lexeme} {value : Int} (h : l.literal? = some value) :
    l.token = .literal value := by
  unfold literal? at h
  split at h
  · cases h
    assumption
  · cases h

/-- Only an allocation quotes a number, that of a literal which is ahead. -/
theorem Statement.checkMessage_of_allocationParser {c c' : Cursor} {e : ParseError} (hc : c.Writable)
    (h : allocationParser.run c = .error e c') : e.cause.checkMessage = .ok () := by
  have hkeyword := Lexeme.only_ofKinds (List.cons_ne_nil LexemeKind.identifier [])
  obtain h | ⟨start, c₁, hstart, h₁⟩ := of_run_bind_error h
  · cases h
  obtain h | ⟨keyword, c₂, hread, h₂⟩ := of_run_bind_error h₁
  · exact reports_read _ _ _ h
  cases hstart
  split at h₂
  · cases h₂
    rfl
  · obtain h | ⟨beforeSize, c₃, hget, h₃⟩ := of_run_bind_error h₂
    · cases h
    obtain h | ⟨size, c₄, hsize, h₄⟩ := of_run_bind_error h₃
    · exact reports_read _ _ _ h
    cases hget
    split at h₄
    · cases h₄
      obtain ⟨_, -, -, hpasses⟩ := of_run_read hkeyword (by decide) hread
      obtain ⟨l, hl, hmade, -⟩ := of_run_read Lexeme.only_literal? (by decide) hsize
      have hmem : l ∈ c.ahead := hpasses.ahead ▸ List.mem_append_right _ hl
      have hsize := hc l hmem size (Lexeme.token_of_literal? hmade)
      show discard (Numeral.write size) = .ok ()
      rw [Numeral.write_of_lt hsize]
      rfl
    · cases h₄

/-- Whatever a construct complains of, it can say. -/
theorem Construct.checkMessage_of_error (k : Construct) {c c' : Cursor} {e : ParseError} (hc : c.Writable)
    (h : k.parser.run c = .error e c') : e.cause.checkMessage = .ok () := by
  cases k with
  | term => exact Term.reports c e c' h
  | address => exact AddressExpression.reports c e c' h
  | command => exact CommandStatement.reports c e c' h
  | value => exact Statement.reports_valueParser c e c' h
  | allocation => exact Statement.checkMessage_of_allocationParser hc h
  | label => exact Element.reports_labelParser c e c' h

/-! ## Contract -/

/-- The index of the first barrier from an index on, or that of the end if there is none. -/
def Element.barrierFrom (lexemes : List Lexeme) (i : Nat) : Nat :=
  i + (lexemes.drop i).findIdx (·.isOf barriers)

theorem Element.le_barrierFrom {lexemes run behind : List Lexeme} {i : Nat}
    (hdrop : lexemes.drop i = run ++ behind) (hclear : ∀ l ∈ run, l.kind ∉ barriers) :
    i + run.length ≤ barrierFrom lexemes i := by
  have hnone : ¬run.findIdx (·.isOf barriers) < run.length := by
    rw [List.findIdx_lt_length]
    rintro ⟨l, hl, hbarrier⟩
    exact hclear l hl (by simpa [Lexeme.isOf, barriers] using hbarrier)
  rw [barrierFrom, hdrop, List.findIdx_append, if_neg hnone]
  omega

namespace Cursor

variable {c : Cursor} {lexemes run : List Lexeme} {i : Nat}

theorem moves_behindFirst (hi : i ≤ lexemes.length) :
    (ofLexemes lexemes).Moves (lexemes.take i) (behindFirst lexemes i) where
  ahead := (List.take_append_drop i lexemes).symm
  position := by
    rw [List.length_take_of_le hi]
    exact (Nat.zero_add i).symm
  lastStop := rfl

theorem Moves.eq_behindFirst_add (h : (behindFirst lexemes i).Moves run c) (hi : i ≤ lexemes.length) :
    c = behindFirst lexemes (i + run.length) := by
  have hall := ((moves_behindFirst hi).trans h).eq_behindFirst
  rwa [List.length_append, List.length_take_of_le hi] at hall

end Cursor

namespace Construct

variable {lexemes : List Lexeme} {i : Nat}

/-- The construct fails at index `i`, and its error stands at a lexeme from there on, up to and including the
next barrier. -/
structure Refused (k : Construct) (lexemes : List Lexeme) (i : Nat) (e : ParseError) : Prop where
  fails : k.parser.FailsWith (.behindFirst lexemes i) e
  le_depth : i ≤ e.depth
  depth_le : e.depth ≤ Element.barrierFrom lexemes i
  span : e.span = lexemes[e.depth]?.map Lexeme.span
  message : e.cause.checkMessage = .ok ()

/-- The construct is made of the lexemes with the indices from `i` up to but without `j`. -/
structure ReadFrom (k : Construct) (lexemes : List Lexeme) (i j : Nat) (a : k.Made) : Prop where
  reads : k.parser.run (.behindFirst lexemes i) = .ok a (.behindFirst lexemes j)
  advances : i < j
  within : j ≤ Element.barrierFrom lexemes i
  span : ∀ s ∈ k.span? a,
    lexemes[i]?.map (·.start) = some s.start ∧ lexemes[j - 1]?.map (·.stop) = some s.stop

/-- Where a construct fails, its error is about a lexeme before the next barrier or about that barrier. -/
theorem refused_of_failsWith {k : Construct} {e : ParseError} (hlexemes : (Cursor.ofLexemes lexemes).Writable)
    (h : k.parser.FailsWith (.behindFirst lexemes i) e) : k.Refused lexemes i e := by
  obtain ⟨c', hrun⟩ := h
  have hwritable : (Cursor.behindFirst lexemes i).Writable := fun l hl =>
    hlexemes l (List.mem_of_mem_drop hl)
  have hmessage := k.checkMessage_of_error hwritable hrun
  obtain ⟨place, run, cause, hmoves, hclear, rfl⟩ := k.keeps.exists_place ⟨c', hrun⟩
  obtain ⟨hdepth, hspan⟩ := hmoves.error_eq cause
  have hle := Element.le_barrierFrom hmoves.ahead hclear
  rw [← hdepth] at hspan hle
  exact ⟨⟨c', hrun⟩, hdepth ▸ Nat.le_add_right i _, hle, hspan, hmessage⟩

/-- Where a construct is read, it is made of lexemes before the next barrier. -/
theorem exists_readFrom {k : Construct} {a : k.Made} {c' : Cursor} (hi : i ≤ lexemes.length)
    (h : k.parser.run (.behindFirst lexemes i) = .ok a c') :
    ∃ j, c' = .behindFirst lexemes j ∧ k.ReadFrom lexemes i j a := by
  obtain ⟨⟨first, more, hpasses⟩, hspan⟩ := k.passedSome h
  obtain rfl := hpasses.toMoves.eq_behindFirst_add hi
  have hdrop : lexemes.drop i = (first :: more) ++ _ := hpasses.ahead
  have hfirst : lexemes[i]? = some first := by
    rw [← Nat.add_zero i, ← List.getElem?_drop, hdrop]
    rfl
  have hlast : lexemes[i + more.length]? = some (more.getLastD first) := by
    rw [← List.getElem?_drop, hdrop, List.getElem?_append_left (Nat.lt_succ_self _),
      List.getLastD_eq_getLast?, ← List.getLast?_cons, List.getLast?_eq_getElem?]
    rfl
  refine ⟨_, rfl, h, Nat.lt_add_of_pos_right (Nat.succ_pos _), Element.le_barrierFrom hdrop hpasses.clear,
    fun s hs => ?_⟩
  obtain rfl := hspan s hs
  rw [hpasses.spanTo_eq, hfirst]
  exact ⟨rfl, congrArg (Option.map (·.stop)) hlast⟩

end Construct

/-- Wherever a construct is tried among the lexemes of a text, it fails and the cursor is put back there, or it
is read and the cursor stands behind it. -/
theorem attempt_restores_or_advances {text : List Char} {lexemes : List Lexeme}
    (hlex : lex text = .ok lexemes) {i : Nat} (hi : i ≤ lexemes.length) (k : Construct) :
    (∃ e, (attempt k.parser).run (.behindFirst lexemes i) = .error e (.behindFirst lexemes i) ∧
        k.Refused lexemes i e) ∨
      ∃ a j, (attempt k.parser).run (.behindFirst lexemes i) = .ok a (.behindFirst lexemes j) ∧
        k.ReadFrom lexemes i j a := by
  cases hrun : k.parser.run (.behindFirst lexemes i) with
  | error e c' =>
    exact .inl ⟨e, run_attempt_error hrun, Construct.refused_of_failsWith (lex_literal_lt hlex) ⟨c', hrun⟩⟩
  | ok a c' =>
    obtain ⟨j, rfl, hread⟩ := Construct.exists_readFrom hi hrun
    exact .inr ⟨a, j, run_attempt hrun, hread⟩

/-- The error of a command with an index that is not closed stands at the end of its line, and the cursor is put
back behind the label in front, which is read. -/
theorem attempt_restores_or_advances_of_open_index :
    ∃ lexemes, lex "x: HIA R1, 5(R2\n7".toList = .ok lexemes ∧ 2 ≤ lexemes.length ∧
      Element.barrierFrom lexemes 2 = 8 ∧
      (∃ e, (attempt Construct.command.parser).run (.behindFirst lexemes 2) =
          .error e (.behindFirst lexemes 2) ∧ e.depth = 8 ∧ Construct.command.Refused lexemes 2 e) ∧
      ∃ a, (attempt Construct.label.parser).run (.behindFirst lexemes 0) = .ok a (.behindFirst lexemes 2) ∧
        Construct.label.ReadFrom lexemes 0 2 a := by
  obtain ⟨lexemes, hlex, hlength, hbarrier, ⟨e, hcommand, hdepth⟩, a, hlabel⟩ : ∃ lexemes,
      lex "x: HIA R1, 5(R2\n7".toList = .ok lexemes ∧ 2 ≤ lexemes.length ∧
        Element.barrierFrom lexemes 2 = 8 ∧
        (∃ e, (attempt Construct.command.parser).run (.behindFirst lexemes 2) =
          .error e (.behindFirst lexemes 2) ∧ e.depth = 8) ∧
        ∃ a, (attempt Construct.label.parser).run (.behindFirst lexemes 0) =
          .ok a (.behindFirst lexemes 2) :=
    ⟨_, rfl, by decide, by decide +kernel, ⟨_, rfl, rfl⟩, _, rfl⟩
  refine ⟨lexemes, hlex, hlength, hbarrier, ⟨e, hcommand, hdepth, ?_⟩, a, hlabel, ?_⟩
  · obtain ⟨e', hrun, hrefused⟩ | ⟨a, j, hrun, -⟩ := attempt_restores_or_advances hlex hlength .command
    · cases hrun.symm.trans hcommand
      exact hrefused
    · cases hrun.symm.trans hcommand
  · obtain ⟨e', hrun, -⟩ | ⟨a', j, hrun, hread⟩ :=
      attempt_restores_or_advances hlex (Nat.zero_le _) .label
    · cases hrun.symm.trans hlabel
    · cases hrun.symm.trans hlabel
      exact hread

end Drama
