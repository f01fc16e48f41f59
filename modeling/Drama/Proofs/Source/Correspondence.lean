-- SUMMARY: Parsers make corresponding things of corresponding lexemes: a law for each primitive parser and each construct.
import Drama.Proofs.Source.Division
import Mathlib.Data.List.Forall2

/-!
# Correspondence

Two rows of lexemes correspond if they consist of the same tokens one by one, and their texts and places are
related. There may be more lexemes before the second row, and behind it if a separator comes first. A parser
that succeeds on the first row succeeds on the second one and makes something that corresponds. Where it fails
at the end of the first row it fails at the separator, and both errors are of one class.

`Correspondence.Carries` relates two runs of a parser in this way.
-/

namespace Drama

open Drama.Parser

/-! ## Classes of errors -/

namespace ParseError

inductive ErrorClass
  | unexpectedLexeme
  | unknownInstruction
  | disallowedOperator
  | indexRegisterOperator
deriving DecidableEq

def Cause.errorClass : Cause → ErrorClass
  | .unknownInstruction _ => .unknownInstruction
  | .operatorInAddress _ | .operatorAroundIndex _ => .disallowedOperator
  | .modifiedTwice => .indexRegisterOperator
  | .unexpected .. | .openingExpected | .closingExpected | .allocationExpected _ | .negativeSize _
  | .labelMarkerExpected _ => .unexpectedLexeme

end ParseError

/-! ## Things that correspond -/

/-- How two rows of lexemes correspond. Parsers look at the letters of identifiers whatever their case, and at
the sign of literals. -/
structure Correspondence where
  /-- How many lexemes stand before the second row. -/
  position : Nat
  /-- The lexemes behind the second row. -/
  behind : List Lexeme
  separated : ∀ l ∈ behind.head?, l.kind = .statementTerminator
  places : Nat → Nat → Prop
  texts : LexemeKind → List Char → List Char → Prop
  toUpper_eq : ∀ text text', texts .identifier text text' → Text.toUpper text' = Text.toUpper text
  head?_eq : ∀ text text', texts .literal text text' → text'.head? = text.head?

namespace Correspondence

variable {α β γ δ : Type} (k : Correspondence)

structure Lexemes (l l' : Lexeme) : Prop where
  token_eq : l'.token = l.token
  text : k.texts l.kind l.text l'.text
  start : k.places l.start l'.start
  stop : k.places l.stop l'.stop

structure Spans (s s' : Span) : Prop where
  start : k.places s.start s'.start
  stop : k.places s.stop s'.stop

inductive Terms : Term → Term → Prop
  | literal (value : Int) : Terms (.literal value) (.literal value)
  | symbol {name name' : List Char} (h : k.texts .identifier name name') (positive : Bool) :
      Terms (.symbol name positive) (.symbol name' positive)

structure Addresses (e e' : AddressExpression) : Prop where
  terms : e.terms.Forall₂ k.Terms e'.terms
  index_eq : e'.index = e.index
  span : k.Spans e.span e'.span

inductive Arguments : WrittenArgument → WrittenArgument → Prop
  | register (number : Nat) : Arguments (.register number) (.register number)
  | condition (c : Condition) : Arguments (.condition c) (.condition c)
  | address {e e' : AddressExpression} (h : k.Addresses e e') : Arguments (.address e) (.address e')

structure Commands (c c' : CommandStatement) : Prop where
  instruction_eq : c'.instruction = c.instruction
  mode_eq : c'.mode = c.mode
  arguments : c.arguments.Forall₂ k.Arguments c'.arguments
  span : k.Spans c.instructionSpan c'.instructionSpan

inductive Bodies : Statement.Body → Statement.Body → Prop
  | command {c c' : CommandStatement} (h : k.Commands c c') : Bodies (.command c) (.command c')
  | value (value : Int) : Bodies (.value value) (.value value)
  | allocation (size : Nat) : Bodies (.allocation size) (.allocation size)

structure Statements (s s' : Statement) : Prop where
  body : k.Bodies s.body s'.body
  span : k.Spans s.span s'.span

inductive Elements : Element → Element → Prop
  | statement {s s' : Statement} (h : k.Statements s s') : Elements (.statement s) (.statement s')
  | label {name name' : List Char} {span span' : Span} (hname : k.texts .identifier name name')
      (hspan : k.Spans span span') : Elements (.label name span) (.label name' span')
  | comment {text text' : List Char} {span span' : Span} (htext : k.texts .comment text text')
      (hspan : k.Spans span span') : Elements (.comment text span) (.comment text' span')
  | terminator {span span' : Span} (hspan : k.Spans span span') :
      Elements (.terminator span) (.terminator span')
  | unrecognised {first first' : Lexeme} {others others' : List Lexeme} {error error' : ParseError}
      (hfirst : k.Lexemes first first') (hothers : others.Forall₂ k.Lexemes others')
      (herror : error'.cause.errorClass = error.cause.errorClass) :
      Elements (.unrecognised ⟨first, others, error⟩) (.unrecognised ⟨first', others', error'⟩)

variable {k} in
/-- Terms are the same in both rows if names are. -/
theorem eq_of_terms (hnames : ∀ name name', k.texts .identifier name name' → name' = name)
    {terms terms' : List Term} (h : terms.Forall₂ k.Terms terms') : terms' = terms := by
  induction h with
  | nil => rfl
  | cons ht _ ih =>
    cases ht with
    | literal value => rw [ih]
    | symbol hname positive => rw [ih, hnames _ _ hname]

/-! ## Two runs of a parser -/

structure Cursors (c c' : Cursor) : Prop where
  position_eq : c'.position = c.position + k.position
  lastStop : k.places c.lastStop c'.lastStop
  ahead : ∃ row, c'.ahead = row ++ k.behind ∧ c.ahead.Forall₂ k.Lexemes row

/-- Errors of one class at the same place. -/
structure Errors (e e' : ParseError) : Prop where
  errorClass_eq : e'.cause.errorClass = e.cause.errorClass
  depth_eq : e'.depth = e.depth + k.position

inductive Results (made : α → β → Prop) :
    EStateM.Result ParseError Cursor α → EStateM.Result ParseError Cursor β → Prop
  | ok {a : α} {b : β} {c c' : Cursor} (hmade : made a b) (hc : k.Cursors c c') :
      Results made (.ok a c) (.ok b c')
  | error {e e' : ParseError} {c c' : Cursor} (h : k.Errors e e') :
      Results made (.error e c) (.error e' c')

/-- From corresponding cursors the second parser makes what corresponds to what the first one makes. -/
def Carries (made : α → β → Prop) (p : Parser α) (p' : Parser β) : Prop :=
  ∀ c c', k.Cursors c c' → k.Results made (p.run c) (p'.run c')

variable {k} {made : α → β → Prop} {made' : γ → δ → Prop} {p : Parser α} {p' : Parser β}

theorem Cursors.exists_cons {c c' : Cursor} {first : Lexeme} {rest : List Lexeme} (h : k.Cursors c c')
    (hahead : c.ahead = first :: rest) : ∃ first' rest', k.Lexemes first first' ∧
      rest.Forall₂ k.Lexemes rest' ∧ c'.ahead = first' :: (rest' ++ k.behind) := by
  obtain ⟨row, hrow, hlexemes⟩ := h.ahead
  rw [hahead] at hlexemes
  cases hlexemes with
  | cons hfirst hrest => exact ⟨_, _, hfirst, hrest, hrow⟩

theorem Cursors.advance {c c' : Cursor} (h : k.Cursors c c') (hne : c.ahead ≠ []) :
    k.Cursors c.advance c'.advance := by
  obtain ⟨first, rest, hahead⟩ := List.exists_cons_of_ne_nil hne
  obtain ⟨first', rest', hfirst, hrest, hahead'⟩ := h.exists_cons hahead
  have hposition := h.position_eq
  simp only [Cursor.advance, hahead, hahead']
  exact ⟨by rw [hposition, Nat.add_right_comm], hfirst.stop, rest', rfl, hrest⟩

theorem Cursors.spanTo {start start' stop stop' : Cursor} (hstart : k.Cursors start start')
    (hne : start.ahead ≠ []) (hstop : k.Cursors stop stop') :
    k.Spans (start.spanTo stop) (start'.spanTo stop') := by
  obtain ⟨first, rest, hahead⟩ := List.exists_cons_of_ne_nil hne
  obtain ⟨first', rest', hfirst, -, hahead'⟩ := hstart.exists_cons hahead
  simp only [Cursor.spanTo, Cursor.next?, hahead, hahead']
  exact ⟨hfirst.start, hstop.lastStop⟩

theorem Cursors.error {c c' : Cursor} (hc : k.Cursors c c') {cause cause' : ParseError.Cause}
    (h : cause'.errorClass = cause.errorClass) : k.Errors (c.error cause) (c'.error cause') :=
  ⟨h, hc.position_eq⟩

/-! ## Sequences -/

theorem Results.bind {f : α → Parser γ} {f' : β → Parser δ} {c c' : Cursor}
    (h : k.Results made (p.run c) (p'.run c'))
    (hf : ∀ a b d d', p.run c = .ok a d → made a b → k.Cursors d d' →
      k.Results made' ((f a).run d) ((f' b).run d')) :
    k.Results made' ((p >>= f).run c) ((p' >>= f').run c') := by
  generalize hr : p.run c = r at h
  generalize hr' : p'.run c' = r' at h
  cases h with
  | ok hmade hd =>
    rw [Parser.run_bind hr, Parser.run_bind hr']
    exact hf _ _ _ _ hr hmade hd
  | error h =>
    rw [Parser.run_bind_error hr, Parser.run_bind_error hr']
    exact .error h

namespace Carries

theorem pure {a : α} {b : β} (h : made a b) : k.Carries made (pure a) (pure b) :=
  fun _ _ hc => .ok h hc

theorem bind {f : α → Parser γ} {f' : β → Parser δ} (hp : k.Carries made p p')
    (hf : ∀ a b, made a b → k.Carries made' (f a) (f' b)) :
    k.Carries made' (p >>= f) (p' >>= f') :=
  fun c c' hc => (hp c c' hc).bind fun a b d d' _ hmade hd => hf a b hmade d d' hd

/-- What comes behind a part that is the same in both runs. -/
theorem bind_same {p p' : Parser α} {f : α → Parser γ} {f' : α → Parser δ} (hp : k.Carries Eq p p')
    (hf : ∀ a, k.Carries made' (f a) (f' a)) : k.Carries made' (p >>= f) (p' >>= f') :=
  hp.bind fun a _ heq => heq ▸ hf a

theorem map {g : α → γ} {g' : β → δ} (hp : k.Carries made p p')
    (hg : ∀ a b, made a b → made' (g a) (g' b)) : k.Carries made' (g <$> p) (g' <$> p') := by
  rw [map_eq_pure_bind, map_eq_pure_bind]
  exact hp.bind fun a b hmade => .pure (hg a b hmade)

theorem attempt (hp : k.Carries made p p') : k.Carries made (attempt p) (attempt p') := by
  intro c c' hc
  have h := hp c c' hc
  generalize hr : p.run c = r at h
  generalize hr' : p'.run c' = r' at h
  show k.Results made (EStateM.tryCatch p _ c) (EStateM.tryCatch p' _ c')
  rw [EStateM.tryCatch, EStateM.tryCatch, show p c = r from hr, show p' c' = r' from hr']
  cases h with
  | ok hmade hd => exact .ok hmade hd
  | error h => exact .error h

/-- Where the first part reads something, both runs know the lexeme that they start from. -/
theorem spanned {f : Cursor → α → Parser γ} {f' : Cursor → β → Parser δ} (hp : k.Carries made p p')
    (hreads : ∀ c a d, p.run c = .ok a d → c.ahead ≠ [])
    (hf : ∀ start start' a b, k.Cursors start start' → start.ahead ≠ [] → made a b →
      k.Carries made' (f start a) (f' start' b)) :
    k.Carries made' (get >>= fun start => p >>= f start) (get >>= fun start => p' >>= f' start) :=
  fun c c' hc => (hp c c' hc).bind fun a b d d' hrun hmade hd =>
    hf c c' a b hc (hreads c a d hrun) hmade d d' hd

end Carries

/-- The next lexeme is passed over in both runs. -/
theorem Results.advance {c c' : Cursor} (hp : k.Carries made p p') (hc : k.Cursors c c')
    (hne : c.ahead ≠ []) :
    k.Results made ((modify Cursor.advance >>= fun _ => p).run c)
      ((modify Cursor.advance >>= fun _ => p').run c') :=
  hp c.advance c'.advance (hc.advance hne)

theorem carries_get : k.Carries k.Cursors get get := fun _ _ hc => .ok hc hc

theorem carries_fail {cause cause' : ParseError.Cause} (h : cause'.errorClass = cause.errorClass) :
    k.Carries made (fail cause) (fail cause') :=
  fun _ _ hc => .error (hc.error h)

theorem carries_failAt {place place' : Cursor} (hplace : k.Cursors place place')
    {cause cause' : ParseError.Cause} (h : cause'.errorClass = cause.errorClass) :
    k.Carries made (failAt place cause) (failAt place' cause') :=
  fun _ _ _ => .error (hplace.error h)

/-! ## Single lexemes -/

/-- Corresponding things are made of corresponding lexemes, and nothing is made of separators. -/
structure Reads (k : Correspondence) (made : α → α → Prop) (f : Lexeme → Option α) : Prop where
  lexemes : ∀ l l', k.Lexemes l l' → Option.Rel made (f l) (f l')
  separator : ∀ l : Lexeme, l.kind = .statementTerminator → f l = none

section

variable {kinds : List LexemeKind} {made : α → α → Prop} {f : Lexeme → Option α}

theorem Reads.of_only (hf : Lexeme.Only kinds f) (hkinds : .statementTerminator ∉ kinds)
    (h : ∀ l l', k.Lexemes l l' → Option.Rel made (f l) (f l')) : k.Reads made f :=
  ⟨h, fun l hl => hf l (hl ▸ hkinds)⟩

/-- What is made of the token alone is the same in both runs. -/
theorem Reads.of_token (hf : Lexeme.Only kinds f) (hkinds : .statementTerminator ∉ kinds)
    (h : ∀ l l' : Lexeme, l'.token = l.token → f l' = f l) : k.Reads Eq f :=
  .of_only hf hkinds fun l l' hl => by
    rw [h l l' hl.token_eq]
    cases f l with
    | none => exact .none
    | some a => exact .some rfl

theorem carries_peekMap (h : k.Reads made f) :
    k.Carries (Option.Rel made) (peekMap f) (peekMap f) := by
  intro c c' hc
  refine .ok ?_ hc
  cases hahead : c.ahead with
  | cons first rest =>
    obtain ⟨first', rest', hfirst, -, hahead'⟩ := hc.exists_cons hahead
    simp only [Cursor.next?, hahead, hahead']
    exact h.lexemes first first' hfirst
  | nil =>
    obtain ⟨row, hrow, hlexemes⟩ := hc.ahead
    rw [hahead] at hlexemes
    cases hlexemes
    have hnone : k.behind.head?.bind f = none :=
      Option.bind_eq_none_iff.2 fun l hl => h.separator l (k.separated l hl)
    simp only [Cursor.next?, hahead, hrow, List.nil_append, hnone]
    exact .none

theorem carries_readIf (h : k.Reads made f) : k.Carries (Option.Rel made) (readIf f) (readIf f) := by
  intro c c' hc
  refine (carries_peekMap h c c' hc).bind fun r r' d d' hrun hmade hd => ?_
  obtain ⟨rfl, hr⟩ := of_run_peekMap hrun
  cases hmade with
  | none => exact .ok .none hd
  | some hmade =>
    obtain ⟨l, hl, -⟩ := Option.bind_eq_some_iff.1 hr.symm
    exact .advance (.pure (.some hmade)) hd (Cursor.ahead_ne_nil hl)

theorem carries_read (h : k.Reads made f) (expected : List LexemeKind) :
    k.Carries made (read expected f) (read expected f) := by
  refine (carries_readIf h).bind fun r r' hmade => ?_
  cases hmade with
  | some hmade => exact .pure hmade
  | none => exact carries_get.bind fun c c' hc => carries_fail rfl

theorem carries_readIf_same (h : k.Reads Eq f) : k.Carries Eq (readIf f) (readIf f) := by
  intro c c' hc
  have hread := carries_readIf h c c' hc
  generalize (readIf f).run c = r at hread
  generalize (readIf f).run c' = r' at hread
  cases hread with
  | ok hmade hd =>
    refine .ok ?_ hd
    cases hmade with
    | none => rfl
    | some heq => rw [heq]
  | error h => exact .error h

end

theorem reads_operator : k.Reads Eq Lexeme.operator? :=
  .of_token Lexeme.only_operator? (by decide) fun l l' h => by rw [Lexeme.operator?, h]; rfl

theorem reads_register : k.Reads Eq Lexeme.register? :=
  .of_token Lexeme.only_register? (by decide) fun l l' h => by rw [Lexeme.register?, h]; rfl

theorem reads_bracket : k.Reads Eq Lexeme.bracket? :=
  .of_token Lexeme.only_bracket? (by decide) fun l l' h => by rw [Lexeme.bracket?, h]; rfl

theorem reads_literal : k.Reads Eq Lexeme.literal? :=
  .of_token Lexeme.only_literal? (by decide) fun l l' h => by rw [Lexeme.literal?, h]; rfl

theorem reads_condition : k.Reads Eq Lexeme.condition? :=
  .of_token Lexeme.only_condition? (by decide) fun l l' h => by rw [Lexeme.condition?, h]; rfl

theorem reads_mode : k.Reads Eq Lexeme.mode? :=
  .of_token Lexeme.only_mode? (by decide) fun l l' h => by rw [Lexeme.mode?, h]; rfl

theorem reads_identifier : k.Reads (k.texts .identifier) Lexeme.identifier? := by
  refine .of_only Lexeme.only_identifier? (by decide) fun l l' hl => ?_
  have htext := hl.text
  rw [Lexeme.identifier?, Lexeme.identifier?, hl.token_eq]
  rw [Lexeme.kind] at htext
  generalize l.token = t at htext
  cases t with
  | identifier => exact .some htext
  | _ => exact .none

theorem reads_negativeLiteral : k.Reads Eq Lexeme.negativeLiteral? := by
  refine .of_only Lexeme.only_negativeLiteral? (by decide) fun l l' hl => ?_
  have htext := hl.text
  rw [Lexeme.negativeLiteral?, Lexeme.negativeLiteral?, Lexeme.literal?, Lexeme.literal?, hl.token_eq]
  rw [Lexeme.kind] at htext
  generalize l.token = t at htext
  cases t with
  | literal value =>
    rw [k.head?_eq _ _ htext]
    split
    · exact .some rfl
    · exact .none
  | _ => simp only [ite_self]; exact .none

theorem reads_term : k.Reads k.Terms Lexeme.term? := by
  refine .of_only Lexeme.only_term? (by decide) fun l l' hl => ?_
  have htext := hl.text
  rw [Lexeme.term?, Lexeme.term?, hl.token_eq]
  rw [Lexeme.kind] at htext
  generalize l.token = t at htext
  cases t with
  | identifier => exact .some (.symbol htext true)
  | literal value => exact .some (.literal value)
  | _ => exact .none

theorem reads_ofKinds {kinds : List LexemeKind} (hne : kinds ≠ [])
    (hkinds : .statementTerminator ∉ kinds) :
    k.Reads (fun l l' => l.kind ∈ kinds ∧ k.Lexemes l l') (Parser.ofKinds kinds) := by
  refine .of_only (Lexeme.only_ofKinds hne) hkinds fun l l' hl => ?_
  have hkind : l'.isOf kinds = l.isOf kinds := by
    rw [Lexeme.isOf, Lexeme.isOf, Lexeme.kind, Lexeme.kind, hl.token_eq]
  rw [ofKinds, ofKinds, hkind]
  cases h : l.isOf kinds with
  | false => exact .none
  | true => exact .some ⟨by simpa [Lexeme.isOf, hne] using h, hl⟩

/-! ## Repetitions -/

theorem Carries.repeatAtMost {p : Parser (Option α)} {p' : Parser (Option β)}
    (hp : k.Carries (Option.Rel made) p p') (limit : Nat) :
    k.Carries (List.Forall₂ made) (Parser.repeatAtMost p limit) (Parser.repeatAtMost p' limit) := by
  induction limit with
  | zero => exact .pure .nil
  | succ limit ih =>
    refine hp.bind fun r r' hr => ?_
    cases hr with
    | none => exact .pure .nil
    | some hmade => exact ih.bind fun others others' hothers => .pure (.cons hmade hothers)

/-- In the second row there may be more lexemes ahead, but there are no more repetitions. -/
theorem Carries.repeated {p : Parser (Option α)} {p' : Parser (Option β)}
    (hp : k.Carries (Option.Rel made) p p') (hadvances : Advances p) :
    k.Carries (List.Forall₂ made) (Parser.repeated p) (Parser.repeated p') := by
  intro c c' hc
  obtain ⟨row, hrow, hlexemes⟩ := hc.ahead
  have hlength : c.ahead.length ≤ c'.ahead.length := by
    rw [hrow, List.length_append, hlexemes.length_eq]
    exact Nat.le_add_right _ _
  show k.Results _ ((Parser.repeatAtMost p c.ahead.length).run c)
    ((Parser.repeatAtMost p' c'.ahead.length).run c')
  rw [repeatAtMost_of_le hadvances (Nat.le_refl _) hlength]
  exact hp.repeatAtMost _ c c' hc

/-! ## Addresses -/

theorem carries_term : k.Carries k.Terms Term.parser Term.parser := carries_read reads_term _

theorem Terms.negated {t t' : Term} (h : k.Terms t t') : k.Terms t.negated t'.negated := by
  cases h with
  | literal value => exact .literal (-value)
  | symbol h positive => exact .symbol h !positive

theorem carries_further : k.Carries (Option.Rel k.Terms) Term.further Term.further := by
  intro c c' hc
  refine (carries_peekMap reads_operator c c' hc).bind fun r r' d d' hrun hmade hd => ?_
  obtain ⟨rfl, hr⟩ := of_run_peekMap hrun
  cases hmade with
  | none =>
    refine (carries_readIf_same reads_negativeLiteral).bind_same (fun literal => ?_) d d' hd
    cases literal with
    | none => exact .pure .none
    | some value => exact .pure (.some (.literal value))
  | @some operator _ heq =>
    subst heq
    obtain ⟨l, hl, -⟩ := Option.bind_eq_some_iff.1 hr.symm
    dsimp only
    split
    · refine .advance (carries_term.attempt.bind fun t t' ht => .pure (.some ?_)) hd
        (Cursor.ahead_ne_nil hl)
      split
      · exact ht
      · exact ht.negated
    · exact carries_fail rfl d d' hd

theorem carries_checkOperators (before after : Option Operator) :
    k.Carries Eq (Index.checkOperators before after) (Index.checkOperators before after) := by
  unfold Index.checkOperators
  split
  · exact carries_fail rfl
  · split
    · exact carries_fail rfl
    · exact .pure rfl

theorem carries_inner : k.Carries Eq Index.inner Index.inner := by
  refine (carries_readIf_same reads_operator).bind_same fun before => ?_
  refine (carries_read reads_register _).bind_same fun register => ?_
  refine (carries_readIf_same reads_operator).bind_same fun after => ?_
  refine (carries_checkOperators before after).bind_same fun _ => ?_
  refine carries_get.bind fun closing closing' hclosing => ?_
  refine (carries_read reads_bracket _).bind_same fun bracket => ?_
  cases bracket with
  | opening => exact carries_failAt hclosing rfl
  | closing => exact .pure rfl

theorem carries_index : k.Carries Eq Index.parser Index.parser := by
  refine carries_get.bind fun start start' hstart => ?_
  refine (carries_readIf_same reads_bracket).bind_same fun bracket => ?_
  match bracket with
  | none => exact .pure rfl
  | some .closing => exact carries_failAt hstart rfl
  | some .opening => exact carries_inner.bind_same fun i => .pure rfl

theorem carries_address :
    k.Carries k.Addresses AddressExpression.parser AddressExpression.parser := by
  have hreads (c : Cursor) (t : Term) (d : Cursor) (h : (attempt Term.parser).run c = .ok t d) :
      c.ahead ≠ [] := ahead_ne_nil_of_read (of_run_attempt h)
  refine .spanned carries_term.attempt hreads fun start start' first first' hstart hne hfirst => ?_
  refine (carries_further.repeated Term.advances_further).bind fun others others' hothers => ?_
  refine carries_index.bind_same fun index => carries_get.bind fun stop stop' hstop => ?_
  exact .pure ⟨.cons hfirst hothers, rfl, hstart.spanTo hne hstop⟩

/-! ## Arguments -/

theorem carries_argument : k.Carries k.Arguments WrittenArgument.parser WrittenArgument.parser := by
  refine (carries_readIf_same reads_register).bind_same fun register => ?_
  cases register with
  | some number => exact .pure (.register number)
  | none =>
    refine (carries_readIf_same reads_condition).bind_same fun named => ?_
    cases named with
    | some condition => exact .pure (.condition condition)
    | none => exact carries_address.attempt.bind fun e e' he => .pure (.address he)

theorem carries_furtherArgument :
    k.Carries (Option.Rel k.Arguments) CommandStatement.furtherArgument
      CommandStatement.furtherArgument := by
  refine (carries_readIf (reads_ofKinds (by decide) (by decide))).bind fun r r' hr => ?_
  cases hr with
  | none => exact .pure .none
  | some _ => exact carries_argument.bind fun a a' ha => .pure (.some ha)

theorem carries_arguments :
    k.Carries (List.Forall₂ k.Arguments) CommandStatement.argumentsParser
      CommandStatement.argumentsParser := by
  refine (carries_peekMap (reads_ofKinds (by decide) (by decide))).bind fun r r' hr => ?_
  cases hr with
  | none => exact .pure .nil
  | some _ =>
    refine carries_argument.bind fun first first' hfirst => ?_
    refine (carries_furtherArgument.repeated CommandStatement.advances_furtherArgument).bind
      fun others others' hothers => .pure (.cons hfirst hothers)

/-! ## Statements and labels -/

theorem carries_command :
    k.Carries k.Statements CommandStatement.parser CommandStatement.parser := by
  refine .spanned (carries_read reads_identifier _) (fun _ _ _ => ahead_ne_nil_of_read)
    fun start start' name name' hstart hne hname => ?_
  refine carries_get.bind fun behindName behindName' hbehind => ?_
  rw [k.toUpper_eq name name' hname]
  cases InstructionSet.standard.find? (String.ofList (Text.toUpper name)) with
  | none => exact carries_failAt hstart rfl
  | some instruction =>
    refine (carries_readIf_same reads_mode).bind_same fun mode => ?_
    refine carries_arguments.bind fun arguments arguments' harguments => ?_
    refine carries_get.bind fun stop stop' hstop => .pure ⟨.command ?_, hstart.spanTo hne hstop⟩
    exact ⟨rfl, rfl, harguments, hstart.spanTo hne hbehind⟩

theorem carries_value : k.Carries k.Statements Statement.valueParser Statement.valueParser := by
  refine .spanned (carries_read reads_literal _) (fun _ _ _ => ahead_ne_nil_of_read)
    fun start start' value _ hstart hne heq => ?_
  subst heq
  exact carries_get.bind fun stop stop' hstop => .pure ⟨.value value, hstart.spanTo hne hstop⟩

theorem carries_allocation :
    k.Carries k.Statements Statement.allocationParser Statement.allocationParser := by
  refine .spanned (carries_read (reads_ofKinds (by decide) (by decide)) _)
    (fun _ _ _ => ahead_ne_nil_of_read) fun start start' keyword keyword' hstart hne hkeyword => ?_
  obtain ⟨hkind, hlexemes⟩ := hkeyword
  have htext := hlexemes.text
  rw [List.mem_singleton.1 hkind] at htext
  rw [k.toUpper_eq _ _ htext]
  split
  · exact carries_failAt hstart rfl
  · refine carries_get.bind fun beforeSize beforeSize' hbefore => ?_
    refine (carries_read reads_literal _).bind_same fun size => ?_
    split
    · exact carries_failAt hbefore rfl
    · exact carries_get.bind fun stop stop' hstop =>
        .pure ⟨.allocation size.toNat, hstart.spanTo hne hstop⟩

theorem carries_label : k.Carries k.Elements Element.labelParser Element.labelParser := by
  refine .spanned (carries_read reads_identifier _) (fun _ _ _ => ahead_ne_nil_of_read)
    fun start start' name name' hstart hne hname => ?_
  refine (carries_readIf (reads_ofKinds (by decide) (by decide))).bind fun r r' hr => ?_
  cases hr with
  | none => exact carries_failAt hstart rfl
  | some _ =>
    exact carries_get.bind fun stop stop' hstop => .pure (.label hname (hstart.spanTo hne hstop))

/-! ## Choice between constructs -/

theorem Errors.orDeeper {e e' f f' : ParseError} (he : k.Errors e e') (hf : k.Errors f f') :
    k.Errors (e.orDeeper f) (e'.orDeeper f') := by
  have hdepth : e'.depth < f'.depth ↔ e.depth < f.depth := by
    rw [he.depth_eq, hf.depth_eq, Nat.add_lt_add_iff_right]
  unfold ParseError.orDeeper
  by_cases h : e.depth < f.depth
  · rwa [if_pos h, if_pos (hdepth.2 h)]
  · rwa [if_neg h, if_neg (mt hdepth.1 h)]

/-- Attempts at an element that both succeed or both fail. -/
inductive Attempts (k : Correspondence) :
    Except ParseError (Element × Cursor) → Except ParseError (Element × Cursor) → Prop
  | ok {e e' : Element} {c c' : Cursor} (he : k.Elements e e') (hc : k.Cursors c c') :
      Attempts k (.ok (e, c)) (.ok (e', c'))
  | error {e e' : ParseError} (h : k.Errors e e') : Attempts k (.error e) (.error e')

theorem attempts_firstOf {parser : Parser Element} {others : List (Parser Element)}
    (h : ∀ p ∈ parser :: others, k.Carries k.Elements p p) {c c' : Cursor} (hc : k.Cursors c c') :
    k.Attempts (Element.firstOf c parser others) (Element.firstOf c' parser others) := by
  induction others generalizing parser with
  | nil =>
    have hrun := h parser (List.mem_singleton_self _) c c' hc
    simp only [Element.firstOf]
    generalize parser.run c = r at hrun
    generalize parser.run c' = r' at hrun
    cases hrun with
    | ok he hd => exact .ok he hd
    | error herror => exact .error herror
  | cons other others ih =>
    rw [List.forall_mem_cons] at h
    have hrun := h.1 c c' hc
    have hothers := ih h.2
    simp only [Element.firstOf]
    generalize parser.run c = r at hrun
    generalize parser.run c' = r' at hrun
    cases hrun with
    | ok he hd => exact .ok he hd
    | error herror =>
      generalize Element.firstOf c other others = found at hothers
      generalize Element.firstOf c' other others = found' at hothers
      cases hothers with
      | ok he hd => exact .ok he hd
      | error herror' => exact .error (herror.orDeeper herror')

theorem attempts_ofConstructs {c c' : Cursor} (hc : k.Cursors c c') :
    k.Attempts (Element.ofConstructs c) (Element.ofConstructs c') := by
  refine attempts_firstOf (fun p hp => ?_) hc
  simp only [List.mem_cons, List.not_mem_nil, or_false] at hp
  obtain rfl | rfl | rfl | rfl := hp
  · exact carries_command.map fun _ _ hs => .statement hs
  · exact carries_value.map fun _ _ hs => .statement hs
  · exact carries_allocation.map fun _ _ hs => .statement hs
  · exact carries_label

/-! ## Elements -/

theorem Lexemes.kind_eq {l l' : Lexeme} (h : k.Lexemes l l') : l'.kind = l.kind :=
  congrArg Token.kind h.token_eq

theorem Lexemes.isOf_eq {l l' : Lexeme} (h : k.Lexemes l l') (kinds : List LexemeKind) :
    l'.isOf kinds = l.isOf kinds := by
  rw [Lexeme.isOf, Lexeme.isOf, h.kind_eq]

theorem Lexemes.span {l l' : Lexeme} (h : k.Lexemes l l') : k.Spans l.span l'.span :=
  ⟨h.start, h.stop⟩

/-- Unrecognised source ends at the separator behind a row. -/
theorem forall₂_takeWhile {rest rest' : List Lexeme} (h : rest.Forall₂ k.Lexemes rest') :
    (rest.takeWhile fun l => !l.isOf Element.barriers).Forall₂ k.Lexemes
      ((rest' ++ k.behind).takeWhile fun l => !l.isOf Element.barriers) := by
  induction h with
  | nil =>
    rw [List.nil_append, List.takeWhile_nil]
    cases hbehind : k.behind with
    | nil => exact .nil
    | cons l others =>
      have hl := k.separated l (by rw [hbehind]; rfl)
      rw [List.takeWhile_cons_of_neg (by simp [Lexeme.isOf, Element.barriers, hl])]
      exact .nil
  | @cons l l' rest rest' hl _ ih =>
    rw [List.cons_append, List.takeWhile_cons, List.takeWhile_cons, hl.isOf_eq]
    cases l.isOf Element.barriers with
    | true => exact .nil
    | false => exact .cons hl ih

theorem lexemes_getLastD {first first' : Lexeme} {others others' : List Lexeme}
    (hfirst : k.Lexemes first first') (hothers : others.Forall₂ k.Lexemes others') :
    k.Lexemes (others.getLastD first) (others'.getLastD first') := by
  induction hothers generalizing first first' with
  | nil => exact hfirst
  | cons hl _ ih =>
    rw [List.getLastD_cons, List.getLastD_cons]
    exact ih hl

variable {c c' : Cursor} {first first' : Lexeme} {rest rest' : List Lexeme}

theorem recover_corresponds (hc : k.Cursors c c') (hfirst : k.Lexemes first first')
    (hrest : rest.Forall₂ k.Lexemes rest') {error error' : ParseError} (herror : k.Errors error error') :
    let here := Element.recover c first rest error
    let there := Element.recover c' first' (rest' ++ k.behind) error'
    k.Elements here.1 there.1 ∧ k.Cursors here.2 there.2 := by
  have hothers := forall₂_takeWhile hrest
  have hprefix := List.takeWhile_prefix (fun l : Lexeme => !l.isOf Element.barriers) (l := rest)
  simp only [Element.recover]
  generalize rest.takeWhile (fun l => !l.isOf Element.barriers) = others at hothers hprefix
  generalize (rest' ++ k.behind).takeWhile (fun l => !l.isOf Element.barriers) = others' at hothers
  have hlength := hothers.length_eq
  have hle : others'.length ≤ rest'.length := by
    rw [← hlength, ← hrest.length_eq]
    exact hprefix.length_le
  refine ⟨.unrecognised hfirst hothers herror.errorClass_eq, ?_, ?_, rest'.drop others'.length, ?_, ?_⟩
  · simp only [UnrecognisedSource.lexemes, List.length_cons, hc.position_eq, hlength]
    omega
  · exact (lexemes_getLastD hfirst hothers).stop
  · exact List.drop_append_of_le_length hle
  · rw [hlength]
    exact List.forall₂_drop _ hrest

theorem next_corresponds (hc : k.Cursors c c') (hahead : c.ahead = first :: rest)
    (hfirst : k.Lexemes first first') (hrest : rest.Forall₂ k.Lexemes rest') :
    let here := Element.next c first rest
    let there := Element.next c' first' (rest' ++ k.behind)
    k.Elements here.1 there.1 ∧ k.Cursors here.2 there.2 := by
  have hne : c.ahead ≠ [] := by
    rw [hahead]
    exact List.cons_ne_nil first rest
  simp only [Element.next, hfirst.kind_eq]
  split
  · rename_i hkind
    exact ⟨.comment (hkind ▸ hfirst.text) hfirst.span, hc.advance hne⟩
  · exact ⟨.terminator hfirst.span, hc.advance hne⟩
  · have hattempts := attempts_ofConstructs hc
    generalize Element.ofConstructs c = found at hattempts
    generalize Element.ofConstructs c' = found' at hattempts
    cases hattempts with
    | ok he hd => exact ⟨he, hd⟩
    | error herror => exact recover_corresponds hc hfirst hrest herror

end Correspondence

/-! ## Units -/

/-- The elements of corresponding lexemes correspond. -/
theorem CompilationUnit.Parses.corresponds {k : Correspondence} {c c' d : Cursor}
    {elements : List Element} (h : Parses c elements d) (hc : k.Cursors c c') :
    ∃ elements' d', Parses c' elements' d' ∧ elements.Forall₂ k.Elements elements' ∧
      k.Cursors d d' := by
  induction h generalizing c' with
  | nil c => exact ⟨[], c', .nil c', .nil, hc⟩
  | separator hahead hkind _ ih =>
    obtain ⟨first', rest', hfirst, -, hahead'⟩ := hc.exists_cons hahead
    obtain ⟨elements', d', hparses, helements, hd⟩ := ih (hc.advance (by simp [hahead]))
    exact ⟨elements', d', .separator hahead' (hfirst.kind_eq.trans hkind) hparses, helements, hd⟩
  | element hahead hkind _ ih =>
    obtain ⟨first', rest', hfirst, hrest, hahead'⟩ := hc.exists_cons hahead
    obtain ⟨helement, hnext⟩ := Correspondence.next_corresponds hc hahead hfirst hrest
    obtain ⟨elements', d', hparses, helements, hd⟩ := ih hnext
    have hkind' : first'.kind ≠ .statementTerminator := hfirst.kind_eq ▸ hkind
    exact ⟨_, d', .element hahead' hkind' hparses, .cons helement helements, hd⟩

/-- Two texts that consist of corresponding lexemes, with nothing before them or behind, consist of
corresponding elements. -/
theorem CompilationUnit.elements_correspond {k : Correspondence} (hposition : k.position = 0)
    (hbehind : k.behind = []) (hstop : k.places 0 0) {lexemes lexemes' : List Lexeme}
    (h : lexemes.Forall₂ k.Lexemes lexemes') :
    (ofLexemes lexemes).elements.Forall₂ k.Elements (ofLexemes lexemes').elements := by
  have hcursors : k.Cursors (.ofLexemes lexemes) (.ofLexemes lexemes') :=
    ⟨by rw [hposition]; rfl, hstop, lexemes', by rw [hbehind, List.append_nil]; rfl, h⟩
  obtain ⟨elements', d', hparses, helements, hd⟩ := (parses_ofLexemes lexemes).corresponds hcursors
  have hend : d'.ahead = [] := by
    obtain ⟨row, hrow, hlexemes⟩ := hd.ahead
    cases hlexemes
    rw [hrow, hbehind]
    rfl
  have hunit : (ofLexemes lexemes').elements = elements' := hparses.elementsFrom_eq hend (Nat.le_refl _)
  rw [hunit]
  exact helements

end Drama
