-- SUMMARY: The names in an element are the identifiers that stand in its labels and address expressions.
import Drama.Proofs.Source.Division

/-!
# Naming

A label gives its name to an address, and an address expression refers to addresses by their names. Both know
the span that they were read from (`Element.naming`). The lexemes of a text follow one another, so those that
stand in such a span are those that were read there, and its names are the identifiers among them.
-/

namespace Drama

open Drama.Parser

/-! ## Names -/

/-- A term consists of a name if it is a symbol. -/
def Term.names : Term → List (List Char)
  | .literal _ => []
  | .symbol name _ => [name]

def AddressExpression.names (e : AddressExpression) : List (List Char) := e.terms.flatMap Term.names

/-- The names in an argument with the span that they stand in, if it is an address. -/
def WrittenArgument.naming? : WrittenArgument → Option (Span × List (List Char))
  | .register _ | .condition _ => none
  | .address e => some (e.span, e.names)

/-- The names in an element, each row of them with the span that they stand in. -/
def Element.naming : Element → List (Span × List (List Char))
  | .statement ⟨.command c, _⟩ => c.arguments.filterMap WrittenArgument.naming?
  | .label name span => [(span, [name])]
  | .statement ⟨.value _, _⟩ | .statement ⟨.allocation _, _⟩ | .comment .. | .terminator _
  | .unrecognised _ => []

instance (inner outer : Span) : Decidable (inner.Within outer) :=
  inferInstanceAs (Decidable (_ ∧ _))

/-- The identifiers of a text that stand in a span, in order. -/
def Span.identifiers (s : Span) (lexemes : List Lexeme) : List (List Char) :=
  (lexemes.filter fun l => l.span.Within s).filterMap Lexeme.identifier?

/-! ## Stretches of lexemes -/

/-- What stands in the span of a stretch of lexemes is this stretch. -/
theorem Lexeme.InOrder.filter_within {lexemes more : List Lexeme} {first : Lexeme}
    (h : InOrder lexemes) (hrun : first :: more <:+: lexemes) :
    (lexemes.filter fun l => l.span.Within ⟨first.start, (more.getLastD first).stop⟩) = first :: more := by
  obtain ⟨before, after, rfl⟩ := hrun
  have hstretch : InOrder (first :: more) :=
    h.sublist ((List.sublist_append_right ..).trans (List.sublist_append_left ..))
  have hincreasing := h.increasing
  rw [List.append_assoc, List.pairwise_append, List.pairwise_append] at hincreasing
  obtain ⟨-, ⟨-, -, hafter⟩, hbefore⟩ := hincreasing
  have hstart : before.filter (fun l => l.span.Within ⟨first.start, (more.getLastD first).stop⟩) = [] := by
    apply List.filter_eq_nil_iff.2
    intro l hl hwithin
    have hstart : first.start ≤ l.start := (of_decide_eq_true hwithin).1
    have hne := h.nonempty l (by simp [hl])
    have hfirst := hbefore l hl first (by simp)
    omega
  have hstop : after.filter (fun l => l.span.Within ⟨first.start, (more.getLastD first).stop⟩) = [] := by
    apply List.filter_eq_nil_iff.2
    intro l hl hwithin
    have hstop : l.stop ≤ (more.getLastD first).stop := (of_decide_eq_true hwithin).2
    have hne := h.nonempty l (by simp [hl])
    have hlast := hafter _ List.getLastD_mem_cons l hl
    omega
  have hwithin : (first :: more).filter
      (fun l => l.span.Within ⟨first.start, (more.getLastD first).stop⟩) = first :: more := by
    apply List.filter_eq_self.2
    intro l hl
    exact decide_eq_true ⟨hstretch.start_le hl, hstretch.le_stop hl⟩
  rw [List.filter_append, List.filter_append, hstart, hstop, hwithin, List.nil_append, List.append_nil]

/-- The names are the identifiers of a stretch of lexemes with no barrier among them, which the span covers. -/
def ReadFrom (lexemes : List Lexeme) (naming : Span × List (List Char)) : Prop :=
  ∃ first more, first :: more <:+: lexemes ∧ (∀ l ∈ first :: more, l.kind ∉ Element.barriers) ∧
    naming.1 = ⟨first.start, (more.getLastD first).stop⟩ ∧
    naming.2 = (first :: more).filterMap Lexeme.identifier?

theorem ReadFrom.eq_identifiers {lexemes : List Lexeme} {naming : Span × List (List Char)}
    (h : ReadFrom lexemes naming) (horder : Lexeme.InOrder lexemes) :
    naming.2 = naming.1.identifiers lexemes := by
  obtain ⟨first, more, hrun, -, hspan, hnames⟩ := h
  rw [Span.identifiers, hspan, horder.filter_within hrun, hnames]

/-! ## Names that are read -/

/-- A parser keeps to the lexemes before the next barrier, and the names in what it makes are the identifiers
among those that it reads, behind the names `front`. -/
def Parser.Spells {α : Type} (front : List (List Char)) (p : Parser α) (names : α → List (List Char)) : Prop :=
  ∀ c a c', p.run c = .ok a c' →
    ∃ run, c.Passes run c' ∧ names a = front ++ run.filterMap Lexeme.identifier?

namespace Parser

variable {α β : Type} {front : List (List Char)} {p : Parser α} {names : α → List (List Char)}
  {names' : β → List (List Char)} {f : Lexeme → Option α} {kinds : List LexemeKind}

namespace Spells

theorem pure {a : α} (h : names a = front) : Spells front (pure a) names := by
  intro c _ c' hrun
  cases hrun
  exact ⟨[], .refl c, by simpa using h⟩

theorem bind {f : α → Parser β} (hp : Spells [] p names)
    (hf : ∀ a, Spells (front ++ names a) (f a) names') : Spells front (p >>= f) names' := by
  intro c b c' h
  obtain ⟨a, c₁, ha, hb⟩ := of_run_bind h
  obtain ⟨run, hpasses, hnames⟩ := hp c a c₁ ha
  obtain ⟨run', hpasses', hnames'⟩ := hf a c₁ b c' hb
  refine ⟨run ++ run', hpasses.trans hpasses', ?_⟩
  rw [hnames', hnames, List.filterMap_append, List.nil_append, List.append_assoc]

/-- What comes behind a part without names. -/
theorem bind_unnamed {f : α → Parser β} (hp : Spells [] p fun _ => []) (hf : ∀ a, Spells front (f a) names') :
    Spells front (p >>= f) names' := by
  apply hp.bind
  intro a
  rw [List.append_nil]
  exact hf a

theorem attempt (hp : Spells front p names) : Spells front (attempt p) names :=
  fun c a c' h => hp c a c' (of_run_attempt h)

theorem repeated {p : Parser (Option α)} (hp : Spells [] p fun r => r.elim [] names) :
    Spells [] (repeated p) fun as => as.flatMap names := by
  have hrounds (limit : Nat) : Spells [] (repeatAtMost p limit) fun as => as.flatMap names := by
    induction limit with
    | zero => exact .pure rfl
    | succ limit ih =>
      apply hp.bind
      intro r
      cases r with
      | none => exact .pure rfl
      | some a => exact ih.bind fun others => .pure (by simp)
  exact fun c as c' h => hrounds _ c as c' h

end Spells

theorem spells_get : Spells [] get fun _ => [] := by
  intro c _ c' h
  cases h
  exact ⟨[], .refl c, rfl⟩

theorem spells_fail (cause : ParseError.Cause) : Spells front (fail cause) names := by
  intro c a c' h
  cases h

theorem spells_failAt (place : Cursor) (cause : ParseError.Cause) :
    Spells front (failAt place cause) names := by
  intro c a c' h
  cases h

/-- The kinds of lexemes that are neither names nor barriers. -/
abbrev Unnamed (kinds : List LexemeKind) : Prop := ∀ kind ∈ kinds, kind ∉ .identifier :: Element.barriers

theorem Unnamed.not_barrier (h : Unnamed kinds) : ∀ kind ∈ kinds, kind ∉ Element.barriers :=
  fun kind hkind hbarrier => h kind hkind (List.mem_cons_of_mem _ hbarrier)

/-- A lexeme of which something is made is no identifier if nothing is made of identifiers. -/
theorem Unnamed.identifier? (h : Unnamed kinds) (hf : Lexeme.Only kinds f) {l : Lexeme} {a : α}
    (ha : f l = some a) : l.identifier? = none := by
  apply Lexeme.only_identifier?
  intro hl
  have hnone : f l = none := hf l fun hkind => h _ hkind (List.mem_singleton.1 hl ▸ List.mem_cons_self)
  rw [hnone] at ha
  cases ha

theorem spells_readIf (hf : Lexeme.Only kinds f) (hkinds : Unnamed kinds) :
    Spells [] (readIf f) fun _ => [] := by
  intro c r c' h
  obtain ⟨rfl, rfl⟩ | ⟨l, a, -, ha, rfl, hpasses⟩ := of_run_readIf hf hkinds.not_barrier h
  · exact ⟨[], .refl _, rfl⟩
  · exact ⟨[l], hpasses, by simp [hkinds.identifier? hf ha]⟩

theorem spells_read {expected : List LexemeKind} (hf : Lexeme.Only kinds f) (hkinds : Unnamed kinds) :
    Spells [] (read expected f) fun _ => [] := by
  intro c a c' h
  obtain ⟨l, -, ha, hpasses⟩ := of_run_read hf hkinds.not_barrier h
  exact ⟨[l], hpasses, by simp [hkinds.identifier? hf ha]⟩

end Parser

/-! ## Address expressions -/

namespace Term

theorem spells : Spells [] parser names := by
  intro c t c' h
  obtain ⟨⟨token, text, start, stop⟩, -, ht, hpasses⟩ := of_run_read Lexeme.only_term? (by decide) h
  refine ⟨_, hpasses, ?_⟩
  cases token with
  | literal value | identifier =>
    cases ht
    rfl
  | _ => cases ht

theorem names_negated (t : Term) : t.negated.names = t.names := by
  cases t with
  | literal | symbol => rfl

theorem spells_further : Spells [] further fun r => r.elim [] names := by
  intro c r c' h
  obtain ⟨made, c₁, hpeek, hthen⟩ := of_run_bind h
  obtain ⟨rfl, hmade⟩ := of_run_peekMap hpeek
  cases made with
  | none =>
    obtain ⟨r₁, c₂, hread, hdone⟩ := of_run_bind hthen
    cases hdone
    obtain ⟨run, hpasses, hrun⟩ := spells_readIf Lexeme.only_negativeLiteral? (by decide) _ _ _ hread
    refine ⟨run, hpasses, hrun ▸ ?_⟩
    cases r₁ with
    | none | some => rfl
  | some operator =>
    dsimp only at hthen
    split at hthen
    · obtain ⟨_, c₂, hadvance, hread⟩ := of_run_bind hthen
      obtain ⟨t, c₃, hterm, hdone⟩ := of_run_bind hread
      cases hadvance
      cases hdone
      obtain ⟨l, hl, ha⟩ := Option.bind_eq_some_iff.1 hmade.symm
      obtain ⟨rest, hrest⟩ := List.head?_eq_some_iff.1 hl
      have hoperator := Cursor.Passes.advance hrest (not_barrier Lexeme.only_operator? (by decide) ha)
      have hkinds : Unnamed [.operator] := by decide
      have hunnamed : l.identifier? = none := hkinds.identifier? Lexeme.only_operator? ha
      obtain ⟨run, hpasses, hnames⟩ := spells.attempt _ _ _ hterm
      refine ⟨[l] ++ run, hoperator.trans hpasses, ?_⟩
      simp only [Option.elim_some, List.singleton_append, List.filterMap_cons, hunnamed, ← hnames]
      split
      · rfl
      · exact names_negated t
    · cases hthen

end Term

namespace Index

theorem spells_checkOperators (before after : Option Operator) :
    Spells [] (checkOperators before after) fun _ => [] := by
  unfold checkOperators
  split
  · exact spells_fail _
  · split
    · exact spells_fail _
    · exact .pure rfl

/-- There are no names in an index. -/
theorem spells : Spells [] parser fun _ => [] := by
  have hinner : Spells [] inner fun _ => [] := by
    apply (spells_readIf Lexeme.only_operator? (by decide)).bind_unnamed
    intro before
    apply (spells_read Lexeme.only_register? (by decide)).bind_unnamed
    intro register
    apply (spells_readIf Lexeme.only_operator? (by decide)).bind_unnamed
    intro after
    apply (spells_checkOperators before after).bind_unnamed
    intro _
    apply spells_get.bind_unnamed
    intro closing
    apply (spells_read Lexeme.only_bracket? (by decide)).bind_unnamed
    intro bracket
    cases bracket with
    | opening => exact spells_failAt _ _
    | closing => exact .pure rfl
  apply spells_get.bind_unnamed
  intro start
  apply (spells_readIf Lexeme.only_bracket? (by decide)).bind_unnamed
  intro bracket
  match bracket with
  | none => exact .pure rfl
  | some .closing => exact spells_failAt _ _
  | some .opening => exact hinner.bind_unnamed fun i => .pure rfl

end Index

/-- What is read from lexemes at the end of a text is a stretch of the text. -/
theorem Cursor.Moves.stretch {lexemes run : List Lexeme} {c c' : Cursor} (h : c.Moves run c')
    (hahead : c.ahead <:+ lexemes) : run <:+: lexemes ∧ c'.ahead <:+ lexemes := by
  rw [h.ahead] at hahead
  exact ⟨(List.prefix_append ..).isInfix.trans hahead.isInfix, (List.suffix_append ..).trans hahead⟩

/-- An address expression is read from a stretch of lexemes, and its names are the identifiers among them. -/
theorem AddressExpression.readFrom {lexemes : List Lexeme} {c c' : Cursor} {e : AddressExpression}
    (h : parser.run c = .ok e c') (hahead : c.ahead <:+ lexemes) : ReadFrom lexemes (e.span, e.names) := by
  obtain ⟨start, c₁, hstart, h₁⟩ := of_run_bind h
  obtain ⟨first, c₂, hfirst, h₂⟩ := of_run_bind h₁
  obtain ⟨others, c₃, hothers, h₃⟩ := of_run_bind h₂
  obtain ⟨index, c₄, hindex, h₄⟩ := of_run_bind h₃
  obtain ⟨stop, c₅, hstop, h₅⟩ := of_run_bind h₄
  cases hstart
  cases hstop
  cases h₅
  obtain ⟨run, hpasses, hnames⟩ := Term.spells.attempt _ _ _ hfirst
  obtain ⟨l, -, -, hl⟩ := of_run_read Lexeme.only_term? (by decide) (of_run_attempt hfirst)
  obtain ⟨run₂, hpasses₂, hnames₂⟩ := Term.spells_further.repeated _ _ _ hothers
  obtain ⟨run₃, hpasses₃, hnames₃⟩ := Index.spells _ _ _ hindex
  obtain rfl : run = [l] := List.append_cancel_right (hpasses.ahead.symm.trans hl.ahead)
  have hall := (hpasses.trans hpasses₂).trans hpasses₃
  refine ⟨l, run₂ ++ run₃, (hall.toMoves.stretch hahead).1, hall.clear, hall.toMoves.spanTo_eq, ?_⟩
  simp only [List.nil_append] at hnames hnames₂ hnames₃
  show first.names ++ others.flatMap Term.names = ([l] ++ (run₂ ++ run₃)).filterMap Lexeme.identifier?
  rw [List.filterMap_append, List.filterMap_append, ← hnames, ← hnames₂, ← hnames₃, List.append_nil]

/-! ## Arguments and elements -/

/-- A parser that reads lexemes at the end of a text makes something good of them. -/
def Parser.Finds {α : Type} (lexemes : List Lexeme) (p : Parser α) (good : α → Prop) : Prop :=
  ∀ c a c', p.run c = .ok a c' → c.ahead <:+ lexemes → c'.ahead <:+ lexemes ∧ good a

namespace Parser.Finds

variable {α β : Type} {lexemes : List Lexeme} {p : Parser α} {good : α → Prop} {good' : β → Prop}

/-- A parser keeps to the end of the text if it moves on. -/
theorem of_gives {other : α → Prop} (h : Gives p other) : Finds lexemes p fun _ => True := by
  intro c a c' hrun hahead
  obtain ⟨⟨run, hpasses⟩, -⟩ := h c a c' hrun
  exact ⟨(hpasses.toMoves.stretch hahead).2, trivial⟩

theorem pure {a : α} (h : good a) : Finds lexemes (pure a) good := by
  intro c _ c' hrun hahead
  cases hrun
  exact ⟨hahead, h⟩

theorem bind {f : α → Parser β} (hp : Finds lexemes p good) (hf : ∀ a, good a → Finds lexemes (f a) good') :
    Finds lexemes (p >>= f) good' := by
  intro c b c' h hahead
  obtain ⟨a, c₁, ha, hb⟩ := of_run_bind h
  obtain ⟨hahead', hgood⟩ := hp c a c₁ ha hahead
  exact hf a hgood c₁ b c' hb hahead'

theorem failAt (place : Cursor) (cause : ParseError.Cause) : Finds lexemes (failAt place cause) good := by
  intro c a c' h
  cases h

/-- What comes behind a part that does not matter. -/
theorem bind_any {other : α → Prop} {f : α → Parser β} (hp : Gives p other)
    (hf : ∀ a, Finds lexemes (f a) good') : Finds lexemes (p >>= f) good' :=
  bind (.of_gives hp) fun a _ => hf a

theorem repeated {p : Parser (Option α)} (hp : Finds lexemes p fun r => ∀ a ∈ r, good a) :
    Finds lexemes (repeated p) fun as => ∀ a ∈ as, good a := by
  have hrounds (limit : Nat) : Finds lexemes (repeatAtMost p limit) fun as => ∀ a ∈ as, good a := by
    induction limit with
    | zero => exact .pure (List.forall_mem_nil _)
    | succ limit ih =>
      apply hp.bind
      intro r hr
      cases r with
      | none => exact .pure (List.forall_mem_nil _)
      | some a => exact ih.bind fun others hothers => .pure (List.forall_mem_cons.2 ⟨hr a rfl, hothers⟩)
  exact fun c as c' h => hrounds _ c as c' h

end Parser.Finds

variable {lexemes : List Lexeme}

theorem WrittenArgument.finds :
    Finds lexemes parser fun a => ∀ naming ∈ a.naming?, ReadFrom lexemes naming := by
  apply Finds.bind_any (gives_readIf Lexeme.only_register? (by decide))
  intro register
  cases register with
  | some number => exact .pure nofun
  | none =>
    apply Finds.bind_any (gives_readIf Lexeme.only_condition? (by decide))
    intro named
    cases named with
    | some condition => exact .pure nofun
    | none =>
      have haddress : Finds lexemes (attempt AddressExpression.parser) fun e =>
          ReadFrom lexemes (e.span, e.names) := fun c e c' h hahead =>
        ⟨(Finds.of_gives AddressExpression.gives.attempt c e c' h hahead).1,
          AddressExpression.readFrom (of_run_attempt h) hahead⟩
      apply haddress.bind
      intro e he
      apply Finds.pure
      rintro _ ⟨⟩
      exact he

namespace CommandStatement

theorem finds_argumentsParser :
    Finds lexemes argumentsParser fun as => ∀ a ∈ as, ∀ naming ∈ a.naming?, ReadFrom lexemes naming := by
  have hseparator := Lexeme.only_ofKinds (List.cons_ne_nil LexemeKind.argumentSeparator [])
  have hfurther : Finds lexemes furtherArgument fun r =>
      ∀ a ∈ r, ∀ naming ∈ a.naming?, ReadFrom lexemes naming := by
    apply Finds.bind_any (gives_readIf hseparator (by decide))
    intro separator
    cases separator with
    | none => exact .pure nofun
    | some _ =>
      apply WrittenArgument.finds.bind
      intro a ha
      apply Finds.pure
      rintro _ ⟨⟩
      exact ha
  apply Finds.bind_any gives_peekMap
  intro start
  cases start with
  | none => exact .pure nofun
  | some _ =>
    apply WrittenArgument.finds.bind
    intro first hfirst
    apply hfurther.repeated.bind
    intro others hothers
    exact .pure (List.forall_mem_cons.2 ⟨hfirst, hothers⟩)

theorem finds : Finds lexemes parser fun s =>
    ∀ naming ∈ (Element.statement s).naming, ReadFrom lexemes naming := by
  apply Finds.bind_any gives_get
  intro start
  apply Finds.bind_any (gives_read Lexeme.only_identifier? (by decide))
  intro name
  apply Finds.bind_any gives_get
  intro behindName
  cases InstructionSet.standard.find? (String.ofList (Text.toUpper name)) with
  | none => exact .failAt _ _
  | some instruction =>
    apply Finds.bind_any (gives_readIf Lexeme.only_mode? (by decide))
    intro mode
    apply finds_argumentsParser.bind
    intro arguments harguments
    apply Finds.bind_any gives_get
    intro stop
    apply Finds.pure
    intro naming hnaming
    obtain ⟨a, ha, hmade⟩ := List.mem_filterMap.1 hnaming
    exact harguments a ha naming hmade

end CommandStatement

namespace Element

theorem readFrom_label {c c' : Cursor} {e : Element} (h : labelParser.run c = .ok e c')
    (hahead : c.ahead <:+ lexemes) : ∀ naming ∈ e.naming, ReadFrom lexemes naming := by
  have hmarker := Lexeme.only_ofKinds (List.cons_ne_nil LexemeKind.labelMarker [])
  obtain ⟨start, c₁, hstart, h₁⟩ := of_run_bind h
  obtain ⟨name, c₂, hname, h₂⟩ := of_run_bind h₁
  obtain ⟨marker, c₃, hread, h₃⟩ := of_run_bind h₂
  obtain ⟨l, -, hl, hpasses⟩ := of_run_read Lexeme.only_identifier? (by decide) hname
  obtain ⟨run, hpasses', hrun⟩ := spells_readIf hmarker (by decide) _ _ _ hread
  cases hstart
  split at h₃
  · cases h₃
  · cases h₃
    have hall := hpasses.trans hpasses'
    rw [naming, List.forall_mem_singleton]
    refine ⟨l, run, (hall.toMoves.stretch hahead).1, hall.clear, hall.toMoves.spanTo_eq, ?_⟩
    rw [List.filterMap_cons, hl, ← List.nil_append (run.filterMap _), ← hrun]

theorem naming_of_valueParser {c c' : Cursor} {s : Statement} (h : Statement.valueParser.run c = .ok s c') :
    (statement s).naming = [] := by
  obtain ⟨start, c₁, hstart, h₁⟩ := of_run_bind h
  obtain ⟨value, c₂, hvalue, h₂⟩ := of_run_bind h₁
  cases h₂
  rfl

theorem naming_of_allocationParser {c c' : Cursor} {s : Statement}
    (h : Statement.allocationParser.run c = .ok s c') : (statement s).naming = [] := by
  obtain ⟨start, c₁, hstart, h₁⟩ := of_run_bind h
  obtain ⟨keyword, c₂, hread, h₂⟩ := of_run_bind h₁
  split at h₂
  · cases h₂
  · obtain ⟨beforeSize, c₃, hget, h₃⟩ := of_run_bind h₂
    obtain ⟨size, c₄, hsize, h₄⟩ := of_run_bind h₃
    split at h₄
    · cases h₄
    · cases h₄
      rfl

/-- The names in an element that a construct makes were read from the lexemes ahead. -/
theorem readFrom_ofConstructs {c c' : Cursor} {e : Element} (h : ofConstructs c = .ok (e, c'))
    (hahead : c.ahead <:+ lexemes) : ∀ naming ∈ e.naming, ReadFrom lexemes naming := by
  obtain ⟨p, hp, hrun⟩ := of_firstOf h
  simp only [List.mem_cons, List.not_mem_nil, or_false] at hp
  obtain rfl | rfl | rfl | rfl := hp
  · obtain ⟨s, hs, rfl⟩ := of_run_map hrun
    exact (CommandStatement.finds c s c' hs hahead).2
  · obtain ⟨s, hs, rfl⟩ := of_run_map hrun
    rw [naming_of_valueParser hs]
    exact List.forall_mem_nil _
  · obtain ⟨s, hs, rfl⟩ := of_run_map hrun
    rw [naming_of_allocationParser hs]
    exact List.forall_mem_nil _
  · exact readFrom_label hrun hahead

theorem readFrom_next {c : Cursor} {first : Lexeme} {rest : List Lexeme} (hahead : c.ahead <:+ lexemes) :
    ∀ naming ∈ (next c first rest).1.naming, ReadFrom lexemes naming := by
  unfold next
  split
  · exact nofun
  · exact nofun
  · split
    · rename_i found hfound
      exact readFrom_ofConstructs hfound hahead
    · exact nofun

end Element

/-- The names in the elements of a text are read from the text. -/
theorem CompilationUnit.Parses.readFrom {c c' : Cursor} {elements : List Element}
    (h : Parses c elements c') (hahead : c.ahead <:+ lexemes) :
    ∀ e ∈ elements, ∀ naming ∈ e.naming, ReadFrom lexemes naming := by
  induction h with
  | nil => exact List.forall_mem_nil _
  | separator hfirst _ _ ih => exact ih ((Cursor.Moves.advance hfirst).stretch hahead).2
  | element hfirst hkind _ ih =>
    obtain ⟨more, hmoves, -⟩ := Element.madeOf_next hfirst hkind
    rw [List.forall_mem_cons]
    exact ⟨Element.readFrom_next hahead, ih (hmoves.stretch hahead).2⟩

/-- The names in the elements of a text are the identifiers that stand in their spans. -/
theorem CompilationUnit.naming_eq {text : List Char} (hlex : lex text = .ok lexemes) :
    ∀ e ∈ (ofLexemes lexemes).elements, ∀ naming ∈ e.naming, naming.2 = naming.1.identifiers lexemes := by
  intro e he naming hnaming
  have hread := (parses_ofLexemes lexemes).readFrom (List.suffix_refl lexemes) e he naming hnaming
  exact hread.eq_identifiers (lex_inOrder hlex)

/-- The identifiers in a span are the same in rows of lexemes at the same places if they have the same texts. -/
theorem Span.identifiers_congr {s : Span} {lexemes lexemes' : List Lexeme}
    (h : lexemes.Forall₂ (fun l l' => l'.token = l.token ∧ l'.span = l.span ∧
      (l.kind = .identifier → l.span.Within s → l'.text = l.text)) lexemes') :
    s.identifiers lexemes' = s.identifiers lexemes := by
  induction h with
  | nil => rfl
  | @cons l l' rest rest' hl _ ih =>
    obtain ⟨htoken, hspan, htext⟩ := hl
    unfold identifiers at ih ⊢
    rw [List.filter_cons, List.filter_cons, hspan]
    split
    · rename_i hwithin
      have hidentifier : l'.identifier? = l.identifier? := by
        rw [Lexeme.identifier?, Lexeme.identifier?, htoken]
        cases htoken : l.token with
        | identifier => exact congrArg some (htext (congrArg Token.kind htoken) (of_decide_eq_true hwithin))
        | _ => rfl
      rw [List.filterMap_cons, List.filterMap_cons, hidentifier, ih]
    · exact ih

/-- A lexeme is the name in a label or a symbol in an address expression. -/
def CompilationUnit.IsName (u : CompilationUnit) (l : Lexeme) : Prop :=
  l.kind = .identifier ∧ ∃ e ∈ u.elements, ∃ naming ∈ e.naming, l.span.Within naming.1

instance (u : CompilationUnit) (l : Lexeme) : Decidable (u.IsName l) := inferInstanceAs (Decidable (_ ∧ _))

end Drama
