-- SUMMARY: What the constructs take up of the lexemes ahead: a stretch of at least one lexeme, and no barrier.
import Drama.Proofs.Command.Resolution
import Drama.Proofs.Source.Parsing
import Drama.Source.Unit

/-!
# Progress

A parser that succeeds leaves the cursor further on, or where it was, and what lies between has no
comment and no terminator in it (`Cursor.Passes`). Statements and labels take up at least one lexeme,
and their spans are those of the lexemes that they take up. Where the registers ahead exist, those in what
is read exist as well.
-/

namespace Drama

/-! ## Cursors -/

namespace Lexeme

/-- If a lexeme is a register, it is one of those numbered from 0 to 9. -/
def RegisterInRange (l : Lexeme) : Prop := ∀ n, l.token = .register n → n ≤ 9

theorem le_of_register? {l : Lexeme} {n : Nat} (hl : l.RegisterInRange) (h : l.register? = some n) :
    n ≤ 9 := by
  unfold register? at h
  split at h
  · cases h
    exact hl _ ‹_›
  · cases h

end Lexeme

namespace Cursor

theorem ahead_ne_nil {c : Cursor} {l : Lexeme} (h : c.next? = some l) : c.ahead ≠ [] := by
  rintro hnil
  rw [next?, hnil] at h
  cases h

/-- The registers ahead exist. -/
def InRange (c : Cursor) : Prop := ∀ l ∈ c.ahead, l.RegisterInRange

/-- One cursor stands behind the lexemes `run` that are ahead of another. -/
structure Moves (c : Cursor) (run : List Lexeme) (c' : Cursor) : Prop where
  ahead : c.ahead = run ++ c'.ahead
  position : c'.position = c.position + run.length
  lastStop : c'.lastStop = (run.getLast?.map (·.stop)).getD c.lastStop

namespace Moves

variable {c c' c'' : Cursor} {run run' : List Lexeme}

theorem refl (c : Cursor) : c.Moves [] c := ⟨rfl, rfl, rfl⟩

theorem trans (h : c.Moves run c') (h' : c'.Moves run' c'') : c.Moves (run ++ run') c'' where
  ahead := by rw [h.ahead, h'.ahead, List.append_assoc]
  position := by rw [h'.position, h.position, List.length_append, Nat.add_assoc]
  lastStop := by
    rw [h'.lastStop, h.lastStop, List.getLast?_append]
    cases run'.getLast? <;> rfl

theorem advance {l : Lexeme} {rest : List Lexeme} (h : c.ahead = l :: rest) :
    c.Moves [l] c.advance := by
  obtain ⟨position, lastStop, ahead⟩ := c
  subst h
  exact ⟨rfl, rfl, rfl⟩

theorem inRange (h : c.Moves run c') (hc : c.InRange) : c'.InRange := fun l hl =>
  hc l (h.ahead ▸ List.mem_append_right run hl)

/-- The span from one cursor to another is that of the lexemes between them. -/
theorem spanTo_eq {first : Lexeme} (h : c.Moves (first :: run) c') :
    c.spanTo c' = ⟨first.start, (run.getLastD first).stop⟩ := by
  rw [spanTo, next?, h.ahead, h.lastStop, List.getLast?_cons, List.getLastD_eq_getLast?]
  rfl

end Moves

/-- There is no barrier among the lexemes between two cursors. -/
structure Passes (c : Cursor) (run : List Lexeme) (c' : Cursor) : Prop extends c.Moves run c' where
  clear : ∀ l ∈ run, l.kind ∉ Element.barriers

namespace Passes

variable {c c' c'' : Cursor} {run run' : List Lexeme}

theorem refl (c : Cursor) : c.Passes [] c := ⟨.refl c, List.forall_mem_nil _⟩

theorem trans (h : c.Passes run c') (h' : c'.Passes run' c'') : c.Passes (run ++ run') c'' :=
  ⟨h.toMoves.trans h'.toMoves, List.forall_mem_append.2 ⟨h.clear, h'.clear⟩⟩

theorem advance {l : Lexeme} {rest : List Lexeme} (h : c.ahead = l :: rest)
    (hl : l.kind ∉ Element.barriers) : c.Passes [l] c.advance :=
  ⟨.advance h, List.forall_mem_singleton.2 hl⟩

end Passes

/-- One cursor stands behind another, and there is no barrier between them. -/
def Passed (c c' : Cursor) : Prop := ∃ run, c.Passes run c'

theorem Passed.refl (c : Cursor) : c.Passed c := ⟨[], .refl c⟩

theorem Passed.trans {c c' c'' : Cursor} (h : c.Passed c') (h' : c'.Passed c'') : c.Passed c'' := by
  obtain ⟨run, hrun⟩ := h
  obtain ⟨run', hrun'⟩ := h'
  exact ⟨run ++ run', hrun.trans hrun'⟩

/-- One cursor stands at least one lexeme behind another, and there is no barrier between them. -/
def PassedSome (c c' : Cursor) : Prop := ∃ first run, c.Passes (first :: run) c'

theorem PassedSome.passed {c c' : Cursor} (h : c.PassedSome c') : c.Passed c' := by
  obtain ⟨first, run, h⟩ := h
  exact ⟨first :: run, h⟩

theorem PassedSome.trans {c c' c'' : Cursor} (h : c.PassedSome c') (h' : c'.Passed c'') :
    c.PassedSome c'' := by
  obtain ⟨first, run, hrun⟩ := h
  obtain ⟨run', hrun'⟩ := h'
  exact ⟨first, run ++ run', hrun.trans hrun'⟩

theorem Passed.inRange {c c' : Cursor} (h : c.Passed c') (hc : c.InRange) : c'.InRange := by
  obtain ⟨run, hrun⟩ := h
  exact hrun.inRange hc

end Cursor

/-! ## Results of parsers -/

namespace Parser

variable {α β : Type} {c c' : Cursor}

/-- A sequence that succeeds has done so in both of its parts. -/
theorem of_run_bind {p : Parser α} {f : α → Parser β} {b : β} (h : (p >>= f).run c = .ok b c') :
    ∃ a c₁, p.run c = .ok a c₁ ∧ (f a).run c₁ = .ok b c' := by
  cases hp : p.run c with
  | ok a c₁ => exact ⟨a, c₁, rfl, (run_bind hp).symm.trans h⟩
  | error e c₁ => cases (run_bind_error hp).symm.trans h

theorem run_bind_congr {p p' : Parser α} {f : α → Parser β} (h : p.run c = p'.run c) :
    (p >>= f).run c = (p' >>= f).run c := by
  cases hrun : p.run c with
  | ok a c₁ => rw [run_bind hrun, run_bind (h.symm.trans hrun)]
  | error e c₁ => rw [run_bind_error hrun, run_bind_error (h.symm.trans hrun)]

theorem of_run_map {p : Parser α} {g : α → β} {b : β} (h : (g <$> p).run c = .ok b c') :
    ∃ a, p.run c = .ok a c' ∧ b = g a := by
  cases hp : p.run c with
  | ok a c₁ =>
    have hmap : (g <$> p).run c = .ok (g a) c₁ := by
      show EStateM.map g p c = _
      rw [EStateM.map, show p c = .ok a c₁ from hp]
    cases hmap.symm.trans h
    exact ⟨a, rfl, rfl⟩
  | error e c₁ =>
    have hmap : (g <$> p).run c = .error e c₁ := by
      show EStateM.map g p c = _
      rw [EStateM.map, show p c = .error e c₁ from hp]
    cases hmap.symm.trans h

theorem of_run_attempt {p : Parser α} {a : α} (h : (attempt p).run c = .ok a c') :
    p.run c = .ok a c' := by
  cases hp : p.run c with
  | ok a₁ c₁ =>
    have hattempt : (attempt p).run c = .ok a₁ c₁ := by
      show EStateM.tryCatch p _ c = _
      rw [EStateM.tryCatch, show p c = .ok a₁ c₁ from hp]
    exact hattempt.symm.trans h
  | error e c₁ =>
    have hattempt : (attempt p).run c = .error e c := by
      show EStateM.tryCatch p _ c = _
      rw [EStateM.tryCatch, show p c = .error e c₁ from hp]
      rfl
    cases hattempt.symm.trans h

variable {f : Lexeme → Option α} {kinds : List LexemeKind}

theorem of_run_peekMap {r : Option α} (h : (peekMap f).run c = .ok r c') :
    c' = c ∧ r = c.next?.bind f := by
  cases h
  exact ⟨rfl, rfl⟩

/-- A lexeme of which nothing is made at a barrier is no barrier if something is made of it. -/
theorem not_barrier (hf : Lexeme.Only kinds f) (hkinds : ∀ kind ∈ kinds, kind ∉ Element.barriers)
    {l : Lexeme} {a : α} (h : f l = some a) : l.kind ∉ Element.barriers := by
  by_cases hl : l.kind ∈ kinds
  · exact hkinds _ hl
  · rw [hf l hl] at h
    cases h

/-- What is read if something is made of the next lexeme. -/
theorem of_run_readIf (hf : Lexeme.Only kinds f) (hkinds : ∀ kind ∈ kinds, kind ∉ Element.barriers)
    {r : Option α} (h : (readIf f).run c = .ok r c') :
    (r = none ∧ c' = c) ∨ ∃ l a, l ∈ c.ahead ∧ f l = some a ∧ r = some a ∧ c.Passes [l] c' := by
  obtain ⟨made, c₁, hpeek, hthen⟩ := of_run_bind h
  obtain ⟨rfl, hmade⟩ := of_run_peekMap hpeek
  cases made with
  | none =>
    cases hthen
    exact .inl ⟨rfl, rfl⟩
  | some a =>
    cases hthen
    obtain ⟨l, hl, ha⟩ := Option.bind_eq_some_iff.1 hmade.symm
    obtain ⟨rest, hrest⟩ := List.head?_eq_some_iff.1 hl
    exact .inr ⟨l, a, hrest ▸ List.mem_cons_self, ha, rfl, .advance hrest (not_barrier hf hkinds ha)⟩

theorem of_run_read {expected : List LexemeKind} (hf : Lexeme.Only kinds f)
    (hkinds : ∀ kind ∈ kinds, kind ∉ Element.barriers) {a : α}
    (h : (read expected f).run c = .ok a c') :
    ∃ l ∈ c.ahead, f l = some a ∧ c.Passes [l] c' := by
  obtain ⟨r, c₁, hread, hthen⟩ := of_run_bind h
  obtain ⟨rfl, -⟩ | ⟨l, b, hl, hb, rfl, hpasses⟩ := of_run_readIf hf hkinds hread
  · cases hthen
  · cases hthen
    exact ⟨l, hl, hb, hpasses⟩

theorem ahead_ne_nil_of_read {expected : List LexemeKind} {a : α}
    (h : (read expected f).run c = .ok a c') : c.ahead ≠ [] := by
  obtain ⟨position, lastStop, ahead⟩ := c
  rintro rfl
  cases h

/-- A parser that keeps to the lexemes before the next barrier. Where the registers ahead exist, what it
gives is good. -/
def Gives (p : Parser α) (good : α → Prop) : Prop :=
  ∀ c a c', p.run c = .ok a c' → c.Passed c' ∧ (c.InRange → good a)

namespace Gives

variable {p : Parser α} {good : α → Prop} {good' : β → Prop}

theorem pure {a : α} (h : good a) : Gives (pure a) good := by
  intro c _ c' hrun
  cases hrun
  exact ⟨.refl c, fun _ => h⟩

theorem bind {f : α → Parser β} (hp : Gives p good) (hf : ∀ a, Gives (f a) fun b => good a → good' b) :
    Gives (p >>= f) good' := by
  intro c b c' h
  obtain ⟨a, c₁, ha, hb⟩ := of_run_bind h
  obtain ⟨hpassed, hgood⟩ := hp c a c₁ ha
  obtain ⟨hpassed', hgood'⟩ := hf a c₁ b c' hb
  exact ⟨hpassed.trans hpassed', fun hc => hgood' (hpassed.inRange hc) (hgood hc)⟩

theorem mono {good' : α → Prop} (hp : Gives p good) (h : ∀ a, good a → good' a) : Gives p good' := by
  intro c a c' hrun
  obtain ⟨hpassed, hgood⟩ := hp c a c' hrun
  exact ⟨hpassed, fun hc => h a (hgood hc)⟩

theorem attempt (hp : Gives p good) : Gives (attempt p) good :=
  fun c a c' h => hp c a c' (of_run_attempt h)

theorem repeated {p : Parser (Option α)} (hp : Gives p fun r => ∀ a ∈ r, good a) :
    Gives (repeated p) fun as => ∀ a ∈ as, good a := by
  have hrounds (limit : Nat) : Gives (repeatAtMost p limit) fun as => ∀ a ∈ as, good a := by
    induction limit with
    | zero => exact .pure (List.forall_mem_nil _)
    | succ limit ih =>
      refine hp.bind fun r => ?_
      cases r with
      | none => exact .pure fun _ => List.forall_mem_nil _
      | some a =>
        refine ih.bind fun others => .pure fun hothers ha => ?_
        exact List.forall_mem_cons.2 ⟨ha a rfl, hothers⟩
  exact fun c as c' h => hrounds _ c as c' h

end Gives

theorem gives_get : Gives get fun _ => True := by
  intro c _ c' h
  cases h
  exact ⟨.refl c, fun _ => trivial⟩

theorem gives_fail {good : α → Prop} (cause : ParseError.Cause) : Gives (fail cause) good := by
  intro c a c' h
  cases h

theorem gives_failAt {good : α → Prop} (place : Cursor) (cause : ParseError.Cause) :
    Gives (failAt place cause) good := by
  intro c a c' h
  cases h

theorem gives_readIf (hf : Lexeme.Only kinds f) (hkinds : ∀ kind ∈ kinds, kind ∉ Element.barriers) :
    Gives (readIf f) fun r => ∀ a ∈ r, ∃ l : Lexeme, l.RegisterInRange ∧ f l = some a := by
  intro c r c' h
  obtain ⟨rfl, rfl⟩ | ⟨l, a, hl, ha, rfl, hpasses⟩ := of_run_readIf hf hkinds h
  · exact ⟨.refl _, fun _ => nofun⟩
  · refine ⟨⟨_, hpasses⟩, fun hc => ?_⟩
    rintro _ ⟨⟩
    exact ⟨l, hc l hl, ha⟩

theorem gives_read {expected : List LexemeKind} (hf : Lexeme.Only kinds f)
    (hkinds : ∀ kind ∈ kinds, kind ∉ Element.barriers) :
    Gives (read expected f) fun a => ∃ l : Lexeme, l.RegisterInRange ∧ f l = some a := by
  intro c a c' h
  obtain ⟨l, hl, ha, hpasses⟩ := of_run_read hf hkinds h
  exact ⟨⟨_, hpasses⟩, fun hc => ⟨l, hc l hl, ha⟩⟩

theorem gives_peekMap : Gives (peekMap f) fun _ => True := by
  intro c r c' h
  obtain ⟨rfl, -⟩ := of_run_peekMap h
  exact ⟨.refl _, fun _ => trivial⟩

/-- A parser reads nothing, or something of at least one lexeme. Behind all lexemes it reads nothing. -/
structure Advances (p : Parser (Option α)) : Prop where
  step : ∀ c r c', p.run c = .ok r c' → (r = none ∧ c' = c) ∨ (r.isSome ∧ c.PassedSome c')
  atEnd : ∀ c : Cursor, c.ahead = [] → p.run c = .ok none c

/-- There is no difference between limits that are enough for all lexemes ahead. -/
theorem repeatAtMost_of_le {p : Parser (Option α)} (hp : Advances p) {limit limit' : Nat}
    (h : c.ahead.length ≤ limit) (h' : c.ahead.length ≤ limit') :
    (repeatAtMost p limit).run c = (repeatAtMost p limit').run c := by
  have hnothing {c : Cursor} (hahead : c.ahead = []) (limit : Nat) :
      (repeatAtMost p limit).run c = .ok [] c := by
    cases limit with
    | zero => rfl
    | succ limit => exact run_bind (hp.atEnd c hahead)
  induction limit generalizing c limit' with
  | zero =>
    have hahead := List.length_eq_zero_iff.1 (Nat.le_zero.1 h)
    rw [hnothing hahead, hnothing hahead]
  | succ limit ih =>
    cases limit' with
    | zero =>
      have hahead := List.length_eq_zero_iff.1 (Nat.le_zero.1 h')
      rw [hnothing hahead, hnothing hahead]
    | succ limit' =>
      rw [repeatAtMost, repeatAtMost]
      cases hrun : p.run c with
      | error e c₁ => rw [run_bind_error hrun, run_bind_error hrun]
      | ok r c₁ =>
        rw [run_bind hrun, run_bind hrun]
        obtain ⟨rfl, rfl⟩ | ⟨hsome, first, run, hpasses⟩ := hp.step c r c₁ hrun
        · rfl
        · obtain ⟨a, rfl⟩ := Option.isSome_iff_exists.1 hsome
          have hlength := congrArg List.length hpasses.ahead
          rw [List.length_append, List.length_cons] at hlength
          exact run_bind_congr (ih (by omega) (by omega))

end Parser

open Drama.Parser

/-! ## Addresses -/

namespace Term

theorem gives : Gives parser fun _ => True :=
  (gives_read Lexeme.only_term? (by decide)).mono fun _ _ => trivial

/-- A further term is at least one lexeme. -/
theorem advances_further : Advances further := by
  refine ⟨fun c r c' h => ?_, fun ⟨_, _, _⟩ hahead => by subst hahead; rfl⟩
  obtain ⟨made, c₁, hpeek, hthen⟩ := of_run_bind h
  obtain ⟨rfl, hmade⟩ := of_run_peekMap hpeek
  cases made with
  | none =>
    obtain ⟨r₁, c₂, hread, hdone⟩ := of_run_bind hthen
    cases hdone
    obtain ⟨rfl, rfl⟩ | ⟨l, value, -, -, rfl, hpasses⟩ :=
      of_run_readIf Lexeme.only_negativeLiteral? (by decide) hread
    · exact .inl ⟨rfl, rfl⟩
    · exact .inr ⟨rfl, l, [], hpasses⟩
  | some operator =>
    dsimp only at hthen
    split at hthen
    · obtain ⟨_, c₂, hadvance, hread⟩ := of_run_bind hthen
      obtain ⟨t, c₃, hterm, hdone⟩ := of_run_bind hread
      cases hadvance
      cases hdone
      obtain ⟨l, hl, ha⟩ := Option.bind_eq_some_iff.1 hmade.symm
      obtain ⟨rest, hrest⟩ := List.head?_eq_some_iff.1 hl
      have hoperator := Cursor.Passes.advance hrest (not_barrier Lexeme.only_operator? (by decide) ha)
      have hpassed := (gives.attempt _ _ _ hterm).1
      exact .inr ⟨rfl, .trans ⟨l, [], hoperator⟩ hpassed⟩
    · cases hthen

theorem gives_further : Gives further fun _ => True := by
  intro c r c' h
  obtain ⟨-, rfl⟩ | ⟨-, hpassed⟩ := advances_further.step c r c' h
  · exact ⟨.refl c', fun _ => trivial⟩
  · exact ⟨hpassed.passed, fun _ => trivial⟩

end Term

namespace Index

theorem gives_checkOperators (before after : Option Operator) :
    Gives (checkOperators before after) fun _ => True := by
  unfold checkOperators
  split
  · exact gives_fail _
  · split
    · exact gives_fail _
    · exact .pure trivial

theorem gives_inner : Gives inner fun i => IsRegister i.register := by
  refine (gives_readIf Lexeme.only_operator? (by decide)).bind fun before => ?_
  refine (gives_read Lexeme.only_register? (by decide)).bind fun register => ?_
  refine (gives_readIf Lexeme.only_operator? (by decide)).bind fun after => ?_
  refine (gives_checkOperators before after).bind fun _ => gives_get.bind fun closing => ?_
  refine (gives_read Lexeme.only_bracket? (by decide)).bind fun bracket => ?_
  cases bracket with
  | opening => exact gives_failAt _ _
  | closing =>
    refine .pure fun _ _ _ _ hregister _ => ?_
    obtain ⟨l, hl, hmade⟩ := hregister
    exact ⟨Int.natCast_nonneg _, Int.ofNat_le.2 (Lexeme.le_of_register? hl hmade)⟩

theorem gives : Gives parser fun r => ∀ i ∈ r, IsRegister i.register := by
  refine gives_get.bind fun start => ?_
  refine (gives_readIf Lexeme.only_bracket? (by decide)).bind fun bracket => ?_
  match bracket with
  | none => exact .pure fun _ _ => nofun
  | some .closing => exact gives_failAt _ _
  | some .opening =>
    refine gives_inner.bind fun i => .pure fun hi _ _ => ?_
    rintro _ ⟨⟩
    exact hi

end Index

/-- Whether the index register of an address exists. -/
def AddressExpression.InRange (e : AddressExpression) : Prop :=
  ∀ index ∈ e.index, IsRegister index.register

theorem AddressExpression.gives : Gives parser InRange := by
  refine gives_get.bind fun start => Term.gives.attempt.bind fun first => ?_
  refine (Gives.repeated (Term.gives_further.mono fun _ _ _ _ => trivial)).bind fun others => ?_
  refine Index.gives.bind fun index => gives_get.bind fun stop => ?_
  exact .pure fun _ hindex _ _ _ => hindex

/-! ## Arguments -/

/-- Whether the registers in an argument exist. -/
def WrittenArgument.InRange : WrittenArgument → Prop
  | .register number => number ≤ 9
  | .condition _ => True
  | .address e => e.InRange

theorem WrittenArgument.gives : Gives parser InRange := by
  refine (gives_readIf Lexeme.only_register? (by decide)).bind fun register => ?_
  cases register with
  | some number =>
    refine .pure fun hregister => ?_
    obtain ⟨l, hl, hmade⟩ := hregister number rfl
    exact Lexeme.le_of_register? hl hmade
  | none =>
    refine (gives_readIf Lexeme.only_condition? (by decide)).bind fun named => ?_
    cases named with
    | some condition => exact .pure fun _ _ => trivial
    | none =>
      exact AddressExpression.gives.attempt.bind fun e => .pure fun he _ _ => he

namespace CommandStatement

/-- A further argument is at least one lexeme. -/
theorem advances_furtherArgument : Advances furtherArgument := by
  refine ⟨fun c r c' h => ?_, fun ⟨_, _, _⟩ hahead => by subst hahead; rfl⟩
  have hseparator := Lexeme.only_ofKinds (List.cons_ne_nil LexemeKind.argumentSeparator [])
  obtain ⟨separator, c₁, hread, hthen⟩ := of_run_bind h
  obtain ⟨rfl, rfl⟩ | ⟨l, _, -, -, rfl, hpasses⟩ := of_run_readIf hseparator (by decide) hread
  · cases hthen
    exact .inl ⟨rfl, rfl⟩
  · obtain ⟨a, c₂, hargument, hdone⟩ := of_run_bind hthen
    cases hdone
    exact .inr ⟨rfl, .trans ⟨l, [], hpasses⟩ (WrittenArgument.gives _ _ _ hargument).1⟩

theorem gives_furtherArgument : Gives furtherArgument fun r => ∀ a ∈ r, a.InRange := by
  have hseparator := Lexeme.only_ofKinds (List.cons_ne_nil LexemeKind.argumentSeparator [])
  refine (gives_readIf hseparator (by decide)).bind fun separator => ?_
  cases separator with
  | none => exact .pure fun _ => nofun
  | some _ =>
    refine WrittenArgument.gives.bind fun a => .pure fun ha _ => ?_
    rintro _ ⟨⟩
    exact ha

theorem gives_argumentsParser : Gives argumentsParser fun as => ∀ a ∈ as, a.InRange := by
  refine gives_peekMap.bind fun start => ?_
  cases start with
  | none => exact .pure fun _ => List.forall_mem_nil _
  | some _ =>
    refine WrittenArgument.gives.bind fun first => ?_
    refine gives_furtherArgument.repeated.bind fun others => .pure fun hothers hfirst _ => ?_
    exact List.forall_mem_cons.2 ⟨hfirst, hothers⟩

end CommandStatement

/-! ## Constructs -/

/-- A parser of a construct takes up at least one lexeme and no barrier, and the span of what it gives is
that of the lexemes that it takes up. -/
def Parser.Spans {α : Type} (p : Parser α) (span : α → Span) (good : α → Prop) : Prop :=
  ∀ c a c', p.run c = .ok a c' →
    c.PassedSome c' ∧ span a = c.spanTo c' ∧ (c.InRange → good a)

/-- Whether the instruction and the registers in a statement exist. -/
def Statement.Body.InRange : Statement.Body → Prop
  | .command c => c.instruction ∈ InstructionSet.standard.entries ∧ ∀ a ∈ c.arguments, a.InRange
  | .value _ | .allocation _ => True

theorem CommandStatement.spans :
    Spans parser Statement.span fun s => s.body.InRange := by
  intro c s c' h
  obtain ⟨start, c₁, hstart, h₁⟩ := of_run_bind h
  obtain ⟨name, c₂, hname, h₂⟩ := of_run_bind h₁
  obtain ⟨l, -, -, hl⟩ := of_run_read Lexeme.only_identifier? (by decide) hname
  obtain ⟨named, c₃, hnamed, h₃⟩ := of_run_bind h₂
  cases hstart
  cases hnamed
  split at h₃
  · cases h₃
  · rename_i instruction hfound
    obtain ⟨mode, c₄, hmode, h₄⟩ := of_run_bind h₃
    obtain ⟨arguments, c₅, harguments, h₅⟩ := of_run_bind h₄
    obtain ⟨stop, c₆, hstop, h₆⟩ := of_run_bind h₅
    cases hstop
    cases h₆
    obtain ⟨hmode, -⟩ := gives_readIf Lexeme.only_mode? (by decide) _ _ _ hmode
    obtain ⟨harguments, hgood⟩ := gives_argumentsParser _ _ _ harguments
    have hname : c.PassedSome c₂ := ⟨l, [], hl⟩
    refine ⟨hname.trans (hmode.trans harguments), rfl, fun hc => ⟨?_, ?_⟩⟩
    · exact InstructionSet.mem_of_find? hfound
    · exact hgood (hmode.inRange (hname.passed.inRange hc))

theorem Statement.spans_valueParser : Spans valueParser Statement.span fun s => s.body.InRange := by
  intro c s c' h
  obtain ⟨start, c₁, hstart, h₁⟩ := of_run_bind h
  obtain ⟨value, c₂, hvalue, h₂⟩ := of_run_bind h₁
  obtain ⟨l, -, -, hl⟩ := of_run_read Lexeme.only_literal? (by decide) hvalue
  cases hstart
  cases h₂
  exact ⟨⟨l, [], hl⟩, rfl, fun _ => trivial⟩

theorem Statement.spans_allocationParser :
    Spans allocationParser Statement.span fun s => s.body.InRange := by
  have hkeyword := Lexeme.only_ofKinds (List.cons_ne_nil LexemeKind.identifier [])
  intro c s c' h
  obtain ⟨start, c₁, hstart, h₁⟩ := of_run_bind h
  obtain ⟨keyword, c₂, hread, h₂⟩ := of_run_bind h₁
  obtain ⟨l, -, -, hl⟩ := of_run_read hkeyword (by decide) hread
  cases hstart
  split at h₂
  · cases h₂
  · obtain ⟨beforeSize, c₃, hget, h₃⟩ := of_run_bind h₂
    obtain ⟨size, c₄, hsize, h₄⟩ := of_run_bind h₃
    obtain ⟨l', -, -, hl'⟩ := of_run_read Lexeme.only_literal? (by decide) hsize
    cases hget
    split at h₄
    · cases h₄
    · cases h₄
      exact ⟨.trans ⟨l, [], hl⟩ ⟨[l'], hl'⟩, rfl, fun _ => trivial⟩

/-- A label is read from at least one lexeme and no barrier, and its span is that of these. -/
theorem Element.label_of_labelParser {c c' : Cursor} {e : Element}
    (h : labelParser.run c = .ok e c') : c.PassedSome c' ∧ ∃ name, e = .label name (c.spanTo c') := by
  have hmarker := Lexeme.only_ofKinds (List.cons_ne_nil LexemeKind.labelMarker [])
  obtain ⟨start, c₁, hstart, h₁⟩ := of_run_bind h
  obtain ⟨name, c₂, hname, h₂⟩ := of_run_bind h₁
  obtain ⟨l, -, -, hl⟩ := of_run_read Lexeme.only_identifier? (by decide) hname
  obtain ⟨marker, c₃, hread, h₃⟩ := of_run_bind h₂
  obtain ⟨hpassed, -⟩ := gives_readIf hmarker (by decide) _ _ _ hread
  cases hstart
  split at h₃
  · cases h₃
  · cases h₃
    exact ⟨.trans ⟨l, [], hl⟩ hpassed, name, rfl⟩

end Drama
