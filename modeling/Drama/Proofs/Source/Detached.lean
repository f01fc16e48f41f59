-- SUMMARY: What a construct reads it reads in the same way where nothing stands behind it.
import Drama.Proofs.Source.Division
import Drama.Proofs.Source.Reach
import Drama.Proofs.Source.RoundTrip

/-!
# Constructs without what stands behind them

A parser may look at the lexeme behind those that it reads, to see that it is not one of them. What it makes
of its lexemes does not depend on that one: a parser that leaves at least `n` lexemes makes the same where the
last `n` lexemes are cut off (`Parser.Detaches`). All constructs read a lexeme first, so they do not depend
either on where the one in front of it stops (`Parser.Opens`). Which construct is the first that fits is the
same as well, since those that are tried before it fail on the lexemes that it starts with
(`Element.ofConstructs_alone`).
-/

namespace Drama

/-! ## Cursors with the last lexemes cut off -/

namespace Cursor

variable {n : Nat} {c c' : Cursor}

/-- The cursor where the last `n` lexemes are not there. -/
def cut (n : Nat) (c : Cursor) : Cursor := { c with ahead := c.ahead.take (c.ahead.length - n) }

/-- The cursor where another place is known as the stop of the lexeme before it. -/
def stoppedAt (stop : Nat) (c : Cursor) : Cursor := { c with lastStop := stop }

theorem length_ahead_cut (n : Nat) (c : Cursor) : (c.cut n).ahead.length = c.ahead.length - n := by
  rw [cut, List.length_take, Nat.min_eq_left (Nat.sub_le _ _)]

theorem next?_cut (h : n < c.ahead.length) : (c.cut n).next? = c.next? := by
  rw [next?, cut, List.head?_take, if_neg (by omega)]
  rfl

theorem next?_cut_eq_none (h : c.ahead.length ≤ n) : (c.cut n).next? = none := by
  rw [next?, cut, Nat.sub_eq_zero_of_le h, List.take_zero]
  rfl

theorem length_ahead_advance_le (c : Cursor) : c.advance.ahead.length ≤ c.ahead.length := by
  unfold advance
  split
  · exact Nat.le_refl _
  · rename_i l rest hahead
    rw [hahead]
    exact Nat.le_succ _

theorem length_ahead_advance_lt {l : Lexeme} (h : c.next? = some l) :
    c.advance.ahead.length < c.ahead.length := by
  obtain ⟨rest, hahead⟩ := List.head?_eq_some_iff.1 h
  rw [advance, hahead]
  exact Nat.lt_succ_self _

theorem cut_advance (h : n ≤ c.advance.ahead.length) : c.advance.cut n = (c.cut n).advance := by
  obtain ⟨position, lastStop, ahead⟩ := c
  cases ahead with
  | nil => simp only [advance, cut, List.take_nil]
  | cons l rest =>
    have hle : n ≤ rest.length := h
    have htake : (l :: rest).take ((l :: rest).length - n) = l :: rest.take (rest.length - n) := by
      rw [List.length_cons, Nat.succ_sub hle, List.take_succ_cons]
    simp only [cut, advance, htake]

/-- The stop of the lexeme before a cursor is forgotten when it is moved. -/
theorem advance_stoppedAt {l : Lexeme} (h : c.next? = some l) (stop : Nat) :
    (c.stoppedAt stop).advance = c.advance := by
  obtain ⟨position, lastStop, ahead⟩ := c
  obtain ⟨rest, rfl⟩ := List.head?_eq_some_iff.1 h
  rfl

theorem spanTo_cut {start start' : Cursor} (h : start'.next? = start.next?) (stop : Cursor) :
    start'.spanTo (stop.cut n) = start.spanTo stop := by
  rw [spanTo, h]
  rfl

end Cursor

/-! ## Runs that read the next lexeme -/

namespace Parser

variable {α β : Type} {n : Nat} {p q : Parser α} {f : Lexeme → Option α} {c c' : Cursor}

theorem run_readIf_none (h : c.next?.bind f = none) : (readIf f).run c = .ok none c := by
  have hpeek : (peekMap f).run c = .ok none c := congrArg (EStateM.Result.ok · c) h
  rw [readIf, run_bind hpeek]
  rfl

theorem run_readIf_some {l : Lexeme} {a : α} (hl : c.next? = some l) (ha : f l = some a) :
    (readIf f).run c = .ok (some a) c.advance := by
  have hmade : c.next?.bind f = some a := by rw [hl, Option.bind_some, ha]
  have hpeek : (peekMap f).run c = .ok (some a) c := congrArg (EStateM.Result.ok · c) hmade
  rw [readIf, run_bind hpeek]
  rfl

/-- What is read of the next lexeme, if something is made of it. -/
theorem next?_of_run_readIf {r : Option α} (h : (readIf f).run c = .ok r c') :
    (r = none ∧ c' = c ∧ c.next?.bind f = none) ∨
      ∃ l a, c.next? = some l ∧ f l = some a ∧ r = some a ∧ c' = c.advance := by
  cases hmade : c.next?.bind f with
  | none =>
    cases (run_readIf_none hmade).symm.trans h
    exact .inl ⟨rfl, rfl, rfl⟩
  | some a =>
    obtain ⟨l, hl, ha⟩ := Option.bind_eq_some_iff.1 hmade
    cases (run_readIf_some hl ha).symm.trans h
    exact .inr ⟨l, a, hl, ha, rfl, rfl⟩

theorem next?_of_run_read {expected : List LexemeKind} {a : α} (h : (read expected f).run c = .ok a c') :
    ∃ l, c.next? = some l ∧ f l = some a ∧ c' = c.advance := by
  obtain ⟨r, c₁, hread, hthen⟩ := of_run_bind h
  obtain ⟨rfl, -⟩ | ⟨l, b, hl, hb, rfl, rfl⟩ := next?_of_run_readIf hread
  · cases hthen
  · cases hthen
    exact ⟨l, hl, hb, rfl⟩

theorem run_attempt {a : α} (h : p.run c = .ok a c') : (attempt p).run c = .ok a c' := by
  show EStateM.tryCatch p _ c = _
  rw [EStateM.tryCatch, show p c = .ok a c' from h]

/-! ## Parsers that need no lexemes behind theirs -/

/-- If the second parser leaves the last `n` lexemes, the first one makes the same without them. The two are
the same parser but for what they know of the cursor. -/
structure Detaches (n : Nat) (q p : Parser α) : Prop where
  shrinks : ∀ {c a c'}, p.run c = .ok a c' → c'.ahead.length ≤ c.ahead.length
  alone : ∀ {c a c'}, p.run c = .ok a c' → n ≤ c'.ahead.length → q.run (c.cut n) = .ok a (c'.cut n)

/-- A parser that reads at least one lexeme and makes the same without the last `n` lexemes, if it leaves
them, and wherever the lexeme before it stops. -/
structure Opens (n : Nat) (p : Parser α) : Prop where
  shorter : ∀ {c a c'}, p.run c = .ok a c' → c'.ahead.length < c.ahead.length
  anew : ∀ {c a c'}, p.run c = .ok a c' → n ≤ c'.ahead.length →
    ∀ stop, p.run ((c.cut n).stoppedAt stop) = .ok a (c'.cut n)

theorem Opens.detaches (hp : Opens n p) : Detaches n p p where
  shrinks h := (hp.shorter h).le
  alone h hn := hp.anew h hn _

namespace Detaches

theorem pure (a : α) : Detaches n (pure a) (pure a) where
  shrinks h := by
    cases h
    exact Nat.le_refl _
  alone h _ := by
    cases h
    rfl

theorem bind {f g : α → Parser β} (hp : Detaches n q p) (hf : ∀ a, Detaches n (g a) (f a)) :
    Detaches n (q >>= g) (p >>= f) where
  shrinks h := by
    obtain ⟨a, c₁, hfirst, hthen⟩ := of_run_bind h
    exact ((hf a).shrinks hthen).trans (hp.shrinks hfirst)
  alone h hn := by
    obtain ⟨a, c₁, hfirst, hthen⟩ := of_run_bind h
    rw [run_bind (hp.alone hfirst (hn.trans ((hf a).shrinks hthen)))]
    exact (hf a).alone hthen hn

theorem bind_get {f g : Cursor → Parser α} (hf : ∀ c, Detaches n (g (c.cut n)) (f c)) :
    Detaches n (get >>= g) (get >>= f) where
  shrinks {c _ _} h := (hf c).shrinks h
  alone {c _ _} h hn := (hf c).alone h hn

/-- What never succeeds leaves nothing to show. -/
theorem of_never (h : ∀ c a c', p.run c ≠ .ok a c') : Detaches n q p where
  shrinks hrun := absurd hrun (h _ _ _)
  alone hrun := absurd hrun (h _ _ _)

/-- A look at the next lexeme tells the same as long as that lexeme is read where something is seen in it. -/
theorem bind_peekMap {g : Option α → Parser β} (hg : ∀ r, Detaches n (g r) (g r))
    (hreads : ∀ {l a c b c'}, c.next? = some l → f l = some a → (g (some a)).run c = .ok b c' →
      c'.ahead.length < c.ahead.length) : Detaches n (peekMap f >>= g) (peekMap f >>= g) where
  shrinks {c _ _} h := (hg (c.next?.bind f)).shrinks h
  alone {c b c'} h hn := by
    have hseen : (c.cut n).next?.bind f = c.next?.bind f := by
      by_cases hlt : n < c.ahead.length
      · rw [Cursor.next?_cut hlt]
      · rw [Cursor.next?_cut_eq_none (Nat.le_of_not_lt hlt)]
        cases hmade : c.next?.bind f with
        | none => rfl
        | some a =>
          obtain ⟨l, hl, ha⟩ := Option.bind_eq_some_iff.1 hmade
          have hrun : (g (c.next?.bind f)).run c = .ok b c' := h
          rw [hmade] at hrun
          exact absurd (hn.trans_lt (hreads hl ha hrun)) hlt
    show (g ((c.cut n).next?.bind f)).run (c.cut n) = _
    rw [hseen]
    exact (hg _).alone h hn

/-- Repetitions are the same however many of them are allowed, if there are enough. -/
theorem repeated {p : Parser (Option α)} (hp : Detaches n p p) (hadvances : Advances p) :
    Detaches n (repeated p) (repeated p) := by
  have hrounds (limit : Nat) : Detaches n (repeatAtMost p limit) (repeatAtMost p limit) := by
    induction limit with
    | zero => exact .pure []
    | succ limit ih =>
      apply hp.bind
      intro r
      cases r with
      | none => exact .pure []
      | some a => exact ih.bind fun others => .pure (a :: others)
  refine ⟨fun h => (hrounds _).shrinks h, fun {c as c'} h hn => ?_⟩
  show (repeatAtMost p (c.cut n).ahead.length).run (c.cut n) = _
  have hle : (c.cut n).ahead.length ≤ c.ahead.length := by
    rw [Cursor.length_ahead_cut]
    exact Nat.sub_le _ _
  rw [repeatAtMost_of_le hadvances (Nat.le_refl _) hle]
  exact (hrounds _).alone h hn

end Detaches

theorem detaches_fail (cause : ParseError.Cause) : Detaches n q (fail cause) :=
  .of_never fun _ _ _ h => by cases h

theorem detaches_failAt (place : Cursor) (cause : ParseError.Cause) : Detaches n q (failAt place cause) :=
  .of_never fun _ _ _ h => by cases h

theorem detaches_advance : Detaches n (modify Cursor.advance) (modify Cursor.advance) where
  shrinks h := by
    cases h
    exact Cursor.length_ahead_advance_le _
  alone h hn := by
    cases h
    rw [Cursor.cut_advance hn]
    rfl

theorem detaches_readIf : Detaches n (readIf f) (readIf f) := by
  apply Detaches.bind_peekMap
  · intro r
    cases r with
    | none => exact .pure none
    | some a => exact detaches_advance.bind fun _ => .pure (some a)
  · intro l a c b c' hl _ h
    cases h
    exact Cursor.length_ahead_advance_lt hl

namespace Opens

theorem of_never (h : ∀ c a c', p.run c ≠ .ok a c') : Opens n p where
  shorter hrun := absurd hrun (h _ _ _)
  anew hrun := absurd hrun (h _ _ _)

theorem bind {f : α → Parser β} (hp : Opens n p) (hf : ∀ a, Detaches n (f a) (f a)) :
    Opens n (p >>= f) where
  shorter h := by
    obtain ⟨a, c₁, hfirst, hthen⟩ := of_run_bind h
    exact ((hf a).shrinks hthen).trans_lt (hp.shorter hfirst)
  anew h hn stop := by
    obtain ⟨a, c₁, hfirst, hthen⟩ := of_run_bind h
    rw [run_bind (hp.anew hfirst (hn.trans ((hf a).shrinks hthen)) stop)]
    exact (hf a).alone hthen hn

theorem map {g : α → β} (hp : Opens n p) : Opens n (g <$> p) := by
  rw [map_eq_pure_bind]
  exact hp.bind fun a => .pure (g a)

theorem attempt (hp : Opens n p) : Opens n (attempt p) where
  shorter h := hp.shorter (of_run_attempt h)
  anew h hn stop := run_attempt (hp.anew (of_run_attempt h) hn stop)

/-- What starts with a lexeme that need not be there opens if it does so without that lexeme. -/
theorem bind_readIf {g : Option α → Parser β} (hsome : ∀ a, Detaches n (g (some a)) (g (some a)))
    (hnone : Opens n (g none)) : Opens n (readIf f >>= g) where
  shorter h := by
    obtain ⟨r, c₁, hread, hthen⟩ := of_run_bind h
    obtain ⟨rfl, rfl, -⟩ | ⟨l, a, hl, -, rfl, rfl⟩ := next?_of_run_readIf hread
    · exact hnone.shorter hthen
    · exact ((hsome a).shrinks hthen).trans_lt (Cursor.length_ahead_advance_lt hl)
  anew {c b c'} h hn stop := by
    obtain ⟨r, c₁, hread, hthen⟩ := of_run_bind h
    obtain ⟨rfl, rfl, hmade⟩ | ⟨l, a, hl, ha, rfl, rfl⟩ := next?_of_run_readIf hread
    · have hnext : ((c₁.cut n).stoppedAt stop).next? = c₁.next? :=
        Cursor.next?_cut (hn.trans_lt (hnone.shorter hthen))
      have hmade' : ((c₁.cut n).stoppedAt stop).next?.bind f = none := by rw [hnext, hmade]
      rw [run_bind (run_readIf_none hmade')]
      exact hnone.anew hthen hn stop
    · have hle : n ≤ c.advance.ahead.length := hn.trans ((hsome a).shrinks hthen)
      have hnext : ((c.cut n).stoppedAt stop).next? = some l :=
        (Cursor.next?_cut (hle.trans_lt (Cursor.length_ahead_advance_lt hl))).trans hl
      have hadvance : ((c.cut n).stoppedAt stop).advance = c.advance.cut n :=
        (Cursor.advance_stoppedAt (c := c.cut n) hnext stop).trans (Cursor.cut_advance hle).symm
      rw [run_bind (run_readIf_some hnext ha), hadvance]
      exact (hsome a).alone hthen hn

/-- A parser may know where it started if it only uses which lexeme stands there. -/
theorem bind_get {first : Parser β} {rest : Cursor → β → Parser α} (hfirst : Opens n first)
    (hrest : ∀ {start start' : Cursor} (b : β), start'.next? = start.next? →
      Detaches n (rest start' b) (rest start b)) :
    Opens n (get >>= fun start => first >>= rest start) where
  shorter {c a c'} h := by
    obtain ⟨b, c₁, hb, hthen⟩ := of_run_bind (show (first >>= rest c).run c = .ok a c' from h)
    exact ((hrest b rfl).shrinks hthen).trans_lt (hfirst.shorter hb)
  anew {c a c'} h hn stop := by
    obtain ⟨b, c₁, hb, hthen⟩ := of_run_bind (show (first >>= rest c).run c = .ok a c' from h)
    have hle : n ≤ c₁.ahead.length := hn.trans ((hrest b rfl).shrinks hthen)
    have hnext : ((c.cut n).stoppedAt stop).next? = c.next? :=
      Cursor.next?_cut (hle.trans_lt (hfirst.shorter hb))
    show (first >>= rest ((c.cut n).stoppedAt stop)).run ((c.cut n).stoppedAt stop) = _
    rw [run_bind (hfirst.anew hb hle stop)]
    exact (hrest b hnext).alone hthen hn

end Opens

theorem opens_read {expected : List LexemeKind} : Opens n (read expected f) := by
  apply Opens.bind_readIf
  · intro a
    exact .pure a
  · exact .of_never fun _ _ _ h => by cases h

end Parser

open Drama.Parser

variable {n : Nat}

/-! ## Addresses and arguments -/

namespace Term

theorem opens : Opens n parser := opens_read

theorem detaches_further : Detaches n further further := by
  apply Detaches.bind_peekMap
  · intro r
    cases r with
    | none => exact detaches_readIf.bind fun r => .pure _
    | some operator =>
      dsimp only
      split
      · exact detaches_advance.bind fun _ => opens.attempt.detaches.bind fun t => .pure _
      · exact detaches_fail _
  · intro l operator c b c' hl _ h
    dsimp only at h
    split at h
    · obtain ⟨_, c₁, hadvance, hread⟩ := of_run_bind h
      obtain ⟨t, c₂, hterm, hdone⟩ := of_run_bind hread
      cases hadvance
      cases hdone
      have hterm' : Opens 0 (attempt parser) := opens.attempt
      exact (hterm'.shorter hterm).trans (Cursor.length_ahead_advance_lt hl)
    · cases h

end Term

namespace Index

theorem detaches_checkOperators (before after : Option Operator) :
    Detaches n (checkOperators before after) (checkOperators before after) := by
  unfold checkOperators
  split
  · exact detaches_fail _
  · split
    · exact detaches_fail _
    · exact .pure ()

theorem detaches_inner : Detaches n inner inner := by
  apply detaches_readIf.bind
  intro before
  apply opens_read.detaches.bind
  intro register
  apply detaches_readIf.bind
  intro after
  apply (detaches_checkOperators before after).bind
  intro _
  apply Detaches.bind_get
  intro closing
  apply opens_read.detaches.bind
  intro bracket
  cases bracket with
  | opening => exact detaches_failAt _ _
  | closing => exact .pure _

theorem detaches : Detaches n parser parser := by
  apply Detaches.bind_get
  intro start
  apply detaches_readIf.bind
  intro bracket
  match bracket with
  | none => exact .pure none
  | some .closing => exact detaches_failAt _ _
  | some .opening => exact detaches_inner.bind fun i => .pure (some i)

end Index

theorem AddressExpression.opens : Opens n parser := by
  apply Term.opens.attempt.bind_get
  intro start start' first hnext
  apply (Term.detaches_further.repeated Term.advances_further).bind
  intro others
  apply Index.detaches.bind
  intro index
  apply Detaches.bind_get
  intro stop
  rw [Cursor.spanTo_cut hnext]
  exact .pure _

theorem WrittenArgument.opens : Opens n parser := by
  apply Opens.bind_readIf
  · intro number
    exact .pure _
  · apply Opens.bind_readIf
    · intro condition
      exact .pure _
    · exact AddressExpression.opens.attempt.bind fun e => .pure _

namespace CommandStatement

theorem detaches_furtherArgument : Detaches n furtherArgument furtherArgument := by
  apply detaches_readIf.bind
  intro separator
  cases separator with
  | none => exact .pure none
  | some _ => exact WrittenArgument.opens.detaches.bind fun a => .pure (some a)

theorem detaches_argumentsParser : Detaches n argumentsParser argumentsParser := by
  have hothers (first : WrittenArgument) :
      Detaches n (repeated furtherArgument >>= fun others => pure (first :: others))
        (repeated furtherArgument >>= fun others => pure (first :: others)) :=
    (detaches_furtherArgument.repeated advances_furtherArgument).bind fun others => .pure _
  apply Detaches.bind_peekMap
  · intro r
    cases r with
    | none => exact .pure []
    | some _ => exact (WrittenArgument.opens.bind hothers).detaches
  · intro l _ c arguments c' _ _ h
    exact (WrittenArgument.opens.bind hothers).shorter h

end CommandStatement

/-! ## Constructs -/

theorem CommandStatement.opens : Opens n parser := by
  apply opens_read.bind_get
  intro start start' name hnext
  apply Detaches.bind_get
  intro behindName
  cases InstructionSet.standard.find? (String.ofList (Text.toUpper name)) with
  | none => exact detaches_failAt _ _
  | some instruction =>
    apply detaches_readIf.bind
    intro mode
    apply detaches_argumentsParser.bind
    intro arguments
    apply Detaches.bind_get
    intro stop
    rw [Cursor.spanTo_cut hnext, Cursor.spanTo_cut hnext]
    exact .pure _

theorem Statement.opens_valueParser : Opens n valueParser := by
  apply opens_read.bind_get
  intro start start' value hnext
  apply Detaches.bind_get
  intro stop
  rw [Cursor.spanTo_cut hnext]
  exact .pure _

theorem Statement.opens_allocationParser : Opens n allocationParser := by
  apply opens_read.bind_get
  intro start start' keyword hnext
  split
  · exact detaches_failAt _ _
  · apply Detaches.bind_get
    intro beforeSize
    apply opens_read.detaches.bind
    intro size
    split
    · exact detaches_failAt _ _
    · apply Detaches.bind_get
      intro stop
      rw [Cursor.spanTo_cut hnext]
      exact .pure _

theorem Element.opens_labelParser : Opens n labelParser := by
  apply opens_read.bind_get
  intro start start' name hnext
  apply detaches_readIf.bind
  intro marker
  cases marker with
  | none => exact detaches_failAt _ _
  | some _ =>
    apply Detaches.bind_get
    intro stop
    rw [Cursor.spanTo_cut hnext]
    exact .pure _

/-! ## What the constructs start with -/

theorem Cursor.contents_of_next? {c : Cursor} {l : Lexeme} (h : c.next? = some l) :
    c.contents = l.content :: c.advance.contents := by
  obtain ⟨position, lastStop, ahead⟩ := c
  obtain ⟨rest, rfl⟩ := List.head?_eq_some_iff.1 h
  rfl

theorem Lexeme.content_of_identifier? {l : Lexeme} {name : List Char} (h : l.identifier? = some name) :
    l.content = (.identifier, name) := by
  obtain ⟨token, text, start, stop⟩ := l
  cases token <;> cases h
  rfl

theorem Lexeme.content_of_ofKinds {l keyword : Lexeme} (h : ofKinds [.identifier] l = some keyword) :
    l.content = (.identifier, keyword.text) := by
  obtain ⟨hkind, hl⟩ := Option.ite_none_right_eq_some.1 h
  cases hl
  obtain ⟨token, text, start, stop⟩ := l
  cases token <;> first | rfl | cases hkind

namespace Statement

theorem startsIn_of_valueParser {c c' : Cursor} {s : Statement} (h : valueParser.run c = .ok s c') :
    StartsIn [.literal] c.contents := by
  obtain ⟨start, c₁, hstart, h₁⟩ := of_run_bind h
  obtain ⟨value, c₂, hvalue, -⟩ := of_run_bind h₁
  cases hstart
  obtain ⟨l, hl, hmade, -⟩ := next?_of_run_read hvalue
  have hkind := Lexeme.Only.kind_mem Lexeme.only_literal? hmade
  rw [Cursor.contents_of_next? hl]
  exact .cons hkind _

theorem contents_of_allocationParser {c c' : Cursor} {s : Statement}
    (h : allocationParser.run c = .ok s c') :
    ∃ word rest, c.contents = (.identifier, word) :: rest ∧ Text.toUpper word = allocationWord := by
  obtain ⟨start, c₁, hstart, h₁⟩ := of_run_bind h
  obtain ⟨keyword, c₂, hread, h₂⟩ := of_run_bind h₁
  cases hstart
  split at h₂
  · cases h₂
  · rename_i hword
    obtain ⟨l, hl, hmade, -⟩ := next?_of_run_read hread
    refine ⟨keyword.text, c.advance.contents, ?_, not_not.1 hword⟩
    rw [Cursor.contents_of_next? hl, Lexeme.content_of_ofKinds hmade]

end Statement

namespace Element

/-- A label is a name and a marker. -/
theorem contents_of_labelParser {c c' : Cursor} {e : Element} (h : labelParser.run c = .ok e c') :
    ∃ name span rest, e = .label name span ∧ c.contents = (.identifier, name) :: rest ∧
      StartsIn [.labelMarker] rest := by
  have hmarker := Lexeme.only_ofKinds (List.cons_ne_nil LexemeKind.labelMarker [])
  obtain ⟨start, c₁, hstart, h₁⟩ := of_run_bind h
  obtain ⟨name, c₂, hname, h₂⟩ := of_run_bind h₁
  obtain ⟨marker, c₃, hread, h₃⟩ := of_run_bind h₂
  obtain ⟨l, hl, hmade, rfl⟩ := next?_of_run_read hname
  cases hstart
  obtain ⟨rfl, -⟩ | ⟨m, _, hm, hkind, rfl, -⟩ := next?_of_run_readIf hread
  · cases h₃
  · cases h₃
    refine ⟨name, _, c.advance.contents, rfl, ?_, ?_⟩
    · rw [Cursor.contents_of_next? hl, Lexeme.content_of_identifier? hmade]
    · rw [Cursor.contents_of_next? hm]
      exact .cons (hmarker.kind_mem hkind) _

end Element

/-- The name of an instruction is a command where no mode and no argument stands behind it. -/
theorem CommandStatement.takes_name {name : List Char} {i : Instruction} {rest : List Content}
    (h : InstructionSet.standard.find? (String.ofList (Text.toUpper name)) = some i)
    (hrest : StartsIn [.labelMarker] rest) :
    Takes parser ((.identifier, name) :: rest) rest fun _ => True := by
  have hmode : Rejects Lexeme.mode? rest := hrest.rejects Lexeme.only_mode? (by decide)
  have hstart : Rejects Lexeme.argumentStart? rest :=
    hrest.rejects (Lexeme.only_ofKinds (List.cons_ne_nil _ _)) (by decide)
  have harguments : Takes argumentsParser rest rest (· = []) := by
    refine hstart.takes_peekMap.bind ?_
    rintro _ rfl
    exact .pure rfl
  refine takes_get.bind fun start _ => (Drama.takes_name name).bind ?_
  rintro _ rfl
  refine takes_get.bind fun behindName _ => ?_
  simp only [h]
  refine hmode.takes_readIf.bind fun mode _ => harguments.bind fun arguments _ => ?_
  exact takes_get.bind fun stop _ => .pure trivial

namespace Element

variable {c c' : Cursor} {e : Element}

/-- A label does not have the name of an instruction, of which a command would have been made. -/
theorem find?_of_label {name : List Char} {span : Span} {rest : List Content}
    (h : ofConstructs c = .ok (.label name span, c')) (hc : c.contents = (.identifier, name) :: rest)
    (hrest : StartsIn [.labelMarker] rest) :
    InstructionSet.standard.find? (String.ofList (Text.toUpper name)) = none := by
  cases hfound : InstructionSet.standard.find? (String.ofList (Text.toUpper name)) with
  | none => rfl
  | some i =>
    have htakes : Takes (Element.statement <$> CommandStatement.parser) ((.identifier, name) :: rest) rest
        (fun e => ∃ s, e = .statement s) :=
      (CommandStatement.takes_name hfound hrest).map fun s _ => ⟨s, rfl⟩
    obtain ⟨_, c₁, hrun, ⟨s, rfl⟩, -⟩ := htakes c hc
    cases (firstOf_of_ok hrun _).symm.trans h

/-- What a construct reads it reads in the same way without what stands behind, and the other constructs that
are tried before fail without it as well. -/
theorem ofConstructs_alone (h : ofConstructs c = .ok (e, c')) (stop : Nat) :
    ofConstructs ((c.cut c'.ahead.length).stoppedAt stop) = .ok (e, c'.cut c'.ahead.length) := by
  obtain ⟨p, hp, hrun⟩ := of_firstOf h
  simp only [List.mem_cons, List.not_mem_nil, or_false] at hp
  obtain rfl | rfl | rfl | rfl := hp
  · have halone := CommandStatement.opens.map.anew hrun (Nat.le_refl _) stop
    exact firstOf_of_ok halone _
  · have halone := Statement.opens_valueParser.map.anew hrun (Nat.le_refl _) stop
    obtain ⟨s, hvalue, -⟩ := of_run_map halone
    exact ofConstructs_of_value (Statement.startsIn_of_valueParser hvalue) halone
  · have halone := Statement.opens_allocationParser.map.anew hrun (Nat.le_refl _) stop
    obtain ⟨s, hallocation, -⟩ := of_run_map halone
    obtain ⟨word, rest, hcontents, hword⟩ := Statement.contents_of_allocationParser hallocation
    exact ofConstructs_of_allocation hcontents hword halone
  · have halone := opens_labelParser.anew hrun (Nat.le_refl _) stop
    obtain ⟨name, span, rest, rfl, hcontents, hmarker⟩ := contents_of_labelParser hrun
    obtain ⟨_, _, rest', heq, hcontents', hmarker'⟩ := contents_of_labelParser halone
    cases heq
    exact ofConstructs_of_label hcontents' (find?_of_label h hcontents hmarker) hmarker' halone

end Element

end Drama
