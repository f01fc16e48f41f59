-- SUMMARY: What parsers make of lexemes up to their places: laws for single lexemes, sequences and repetitions.
import Drama.Proofs.Source.Printing
import Mathlib.Algebra.BigOperators.Group.List.Basic

/-!
# Laws of parsers

`Parser.Takes` says what a parser makes of lexemes and which lexemes it leaves, up to the places of all of
them; `Parser.Fails` says that it fails. There is a law for each primitive parser, one for sequences and
one for repetitions. Laws of constructs are put together from these.
-/

namespace Drama

/-- The lexemes ahead without their places. -/
def Cursor.contents (c : Cursor) : List Content := c.ahead.map Lexeme.content

namespace Parser

variable {α β : Type} {before between after : List Content}

/-- Where the lexemes `before` are ahead, a parser makes something that satisfies the postcondition and
leaves the lexemes `after` ahead. -/
def Takes (p : Parser α) (before after : List Content) (post : α → Prop) : Prop :=
  ∀ c : Cursor, c.contents = before → ∃ a c', p.run c = .ok a c' ∧ post a ∧ c'.contents = after

/-- Where the lexemes `before` are ahead, a parser fails. -/
def Fails (p : Parser α) (before : List Content) : Prop :=
  ∀ c : Cursor, c.contents = before → ∃ e c', p.run c = .error e c'

/-! ## Sequences -/

theorem run_bind {p : Parser α} {f : α → Parser β} {c c' : Cursor} {a : α} (h : p.run c = .ok a c') :
    (p >>= f).run c = (f a).run c' := by
  show EStateM.bind p f c = f a c'
  rw [EStateM.bind, show p c = .ok a c' from h]

theorem run_bind_error {p : Parser α} {f : α → Parser β} {c c' : Cursor} {e : ParseError}
    (h : p.run c = .error e c') : (p >>= f).run c = .error e c' := by
  show EStateM.bind p f c = _
  rw [EStateM.bind, show p c = .error e c' from h]

namespace Takes

variable {p : Parser α} {f : α → Parser β} {post : α → Prop} {post' : β → Prop}

theorem pure {a : α} (h : post a) : Takes (pure a) before before post := fun c hc =>
  ⟨a, c, rfl, h, hc⟩

theorem bind (hp : Takes p before between post)
    (hf : ∀ a, post a → Takes (f a) between after post') : Takes (p >>= f) before after post' := by
  intro c hc
  obtain ⟨a, c', hrun, ha, hc'⟩ := hp c hc
  obtain ⟨b, c'', hrun', hb, hc''⟩ := hf a ha c' hc'
  exact ⟨b, c'', (run_bind hrun).trans hrun', hb, hc''⟩

theorem mono {post' : α → Prop} (hp : Takes p before after post) (h : ∀ a, post a → post' a) :
    Takes p before after post' := by
  intro c hc
  obtain ⟨a, c', hrun, ha, hc'⟩ := hp c hc
  exact ⟨a, c', hrun, h a ha, hc'⟩

theorem map {g : α → β} (hp : Takes p before after post) (hg : ∀ a, post a → post' (g a)) :
    Takes (g <$> p) before after post' := by
  intro c hc
  obtain ⟨a, c', hrun, ha, hc'⟩ := hp c hc
  refine ⟨g a, c', ?_, hg a ha, hc'⟩
  show EStateM.map g p c = _
  rw [EStateM.map, show p c = .ok a c' from hrun]

theorem bind_fails (hp : Takes p before between post) (hf : ∀ a, post a → Fails (f a) between) :
    Fails (p >>= f) before := by
  intro c hc
  obtain ⟨a, c', hrun, ha, hc'⟩ := hp c hc
  obtain ⟨e, c'', hrun'⟩ := hf a ha c' hc'
  exact ⟨e, c'', (run_bind hrun).trans hrun'⟩

theorem attempt (hp : Takes p before after post) : Takes (attempt p) before after post := by
  intro c hc
  obtain ⟨a, c', hrun, ha, hc'⟩ := hp c hc
  refine ⟨a, c', ?_, ha, hc'⟩
  show EStateM.tryCatch p _ c = _
  rw [EStateM.tryCatch, show p c = .ok a c' from hrun]

end Takes

theorem Fails.bind {p : Parser α} {f : α → Parser β} (hp : Fails p before) :
    Fails (p >>= f) before := by
  intro c hc
  obtain ⟨e, c', hrun⟩ := hp c hc
  exact ⟨e, c', run_bind_error hrun⟩

theorem Fails.map {p : Parser α} {g : α → β} (hp : Fails p before) : Fails (g <$> p) before := by
  intro c hc
  obtain ⟨e, c', hrun⟩ := hp c hc
  refine ⟨e, c', ?_⟩
  show EStateM.map g p c = _
  rw [EStateM.map, show p c = .error e c' from hrun]

theorem fails_failAt (place : Cursor) (cause : ParseError.Cause) :
    Fails (failAt place cause : Parser α) before := fun _ _ => ⟨_, _, rfl⟩

theorem takes_get : Takes get before before (fun c => c.contents = before) := fun c hc =>
  ⟨c, c, rfl, hc, hc⟩

/-! ## Single lexemes -/

/-- Nothing is made of the next lexeme, if there is one. -/
def Rejects (f : Lexeme → Option α) (before : List Content) : Prop :=
  ∀ l : Lexeme, before.head? = some l.content → f l = none

variable {f : Lexeme → Option α} {content : Content} {post : α → Prop}

theorem takes_advance : Takes (modify Cursor.advance) (content :: after) after (fun _ => True) := by
  intro c hc
  obtain ⟨position, lastStop, ahead⟩ := c
  cases ahead with
  | nil => cases hc
  | cons l rest =>
    obtain ⟨-, rfl⟩ := List.cons.inj hc
    exact ⟨(), _, rfl, trivial, rfl⟩

theorem takes_peekMap (h : ∀ l : Lexeme, l.content = content → ∃ a, f l = some a ∧ post a) :
    Takes (peekMap f) (content :: after) (content :: after) (fun r => ∃ a, r = some a ∧ post a) := by
  intro c hc
  obtain ⟨position, lastStop, ahead⟩ := c
  cases ahead with
  | nil => cases hc
  | cons l rest =>
    obtain ⟨a, ha, hpost⟩ := h l (List.cons.inj hc).1
    exact ⟨some a, _, by rw [← ha]; rfl, ⟨a, rfl, hpost⟩, hc⟩

theorem Rejects.takes_peekMap (h : Rejects f before) :
    Takes (peekMap f) before before (· = none) := by
  intro c hc
  obtain ⟨position, lastStop, ahead⟩ := c
  cases ahead with
  | nil => exact ⟨none, _, rfl, rfl, hc⟩
  | cons l rest =>
    have hl : f l = none := h l (by rw [← hc]; rfl)
    exact ⟨none, _, by rw [← hl]; rfl, rfl, hc⟩

theorem takes_readIf (h : ∀ l : Lexeme, l.content = content → ∃ a, f l = some a ∧ post a) :
    Takes (readIf f) (content :: after) after (fun r => ∃ a, r = some a ∧ post a) := by
  refine (takes_peekMap h).bind ?_
  rintro _ ⟨a, rfl, ha⟩
  exact takes_advance.bind fun _ _ => .pure ⟨a, rfl, ha⟩

theorem Rejects.takes_readIf (h : Rejects f before) : Takes (readIf f) before before (· = none) := by
  refine h.takes_peekMap.bind ?_
  rintro _ rfl
  exact .pure rfl

theorem takes_read {kinds : List LexemeKind}
    (h : ∀ l : Lexeme, l.content = content → ∃ a, f l = some a ∧ post a) :
    Takes (read kinds f) (content :: after) after post := by
  refine (takes_readIf h).bind ?_
  rintro _ ⟨a, rfl, ha⟩
  exact .pure ha

theorem Rejects.fails_read (h : Rejects f before) (kinds : List LexemeKind) :
    Fails (read kinds f) before := by
  refine h.takes_readIf.bind_fails ?_
  rintro _ rfl c _
  exact ⟨_, _, rfl⟩

/-! ## Repetitions -/

/-- Items are read one after the other, up to what `key` does not tell apart, if what stands behind each
of them may do so. -/
theorem takes_repeatAtMost {ι κ : Type} (Behind : List Content → Prop) {p : Parser (Option α)}
    {items : List ι} {lexemes : ι → List Content} {key : ι → κ} {key' : α → κ}
    (hstep : ∀ x ∈ items, ∀ after, Behind after →
      Takes p (lexemes x ++ after) after (fun r => ∃ a, r = some a ∧ key' a = key x))
    (hbehind : ∀ x ∈ items, ∀ after, Behind (lexemes x ++ after)) (hafter : Behind after)
    (hend : Takes p after after (· = none)) {limit : Nat} (hlimit : items.length ≤ limit) :
    Takes (repeatAtMost p limit) (items.flatMap lexemes ++ after) after
      (fun results => results.map key' = items.map key) := by
  induction items generalizing limit with
  | nil =>
    cases limit with
    | zero => exact .pure rfl
    | succ limit =>
      refine hend.bind ?_
      rintro _ rfl
      exact .pure rfl
  | cons x items ih =>
    cases limit with
    | zero => cases hlimit
    | succ limit =>
      rw [List.forall_mem_cons] at hstep hbehind
      have hnext : Behind (items.flatMap lexemes ++ after) := by
        cases items with
        | nil => exact hafter
        | cons y items =>
          rw [List.flatMap_cons, List.append_assoc]
          exact hbehind.2 y List.mem_cons_self _
      rw [List.flatMap_cons, List.append_assoc]
      refine (hstep.1 _ hnext).bind ?_
      rintro _ ⟨a, rfl, ha⟩
      refine (ih hstep.2 hbehind.2 (Nat.le_of_succ_le_succ hlimit)).bind fun results hresults => ?_
      exact .pure (by rw [List.map_cons, List.map_cons, ha, hresults])

theorem takes_repeated {ι κ : Type} (Behind : List Content → Prop) {p : Parser (Option α)}
    {items : List ι} {lexemes : ι → List Content} {key : ι → κ} {key' : α → κ}
    (hstep : ∀ x ∈ items, ∀ after, Behind after →
      Takes p (lexemes x ++ after) after (fun r => ∃ a, r = some a ∧ key' a = key x))
    (hbehind : ∀ x ∈ items, ∀ after, Behind (lexemes x ++ after)) (hafter : Behind after)
    (hend : Takes p after after (· = none)) (hne : ∀ x ∈ items, lexemes x ≠ []) :
    Takes (repeated p) (items.flatMap lexemes ++ after) after
      (fun results => results.map key' = items.map key) := by
  refine takes_get.bind fun c hc => takes_repeatAtMost Behind hstep hbehind hafter hend ?_
  have hlength : c.ahead.length = (items.flatMap lexemes ++ after).length := by
    rw [← hc, Cursor.contents, List.length_map]
  have hitems : items.length ≤ (items.flatMap lexemes).length := by
    rw [List.length_flatMap]
    have h := List.length_le_sum_of_one_le (items.map fun x => (lexemes x).length)
      (List.forall_mem_map.2 fun x hx => List.length_pos_iff.2 (hne x hx))
    rwa [List.length_map] at h
  rw [hlength, List.length_append]
  exact Nat.le_add_right_of_le hitems

end Parser

/-! ## What is made of lexemes -/

namespace Lexeme

/-- Something is made of lexemes of the given kinds only. -/
def Only {α : Type} (kinds : List LexemeKind) (f : Lexeme → Option α) : Prop :=
  ∀ l : Lexeme, l.kind ∉ kinds → f l = none

theorem only_register? : Only [.register] register? := by
  rintro ⟨token, _, _, _⟩ h
  cases token <;> simp_all [register?, kind, Token.kind]

theorem only_condition? : Only [.condition] condition? := by
  rintro ⟨token, _, _, _⟩ h
  cases token <;> simp_all [condition?, kind, Token.kind]

theorem only_literal? : Only [.literal] literal? := by
  rintro ⟨token, _, _, _⟩ h
  cases token <;> simp_all [literal?, kind, Token.kind]

theorem only_negativeLiteral? : Only [.literal] negativeLiteral? := fun l h => by
  rw [negativeLiteral?, only_literal? l h, ite_self]

theorem only_identifier? : Only [.identifier] identifier? := by
  rintro ⟨token, _, _, _⟩ h
  cases token <;> simp_all [identifier?, kind, Token.kind]

theorem only_mode? : Only [.addressingMode] mode? := by
  rintro ⟨token, _, _, _⟩ h
  cases token <;> simp_all [mode?, kind, Token.kind]

theorem only_operator? : Only [.operator] operator? := by
  rintro ⟨token, _, _, _⟩ h
  cases token <;> simp_all [operator?, kind, Token.kind]

theorem only_bracket? : Only [.scope] bracket? := by
  rintro ⟨token, _, _, _⟩ h
  cases token <;> simp_all [bracket?, kind, Token.kind]

theorem only_term? : Only [.literal, .identifier] term? := by
  rintro ⟨token, _, _, _⟩ h
  cases token <;> simp_all [term?, kind, Token.kind]

theorem only_ofKinds {kinds : List LexemeKind} (hne : kinds ≠ []) : Only kinds (Parser.ofKinds kinds) := by
  intro l h
  rw [Parser.ofKinds, if_neg]
  simp [isOf, hne, h]

theorem of_content {t : Token} {text : List Char} {P : Lexeme → Prop}
    (h : ∀ start stop, P ⟨t, text, start, stop⟩) : ∀ l : Lexeme, l.content = (t, text) → P l := by
  rintro ⟨⟩ hl
  cases hl
  exact h _ _

end Lexeme

/-- The first lexeme, if there is one, is of one of the kinds. -/
def StartsIn (kinds : List LexemeKind) (contents : List Content) : Prop :=
  ∀ content ∈ contents.head?, content.1.kind ∈ kinds

namespace StartsIn

theorem cons {kinds : List LexemeKind} {content : Content} (h : content.1.kind ∈ kinds)
    (rest : List Content) : StartsIn kinds (content :: rest) := by
  rintro _ ⟨rfl⟩
  exact h

theorem mono {kinds kinds' : List LexemeKind} {contents : List Content} (h : StartsIn kinds contents)
    (hsubset : kinds ⊆ kinds') : StartsIn kinds' contents :=
  fun content hcontent => hsubset (h content hcontent)

theorem rejects {α : Type} {kinds kinds' : List LexemeKind} {contents : List Content}
    {f : Lexeme → Option α} (h : StartsIn kinds contents) (hf : Lexeme.Only kinds' f)
    (hdisjoint : ∀ kind ∈ kinds, kind ∉ kinds') : Parser.Rejects f contents :=
  fun l hl => hf l (hdisjoint _ (h l.content hl))

/-- Where a lexeme of one of the kinds is ahead, it is seen. -/
theorem takes_peekKinds {kinds : List LexemeKind} {contents : List Content}
    (h : StartsIn kinds contents) (hne : contents ≠ []) :
    Parser.Takes (Parser.peekKinds kinds) contents contents (fun r => ∃ l, r = some l ∧ True) := by
  obtain ⟨content, rest, rfl⟩ := List.exists_cons_of_ne_nil hne
  refine Parser.takes_peekMap fun l hl => ⟨l, ?_, trivial⟩
  have hkind : l.kind ∈ kinds := by
    have hcontent := h content rfl
    rwa [← hl] at hcontent
  rw [Parser.ofKinds, if_pos (by simp [Lexeme.isOf, hkind])]

end StartsIn

end Drama
