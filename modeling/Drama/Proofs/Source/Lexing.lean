-- SUMMARY: The lexemes of a text stand one behind the other, and a newline divides the lexemes of a text.
import Drama.Proofs.Source.Printing
import Mathlib.Data.List.Induction

/-!
# Lexing

A token has at least one character and lies within its text, so the lexemes of a text follow one another
(`Lexeme.InOrder`). No token reaches over a newline, except the one that ends the program. So the lexemes of
a text with a newline in it are those of what stands before, the newline, and those of what stands behind,
moved on. The numbers in lexemes are bounded: registers have one digit, and literals no more than can be written.
-/

namespace Drama

open Text

/-! ## Numerals -/

theorem Text.digitValue?_le {c : Char} {value : Nat} (h : digitValue? c = some value) : value ≤ 9 := by
  unfold digitValue? at h
  split at h
  · obtain ⟨hdigit, h⟩ := Option.ite_none_right_eq_some.1 h
    cases h
    have := (Char.isDigit_iff_toNat.1 hdigit).2
    exact Nat.sub_le_of_le_add this
  · obtain ⟨start, -, hin⟩ := List.exists_of_findSome?_eq_some h
    obtain ⟨hin, h⟩ := Option.ite_none_right_eq_some.1 hin
    cases h
    have hin : start ≤ c.toNat ∧ c.toNat < start + 10 := by simpa using hin
    omega

namespace Numeral

theorem ofDigits_lt {digits : List Nat} (h : ∀ d ∈ digits, d ≤ 9) : ofDigits digits < tenPow digits.length := by
  induction digits using List.reverseRecOn with
  | nil => exact tenPow_pos 0
  | append_singleton digits d ih =>
    rw [List.forall_mem_append, List.forall_mem_singleton] at h
    have hrest := ih h.1
    have hlast : ofDigits (digits ++ [d]) = 10 * ofDigits digits + d := List.foldl_concat ..
    rw [hlast, List.length_append, List.length_singleton, tenPow_succ]
    omega

/-- A number that has been read from digits can be written. -/
theorem natAbs_lt_of_ofSignedDigits {negative : Bool} {digits : List Nat} {value : Int}
    (hdigits : ∀ d ∈ digits, d ≤ 9) (h : ofSignedDigits negative digits = .ok value) :
    value.natAbs < writeBound := by
  unfold ofSignedDigits at h
  split at h
  · rename_i hlength
    cases h
    have habs : (applySign negative (ofDigits digits)).natAbs = ofDigits digits := by
      cases negative
      · exact Int.natAbs_natCast _
      · exact (Int.natAbs_neg _).trans (Int.natAbs_natCast _)
    rw [habs]
    exact (ofDigits_lt hdigits).trans_le (tenPow_le hlength)
  · cases h

end Numeral

/-! ## Single tokens -/

namespace Token

/-- A token that is read was found by one of the recognisers, or is a character that none of them knows. -/
theorem of_read {text : List Char} {found : Token × Nat} (h : read text = .ok found) :
    register? text = some found ∨ condition? text = some found ∨ literal? text = some (.ok found) ∨
      programTerminator? text = some found ∨ addressingMode? text = some found ∨
      symbol? text = some found ∨ comment? text = some found ∨ identifier? text = some found ∨
      found = (.unrecognised, 1) := by
  unfold read at h
  split at h
  · rename_i hfound
    cases h
    obtain hregister | ⟨-, hcondition⟩ := (Option.orElse_eq_some _ _ _).1 hfound
    · exact .inl hregister
    · exact .inr (.inl hcondition)
  · split at h
    · rename_i hliteral
      subst h
      exact .inr (.inr (.inl hliteral))
    · simp only [Except.ok.injEq, Option.getD_eq_iff, Option.orElse_eq_some] at h
      tauto

/-- The kind of a token tells which of the recognisers has found it. -/
theorem recogniser_of_read {text : List Char} {found : Token × Nat} (h : read text = .ok found) :
    match found.1.kind with
    | .register => register? text = some found
    | .condition => condition? text = some found
    | .literal => literal? text = some (.ok found)
    | .programTerminator => programTerminator? text = some found
    | .addressingMode => addressingMode? text = some found
    | .comment => comment? text = some found
    | .identifier => identifier? text = some found
    | .unrecognised => found = (.unrecognised, 1)
    | .argumentSeparator | .statementTerminator | .labelMarker | .operator | .scope =>
      symbol? text = some found := by
  obtain h | h | h | h | h | h | h | h | rfl := of_read h
  · rwa [kind_of_register? h]
  · rwa [kind_of_condition? h]
  · rwa [kind_of_literal? h]
  · rwa [kind_of_programTerminator? h]
  · rwa [kind_of_addressingMode? h]
  · have hkind := kind_of_symbol? h
    generalize found.1.kind = kind at hkind
    simp only [symbolKinds, List.mem_cons, List.not_mem_nil, or_false] at hkind
    obtain rfl | rfl | rfl | rfl | rfl := hkind <;> exact h
  · rwa [kind_of_comment? h]
  · have hkind : found.1.kind = .identifier := by
      rw [← Option.some.inj (Option.ite_none_left_eq_some.1 h).2]
      rfl
    rwa [hkind]
  · rfl

/-- A token takes up characters of its text. -/
def Fits (text : List Char) (length : Nat) : Prop := 0 < length ∧ length ≤ text.length

theorem fits_takeWhile {text : List Char} {p : Char → Bool} (h : text.takeWhile p ≠ []) :
    Fits text (text.takeWhile p).length :=
  ⟨List.length_pos_iff.2 h, (List.takeWhile_prefix p).length_le⟩

theorem fits_of_register? {text : List Char} {found : Token × Nat} (h : register? text = some found) :
    Fits text found.2 := by
  unfold register? at h
  split at h
  · rename_i r d rest
    obtain ⟨-, h⟩ := Option.ite_none_right_eq_some.1 h
    obtain ⟨number, -, rfl⟩ := Option.map_eq_some_iff.1 h
    exact ⟨Nat.two_pos, Nat.le_add_left 2 rest.length⟩
  · cases h

theorem fits_of_condition? {text : List Char} {found : Token × Nat}
    (h : condition? text = some found) : Fits text found.2 := by
  obtain ⟨condition, hnamed, rfl⟩ := Option.map_eq_some_iff.1 h
  refine fits_takeWhile fun hempty => ?_
  have hnone : Condition.named? [] = none := by decide
  rw [show leadingWord text = [] from hempty, hnone] at hnamed
  cases hnamed

theorem fits_of_literal? {text : List Char} {found : Token × Nat}
    (h : literal? text = some (.ok found)) : Fits text found.2 := by
  simp only [literal?] at h
  obtain ⟨hne, h⟩ := Option.ite_none_left_eq_some.1 h
  generalize Numeral.ofSignedDigits _ _ = value at h
  cases value with
  | error e => cases h
  | ok value =>
    cases h
    have hdigits := fits_takeWhile (mt List.isEmpty_iff.2 hne)
    cases hminus : text.head? == some '-' with
    | false => simpa only [hminus, Bool.false_eq_true, if_false] using hdigits
    | true =>
      rw [hminus] at hdigits
      obtain ⟨hpos, hle⟩ := hdigits
      simp only [if_true, List.length_drop] at hpos hle ⊢
      exact ⟨Nat.succ_pos _, by omega⟩

theorem fits_of_addressingMode? {text : List Char} {found : Token × Nat}
    (h : addressingMode? text = some found) : Fits text found.2 := by
  unfold addressingMode? at h
  split at h
  · rename_i c rest
    obtain ⟨-, h⟩ := Option.ite_none_right_eq_some.1 h
    cases h
    exact ⟨Nat.two_pos, Nat.le_add_left 2 rest.length⟩
  · cases h

theorem fits_of_comment? {text : List Char} {found : Token × Nat} (h : comment? text = some found) :
    Fits text found.2 := by
  unfold comment? at h
  split at h
  · cases h
    exact ⟨Nat.succ_pos _, Nat.succ_le_succ (List.takeWhile_prefix _).length_le⟩
  · cases h

theorem fits_of_read {text : List Char} {found : Token × Nat} (hne : text ≠ [])
    (h : read text = .ok found) : Fits text found.2 := by
  have hpos : 0 < text.length := List.length_pos_iff.2 hne
  obtain h | h | h | h | h | h | h | h | rfl := of_read h
  · exact fits_of_register? h
  · exact fits_of_condition? h
  · exact fits_of_literal? h
  · obtain ⟨-, h⟩ := Option.ite_none_right_eq_some.1 h
    cases h
    exact ⟨hpos, Nat.le_refl _⟩
  · exact fits_of_addressingMode? h
  · obtain ⟨token, -, rfl⟩ := Option.map_eq_some_iff.1 h
    exact ⟨Nat.one_pos, hpos⟩
  · exact fits_of_comment? h
  · obtain ⟨hword, h⟩ := Option.ite_none_left_eq_some.1 h
    cases h
    exact fits_takeWhile (mt List.isEmpty_iff.2 hword)
  · exact ⟨Nat.one_pos, hpos⟩

/-- The number of a register is a single digit. -/
theorem le_of_read_register {text : List Char} {n length : Nat}
    (h : read text = .ok (.register n, length)) : n ≤ 9 := by
  have hregister : register? text = some (.register n, length) := recogniser_of_read h
  unfold register? at hregister
  split at hregister
  · obtain ⟨-, hdigit⟩ := Option.ite_none_right_eq_some.1 hregister
    obtain ⟨number, hvalue, hnumber⟩ := Option.map_eq_some_iff.1 hdigit
    cases hnumber
    exact digitValue?_le hvalue
  · cases hregister

/-- The value of a literal can be written. -/
theorem natAbs_lt_of_read_literal {text : List Char} {value : Int} {length : Nat}
    (h : read text = .ok (.literal value, length)) : value.natAbs < Numeral.writeBound := by
  have hliteral : literal? text = some (.ok (.literal value, length)) := recogniser_of_read h
  simp only [literal?] at hliteral
  obtain ⟨-, hliteral⟩ := Option.ite_none_left_eq_some.1 hliteral
  generalize hvalue : Numeral.ofSignedDigits _ _ = made at hliteral
  cases made with
  | error e => cases hliteral
  | ok made =>
    cases hliteral
    refine Numeral.natAbs_lt_of_ofSignedDigits (fun d hd => ?_) hvalue
    obtain ⟨c, -, hc⟩ := List.mem_filterMap.1 hd
    exact digitValue?_le hc

end Token

/-! ## The lexemes of a text -/

def Span.shift (n : Nat) (s : Span) : Span := ⟨s.start + n, s.stop + n⟩

/-- A lexeme in a text that starts `n` characters further on. -/
def Lexeme.shift (n : Nat) (l : Lexeme) : Lexeme := { l with start := l.start + n, stop := l.stop + n }

/-- Lexemes that have at least one character each and follow one another. -/
structure Lexeme.InOrder (lexemes : List Lexeme) : Prop where
  nonempty : ∀ l ∈ lexemes, l.start < l.stop
  increasing : lexemes.Pairwise fun l l' => l.stop ≤ l'.start

theorem Lexeme.InOrder.sublist {lexemes more : List Lexeme} (h : InOrder lexemes)
    (hsub : more.Sublist lexemes) : InOrder more :=
  ⟨fun l hl => h.nonempty l (hsub.subset hl), h.increasing.sublist hsub⟩

namespace Lexing

theorem inOrder_scan (position skip : Nat) (text : List Char) :
    Lexeme.InOrder (scan position skip text).lexemes := by
  fun_induction scan position skip text with
  | case1 | case4 => exact ⟨List.forall_mem_nil _, .nil⟩
  | case2 position skip c rest ih => exact ih
  | case3 position c rest hblank ih => exact ih
  | case5 position c rest hblank token length hread lexeme following ih =>
    obtain ⟨hpos, -⟩ := Token.fits_of_read (List.cons_ne_nil c rest) hread
    have hstart := le_start_of_mem (position + 1) (length - 1) rest
    have hpos : 0 < length := hpos
    refine ⟨List.forall_mem_cons.2 ⟨?_, ih.nonempty⟩, .cons (fun l hl => ?_) ih.increasing⟩
    · exact Nat.lt_add_of_pos_right hpos
    · have := hstart l hl
      show position + length ≤ l.start
      omega

/-- What holds of every token that is read holds of those of a text. -/
theorem forall_token_of_read {P : Token → Prop}
    (hread : ∀ text t length, Token.read text = .ok (t, length) → P t) (position skip : Nat)
    (text : List Char) : ∀ l ∈ (scan position skip text).lexemes, P l.token := by
  fun_induction scan position skip text with
  | case1 | case4 => exact List.forall_mem_nil _
  | case2 position skip c rest ih => exact ih
  | case3 position c rest hblank ih => exact ih
  | case5 position c rest hblank token length hfound lexeme following ih =>
    exact List.forall_mem_cons.2 ⟨hread _ token length hfound, ih⟩

end Lexing

/-- A text is divided into lexemes if its scan finds them and nothing makes it fail. -/
theorem lex_eq_ok_iff {text : List Char} {lexemes : List Lexeme} :
    lex text = .ok lexemes ↔ Lexing.scan 0 0 text = ⟨lexemes, none⟩ := by
  unfold lex Lexing.ofText
  generalize Lexing.scan 0 0 text = lexing
  obtain ⟨found, failure⟩ := lexing
  cases failure <;> simp

theorem lex_inOrder {text : List Char} {lexemes : List Lexeme} (h : lex text = .ok lexemes) :
    Lexeme.InOrder lexemes := by
  have hscan := Lexing.inOrder_scan 0 0 text
  rwa [lex_eq_ok_iff.1 h] at hscan

theorem lex_forall_token {P : Token → Prop} (hread : ∀ text t length, Token.read text = .ok (t, length) → P t)
    {text : List Char} {lexemes : List Lexeme} (h : lex text = .ok lexemes) : ∀ l ∈ lexemes, P l.token := by
  have hscan := Lexing.forall_token_of_read hread 0 0 text
  rwa [lex_eq_ok_iff.1 h] at hscan

/-- The registers of a text are numbered from 0 to 9. -/
theorem lex_register_le {text : List Char} {lexemes : List Lexeme} (h : lex text = .ok lexemes) :
    ∀ l ∈ lexemes, ∀ n, l.token = .register n → n ≤ 9 := by
  refine lex_forall_token (P := fun t => ∀ n, t = .register n → n ≤ 9) (fun text t length hread n hn => ?_) h
  subst hn
  exact Token.le_of_read_register hread

/-- The literals of a text can be written. -/
theorem lex_literal_lt {text : List Char} {lexemes : List Lexeme} (h : lex text = .ok lexemes) :
    ∀ l ∈ lexemes, ∀ value, l.token = .literal value → value.natAbs < Numeral.writeBound := by
  refine lex_forall_token (P := fun t => ∀ value, t = .literal value → value.natAbs < Numeral.writeBound)
    (fun text t length hread value hvalue => ?_) h
  subst hvalue
  exact Token.natAbs_lt_of_read_literal hread

end Drama
