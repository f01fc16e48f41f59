-- SUMMARY: Stretches of lexemes with no barrier among them stand in one line of the text.
import Drama.Proofs.Source.Division
import Drama.Proofs.Source.Scan

/-!
# Stretches within a line

A newline is a token by itself, and it stands in no other one but a comment or the end of the program. These are
the barriers among lexemes, so the span of a stretch of lexemes without a barrier never reaches over a newline,
whatever blanks stand between them.
-/

namespace Drama

open Text

namespace Token

variable {t : Token} {piece more rest : List Char}

/-! ## Newlines in tokens -/

theorem isWordChar_of_read_point (h : read ('.' :: (more ++ rest)) = .ok (t, ('.' :: more).length)) :
    ∀ d ∈ more, isWordChar d = true := by
  rw [read_point] at h
  cases hmode : addressingMode? ('.' :: (more ++ rest)) with
  | none =>
    rw [hmode] at h
    obtain rfl : more = [] := List.length_eq_zero_iff.1 (Nat.succ.inj (Prod.mk.inj (Except.ok.inj h)).2).symm
    exact List.forall_mem_nil _
  | some found =>
    rw [hmode] at h
    obtain rfl : found = (t, ('.' :: more).length) := Except.ok.inj h
    obtain ⟨m, behind, htext, hletter, -, hfound⟩ := of_addressingMode? hmode
    obtain ⟨d, rfl⟩ := List.length_eq_one_iff.1 (Nat.succ.inj (Prod.mk.inj hfound).2)
    obtain ⟨rfl, -⟩ := List.cons.inj htext
    obtain ⟨letter, hmem, hd⟩ := List.any_eq_true.1 hletter
    have hletters : modeLetters.all isWordChar = true := by decide
    rw [List.forall_mem_singleton]
    exact isWordChar_of_isLetter (List.all_eq_true.1 hletters letter hmem) hd

theorem isWordChar_of_read_minus {d : Char} (hdigit : isDecimalDigit d = true)
    (h : read ('-' :: (more ++ rest)) = .ok (t, ('-' :: more).length))
    (hhead : (more ++ rest).head? = some d) : ∀ d ∈ more, isWordChar d = true := by
  obtain ⟨behind, hbehind⟩ := List.head?_eq_some_iff.1 hhead
  rw [hbehind, read_minus_of_isDecimalDigit hdigit, ← hbehind] at h
  have hdigits := forall_mem_of_takeWhile more (Nat.succ.inj (length_of_map_literal h))
  exact fun d hd => isWordChar_of_isDecimalDigit (hdigits d hd)

/-- Behind its first character, a token that is no barrier consists of word characters. -/
theorem isWordChar_of_read {c : Char} (h : read (c :: (more ++ rest)) = .ok (t, (c :: more).length))
    (hkind : t.kind ∉ Element.barriers) : ∀ d ∈ more, isWordChar d = true := by
  cases hdigit : isDecimalDigit c with
  | true =>
    rw [read_of_isDecimalDigit hdigit] at h
    have hdigits := forall_mem_of_takeWhile (c :: more) (length_of_map_literal h)
    exact fun d hd => isWordChar_of_isDecimalDigit (hdigits d (List.mem_cons_of_mem c hd))
  | false =>
    cases hword : isWordChar c with
    | true =>
      have hterminator : t ≠ .programTerminator := by
        rintro rfl
        exact hkind (by decide)
      obtain ⟨hlength, -⟩ := of_read_word hword hdigit h hterminator
      exact fun d hd => forall_mem_of_takeWhile (c :: more) hlength d (List.mem_cons_of_mem c hd)
    | false =>
      by_cases hpoint : c = '.'
      · subst hpoint
        exact isWordChar_of_read_point h
      by_cases hbar : c = '|'
      · subst hbar
        rw [read_bar] at h
        obtain ⟨rfl, -⟩ := Prod.mk.inj (Except.ok.inj h)
        exact absurd (by decide) hkind
      by_cases hminus : c = '-' → ∀ d ∈ (more ++ rest).head?, isDecimalDigit d = false
      · rw [read_of_not_word hword hpoint hbar hminus] at h
        have hmore : more = [] := by cases hsymbol : ofSymbol? c <;> simp_all
        subst hmore
        exact List.forall_mem_nil _
      · obtain ⟨rfl, d, hd, hdigit⟩ :
            c = '-' ∧ ∃ d ∈ (more ++ rest).head?, isDecimalDigit d = true := by simpa using hminus
        exact isWordChar_of_read_minus hdigit h hd

/-- No token but a comment, a newline and the end of the program has a newline in it. -/
theorem newline_not_mem (h : t.ReadFrom piece rest) (hkind : t.kind ∉ Element.barriers) : '\n' ∉ piece := by
  obtain ⟨⟨c, more, rfl, -⟩, hread⟩ := h
  have hword := isWordChar_of_read hread hkind
  intro hmem
  obtain rfl | hmem := List.mem_cons.1 hmem
  · have hsymbol : read ('\n' :: (more ++ rest)) = .ok (.statementTerminator, 1) :=
      read_symbol rfl fun h => absurd h (by decide)
    obtain ⟨rfl, -⟩ := Prod.mk.inj (Except.ok.inj (hread.symm.trans hsymbol))
    exact hkind (by decide)
  · exact absurd (hword '\n' hmem) (by decide)

end Token

theorem Lexing.Scans.newline_not_mem {rest run : List Char} {position : Nat} {lexemes : List Lexeme}
    (h : Scans rest position run lexemes) {l : Lexeme} (hl : l ∈ lexemes)
    (hkind : l.kind ∉ Element.barriers) : '\n' ∉ l.text := by
  obtain ⟨before, others, rfl⟩ := List.append_of_mem hl
  obtain ⟨front, behind, -, -, hread, -⟩ := h.exists_split
  exact Token.newline_not_mem hread hkind

/-! ## Spans within a line -/

namespace Span

variable {s : Span} {text : List Char} {lexemes : List Lexeme}

theorem mem_extract {c : Char} :
    c ∈ s.extract text ↔ ∃ i, s.start ≤ i ∧ i < s.stop ∧ text[i]? = some c := by
  simp only [extract, List.mem_iff_getElem?, List.getElem?_take, List.getElem?_drop,
    Option.ite_none_right_eq_some]
  constructor
  · rintro ⟨i, hlt, hi⟩
    exact ⟨s.start + i, Nat.le_add_right _ _, by omega, hi⟩
  · rintro ⟨i, hstart, hstop, hi⟩
    obtain ⟨k, rfl⟩ := Nat.exists_eq_add_of_le hstart
    exact ⟨k, by omega, hi⟩

/-- The span of a stretch of lexemes with no barrier among them. -/
def OfStretch (lexemes : List Lexeme) (s : Span) : Prop :=
  ∃ first more, first :: more <:+: lexemes ∧ (∀ l ∈ first :: more, l.kind ∉ Element.barriers) ∧
    s = ⟨first.start, (more.getLastD first).stop⟩

/-- A span that is not empty and lies within one line of a text. -/
structure InLine (text : List Char) (s : Span) : Prop where
  nonempty : s.start < s.stop
  le_length : s.stop ≤ text.length
  newline : '\n' ∉ s.extract text

/-- A newline in a text stands in a lexeme that is a barrier. -/
theorem exists_barrier_of_newline (hlex : lex text = .ok lexemes) {i : Nat} (hi : text[i]? = some '\n') :
    ∃ l ∈ lexemes, (l.start ≤ i ∧ i < l.stop) ∧ l.kind ∈ Element.barriers := by
  have hscans := lex_eq_ok_iff_scans.1 hlex
  have hlossless := hscans.lossless
  have hin : ∃ l ∈ lexemes, l.start ≤ i ∧ i < l.stop := by
    by_contra hout
    have hblank := hlossless.blank i '\n' hi fun l hl hin => hout ⟨l, hl, hin⟩
    exact absurd hblank (by decide)
  obtain ⟨l, hl, hin⟩ := hin
  refine ⟨l, hl, hin, ?_⟩
  by_contra hkind
  have hnewline := hscans.newline_not_mem hl hkind
  rw [(hlossless.text_eq l hl).2] at hnewline
  exact hnewline (mem_extract.2 ⟨i, hin.1, hin.2, hi⟩)

/-- A text without barriers among its lexemes is a single line. -/
theorem newline_not_mem_of_lex (hlex : lex text = .ok lexemes)
    (hclear : ∀ l ∈ lexemes, l.kind ∉ Element.barriers) : '\n' ∉ text := by
  intro hmem
  obtain ⟨i, hi⟩ := List.getElem?_of_mem hmem
  obtain ⟨l, hl, -, hkind⟩ := exists_barrier_of_newline hlex hi
  exact hclear l hl hkind

theorem OfStretch.inLine (h : s.OfStretch lexemes) (hlex : lex text = .ok lexemes) : s.InLine text := by
  have hlossless := (lex_eq_ok_iff_scans.1 hlex).lossless
  obtain ⟨first, more, hrun, hclear, rfl⟩ := h
  have horder := hlossless.inOrder.sublist hrun.sublist
  have hlast := List.getLastD_mem_cons (l := more) (a := first)
  refine ⟨?_, (hlossless.text_eq _ (hrun.subset hlast)).1, fun hmem => ?_⟩
  · exact (horder.nonempty first List.mem_cons_self).trans_le (horder.le_stop List.mem_cons_self)
  · obtain ⟨i, hstart, hstop, hi⟩ := mem_extract.1 hmem
    obtain ⟨l, hl, hin, hkind⟩ := exists_barrier_of_newline hlex hi
    -- the newline stands in the lexeme and in the span, so the lexeme is one of the stretch
    have hstretch : l ∈ first :: more := by
      have hlexeme : Within ⟨i, i + 1⟩ l.span := hin
      have hspan : Within ⟨i, i + 1⟩ ⟨first.start, (more.getLastD first).stop⟩ := ⟨hstart, hstop⟩
      by_contra hnot
      exact hlexeme.not_apart hspan (Nat.lt_succ_self i) (hlossless.inOrder.apart hrun hl hnot)
    exact hclear l hstretch hkind

end Span

end Drama
