-- SUMMARY: Lexing is total and loses nothing: lexemes and the blanks between them make up the text.
import Drama.Proofs.Source.Boundaries

/-!
# Scans

`Lexing.Scans` says which lexemes a stretch of text is divided into where more text stands behind it. Every
text is scanned up to its end, or up to a literal with too many digits (`Lexing.scans_or_overlong`). Scans
are put together and taken apart at lexemes, so what holds of one step holds of a whole text.
-/

namespace Drama

open Text

/-! ## Single tokens -/

namespace Token

variable {t : Token} {piece rest rest' text : List Char}

/-- The token is read from the characters `piece`, which start with no blank, where `rest` stands behind
them. -/
structure ReadFrom (t : Token) (piece rest : List Char) : Prop where
  head : ∃ c more, piece = c :: more ∧ isHorizontalBlank c = false
  read_eq : read (piece ++ rest) = .ok (t, piece.length)

theorem ReadFrom.ne_nil (h : t.ReadFrom piece rest) : piece ≠ [] := by
  obtain ⟨c, more, rfl, -⟩ := h.head
  exact List.cons_ne_nil c more

/-- What is read at the start of a text that is no blank stands in front of the rest of it. -/
theorem exists_readFrom {c : Char} {length : Nat} (hblank : isHorizontalBlank c = false)
    (h : read (c :: rest) = .ok (t, length)) :
    ∃ piece behind, c :: rest = piece ++ behind ∧ t.ReadFrom piece behind := by
  obtain ⟨hpos, hle⟩ := fits_of_read (List.cons_ne_nil c rest) h
  have hpos : 0 < length := hpos
  obtain ⟨n, rfl⟩ := Nat.exists_eq_succ_of_ne_zero hpos.ne'
  have hlength : ((c :: rest).take (n + 1)).length = n + 1 := List.length_take_of_le hle
  refine ⟨(c :: rest).take (n + 1), (c :: rest).drop (n + 1), (List.take_append_drop ..).symm,
    ⟨c, rest.take n, rfl, hblank⟩, ?_⟩
  rw [List.take_append_drop, hlength]
  exact h

/-- A token is read in the same way before all that it ignores. -/
theorem ReadFrom.congr (h : t.ReadFrom piece rest) (hrest : t.Ignores rest rest') :
    t.ReadFrom piece rest' := ⟨h.head, read_congr h.ne_nil h.read_eq hrest⟩

theorem eq_comment (h : t.kind = .comment) : t = .comment := by
  cases t <;> first | rfl | cases h

theorem eq_programTerminator (h : t.kind = .programTerminator) : t = .programTerminator := by
  cases t <;> first | rfl | cases h

/-- A text starts with a literal of `count` digits, which are too many. -/
def StartsOverlong (text : List Char) (count : Nat) : Prop :=
  ∃ sign digits more, text = sign ++ digits ++ more ∧ (sign = [] ∨ sign = ['-']) ∧
    (∀ d ∈ digits, isDecimalDigit d = true) ∧ (∀ c ∈ more.head?, isDecimalDigit c = false) ∧
    digits.length = count ∧ Numeral.maxDigits < count

/-- Nothing but too many digits keeps a token from being read. -/
theorem startsOverlong_of_read {error : Numeral.Error} (h : read text = .error error) :
    ∃ count, error = .tooManyDigits count ∧ StartsOverlong text count := by
  have hliteral : literal? text = some (.error error) := by
    unfold read at h
    split at h
    · cases h
    · split at h
      · rename_i hliteral
        rwa [h] at hliteral
      · cases h
  simp only [literal?] at hliteral
  generalize hnegative : (text.head? == some '-') = negative at hliteral
  generalize hunsigned : (if negative = true then text.drop 1 else text) = unsigned at hliteral
  obtain ⟨-, hliteral⟩ := Option.ite_none_left_eq_some.1 hliteral
  have hdigits : ∀ d ∈ unsigned.takeWhile isDecimalDigit, isDecimalDigit d = true := fun d hd =>
    List.mem_takeWhile_imp hd
  have hcount : ((unsigned.takeWhile isDecimalDigit).filterMap digitValue?).length =
      (unsigned.takeWhile isDecimalDigit).length := by
    rw [List.length_filterMap_eq_countP, List.countP_eq_length]
    exact hdigits
  have htoo : Numeral.maxDigits < (unsigned.takeWhile isDecimalDigit).length ∧
      error = .tooManyDigits (unsigned.takeWhile isDecimalDigit).length := by
    by_cases hle : (unsigned.takeWhile isDecimalDigit).length ≤ Numeral.maxDigits
    · simp [Numeral.ofSignedDigits, hcount, hle, Except.map] at hliteral
    · simp only [Numeral.ofSignedDigits, hcount, hle, if_false, Except.map, Option.some.injEq,
        Except.error.injEq] at hliteral
      exact ⟨Nat.lt_of_not_le hle, hliteral.symm⟩
  have htext : ∃ sign, text = sign ++ unsigned ∧ (sign = [] ∨ sign = ['-']) := by
    cases negative with
    | false => exact ⟨[], hunsigned, .inl rfl⟩
    | true =>
      obtain ⟨rest, rfl⟩ := List.head?_eq_some_iff.1 (beq_iff_eq.1 hnegative)
      exact ⟨['-'], congrArg _ hunsigned, .inr rfl⟩
  obtain ⟨sign, htext, hsign⟩ := htext
  refine ⟨_, htoo.2, sign, unsigned.takeWhile isDecimalDigit, unsigned.dropWhile isDecimalDigit, ?_,
    hsign, hdigits, fun c hc => ?_, rfl, htoo.1⟩
  · rw [List.append_assoc, List.takeWhile_append_dropWhile, htext]
  · have hnot := List.head?_dropWhile_not isDecimalDigit unsigned
    rw [hc] at hnot
    simpa using hnot

end Token

/-! ## Scans -/

namespace Lexing

/-- From a position on, the lexemes that the stretch `run` is divided into where `rest` stands behind it. -/
inductive Scans (rest : List Char) : (position : Nat) → (run : List Char) → List Lexeme → Prop
  | nil (position : Nat) : Scans rest position [] []
  | blank {position : Nat} {c : Char} {run : List Char} {lexemes : List Lexeme}
      (hblank : isHorizontalBlank c = true) (h : Scans rest (position + 1) run lexemes) :
      Scans rest position (c :: run) lexemes
  | lexeme {position : Nat} {t : Token} {piece run : List Char} {lexemes : List Lexeme}
      (hpiece : t.ReadFrom piece (run ++ rest))
      (h : Scans rest (position + piece.length) run lexemes) :
      Scans rest position (piece ++ run) (⟨t, piece, position, position + piece.length⟩ :: lexemes)

variable {position : Nat} {t : Token} {piece run run' rest rest' : List Char} {lexemes others : List Lexeme}

/-- The scan of a text goes on behind the token that it starts with. -/
theorem scan_of_readFrom (h : t.ReadFrom piece rest) :
    scan position 0 (piece ++ rest) =
      ⟨⟨t, piece, position, position + piece.length⟩ :: (scan (position + piece.length) 0 rest).lexemes,
        (scan (position + piece.length) 0 rest).failure⟩ := by
  obtain ⟨⟨c, more, rfl, hblank⟩, hread⟩ := h
  have hskip := Reads.scan_append (position + 1) more rest
  rw [Nat.add_assoc, Nat.add_comm 1 more.length] at hskip
  have htake : (c :: (more ++ rest)).take (more.length + 1) = c :: more := by simp
  rw [List.cons_append, List.length_cons] at hread ⊢
  simp only [scan, hblank, hread, htake, Nat.add_sub_cancel, hskip, Bool.false_eq_true, if_false]

namespace Scans

/-- The scan of a text finds the lexemes of a stretch in front and goes on behind it. -/
theorem scan_eq (h : Scans rest position run lexemes) :
    scan position 0 (run ++ rest) =
      ⟨lexemes ++ (scan (position + run.length) 0 rest).lexemes,
        (scan (position + run.length) 0 rest).failure⟩ := by
  induction h with
  | nil => rfl
  | blank hblank _ ih =>
    rw [List.cons_append, scan, if_pos hblank, ih, List.length_cons, Nat.add_assoc, Nat.add_comm 1]
  | lexeme hpiece _ ih =>
    rw [List.append_assoc, scan_of_readFrom hpiece, ih, List.length_append, Nat.add_assoc]
    rfl

theorem append (h : Scans (run' ++ rest) position run lexemes)
    (h' : Scans rest (position + run.length) run' others) :
    Scans rest position (run ++ run') (lexemes ++ others) := by
  induction h with
  | nil => exact h'
  | blank hblank _ ih =>
    rw [List.length_cons, Nat.add_comm _ 1, ← Nat.add_assoc] at h'
    exact .blank hblank (ih h')
  | lexeme hpiece _ ih =>
    rw [List.length_append, ← Nat.add_assoc] at h'
    rw [List.append_assoc, List.cons_append]
    exact .lexeme (by rwa [List.append_assoc]) (ih h')

/-- A scan is taken apart at any of its lexemes. -/
theorem exists_split {l : Lexeme} (h : Scans rest position run (lexemes ++ l :: others)) :
    ∃ before behind, run = before ++ (l.text ++ behind) ∧
      Scans (l.text ++ (behind ++ rest)) position before lexemes ∧
      l.token.ReadFrom l.text (behind ++ rest) ∧ l.start = position + before.length ∧
      l.stop = l.start + l.text.length ∧ Scans rest l.stop behind others := by
  generalize hall : lexemes ++ l :: others = all at h
  induction h generalizing lexemes with
  | nil => simp at hall
  | @blank position c run all hblank _ ih =>
    obtain ⟨before, behind, rfl, hbefore, hread, hstart, hrest⟩ := ih hall
    refine ⟨c :: before, behind, rfl, .blank hblank hbefore, hread, ?_, hrest⟩
    rw [hstart, List.length_cons]
    omega
  | @lexeme position t piece run all hpiece h ih =>
    cases lexemes with
    | nil =>
      cases hall
      exact ⟨[], run, rfl, .nil position, hpiece, rfl, rfl, h⟩
    | cons first lexemes =>
      obtain ⟨rfl, hothers⟩ := List.cons.inj hall
      obtain ⟨before, behind, rfl, hbefore, hread, hstart, hrest⟩ := ih hothers
      refine ⟨piece ++ before, behind, (List.append_assoc ..).symm, .lexeme ?_ hbefore, hread, ?_,
        hrest⟩
      · simpa only [List.append_assoc] using hpiece
      · rw [hstart, List.length_append, Nat.add_assoc]

/-- What stands behind a stretch may be replaced if the lexemes in it ignore that. -/
theorem congr (h : Scans rest position run lexemes) (hlast : ∀ l ∈ lexemes, l.token.Ignores rest rest')
    (hword : Token.startsWithWord rest' = Token.startsWithWord rest) :
    Scans rest' position run lexemes := by
  induction h with
  | nil => exact .nil _
  | blank hblank _ ih => exact .blank hblank (ih hlast)
  | @lexeme position t piece run lexemes hpiece _ ih =>
    rw [List.forall_mem_cons] at hlast
    refine .lexeme (hpiece.congr ?_) (ih hlast.2)
    match run with
    | [] => exact hlast.1
    | [c] =>
      refine .of_head? rfl fun hpoint => ?_
      rwa [List.singleton_append, Token.addressingMode?, hword]
    | c :: d :: run => exact .of_head? rfl id

/-- The lexemes of a stretch that starts further on. -/
theorem shift (n : Nat) (h : Scans rest position run lexemes) :
    Scans rest (position + n) run (lexemes.map (.shift n)) := by
  induction h with
  | nil => exact .nil _
  | blank hblank _ ih =>
    rw [Nat.add_right_comm] at ih
    exact .blank hblank ih
  | lexeme hpiece _ ih =>
    rw [Nat.add_right_comm] at ih
    rw [List.map_cons, Lexeme.shift, Nat.add_right_comm _ _ n]
    exact .lexeme hpiece ih

theorem of_blanks {blanks : List Char} (h : ∀ c ∈ blanks, isHorizontalBlank c = true) :
    Scans rest position blanks [] := by
  induction blanks generalizing position with
  | nil => exact .nil position
  | cons c blanks ih =>
    rw [List.forall_mem_cons] at h
    exact .blank h.1 (ih h.2)

/-- A stretch is divided into the same lexemes wherever it stands, places apart. -/
theorem exists_moved (position' : Nat) (h : Scans rest position run lexemes) :
    ∃ lexemes', Scans rest position' run lexemes' ∧
      lexemes'.map Lexeme.content = lexemes.map Lexeme.content := by
  induction h generalizing position' with
  | nil => exact ⟨[], .nil position', rfl⟩
  | blank hblank _ ih =>
    obtain ⟨lexemes', hscans, hcontent⟩ := ih (position' + 1)
    exact ⟨lexemes', .blank hblank hscans, hcontent⟩
  | lexeme hpiece _ ih =>
    obtain ⟨lexemes', hscans, hcontent⟩ := ih (position' + _)
    exact ⟨_, .lexeme hpiece hscans, by rw [List.map_cons, List.map_cons, hcontent]; rfl⟩

/-- What lies in no lexeme is a blank. -/
theorem isHorizontalBlank_of_outside (h : Scans rest position run lexemes) {i : Nat} {c : Char}
    (hc : run[i]? = some c)
    (hout : ∀ l ∈ lexemes, ¬(l.start ≤ position + i ∧ position + i < l.stop)) :
    isHorizontalBlank c = true := by
  induction h generalizing i with
  | nil => simp at hc
  | blank hblank _ ih =>
    cases i with
    | zero =>
      cases hc
      exact hblank
    | succ i => exact ih hc (by simpa only [Nat.add_right_comm _ 1, Nat.add_assoc] using hout)
  | @lexeme position t piece run lexemes hpiece _ ih =>
    obtain ⟨hfirst, hothers⟩ := List.forall_mem_cons.1 hout
    have hbehind : piece.length ≤ i := by
      by_contra hlt
      exact hfirst ⟨Nat.le_add_right _ _, Nat.add_lt_add_left (Nat.lt_of_not_le hlt) _⟩
    obtain ⟨j, rfl⟩ := Nat.exists_eq_add_of_le hbehind
    rw [List.getElem?_append_right hbehind, Nat.add_sub_cancel_left] at hc
    exact ih hc (by simpa only [Nat.add_assoc] using hothers)

end Scans

/-- Every text is scanned up to its end, or up to a literal with too many digits. -/
theorem exists_scans (position : Nat) (text : List Char) :
    ∃ run rest lexemes, text = run ++ rest ∧ Scans rest position run lexemes ∧
      (rest = [] ∨ ∃ count, Token.StartsOverlong rest count ∧
        ∀ position, scan position 0 rest = ⟨[], some (.tooManyDigits count)⟩) := by
  induction hlength : text.length using Nat.strongRecOn generalizing position text with
  | ind n ih =>
    subst hlength
    cases text with
    | nil => exact ⟨[], [], [], rfl, .nil position, .inl rfl⟩
    | cons c text =>
      cases hblank : isHorizontalBlank c with
      | true =>
        obtain ⟨run, rest, lexemes, rfl, hscans, hend⟩ :=
          ih _ (Nat.lt_succ_self _) (position + 1) text rfl
        exact ⟨c :: run, rest, lexemes, rfl, .blank hblank hscans, hend⟩
      | false =>
        cases hread : Token.read (c :: text) with
        | error error =>
          obtain ⟨count, rfl, hoverlong⟩ := Token.startsOverlong_of_read hread
          refine ⟨[], c :: text, [], rfl, .nil position, .inr ⟨count, hoverlong, fun position => ?_⟩⟩
          simp only [scan, hblank, hread, Bool.false_eq_true, if_false]
        | ok found =>
          obtain ⟨piece, behind, htext, hpiece⟩ := Token.exists_readFrom hblank hread
          have hshorter : behind.length < (c :: text).length := by
            have hpos := List.length_pos_iff.2 hpiece.ne_nil
            rw [htext, List.length_append]
            omega
          obtain ⟨run, rest, lexemes, rfl, hscans, hend⟩ :=
            ih _ hshorter (position + piece.length) behind rfl
          exact ⟨piece ++ run, rest, _, by rw [htext, List.append_assoc], .lexeme hpiece hscans, hend⟩

end Lexing

/-- The lexemes of a text are those of the scan that reaches its end. -/
theorem lex_eq_ok_iff_scans {text : List Char} {lexemes : List Lexeme} :
    lex text = .ok lexemes ↔ Lexing.Scans [] 0 text lexemes := by
  have hend {lexemes : List Lexeme} (h : Lexing.Scans [] 0 text lexemes) :
      Lexing.scan 0 0 text = ⟨lexemes, none⟩ := by
    have hscan := h.scan_eq
    rwa [List.append_nil, Lexing.scan, List.append_nil] at hscan
  rw [lex_eq_ok_iff]
  refine ⟨fun h => ?_, hend⟩
  obtain ⟨run, rest, found, rfl, hscans, rfl | ⟨count, -, hfailure⟩⟩ := Lexing.exists_scans 0 text
  · rw [List.append_nil] at h hend ⊢
    cases h.symm.trans (hend hscans)
    exact hscans
  · have hscan := hscans.scan_eq
    rw [h, hfailure] at hscan
    cases congrArg Lexing.failure hscan

theorem readFrom_newline (rest : List Char) :
    Token.ReadFrom .statementTerminator ['\n'] rest where
  head := ⟨'\n', [], rfl, by decide⟩
  read_eq := Token.read_symbol rfl fun h => absurd h (by decide)

/-- The lexemes of two lines, where the first one does not end the program. -/
theorem lex_append_newline {text rest : List Char} {lexemes others : List Lexeme}
    (h : lex text = .ok lexemes) (hterminator : ∀ l ∈ lexemes, l.kind ≠ .programTerminator)
    (hrest : lex rest = .ok others) :
    lex (text ++ '\n' :: rest) =
      .ok (lexemes ++ ⟨.statementTerminator, ['\n'], text.length, text.length + 1⟩ ::
        others.map (·.shift (text.length + 1))) := by
  have hbehind := (lex_eq_ok_iff_scans.1 hrest).shift (text.length + 1)
  rw [Nat.zero_add] at hbehind
  rw [lex_eq_ok_iff_scans]
  refine Lexing.Scans.append ((lex_eq_ok_iff_scans.1 h).congr (fun l hl => ?_) ?_) ?_
  · refine .of_not_word ?_ (fun htoken => hterminator l hl (congrArg Token.kind htoken)) ?_
    · rintro _ ⟨⟩
      decide
    · rintro - _ ⟨⟩
      rfl
  · rfl
  · rw [Nat.zero_add]
    exact .lexeme (readFrom_newline _) (by rwa [List.length_singleton])

/-! ## Texts and their lexemes -/

/-- Lexemes hold all of a text but the blanks between them. -/
structure Lexeme.Lossless (text : List Char) (lexemes : List Lexeme) : Prop where
  inOrder : InOrder lexemes
  text_eq : ∀ l ∈ lexemes, l.stop ≤ text.length ∧ l.text = l.span.extract text
  blank : ∀ i c, text[i]? = some c → (∀ l ∈ lexemes, ¬(l.start ≤ i ∧ i < l.stop)) →
    isHorizontalBlank c = true
  head : ∀ l ∈ lexemes, ∀ c ∈ l.text.head?, isHorizontalBlank c = false
  terminator : ∀ l ∈ lexemes, l.kind = .programTerminator →
    lexemes.getLast? = some l ∧ l.stop = text.length

theorem Lexing.Scans.lossless {run rest : List Char} {lexemes : List Lexeme}
    (h : Scans rest 0 run lexemes) : Lexeme.Lossless run lexemes where
  inOrder := by
    have hscan := congrArg Lexing.lexemes h.scan_eq
    have horder := inOrder_scan 0 0 (run ++ rest)
    rw [hscan] at horder
    exact horder.sublist (List.sublist_append_left ..)
  text_eq l hl := by
    obtain ⟨before, others, rfl⟩ := List.append_of_mem hl
    obtain ⟨front, behind, rfl, -, -, hstart, hstop, -⟩ := h.exists_split
    rw [Nat.zero_add] at hstart
    refine ⟨?_, ?_⟩
    · simp only [hstop, hstart, List.length_append]
      omega
    · rw [Span.extract, Lexeme.span, hstop, hstart, Nat.add_sub_cancel_left, List.drop_left,
        List.take_left]
  blank i c hc hout := h.isHorizontalBlank_of_outside hc (by simpa only [Nat.zero_add] using hout)
  head l hl c hc := by
    obtain ⟨before, others, rfl⟩ := List.append_of_mem hl
    obtain ⟨front, behind, -, -, ⟨⟨first, more, htext, hblank⟩, -⟩, -⟩ := h.exists_split
    rw [htext] at hc
    cases hc
    exact hblank
  terminator l hl hkind := by
    obtain ⟨before, others, rfl⟩ := List.append_of_mem hl
    obtain ⟨front, behind, rfl, -, hread, hstart, hstop, hothers⟩ := h.exists_split
    rw [Token.eq_programTerminator hkind] at hread
    obtain ⟨rfl, -⟩ := List.append_eq_nil_iff.1 (Token.rest_eq_nil_of_read hread.read_eq)
    have hnone : others = [] := by
      generalize hbehind : ([] : List Char) = behind at hothers
      cases hothers with
      | nil => rfl
      | blank => cases hbehind
      | lexeme hpiece => exact absurd (List.append_eq_nil_iff.1 hbehind.symm).1 hpiece.ne_nil
    subst hnone
    refine ⟨List.getLast?_concat, ?_⟩
    simp [hstop, hstart]

/-- Every text is divided into lexemes that lose nothing of it, unless there is a literal with too many
digits, up to which this holds as well. -/
theorem lex_lossless (text : List Char) :
    (∃ lexemes, lex text = .ok lexemes ∧ Lexeme.Lossless text lexemes) ∨
      ∃ before rest lexemes count, text = before ++ rest ∧ Token.StartsOverlong rest count ∧
        lex text = .error (.tooManyDigits count) ∧
        Lexing.ofText text = ⟨lexemes, some (.tooManyDigits count)⟩ ∧
        Lexeme.Lossless before lexemes := by
  obtain ⟨before, rest, lexemes, rfl, hscans, rfl | ⟨count, hoverlong, hfailure⟩⟩ :=
    Lexing.exists_scans 0 text
  · rw [List.append_nil]
    exact .inl ⟨lexemes, lex_eq_ok_iff_scans.2 hscans, hscans.lossless⟩
  · have hscan : Lexing.ofText (before ++ rest) = ⟨lexemes, some (.tooManyDigits count)⟩ := by
      rw [Lexing.ofText, hscans.scan_eq, hfailure, List.append_nil]
    refine .inr ⟨before, rest, lexemes, count, rfl, hoverlong, ?_, hscan, hscans.lossless⟩
    rw [lex, hscan]

end Drama
