-- SUMMARY: The case of letters in a text of ASCII decides neither which tokens it consists of nor where these stand.
import Drama.Proofs.Source.Scan
import Drama.Proofs.Text.Ascii

/-!
# Letter case in source text

Each recogniser of tokens folds the case of letters in its own way. In a text of ASCII all of them find in its
capitals what they find in the text itself, so texts that are equal up to case have the same tokens at the same
places.
-/

namespace Drama

open Text

/-! ## Single characters -/

namespace Text

theorem caseless_isWordChar : Caseless isWordChar := .of_codes (by decide)

theorem caseless_digitValue? : Caseless digitValue? := .of_codes (by decide)

theorem caseless_isDecimalDigit : Caseless isDecimalDigit := fun c hc => by
  rw [isDecimalDigit, isDecimalDigit, caseless_digitValue? c hc]

theorem caseless_isHorizontalBlank : Caseless isHorizontalBlank := .of_codes (by decide)

theorem caseless_capitals : Caseless capitals := .of_codes (by decide)

theorem caseless_ofLetter? : Caseless AddressingMode.ofLetter? := .of_codes (by decide)

theorem caseless_ofSymbol? : Caseless Token.ofSymbol? := .of_codes (by decide)

theorem caseless_isNewline : Caseless fun c => c != '\n' := .of_codes (by decide)

theorem caseless_isMinus : Caseless fun c => c == '-' := .of_codes (by decide)

theorem caseless_isRegisterLetter : Caseless fun c => c == 'R' || c == 'r' := .of_codes (by decide)

theorem caseless_toUpper : Caseless Char.toUpper := .of_codes (by decide)

theorem caseless_isPoint : Caseless fun c => c == '.' := .of_codes (by decide)

theorem caseless_isBar : Caseless fun c => c == '|' := .of_codes (by decide)

/-- A character that is no letter is the capital of no other. -/
theorem toUpper_ne {c d : Char} (hd : Caseless fun c => c == d) (hc : IsAscii c) (hne : c ≠ d) :
    c.toUpper ≠ d := by
  have hcase := hd c hc
  simpa [hne] using hcase

theorem caseless_isLetter (letter : Char) : Caseless (Token.isLetter letter) := by
  have hdotted : Caseless fun c => c == Char.ofNat 0x130 || c == Char.ofNat 0x131 := .of_codes (by decide)
  intro c hc
  simp only [Token.isLetter, caseless_toUpper c hc, hdotted c hc]

variable {text : List Char} (h : ∀ c ∈ text, IsAscii c)
include h

theorem toUpper_map_toUpper : toUpper (text.map Char.toUpper) = toUpper text := by
  simp only [toUpper, List.flatMap_def, caseless_capitals.map_eq h]

/-- Text of ASCII and its capitals in ASCII are the same in upper case. -/
theorem toUpper_eq_of_map_toUpper {text' : List Char} (h' : ∀ c ∈ text', IsAscii c)
    (hcase : text'.map Char.toUpper = text.map Char.toUpper) : toUpper text' = toUpper text := by
  rw [← toUpper_map_toUpper h, ← toUpper_map_toUpper h', hcase]

end Text

/-! ## Recognisers -/

namespace Token

/-- A literal starts with a minus sign or a digit, which have no capitals. -/
theorem toUpper_of_read_literal {c : Char} (hc : IsAscii c) {rest : List Char} {found : Token × Nat}
    (hread : read (c :: rest) = .ok found) (hkind : found.1.kind = .literal) : c.toUpper = c := by
  have hcode : ∀ code < 0x80, Char.ofNat code = '-' ∨ isDecimalDigit (Char.ofNat code) = true →
      (Char.ofNat code).toUpper = Char.ofNat code := by decide
  have hliteral := recogniser_of_read hread
  simp only [hkind, literal?] at hliteral
  obtain ⟨hdigits, -⟩ := Option.ite_none_left_eq_some.1 hliteral
  apply IsAscii.of_codes (p := fun c => c = '-' ∨ isDecimalDigit c = true → c.toUpper = c) hcode hc
  by_cases hminus : c = '-'
  · exact .inl hminus
  · right
    by_contra hdigit
    simp [hminus, hdigit] at hdigits

variable {text : List Char} (h : ∀ c ∈ text, IsAscii c)
include h

theorem leadingWord_map_toUpper :
    leadingWord (text.map Char.toUpper) = (leadingWord text).map Char.toUpper :=
  caseless_isWordChar.takeWhile h

theorem startsWithWord_map_toUpper : startsWithWord (text.map Char.toUpper) = startsWithWord text := by
  have hhead := caseless_isWordChar.head? h
  unfold startsWithWord
  cases text with
  | nil => rfl
  | cons c rest => simpa using hhead

theorem register?_map_toUpper : register? (text.map Char.toUpper) = register? text := by
  match text with
  | [] | [_] => rfl
  | r :: d :: rest =>
    simp only [List.forall_mem_cons] at h
    obtain ⟨hr, hd, hrest⟩ := h
    simp only [List.map_cons, register?, caseless_isRegisterLetter r hr, caseless_digitValue? d hd,
      startsWithWord_map_toUpper hrest]

theorem ascii_of_sublist {piece : List Char} (hpiece : piece.Sublist text) : ∀ c ∈ piece, IsAscii c :=
  fun c hc => h c (hpiece.subset hc)

theorem condition?_map_toUpper : condition? (text.map Char.toUpper) = condition? text := by
  have hword : ∀ c ∈ leadingWord text, IsAscii c := ascii_of_sublist h (List.takeWhile_sublist _)
  have hnamed : Condition.named? ((leadingWord text).map Char.toUpper) =
      Condition.named? (leadingWord text) := by
    rw [Condition.named?, Condition.named?, toUpper_map_toUpper hword]
  simp only [condition?, leadingWord_map_toUpper h, hnamed, List.length_map]

theorem literal?_map_toUpper : literal? (text.map Char.toUpper) = literal? text := by
  have hminus : ((text.map Char.toUpper).head? == some '-') = (text.head? == some '-') := by
    have hhead := caseless_isMinus.head? h
    cases text with
    | nil => rfl
    | cons c rest => simpa using hhead
  simp only [literal?, hminus]
  generalize (text.head? == some '-') = negative
  have hunsigned : (if negative = true then (text.map Char.toUpper).drop 1 else text.map Char.toUpper) =
      (if negative = true then text.drop 1 else text).map Char.toUpper := by
    split
    · rw [List.map_drop]
    · rfl
  have hascii : ∀ c ∈ (if negative = true then text.drop 1 else text), IsAscii c := by
    split
    · exact ascii_of_sublist h (List.drop_sublist 1 text)
    · exact h
  rw [hunsigned]
  generalize (if negative = true then text.drop 1 else text) = unsigned at hascii
  have hdigits := ascii_of_sublist hascii (List.takeWhile_sublist isDecimalDigit)
  rw [caseless_isDecimalDigit.takeWhile hascii, caseless_digitValue?.filterMap_eq hdigits, List.isEmpty_map,
    List.length_map]

theorem programTerminator?_map_toUpper :
    programTerminator? (text.map Char.toUpper) = programTerminator? text := by
  have hletters : terminatorWord.zipWith isLetter ((text.take terminatorWord.length).map Char.toUpper) =
      terminatorWord.zipWith isLetter (text.take terminatorWord.length) := by
    have hstart := ascii_of_sublist h (List.take_sublist terminatorWord.length text)
    generalize text.take terminatorWord.length = start at hstart
    generalize terminatorWord = word
    induction start generalizing word with
    | nil => rfl
    | cons c start ih =>
      obtain ⟨hc, hstart⟩ := List.forall_mem_cons.1 hstart
      cases word with
      | nil => rfl
      | cons letter word =>
        rw [List.map_cons, List.zipWith_cons_cons, List.zipWith_cons_cons, caseless_isLetter letter c hc,
          ih hstart]
  simp only [programTerminator?, ← List.map_take, hletters, List.length_map]

theorem addressingMode?_map_toUpper :
    addressingMode? (text.map Char.toUpper) = addressingMode? text := by
  cases text with
  | nil => rfl
  | cons p rest =>
    obtain ⟨hp, hrest⟩ := List.forall_mem_cons.1 h
    by_cases hpoint : p = '.'
    · subst hpoint
      cases rest with
      | nil => rfl
      | cons c rest =>
        obtain ⟨hc, hrest⟩ := List.forall_mem_cons.1 hrest
        have hmode : modeLetters.any (isLetter · c.toUpper) = modeLetters.any (isLetter · c) := by
          simp only [caseless_isLetter _ c hc]
        show addressingMode? ('.' :: c.toUpper :: rest.map Char.toUpper) = _
        simp only [addressingMode?, hmode, startsWithWord_map_toUpper hrest, caseless_ofLetter? c hc]
    · rw [List.map_cons, addressingMode?_of_ne (toUpper_ne caseless_isPoint hp hpoint),
        addressingMode?_of_ne hpoint]

theorem symbol?_map_toUpper : symbol? (text.map Char.toUpper) = symbol? text := by
  cases text with
  | nil => rfl
  | cons c rest =>
    have hc := h c List.mem_cons_self
    simp only [symbol?, List.map_cons, List.head?_cons, Option.bind_some, caseless_ofSymbol? c hc]

theorem comment?_map_toUpper : comment? (text.map Char.toUpper) = comment? text := by
  cases text with
  | nil => rfl
  | cons c rest =>
    obtain ⟨hc, hrest⟩ := List.forall_mem_cons.1 h
    by_cases hbar : c = '|'
    · subst hbar
      show comment? ('|' :: rest.map Char.toUpper) = _
      simp only [comment?, caseless_isNewline.takeWhile hrest, List.length_map]
    · rw [List.map_cons, comment?_of_ne (toUpper_ne caseless_isBar hc hbar), comment?_of_ne hbar]

theorem identifier?_map_toUpper : identifier? (text.map Char.toUpper) = identifier? text := by
  simp only [identifier?, leadingWord_map_toUpper h, List.isEmpty_map, List.length_map]

/-- The capitals of a text start with the same token as the text itself. -/
theorem read_map_toUpper : read (text.map Char.toUpper) = read text := by
  simp only [read, register?_map_toUpper h, condition?_map_toUpper h, literal?_map_toUpper h,
    programTerminator?_map_toUpper h, addressingMode?_map_toUpper h, symbol?_map_toUpper h,
    comment?_map_toUpper h, identifier?_map_toUpper h]

end Token

/-! ## Lexemes -/

/-- A lexeme with its text in capitals. -/
def Lexeme.capitalised (l : Lexeme) : Lexeme := { l with text := l.text.map Char.toUpper }

namespace Lexing

/-- The capitals of a text are scanned like the text itself. -/
theorem scan_map_toUpper (position skip : Nat) (text : List Char) (h : ∀ c ∈ text, IsAscii c) :
    scan position skip (text.map Char.toUpper) =
      ⟨(scan position skip text).lexemes.map Lexeme.capitalised, (scan position skip text).failure⟩ := by
  fun_induction scan position skip text with
  | case1 => rfl
  | case2 position skip c rest ih => exact ih (List.forall_mem_cons.1 h).2
  | case3 position c rest hblank ih =>
    obtain ⟨hc, hrest⟩ := List.forall_mem_cons.1 h
    rw [List.map_cons, scan, caseless_isHorizontalBlank c hc, if_pos hblank]
    exact ih hrest
  | case4 position c rest hblank failure hread =>
    obtain ⟨hc, hrest⟩ := List.forall_mem_cons.1 h
    have hcapitals := Token.read_map_toUpper h
    rw [List.map_cons, hread] at hcapitals
    rw [List.map_cons, scan, caseless_isHorizontalBlank c hc, if_neg hblank, hcapitals]
    rfl
  | case5 position c rest hblank token length hread lexeme following ih =>
    obtain ⟨hc, hrest⟩ := List.forall_mem_cons.1 h
    have hcapitals := Token.read_map_toUpper h
    rw [List.map_cons, hread] at hcapitals
    rw [List.map_cons, scan, caseless_isHorizontalBlank c hc, if_neg hblank, hcapitals]
    simp only [ih hrest, ← List.map_cons, ← List.map_take]
    rfl

/-- A literal starts with a digit or a minus sign. -/
theorem toUpper_head_of_literal (position skip : Nat) (text : List Char) (h : ∀ c ∈ text, IsAscii c) :
    ∀ l ∈ (scan position skip text).lexemes, l.kind = .literal → ∀ c ∈ l.text.head?, c.toUpper = c := by
  fun_induction scan position skip text with
  | case1 | case4 => exact List.forall_mem_nil _
  | case2 position skip c rest ih => exact ih (List.forall_mem_cons.1 h).2
  | case3 position c rest hblank ih => exact ih (List.forall_mem_cons.1 h).2
  | case5 position c rest hblank token length hread lexeme following ih =>
    obtain ⟨hc, hrest⟩ := List.forall_mem_cons.1 h
    refine List.forall_mem_cons.2 ⟨fun hkind d hd => ?_, ih hrest⟩
    obtain ⟨hpos, -⟩ := Token.fits_of_read (List.cons_ne_nil c rest) hread
    have hhead : ((c :: rest).take length).head? = some c := by
      obtain ⟨n, rfl⟩ := Nat.exists_eq_succ_of_ne_zero (Nat.pos_iff_ne_zero.1 hpos)
      rfl
    obtain rfl : c = d := Option.some.inj (hhead.symm.trans hd)
    exact Token.toUpper_of_read_literal hc hread hkind

end Lexing

/-- The capitals of a text are divided like the text itself. -/
theorem lex_map_toUpper {text : List Char} (h : ∀ c ∈ text, IsAscii c) :
    lex (text.map Char.toUpper) = (lex text).map (List.map Lexeme.capitalised) := by
  simp only [lex, Lexing.ofText, Lexing.scan_map_toUpper 0 0 text h]
  cases (Lexing.scan 0 0 text).failure with
  | none => rfl
  | some failure => rfl

/-- Texts of ASCII that are equal up to case are divided in the same way, if at all. -/
theorem lex_congr_case {text text' : List Char} (h : ∀ c ∈ text, IsAscii c) (h' : ∀ c ∈ text', IsAscii c)
    (hcase : text'.map Char.toUpper = text.map Char.toUpper) :
    (lex text').map (List.map Lexeme.capitalised) = (lex text).map (List.map Lexeme.capitalised) := by
  rw [← lex_map_toUpper h, ← lex_map_toUpper h', hcase]

/-- What is known of a lexeme of a text of ASCII: where it stands, and that no literal starts with a letter. -/
structure Lexeme.OfAscii (text : List Char) (l : Lexeme) : Prop where
  text_eq : l.text = l.span.extract text
  ascii : ∀ c ∈ l.text, IsAscii c
  literal : l.kind = .literal → ∀ c ∈ l.text.head?, c.toUpper = c

theorem Lexeme.ofAscii_of_lex {text : List Char} (h : ∀ c ∈ text, IsAscii c) {lexemes : List Lexeme}
    (hlex : lex text = .ok lexemes) : ∀ l ∈ lexemes, l.OfAscii text := by
  intro l hl
  have htext : l.text = l.span.extract text := ((lex_eq_ok_iff_scans.1 hlex).lossless.text_eq l hl).2
  have hliteral := Lexing.toUpper_head_of_literal 0 0 text h
  rw [lex_eq_ok_iff.1 hlex] at hliteral
  refine ⟨htext, fun c hc => ?_, hliteral l hl⟩
  rw [htext] at hc
  exact h c (List.drop_subset _ _ (List.take_subset _ _ hc))

end Drama
