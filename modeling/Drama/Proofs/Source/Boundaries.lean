-- SUMMARY: Where tokens end: what stands behind a token changes it only where it goes on with the token.
import Drama.Proofs.Source.Lexing

/-!
# Ends of tokens

The first character of a text decides how its token is recognised, and most tokens end where a run of
characters does. So the token stays the same as long as the run ends at the same place
(`Token.read_congr`), which is the case before a blank or a newline, or where the next character is kept.
-/

namespace Drama

open Text

namespace Token

variable {t : Token} {piece more rest rest' : List Char}

/-! ## Tokens by their first character -/

theorem startsWithWord_eq_false_iff {text : List Char} :
    startsWithWord text = false ↔ ∀ c ∈ text.head?, isWordChar c = false := by
  cases text <;> simp [startsWithWord]

/-- A digit starts a literal of all the digits in a row. -/
theorem read_of_isDecimalDigit {d : Char} (h : isDecimalDigit d = true) (rest : List Char) :
    let digits := (d :: rest).takeWhile isDecimalDigit
    read (d :: rest) = (Numeral.ofSignedDigits false (digits.filterMap digitValue?)).map fun value =>
      (.literal value, digits.length) := by
  have hminus : ((d :: rest).head? == some '-') = false := by
    rw [beq_eq_false_iff_ne]
    rintro ⟨rfl⟩
    exact absurd h (by decide)
  have hsome : ((d :: rest).takeWhile isDecimalDigit).isEmpty = false := by
    rw [List.takeWhile_cons_of_pos h]
    rfl
  simp only [read, register?_of_isDecimalDigit h, condition?_of_isDecimalDigit h, literal?, hminus,
    hsome, Bool.false_eq_true, if_false]
  rfl

theorem read_minus_of_isDecimalDigit {d : Char} (h : isDecimalDigit d = true) (rest : List Char) :
    let digits := (d :: rest).takeWhile isDecimalDigit
    read ('-' :: d :: rest) =
      (Numeral.ofSignedDigits true (digits.filterMap digitValue?)).map fun value =>
        (.literal value, digits.length + 1) := by
  have hsome : ((d :: rest).takeWhile isDecimalDigit).isEmpty = false := by
    rw [List.takeWhile_cons_of_pos h]
    rfl
  rw [read_of_not_startsWithWord (by simp only [startsWithWord, List.head?_cons]; decide)]
  simp only [literal?, List.head?_cons, BEq.rfl, if_true, List.drop_one, List.tail_cons, hsome,
    Bool.false_eq_true, if_false]

/-- A word is a register or a condition, or it ends the program, or it is an identifier. -/
theorem read_of_word {c : Char} (hword : isWordChar c = true) (hdigit : isDecimalDigit c = false)
    (rest : List Char) :
    let word := leadingWord (c :: rest)
    read (c :: rest) = .ok (((register? word <|> condition? word) <|> programTerminator? (c :: rest)).getD
      (.identifier, word.length)) := by
  have hne (other : Char) (hother : isWordChar other = false) : c ≠ other := by
    rintro rfl
    cases hother.symm.trans hword
  have hliteral : literal? (c :: rest) = none :=
    literal?_of_not_digit hdigit fun hminus => absurd hminus (hne '-' (by decide))
  have hidentifier : identifier? (c :: rest) = some (.identifier, (leadingWord (c :: rest)).length) := by
    rw [identifier?, leadingWord_cons_of_word hword]
    rfl
  simp only [read, register?_leadingWord, condition?_leadingWord, hliteral, symbol?_of_word hword,
    addressingMode?_of_ne (hne '.' (by decide)), comment?_of_ne (hne '|' (by decide)), hidentifier]
  cases register? (c :: rest) <|> condition? (c :: rest) <;>
    cases programTerminator? (c :: rest) <;> rfl

theorem read_point (rest : List Char) :
    read ('.' :: rest) = .ok ((addressingMode? ('.' :: rest)).getD (.unrecognised, 1)) := by
  rw [read_of_not_startsWithWord rfl, literal?_of_not_digit (by decide) (by simp)]
  cases addressingMode? ('.' :: rest) <;> rfl

theorem read_bar (rest : List Char) :
    read ('|' :: rest) = .ok (.comment, (rest.takeWhile (· != '\n')).length + 1) := by
  rw [read_of_not_startsWithWord rfl, literal?_of_not_digit (by decide) (by simp),
    addressingMode?_of_ne (by decide)]
  rfl

/-- Other characters are symbols or unknown. -/
theorem read_of_not_word {c : Char} (hword : isWordChar c = false) (hpoint : c ≠ '.') (hbar : c ≠ '|')
    (hminus : c = '-' → ∀ d ∈ rest.head?, isDecimalDigit d = false) :
    read (c :: rest) = .ok (((ofSymbol? c).map (·, 1)).getD (.unrecognised, 1)) := by
  have hdigit : isDecimalDigit c = false := by
    by_contra hdigit
    cases hword.symm.trans (isWordChar_of_isDecimalDigit (by simpa using hdigit))
  have hstart : startsWithWord (c :: rest) = false := hword
  rw [read_of_not_startsWithWord hstart, literal?_of_not_digit hdigit hminus,
    addressingMode?_of_ne hpoint, comment?_of_ne hbar]
  cases hsymbol : ofSymbol? c <;> simp [symbol?, hsymbol]

/-! ## The end of a program -/

/-- What does not end the program does not do so either where less stands behind it. -/
theorem programTerminator?_of_append (h : programTerminator? (piece ++ rest) = none) :
    programTerminator? piece = none := by
  by_contra hsome
  have hfound : (piece.take terminatorWord.length).length = terminatorWord.length ∧
      (terminatorWord.zipWith isLetter (piece.take terminatorWord.length)).all id = true := by
    by_contra hnot
    exact hsome (if_neg (by simpa using hnot))
  have htake : (piece ++ rest).take terminatorWord.length = piece.take terminatorWord.length :=
    List.take_append_of_le_length (hfound.1.ge.trans (List.length_take_le' _ _))
  rw [programTerminator?, htake, if_pos (by simpa using hfound)] at h
  cases h

/-- The word that ends a program takes all the text behind it along. -/
theorem rest_eq_nil_of_read (h : read (piece ++ rest) = .ok (.programTerminator, piece.length)) :
    rest = [] := by
  have hfound : programTerminator? (piece ++ rest) = some (.programTerminator, piece.length) :=
    recogniser_of_read h
  simp only [programTerminator?] at hfound
  obtain ⟨-, hfound⟩ := Option.ite_none_right_eq_some.1 hfound
  have hlength : (piece ++ rest).length = piece.length := (Prod.mk.inj (Option.some.inj hfound)).2
  rw [List.length_append] at hlength
  exact List.length_eq_zero_iff.1 (by omega)

/-- The word that ends a program is never anything else. -/
theorem read_of_programTerminator? {text : List Char} {found : Token × Nat}
    (h : programTerminator? text = some found) : read text = .ok found := by
  have hfound := h
  simp only [programTerminator?] at hfound
  obtain ⟨hletters, -⟩ := Option.ite_none_right_eq_some.1 hfound
  cases text with
  | nil => simp [terminatorWord] at hletters
  | cons e rest =>
    have he : isLetter 'E' e = true := by simp_all [terminatorWord]
    have hupper : e.toUpper = 'E' := by simpa [isLetter] using he
    have hdigit : isDecimalDigit e = false := isDecimalDigit_of_isLetter (by decide) he
    have hne (other : Char) (hother : other.toUpper ≠ 'E') : e ≠ other := by
      rintro rfl
      exact hother hupper
    have hcapitals : capitals e = ['E'] := by
      obtain rfl | hlower | rfl | rfl := of_isLetter he
      · decide
      · have hcode : e.toNat < 0x80 := (toNat_of_isLower hlower).2.trans_lt (by decide)
        rw [capitals, if_pos hcode, hupper]
      · exact absurd he (by decide)
      · exact absurd he (by decide)
    have hcondition : condition? (e :: rest) = none := by
      have hword : isWordChar e = true := isWordChar_of_isLetter (by decide) he
      rw [condition?, leadingWord_cons_of_word hword,
        Condition.named?_of_capitals hcapitals (by decide)]
      rfl
    rw [read, register?_of_ne (hne 'R' (by decide)) (hne 'r' (by decide)), hcondition,
      literal?_of_not_digit hdigit fun hminus => absurd hminus (hne '-' (by decide)), h]
    rfl

/-- The end of a program is read from the word alone, whatever stands behind it. -/
theorem read_programTerminator_append {text : List Char}
    (h : read text = .ok (.programTerminator, text.length)) (tail : List Char) :
    let word := text.take terminatorWord.length
    word.length = terminatorWord.length ∧
      read (word ++ tail) = .ok (.programTerminator, (word ++ tail).length) := by
  have hfound : programTerminator? text = some (.programTerminator, text.length) :=
    recogniser_of_read h
  simp only [programTerminator?] at hfound
  obtain ⟨hword, -⟩ := Option.ite_none_right_eq_some.1 hfound
  have hlength : (text.take terminatorWord.length).length = terminatorWord.length := by
    rw [Bool.and_eq_true, beq_iff_eq] at hword
    exact hword.1
  have htake : (text.take terminatorWord.length ++ tail).take terminatorWord.length =
      text.take terminatorWord.length := by
    rw [List.take_append_of_le_length hlength.ge, List.take_take, Nat.min_self]
  refine ⟨hlength, read_of_programTerminator? ?_⟩
  rw [programTerminator?, htake, if_pos hword]

/-! ## What stands behind a token -/

/-- A token that ends before `rest` ends before `rest'` as well. -/
structure Ignores (t : Token) (rest rest' : List Char) : Prop where
  word : (∀ c ∈ rest.head?, isWordChar c = false) → ∀ c ∈ rest'.head?, isWordChar c = false
  digit : (∀ d ∈ rest.head?, isDecimalDigit d = false) → ∀ d ∈ rest'.head?, isDecimalDigit d = false
  point : addressingMode? ('.' :: rest) = none → addressingMode? ('.' :: rest') = none
  comment : t = .comment → (∀ c ∈ rest.head?, c = '\n') → ∀ c ∈ rest'.head?, c = '\n'
  terminator : t = .programTerminator → rest = [] → rest' = []

namespace Ignores

theorem of_head? (hhead : rest'.head? = rest.head?)
    (hpoint : addressingMode? ('.' :: rest) = none → addressingMode? ('.' :: rest') = none) :
    t.Ignores rest rest' where
  word h := by rwa [hhead]
  digit h := by rwa [hhead]
  point := hpoint
  comment _ h := by rwa [hhead]
  terminator _ h := by rw [← List.head?_eq_none_iff, hhead, h, List.head?_nil]

/-- A token does not notice characters that go on with no word, unless it is a comment or the end of the
program. -/
theorem of_not_word (h : ∀ c ∈ rest'.head?, isWordChar c = false) (hterminator : t ≠ .programTerminator)
    (hcomment : t = .comment → ∀ c ∈ rest'.head?, c = '\n') : t.Ignores rest rest' where
  word _ := h
  digit _ d hd := by
    by_contra hdigit
    cases (h d hd).symm.trans (isWordChar_of_isDecimalDigit (by simpa using hdigit))
  point _ := by
    cases rest' with
    | nil => rfl
    | cons c rest' =>
      have hletter : modeLetters.any (isLetter · c) = false := by
        by_contra hletter
        obtain ⟨letter, hmem, hc⟩ := List.any_eq_true.1 (by simpa using hletter)
        have hletters : modeLetters.all isWordChar = true := by decide
        cases (h c rfl).symm.trans (isWordChar_of_isLetter (List.all_eq_true.1 hletters letter hmem) hc)
      simp [addressingMode?, hletter]
  comment h _ := hcomment h
  terminator h := absurd h hterminator

end Ignores

/-! ## Runs of characters -/

/-- A run as long as the characters in front consists of these, and it ends behind them. -/
theorem takeWhile_append_eq_left {p : Char → Bool} (piece : List Char)
    (h : ((piece ++ rest).takeWhile p).length = piece.length) :
    (piece ++ rest).takeWhile p = piece ∧ ∀ c ∈ rest.head?, p c = false := by
  have hpiece : (piece ++ rest).takeWhile p = piece :=
    (List.prefix_of_prefix_length_le (List.takeWhile_prefix p) (List.prefix_append piece rest)
      h.le).eq_of_length h
  refine ⟨hpiece, fun c hc => ?_⟩
  obtain ⟨more, rfl⟩ := List.head?_eq_some_iff.1 hc
  by_contra hp
  have hall : ∀ c ∈ piece, p c = true := fun c hc => List.mem_takeWhile_imp (hpiece ▸ hc)
  rw [List.takeWhile_append_of_pos hall, List.takeWhile_cons_of_pos (by simpa using hp)] at hpiece
  simp at hpiece

/-- The characters of a run as long as the piece in front. -/
theorem forall_mem_of_takeWhile {p : Char → Bool} (piece : List Char)
    (h : ((piece ++ rest).takeWhile p).length = piece.length) : ∀ c ∈ piece, p c = true := by
  intro c hc
  rw [← (takeWhile_append_eq_left piece h).1] at hc
  exact List.mem_takeWhile_imp hc

/-- A run of characters that ends before `rest` ends before `rest'` as well. -/
theorem takeWhile_append_congr {p : Char → Bool} (piece : List Char)
    (h : ((piece ++ rest).takeWhile p).length = piece.length)
    (hrest : (∀ c ∈ rest.head?, p c = false) → ∀ c ∈ rest'.head?, p c = false) :
    (piece ++ rest').takeWhile p = (piece ++ rest).takeWhile p := by
  obtain ⟨hpiece, hend⟩ := takeWhile_append_eq_left piece h
  rw [hpiece, List.takeWhile_append_of_pos (forall_mem_of_takeWhile piece h)]
  cases rest' with
  | nil => exact List.append_nil piece
  | cons c rest' =>
    rw [List.takeWhile_cons_of_neg (by simpa using hrest hend c rfl), List.append_nil]

/-! ## Comments -/

/-- A comment is a bar and what stands behind it in the line. -/
theorem read_comment {remark : List Char} (hremark : '\n' ∉ remark)
    (hrest : ∀ c ∈ rest.head?, c = '\n') :
    read ('|' :: (remark ++ rest)) = .ok (.comment, ('|' :: remark).length) := by
  have hline : (remark ++ rest).takeWhile (· != '\n') = remark := by
    rw [List.takeWhile_append_of_pos fun c hc => by simpa using ne_of_mem_of_not_mem hc hremark]
    cases rest with
    | nil => exact List.append_nil remark
    | cons c rest =>
      rw [List.takeWhile_cons_of_neg (by simpa using hrest c rfl), List.append_nil]
  rw [read_bar, hline]
  rfl

theorem of_read_comment (h : read (piece ++ rest) = .ok (.comment, piece.length)) :
    ∃ remark, piece = '|' :: remark ∧ '\n' ∉ remark ∧ ∀ c ∈ rest.head?, c = '\n' := by
  have hfound : comment? (piece ++ rest) = some (.comment, piece.length) := recogniser_of_read h
  cases piece with
  | nil => 
    unfold comment? at hfound
    split at hfound <;> simp at hfound
  | cons c remark =>
    obtain rfl : c = '|' := by
      by_contra hbar
      rw [List.cons_append, comment?_of_ne hbar] at hfound
      cases hfound
    rw [List.cons_append, comment?] at hfound
    have hlength := Nat.succ.inj (Prod.mk.inj (Option.some.inj hfound)).2
    obtain ⟨hline, hrest⟩ := takeWhile_append_eq_left remark hlength
    refine ⟨remark, rfl, fun hmem => ?_, by simpa using hrest⟩
    rw [← hline] at hmem
    simpa using List.mem_takeWhile_imp hmem

/-! ## Tokens that stay the same -/

theorem length_of_map_literal {ε : Type} {x : Except ε Int} {length n : Nat}
    (h : (x.map fun value => (literal value, length)) = .ok (t, n)) : length = n := by
  cases x with
  | error e => cases h
  | ok value => exact (Prod.mk.inj (Except.ok.inj h)).2

theorem read_congr_of_isDecimalDigit {d : Char} (h : isDecimalDigit d = true)
    (hread : read (d :: (more ++ rest)) = .ok (t, (d :: more).length)) (hrest : t.Ignores rest rest') :
    read (d :: (more ++ rest')) = .ok (t, (d :: more).length) := by
  rw [read_of_isDecimalDigit h, ← List.cons_append] at hread ⊢
  rwa [takeWhile_append_congr (d :: more) (length_of_map_literal hread) hrest.digit]

theorem read_congr_minus {d : Char} (h : isDecimalDigit d = true)
    (hread : read ('-' :: (more ++ rest)) = .ok (t, ('-' :: more).length))
    (hhead : (more ++ rest).head? = some d) (hrest : t.Ignores rest rest') :
    read ('-' :: (more ++ rest')) = .ok (t, ('-' :: more).length) := by
  obtain ⟨behind, hbehind⟩ := List.head?_eq_some_iff.1 hhead
  rw [hbehind, read_minus_of_isDecimalDigit h, ← hbehind] at hread
  have hlength := Nat.succ.inj (length_of_map_literal hread)
  cases more with
  | nil => simp [List.takeWhile_cons_of_pos h, hbehind] at hlength
  | cons d' more =>
    obtain ⟨rfl, rfl⟩ := List.cons.inj hbehind
    rw [List.cons_append, read_minus_of_isDecimalDigit h, ← List.cons_append]
    rwa [takeWhile_append_congr (d' :: more) hlength hrest.digit]

theorem length_of_register? {text : List Char} {found : Token × Nat}
    (h : register? (leadingWord text) = some found) : found.2 = (leadingWord text).length := by
  have hidem := leadingWord_leadingWord text
  generalize leadingWord text = word at h hidem
  unfold register? at h
  split at h
  · rename_i r d more
    obtain ⟨hmore, h⟩ := Option.ite_none_right_eq_some.1 h
    obtain ⟨number, -, rfl⟩ := Option.map_eq_some_iff.1 h
    have hall : ∀ c ∈ r :: d :: more, isWordChar c = true := fun c hc => by
      rw [← hidem] at hc
      exact List.mem_takeWhile_imp hc
    cases more with
    | nil => rfl
    | cons c more => simp [startsWithWord, hall c (by simp)] at hmore
  · cases h

/-- Registers and conditions are whole words. -/
theorem length_of_register?_or_condition? {text : List Char} {found : Token × Nat}
    (h : (register? (leadingWord text) <|> condition? (leadingWord text)) = some found) :
    found.2 = (leadingWord text).length := by
  obtain hregister | ⟨-, hcondition⟩ := (Option.orElse_eq_some _ _ _).1 h
  · exact length_of_register? hregister
  · obtain ⟨condition, -, rfl⟩ := Option.map_eq_some_iff.1 hcondition
    exact congrArg List.length (leadingWord_leadingWord text)

/-- The token of a word reaches to the end of the word, and no word that ends the program is part of it. -/
theorem of_read_word {c : Char} {length : Nat} (hword : isWordChar c = true)
    (hdigit : isDecimalDigit c = false) (h : read (c :: rest) = .ok (t, length))
    (hterminator : t ≠ .programTerminator) :
    let word := leadingWord (c :: rest)
    word.length = length ∧
      ((register? word <|> condition? word) = none → programTerminator? (c :: rest) = none) := by
  rw [read_of_word hword hdigit] at h
  cases hfound : register? (leadingWord (c :: rest)) <|> condition? (leadingWord (c :: rest)) with
  | some found =>
    rw [hfound] at h
    obtain rfl : found = (t, length) := Except.ok.inj h
    refine ⟨(length_of_register?_or_condition? hfound).symm, fun hnone => ?_⟩
    cases hfound.symm.trans hnone
  | none =>
    cases hend : programTerminator? (c :: rest) with
    | some found =>
      rw [hfound, hend] at h
      obtain rfl : found = (t, length) := Except.ok.inj h
      refine absurd ?_ hterminator
      simp only [programTerminator?] at hend
      exact (Prod.mk.inj (Option.some.inj (Option.ite_none_right_eq_some.1 hend).2)).1.symm
    | none =>
      rw [hfound, hend] at h
      exact ⟨(Prod.mk.inj (Except.ok.inj h)).2, fun _ => rfl⟩

theorem read_congr_of_word {c : Char} (hword : isWordChar c = true) (hdigit : isDecimalDigit c = false)
    (h : read (c :: (more ++ rest)) = .ok (t, (c :: more).length))
    (hterminator : t ≠ .programTerminator) (hrest : t.Ignores rest rest') :
    read (c :: (more ++ rest')) = .ok (t, (c :: more).length) := by
  obtain ⟨hlength, hend⟩ := of_read_word hword hdigit h hterminator
  have hpiece : leadingWord (c :: (more ++ rest)) = c :: more :=
    (takeWhile_append_eq_left (c :: more) hlength).1
  have hpiece' : leadingWord (c :: (more ++ rest')) = c :: more :=
    (takeWhile_append_congr (c :: more) hlength hrest.word).trans hpiece
  rw [hpiece] at hend
  rw [read_of_word hword hdigit, hpiece] at h
  rw [read_of_word hword hdigit, hpiece']
  cases hfound : register? (c :: more) <|> condition? (c :: more) with
  | some found => rwa [hfound] at h
  | none =>
    have hnone := hend hfound
    have hnone' : programTerminator? (c :: (more ++ rest')) = none := by
      apply programTerminator?_of_leadingWord
      rw [hpiece']
      rw [← List.cons_append] at hnone
      exact programTerminator?_of_append hnone
    rw [hfound, hnone] at h
    rwa [hnone']

theorem of_addressingMode? {text : List Char} {found : Token × Nat}
    (h : addressingMode? ('.' :: text) = some found) :
    ∃ m behind, text = m :: behind ∧ modeLetters.any (isLetter · m) = true ∧
      startsWithWord behind = false ∧ found = (.addressingMode (AddressingMode.ofLetter? m), 2) := by
  cases text with
  | nil => cases h
  | cons m behind =>
    obtain ⟨hletter, h⟩ := Option.ite_none_right_eq_some.1 h
    rw [Bool.and_eq_true, Bool.not_eq_true'] at hletter
    exact ⟨m, behind, rfl, hletter.1, hletter.2, (Option.some.inj h).symm⟩

theorem read_congr_point (h : read ('.' :: (more ++ rest)) = .ok (t, ('.' :: more).length))
    (hrest : t.Ignores rest rest') : read ('.' :: (more ++ rest')) = .ok (t, ('.' :: more).length) := by
  rw [read_point] at h ⊢
  cases hmode : addressingMode? ('.' :: (more ++ rest)) with
  | none =>
    rw [hmode] at h
    obtain ⟨rfl, hlength⟩ := Prod.mk.inj (Except.ok.inj h)
    obtain rfl : more = [] := List.length_eq_zero_iff.1 (Nat.succ.inj hlength).symm
    rw [List.nil_append] at hmode ⊢
    rw [hrest.point hmode]
    rfl
  | some found =>
    rw [hmode] at h
    obtain rfl : found = (t, ('.' :: more).length) := Except.ok.inj h
    obtain ⟨m, behind, htext, hletter, hbehind, hfound⟩ := of_addressingMode? hmode
    obtain ⟨rfl, hlength⟩ := Prod.mk.inj hfound
    obtain ⟨m', rfl⟩ := List.length_eq_one_iff.1 (Nat.succ.inj hlength)
    obtain ⟨rfl, rfl⟩ := List.cons.inj htext
    have hword : startsWithWord rest' = false :=
      startsWithWord_eq_false_iff.2 (hrest.word (startsWithWord_eq_false_iff.1 hbehind))
    simp [addressingMode?, hletter, hword]

theorem read_congr_bar (h : read ('|' :: (more ++ rest)) = .ok (t, ('|' :: more).length))
    (hrest : t.Ignores rest rest') : read ('|' :: (more ++ rest')) = .ok (t, ('|' :: more).length) := by
  rw [read_bar] at h ⊢
  obtain ⟨rfl, hlength⟩ := Prod.mk.inj (Except.ok.inj h)
  rwa [takeWhile_append_congr more (Nat.succ.inj hlength) (by simpa using hrest.comment rfl)]

theorem read_congr_of_not_word {c : Char} (hword : isWordChar c = false)
    (h : read (c :: (more ++ rest)) = .ok (t, (c :: more).length)) (hrest : t.Ignores rest rest') :
    read (c :: (more ++ rest')) = .ok (t, (c :: more).length) := by
  by_cases hpoint : c = '.'
  · subst hpoint
    exact read_congr_point h hrest
  by_cases hbar : c = '|'
  · subst hbar
    exact read_congr_bar h hrest
  by_cases hminus : c = '-' → ∀ d ∈ (more ++ rest).head?, isDecimalDigit d = false
  · rw [read_of_not_word hword hpoint hbar hminus] at h
    have hmore : more = [] := by cases hsymbol : ofSymbol? c <;> simp_all
    subst hmore
    rwa [List.nil_append, read_of_not_word hword hpoint hbar fun heq => hrest.digit (hminus heq)]
  · obtain ⟨rfl, d, hd, hdigit⟩ :
        c = '-' ∧ ∃ d ∈ (more ++ rest).head?, isDecimalDigit d = true := by simpa using hminus
    exact read_congr_minus hdigit h hd hrest

/-- A token is read in the same way before all that it ignores. -/
theorem read_congr (hne : piece ≠ []) (h : read (piece ++ rest) = .ok (t, piece.length))
    (hrest : t.Ignores rest rest') : read (piece ++ rest') = .ok (t, piece.length) := by
  by_cases hterminator : t = .programTerminator
  · subst hterminator
    obtain rfl := rest_eq_nil_of_read h
    rwa [hrest.terminator rfl rfl]
  obtain ⟨c, more, rfl⟩ := List.exists_cons_of_ne_nil hne
  cases hdigit : isDecimalDigit c with
  | true => exact read_congr_of_isDecimalDigit hdigit h hrest
  | false =>
    cases hword : isWordChar c with
    | true => exact read_congr_of_word hword hdigit h hterminator hrest
    | false => exact read_congr_of_not_word hword h hrest

/-- A point in front of a token makes a suffix of it, or does not, whatever stands behind the token. -/
theorem addressingMode?_of_read (hne : piece ≠ [])
    (h : read (piece ++ rest) = .ok (t, piece.length)) (hterminator : t ≠ .programTerminator)
    (hpoint : addressingMode? ('.' :: (piece ++ rest)) = none) :
    addressingMode? ('.' :: (piece ++ rest')) = none := by
  match piece with
  | [c] =>
    have hletter : modeLetters.any (isLetter · c) = false := by
      by_contra hletter
      obtain ⟨letter, hmem, hc⟩ := List.any_eq_true.1 (by simpa using hletter)
      have hletters : modeLetters.all (fun letter =>
          isWordChar letter && !isDecimalDigit letter) = true := by decide
      obtain ⟨hword, hdigit⟩ :=
        Bool.and_eq_true_iff.1 (List.all_eq_true.1 hletters letter hmem)
      obtain ⟨hlength, -⟩ := of_read_word (isWordChar_of_isLetter hword hc)
        (isDecimalDigit_of_isLetter (by simpa using hdigit) hc) h hterminator
      have hbehind : startsWithWord rest = false :=
        startsWithWord_eq_false_iff.2 (takeWhile_append_eq_left [c] hlength).2
      simp [addressingMode?, hbehind] at hpoint
      exact absurd hc (by simpa using hpoint letter hmem)
    simp [addressingMode?, hletter]
  | c :: d :: more => exact hpoint

end Token

end Drama
