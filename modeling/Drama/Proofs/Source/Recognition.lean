-- SUMMARY: Which token a text starts with: words, numerals, symbols and suffixes, whatever stands behind them.
import Drama.Source.Token
import Mathlib.Data.List.Basic
import Mathlib.Data.List.TakeWhile
import Mathlib.Data.Option.Basic

/-!
# Recognition of tokens

On a text that starts with a word, recognition looks at that word only. So a word is recognised in the
same way wherever it stands, as long as no word character follows it. Numerals are read back as the
numbers that they were written for.
-/

namespace Drama

open Text

/-! ## Word characters -/

namespace Text

theorem isWordChar_of_isAlphanum {c : Char} (h : c.isAlphanum = true) : isWordChar c = true := by
  have hcode : c.toNat < 0x80 := by
    unfold Char.isAlphanum Char.isAlpha Char.isUpper Char.isLower Char.isDigit at h
    simp only [Bool.or_eq_true, Bool.and_eq_true, decide_eq_true_eq, ge_iff_le,
      UInt32.le_iff_toNat_le] at h
    change ((65 ≤ c.toNat ∧ c.toNat ≤ 90) ∨ (97 ≤ c.toNat ∧ c.toNat ≤ 122)) ∨
      (48 ≤ c.toNat ∧ c.toNat ≤ 57) at h
    omega
  simp [isWordChar, hcode, h]

theorem toNat_of_isLower {c : Char} (h : c.isLower = true) : 97 ≤ c.toNat ∧ c.toNat ≤ 122 := by
  unfold Char.isLower at h
  simpa [UInt32.le_iff_toNat_le] using h

theorem digitValue?_of_isDigit {c : Char} (h : c.isDigit = true) :
    digitValue? c = some (c.toNat - '0'.toNat) := by
  have hcode : c.toNat < 0x80 := Nat.lt_of_le_of_lt (Char.isDigit_iff_toNat.1 h).2 (by decide)
  rw [digitValue?, if_pos hcode, if_pos h]
  rfl

theorem isDecimalDigit_of_isDigit {c : Char} (h : c.isDigit = true) : isDecimalDigit c = true := by
  rw [isDecimalDigit, digitValue?_of_isDigit h]
  rfl

/-- Each row of digits lies in one of the ranges of word characters. -/
theorem exists_letterRange {start : Nat} (h : start ∈ zeroDigits) :
    ∃ range ∈ letterRanges, range.1 ≤ start ∧ start + 9 ≤ range.2 := by
  have hrows : (zeroDigits.all fun start => letterRanges.any fun range =>
      Nat.ble range.1 start && Nat.ble (start + 9) range.2) = true := by decide +kernel
  simpa using List.all_eq_true.1 hrows start h

/-- Decimal digits of every script are word characters. -/
theorem isWordChar_of_isDecimalDigit {c : Char} (h : isDecimalDigit c = true) :
    isWordChar c = true := by
  unfold isDecimalDigit digitValue? at h
  split at h <;> rename_i hascii
  · have hdigit : c.isDigit = true := by
      by_contra hdigit
      simp [hdigit] at h
    exact isWordChar_of_isAlphanum (by simp [Char.isAlphanum, hdigit])
  · obtain ⟨value, hvalue⟩ := Option.isSome_iff_exists.1 h
    obtain ⟨start, hstart, hin⟩ := List.exists_of_findSome?_eq_some hvalue
    obtain ⟨range, hrange, hlow, hhigh⟩ := exists_letterRange hstart
    have hc : start ≤ c.toNat ∧ c.toNat < start + 10 := by
      by_contra hout
      simp [hout] at hin
    rw [isWordChar, if_neg hascii]
    exact List.any_eq_true.2 ⟨range, hrange, by simp; omega⟩

/-- No row of digits meets a run of characters with one capital, or holds one with several. -/
theorem zeroDigits_apart : (zeroDigits.all fun start =>
    (caseRuns.all fun run => Nat.blt run.last start || Nat.blt (start + 9) run.first) &&
      expandingCapitals.all fun entry =>
        Nat.blt entry.1 start || Nat.blt (start + 9) entry.1) = true := by
  decide +kernel

/-- Decimal digits of every script are their own capitals. -/
theorem capitals_of_isDecimalDigit {d : Char} (h : isDecimalDigit d = true) : capitals d = [d] := by
  unfold isDecimalDigit digitValue? at h
  split at h <;> rename_i hascii
  · have hdigits : ∀ code < 0x80, (Char.ofNat code).isDigit = true →
        (Char.ofNat code).toUpper = Char.ofNat code := by decide
    have hdigit : d.isDigit = true := by
      by_contra hdigit
      simp [hdigit] at h
    have hupper := hdigits d.toNat hascii
    rw [Char.ofNat_toNat] at hupper
    rw [capitals, if_pos hascii, hupper hdigit]
  · obtain ⟨value, hvalue⟩ := Option.isSome_iff_exists.1 h
    obtain ⟨start, hstart, hin⟩ := List.exists_of_findSome?_eq_some hvalue
    have hd : start ≤ d.toNat ∧ d.toNat < start + 10 := by
      by_contra hout
      simp [hout] at hin
    obtain ⟨hruns, hexpanding⟩ :=
      Bool.and_eq_true_iff.1 (List.all_eq_true.1 zeroDigits_apart start hstart)
    have hrun : caseRuns.findSome? (·.capital? d.toNat) = none := by
      refine List.findSome?_eq_none_iff.2 fun run hrun => ?_
      have hapart := List.all_eq_true.1 hruns run hrun
      simp only [Bool.or_eq_true, Nat.blt_eq] at hapart
      rw [CaseRun.capital?, if_neg]
      simp only [Bool.and_eq_true, decide_eq_true_eq]
      omega
    have hlookup : expandingCapitals.lookup d.toNat = none := by
      refine List.lookup_eq_none_iff.2 fun entry hentry => ?_
      have hapart := List.all_eq_true.1 hexpanding entry hentry
      simp only [Bool.or_eq_true, Nat.blt_eq] at hapart
      simp only [bne_iff_ne]
      omega
    rw [capitals, if_neg hascii, hrun, hlookup]

theorem mem_of_isHorizontalBlank {c : Char} (h : isHorizontalBlank c = true) :
    c ∈ [' ', '\t', '\r', '\x0c', '\x0b'] := by
  simpa [isHorizontalBlank, or_assoc] using h

theorem isWordChar_of_isHorizontalBlank {c : Char} (h : isHorizontalBlank c = true) :
    isWordChar c = false := by
  have hblanks : ([' ', '\t', '\r', '\x0c', '\x0b'].all (!isWordChar ·)) = true := by decide
  simpa using List.all_eq_true.1 hblanks c (mem_of_isHorizontalBlank h)

end Text

namespace Token

/-- The forms of a letter are that letter, a small one, and two more. -/
theorem of_isLetter {letter c : Char} (h : isLetter letter c = true) :
    c = letter ∨ c.isLower = true ∨ c = Char.ofNat 0x130 ∨ c = Char.ofNat 0x131 := by
  unfold isLetter at h
  simp only [Bool.or_eq_true, Bool.and_eq_true, beq_iff_eq] at h
  obtain hupper | ⟨-, hfurther⟩ := h
  · unfold Char.toUpper at hupper
    split at hupper
    · rename_i hlower
      refine .inr (.inl ?_)
      unfold Char.isLower
      simpa using hlower
    · exact .inl hupper
  · exact .inr (.inr hfurther)

/-- A character that is a letter in either case is a word character. -/
theorem isWordChar_of_isLetter {letter c : Char} (hletter : isWordChar letter = true)
    (h : isLetter letter c = true) : isWordChar c = true := by
  obtain rfl | hlower | rfl | rfl := of_isLetter h
  · exact hletter
  · have halpha : c.isAlpha = true := Bool.or_eq_true_iff.2 (.inr hlower)
    exact isWordChar_of_isAlphanum (Bool.or_eq_true_iff.2 (.inl halpha))
  · decide
  · decide

/-- A letter in either case is no digit. -/
theorem isDecimalDigit_of_isLetter {letter c : Char} (hletter : isDecimalDigit letter = false)
    (h : isLetter letter c = true) : isDecimalDigit c = false := by
  obtain rfl | hlower | rfl | rfl := of_isLetter h
  · exact hletter
  · obtain ⟨hlow, hhigh⟩ := toNat_of_isLower hlower
    have hdigit : ¬c.isDigit = true := fun hdigit => by
      have hnine : c.toNat ≤ 57 := (Char.isDigit_iff_toNat.1 hdigit).2
      omega
    rw [isDecimalDigit, digitValue?, if_pos (by omega), if_neg hdigit]
    rfl
  · decide
  · decide

/-! ## Leading words -/

theorem leadingWord_cons_of_word {c : Char} (h : isWordChar c = true) (rest : List Char) :
    leadingWord (c :: rest) = c :: leadingWord rest := List.takeWhile_cons_of_pos h

theorem leadingWord_of_not_startsWithWord {text : List Char} (h : startsWithWord text = false) :
    leadingWord text = [] := by
  cases text with
  | nil => rfl
  | cons c rest => exact List.takeWhile_cons_of_neg (by simpa [startsWithWord] using h)

theorem startsWithWord_leadingWord (text : List Char) :
    startsWithWord (leadingWord text) = startsWithWord text := by
  cases h : startsWithWord text with
  | false => rw [leadingWord_of_not_startsWithWord h]; rfl
  | true =>
    cases text with
    | nil => cases h
    | cons c rest =>
      have hc : isWordChar c = true := h
      rw [leadingWord_cons_of_word hc]
      exact hc

theorem leadingWord_leadingWord (text : List Char) :
    leadingWord (leadingWord text) = leadingWord text := List.takeWhile_idem

/-- A word is the leading word of a text if no word character follows it. -/
theorem leadingWord_append {word rest : List Char} (hword : ∀ c ∈ word, isWordChar c = true)
    (hrest : startsWithWord rest = false) : leadingWord (word ++ rest) = word := by
  rw [leadingWord, List.takeWhile_append_of_pos hword]
  rw [show rest.takeWhile isWordChar = [] from leadingWord_of_not_startsWithWord hrest,
    List.append_nil]

theorem register?_of_ne {c : Char} (hupper : c ≠ 'R') (hlower : c ≠ 'r') (rest : List Char) :
    register? (c :: rest) = none := by
  cases rest <;> simp [register?, hupper, hlower]

theorem register?_leadingWord (text : List Char) :
    register? (leadingWord text) = register? text := by
  match text with
  | [] => rfl
  | [c] => cases h : isWordChar c <;> simp [leadingWord, h, register?]
  | r :: d :: rest =>
    cases hr : isWordChar r with
    | false =>
      have hne (letter : Char) (hletter : isWordChar letter = true) : r ≠ letter := by
        rintro rfl
        simp [hr] at hletter
      rw [leadingWord_of_not_startsWithWord (by simpa [startsWithWord] using hr),
        register?_of_ne (hne 'R' (by decide)) (hne 'r' (by decide))]
      rfl
    | true =>
      rw [leadingWord_cons_of_word hr]
      cases hd : isWordChar d with
      | true => rw [leadingWord_cons_of_word hd, register?, register?, startsWithWord_leadingWord]
      | false =>
        have hdigit : digitValue? d = none := by
          by_contra hdigit
          have := isWordChar_of_isDecimalDigit (c := d) (Option.isSome_iff_ne_none.2 hdigit)
          simp [hd] at this
        rw [leadingWord_of_not_startsWithWord (by simpa [startsWithWord] using hd)]
        simp [register?, hdigit]

theorem condition?_leadingWord (text : List Char) :
    condition? (leadingWord text) = condition? text := by
  rw [condition?, condition?, leadingWord_leadingWord]

theorem literal?_leadingWord {text : List Char} (h : startsWithWord text = true) :
    literal? (leadingWord text) = literal? text := by
  cases text with
  | nil => rfl
  | cons c rest =>
    have hc : isWordChar c = true := h
    have hminus : (some c == some '-') = false := by
      rw [beq_eq_false_iff_ne]
      rintro ⟨rfl⟩
      exact absurd hc (by decide)
    have hdigits : (leadingWord (c :: rest)).takeWhile isDecimalDigit =
        (c :: rest).takeWhile isDecimalDigit := by
      rw [leadingWord, List.takeWhile_takeWhile]
      congr 1
      funext d
      simpa using isWordChar_of_isDecimalDigit (c := d)
    have hhead : (leadingWord (c :: rest)).head? = some c := by
      rw [leadingWord_cons_of_word hc, List.head?_cons]
    simp only [literal?, hhead, List.head?_cons, hminus, Bool.false_eq_true, if_false, hdigits]

/-- Characters that match the letters of a word one by one are word characters. -/
theorem isWordChar_of_zipWith_isLetter {letters start : List Char}
    (hletters : ∀ l ∈ letters, isWordChar l = true) (hlength : start.length = letters.length)
    (h : (letters.zipWith isLetter start).all id = true) : ∀ c ∈ start, isWordChar c = true := by
  induction letters generalizing start with
  | nil => simp [List.length_eq_zero_iff.1 hlength]
  | cons l letters ih =>
    cases start with
    | nil => simp
    | cons c start =>
      simp only [List.zipWith_cons_cons, List.all_cons, id, Bool.and_eq_true] at h
      simp only [List.forall_mem_cons] at hletters ⊢
      exact ⟨isWordChar_of_isLetter hletters.1 h.1, ih hletters.2 (by simpa using hlength) h.2⟩

/-- The word that ends a program is looked for in the leading word. -/
theorem programTerminator?_of_leadingWord {text : List Char}
    (h : programTerminator? (leadingWord text) = none) : programTerminator? text = none := by
  by_contra hsome
  have hfound : (text.take terminatorWord.length).length = terminatorWord.length ∧
      (terminatorWord.zipWith isLetter (text.take terminatorWord.length)).all id = true := by
    by_contra hnot
    exact hsome (if_neg (by simpa using hnot))
  have hstart : (leadingWord text).take terminatorWord.length = text.take terminatorWord.length := by
    -- stated by `all`, since a `∀` over characters may be decided by going through all there are
    have hletters : terminatorWord.all isWordChar = true := by decide
    have hwords := isWordChar_of_zipWith_isLetter (List.all_eq_true.1 hletters) hfound.1 hfound.2
    calc (leadingWord text).take terminatorWord.length
        = (leadingWord (text.take terminatorWord.length ++
            text.drop terminatorWord.length)).take terminatorWord.length := by
          rw [List.take_append_drop]
      _ = text.take terminatorWord.length := by
          rw [leadingWord, List.takeWhile_append_of_pos hwords,
            List.take_append_of_le_length hfound.1.ge, List.take_of_length_le hfound.1.le]
  rw [programTerminator?, hstart, if_pos (by simpa using hfound)] at h
  cases h

/-! ## Words -/

theorem of_ofSymbol? {c : Char} {token : Token} (h : ofSymbol? c = some token) :
    isWordChar c = false ∧ c ≠ '.' ∧ token.kind ≠ .identifier ∧ token.kind ≠ .unrecognised := by
  unfold ofSymbol? at h
  split at h <;> cases h <;> decide

theorem symbol?_of_word {c : Char} (h : isWordChar c = true) (rest : List Char) :
    symbol? (c :: rest) = none := by
  have hnone : ofSymbol? c = none := by
    by_contra hsome
    obtain ⟨token, htoken⟩ := Option.ne_none_iff_exists'.1 hsome
    simp [(of_ofSymbol? htoken).1] at h
  simp [symbol?, hnone]

theorem addressingMode?_of_ne {c : Char} (h : c ≠ '.') (rest : List Char) :
    addressingMode? (c :: rest) = none := by
  unfold addressingMode?
  split
  · rename_i heq
    exact absurd (List.cons.inj heq).1 h
  · rfl

theorem comment?_of_ne {c : Char} (h : c ≠ '|') (rest : List Char) :
    comment? (c :: rest) = none := by
  unfold comment?
  split
  · rename_i heq
    exact absurd (List.cons.inj heq).1 h
  · rfl

/-- Recognition looks at the leading word only, unless that ends the program. -/
theorem read_leadingWord {text : List Char} (h : startsWithWord text = true)
    (hterminator : programTerminator? (leadingWord text) = none) :
    read text = read (leadingWord text) := by
  cases text with
  | nil => cases h
  | cons c rest =>
    have hc : isWordChar c = true := h
    have hcons := leadingWord_cons_of_word hc rest
    have hpoint : c ≠ '.' := by
      rintro rfl
      exact absurd hc (by decide)
    have hbar : c ≠ '|' := by
      rintro rfl
      exact absurd hc (by decide)
    have hidentifier : identifier? (leadingWord (c :: rest)) = identifier? (c :: rest) := by
      rw [identifier?, identifier?, leadingWord_leadingWord]
    rw [read, read, register?_leadingWord, condition?_leadingWord, literal?_leadingWord h,
      programTerminator?_of_leadingWord hterminator, hterminator, hidentifier, hcons,
      addressingMode?_of_ne hpoint, addressingMode?_of_ne hpoint, symbol?_of_word hc,
      symbol?_of_word hc, comment?_of_ne hbar, comment?_of_ne hbar]

/-- A word is recognised in the same way wherever it stands. -/
theorem read_word_append {word rest : List Char} (hword : ∀ c ∈ word, isWordChar c = true)
    (hne : word ≠ []) (hterminator : programTerminator? word = none)
    (hrest : startsWithWord rest = false) : read (word ++ rest) = read word := by
  have hleading := leadingWord_append hword hrest
  have hstarts : startsWithWord (word ++ rest) = true := by
    cases word with
    | nil => exact absurd rfl hne
    | cons c word => exact hword c (by simp)
  rw [read_leadingWord hstarts (by rwa [hleading]), hleading]

/-! ## Symbols and suffixes -/

/-- A text that starts with no word is a literal or something that its first character decides. -/
theorem read_of_not_startsWithWord {text : List Char} (h : startsWithWord text = false) :
    read text = match literal? text with
      | some result => result
      | none => .ok ((addressingMode? text <|> symbol? text <|> comment? text).getD
          (.unrecognised, 1)) := by
  have hleading := leadingWord_of_not_startsWithWord h
  have hregister : register? text = none := by
    rw [← register?_leadingWord, hleading]
    rfl
  have hcondition : condition? text = none := by
    rw [← condition?_leadingWord, hleading]
    decide
  have hterminator : programTerminator? text = none := by
    apply programTerminator?_of_leadingWord
    rw [hleading]
    decide
  have hidentifier : identifier? text = none := by
    rw [identifier?, hleading]
    rfl
  simp only [read, hregister, hcondition, hterminator, hidentifier]
  cases literal? text <;> simp

theorem literal?_of_not_digit {c : Char} {rest : List Char} (hc : isDecimalDigit c = false)
    (hrest : c = '-' → ∀ d ∈ rest.head?, isDecimalDigit d = false) : literal? (c :: rest) = none := by
  have hdigits : (if ((c :: rest).head? == some '-') = true then (c :: rest).drop 1
      else c :: rest).takeWhile isDecimalDigit = [] := by
    split
    · rename_i hminus
      cases rest with
      | nil => rfl
      | cons d rest =>
        have hd := hrest (by simpa using hminus) d rfl
        exact List.takeWhile_cons_of_neg (by simpa using hd)
    · exact List.takeWhile_cons_of_neg (by simpa using hc)
  simp only [literal?, hdigits, List.isEmpty_nil, if_true]

/-- A symbol is recognised as such, but for a minus sign before a digit. -/
theorem read_symbol {c : Char} {token : Token} (h : ofSymbol? c = some token) {rest : List Char}
    (hrest : c = '-' → ∀ d ∈ rest.head?, isDecimalDigit d = false) :
    read (c :: rest) = .ok (token, 1) := by
  obtain ⟨hword, hpoint, -⟩ := of_ofSymbol? h
  have hdigit : isDecimalDigit c = false := by
    by_contra hdigit
    have := isWordChar_of_isDecimalDigit (c := c) (by simpa using hdigit)
    simp [hword] at this
  rw [read_of_not_startsWithWord (by simpa [startsWithWord] using hword),
    literal?_of_not_digit hdigit hrest]
  simp [addressingMode?_of_ne hpoint, symbol?, h]

/-- No lexeme starts with a blank. -/
theorem read_of_isHorizontalBlank {c : Char} (h : isHorizontalBlank c = true) (rest : List Char) :
    read (c :: rest) = .ok (.unrecognised, 1) := by
  have hblanks : ([' ', '\t', '\r', '\x0c', '\x0b'].all fun b => decide (
      isDecimalDigit b = false ∧ b ≠ '-' ∧ b ≠ '.' ∧ b ≠ '|' ∧ ofSymbol? b = none)) = true := by
    decide
  obtain ⟨hdigit, hminus, hpoint, hbar, hsymbol⟩ :=
    of_decide_eq_true (List.all_eq_true.1 hblanks c (mem_of_isHorizontalBlank h))
  rw [read_of_not_startsWithWord (by simpa [startsWithWord] using isWordChar_of_isHorizontalBlank h),
    literal?_of_not_digit hdigit fun h => absurd h hminus]
  simp [addressingMode?_of_ne hpoint, comment?_of_ne hbar, symbol?, hsymbol]

/-- The suffix of a mode is recognised if no word character follows it. -/
theorem read_suffix (mode : AddressingMode) {rest : List Char} (hrest : startsWithWord rest = false) :
    read ('.' :: mode.letter :: rest) = .ok (.addressingMode (some mode), 2) := by
  have hmode : addressingMode? ('.' :: mode.letter :: rest) =
      some (.addressingMode (some mode), 2) := by
    have hletter : modeLetters.any (isLetter · mode.letter) = true ∧
        AddressingMode.ofLetter? mode.letter = some mode := by
      cases mode <;> decide
    simp [addressingMode?, hletter, hrest]
  rw [read_of_not_startsWithWord rfl, literal?_of_not_digit (by decide) (by simp)]
  simp [hmode]

end Token

/-! ## Numerals -/

namespace Numeral

theorem toList_toString_ofNat (n : Nat) : (toString (n : Int)).toList = Nat.toDigits 10 n := by
  rw [Int.toString_eq_repr, Int.repr_eq_if, if_pos (Int.natCast_nonneg n), Int.toNat_natCast,
    Nat.repr_eq_ofList_toDigits, String.toList_ofList]

theorem toList_toString_negSucc (n : Nat) :
    (toString (Int.negSucc n)).toList = '-' :: Nat.toDigits 10 (n + 1) := by
  rw [Int.toString_eq_repr, Int.repr_eq_if, if_neg (Int.not_le.2 (Int.negSucc_lt_zero n)),
    Int.neg_negSucc, Int.toNat_natCast, Nat.repr_eq_ofList_toDigits, String.toList_append,
    String.toList_ofList, String.toList_ofList]
  rfl

theorem isDecimalDigit_of_mem_toDigits {n : Nat} {c : Char} (h : c ∈ Nat.toDigits 10 n) :
    isDecimalDigit c = true :=
  isDecimalDigit_of_isDigit (Nat.isDigit_of_mem_toDigits (by decide) (by decide) h)

theorem exists_toDigits (n : Nat) :
    ∃ d more, Nat.toDigits 10 n = d :: more ∧ d.isDigit = true := by
  obtain ⟨d, more, hdigits⟩ := List.exists_cons_of_ne_nil (@Nat.toDigits_ne_nil n 10)
  have hd : d ∈ Nat.toDigits 10 n := by
    rw [hdigits]
    exact List.mem_cons_self
  exact ⟨d, more, hdigits, Nat.isDigit_of_mem_toDigits (by decide) (by decide) hd⟩

/-- The digits of a number have the values that they are written for. -/
theorem filterMap_toDigits (n : Nat) :
    (Nat.toDigits 10 n).filterMap digitValue? = (Nat.toDigits 10 n).map fun c => c.toNat - '0'.toNat := by
  rw [List.filterMap_eq_map_iff_forall_eq_some]
  intro c hc
  exact digitValue?_of_isDigit (Nat.isDigit_of_mem_toDigits (by decide) (by decide) hc)

theorem ofDigits_toDigits (n : Nat) :
    ofDigits ((Nat.toDigits 10 n).filterMap digitValue?) = n := by
  rw [filterMap_toDigits, ofDigits, List.foldl_map, ← Nat.ofDigitChars_eq_foldl,
    Nat.ofDigitChars_ten_toDigits]

/-- Digits of a number that is not too long spell that number. -/
theorem ofSignedDigits_toDigits (negative : Bool) {n : Nat} (h : n < writeBound) :
    ofSignedDigits negative ((Nat.toDigits 10 n).filterMap digitValue?) =
      .ok (applySign negative n) := by
  have hpow (k : Nat) : tenPow k = 10 ^ k := rfl
  have hlength : (Nat.toDigits 10 n).length ≤ maxDigits := by
    rw [writeBound, hpow] at h
    exact (Nat.length_toDigits_le_iff (by decide) (by decide)).2 h
  rw [ofSignedDigits, ofDigits_toDigits, if_pos]
  rwa [filterMap_toDigits, List.length_map]

end Numeral

namespace Token

open Numeral

/-- Digits are read to their end if no word character follows them. -/
theorem takeWhile_toDigits_append (n : Nat) {rest : List Char} (hrest : startsWithWord rest = false) :
    (Nat.toDigits 10 n ++ rest).takeWhile isDecimalDigit = Nat.toDigits 10 n := by
  rw [List.takeWhile_append_of_pos fun _ => isDecimalDigit_of_mem_toDigits]
  cases rest with
  | nil => rw [List.takeWhile_nil, List.append_nil]
  | cons c rest =>
    have hc : ¬isDecimalDigit c = true := by
      intro hdigit
      have hword : startsWithWord (c :: rest) = true := isWordChar_of_isDecimalDigit hdigit
      simp [hrest] at hword
    rw [List.takeWhile_cons_of_neg hc, List.append_nil]

theorem literal?_toDigits {n : Nat} (h : n < writeBound) {rest : List Char}
    (hrest : startsWithWord rest = false) :
    literal? (Nat.toDigits 10 n ++ rest) =
      some (.ok (.literal n, (Nat.toDigits 10 n).length)) := by
  have hminus : ((Nat.toDigits 10 n ++ rest).head? == some '-') = false := by
    obtain ⟨d, more, hdigits, hd⟩ := exists_toDigits n
    rw [hdigits, beq_eq_false_iff_ne]
    rintro ⟨rfl⟩
    exact absurd hd (by decide)
  simp only [literal?, hminus, Bool.false_eq_true, if_false, takeWhile_toDigits_append n hrest,
    List.isEmpty_eq_false_iff.2 Nat.toDigits_ne_nil, ofSignedDigits_toDigits false h]
  rfl

theorem literal?_minus_toDigits {n : Nat} (h : n < writeBound) {rest : List Char}
    (hrest : startsWithWord rest = false) :
    literal? ('-' :: (Nat.toDigits 10 n ++ rest)) =
      some (.ok (.literal (-n), (Nat.toDigits 10 n).length + 1)) := by
  simp only [literal?, List.head?_cons, BEq.rfl, if_true, List.drop_one, List.tail_cons,
    takeWhile_toDigits_append n hrest, List.isEmpty_eq_false_iff.2 Nat.toDigits_ne_nil,
    ofSignedDigits_toDigits true h]
  rfl

end Token

namespace Condition

/-- The letters that names of conditions start with. -/
def initials : List Char := ['N', 'P', 'G', 'K']

/-- No condition has a name that starts with another letter. -/
theorem named?_of_capitals {c d : Char} (hc : Text.capitals c = [d]) (hd : d ∉ initials)
    (rest : List Char) : named? (c :: rest) = none := by
  have hupper : Text.toUpper (c :: rest) = d :: Text.toUpper rest := by
    rw [Text.toUpper, List.flatMap_cons, hc]
    rfl
  have hne (name : String) (hname : name.toList.head?.any initials.contains = true) :
      (String.ofList (Text.toUpper (c :: rest)) == name) = false := by
    rw [beq_eq_false_iff_ne]
    rintro rfl
    rw [String.toList_ofList, hupper, List.head?_cons, Option.any_some, List.contains_iff_mem] at hname
    exact hd hname
  rw [named?, List.find?_eq_none]
  intro condition _
  rw [hasName, hne _ (by cases condition <;> decide), hne _ (by cases condition <;> decide)]
  decide

theorem named?_of_isDecimalDigit {d : Char} (h : isDecimalDigit d = true) (rest : List Char) :
    named? (d :: rest) = none := by
  refine named?_of_capitals (Text.capitals_of_isDecimalDigit h) (fun hd => ?_) rest
  have hinitials : (initials.all fun c => !isDecimalDigit c) = true := by decide
  simpa [h] using List.all_eq_true.1 hinitials d hd

end Condition

namespace Token

open Numeral

theorem register?_of_isDecimalDigit {d : Char} (h : isDecimalDigit d = true) (rest : List Char) :
    register? (d :: rest) = none := by
  apply register?_of_ne
  · rintro rfl
    exact absurd h (by decide)
  · rintro rfl
    exact absurd h (by decide)

theorem condition?_of_isDecimalDigit {d : Char} (h : isDecimalDigit d = true) (rest : List Char) :
    condition? (d :: rest) = none := by
  rw [condition?, leadingWord_cons_of_word (isWordChar_of_isDecimalDigit h),
    Condition.named?_of_isDecimalDigit h]
  rfl

/-- A number that is not too long is read back from its numeral. -/
theorem read_literal {value : Int} (h : value.natAbs < Numeral.writeBound) {rest : List Char}
    (hrest : startsWithWord rest = false) :
    read ((toString value).toList ++ rest) =
      .ok (.literal value, (toString value).toList.length) := by
  cases value with
  | ofNat n =>
    have hbound : n < writeBound := h
    obtain ⟨d, more, hdigits, hd⟩ := exists_toDigits n
    have hliteral := literal?_toDigits hbound hrest
    rw [Int.ofNat_eq_natCast, toList_toString_ofNat]
    rw [hdigits, List.cons_append] at hliteral ⊢
    have hdecimal := isDecimalDigit_of_isDigit hd
    rw [read, register?_of_isDecimalDigit hdecimal, condition?_of_isDecimalDigit hdecimal, hliteral]
    rfl
  | negSucc n =>
    have hbound : n + 1 < writeBound := h
    have hminus : startsWithWord ('-' :: (Nat.toDigits 10 (n + 1) ++ rest)) = false := by
      rw [startsWithWord, List.head?_cons]
      decide
    rw [toList_toString_negSucc, List.cons_append, read_of_not_startsWithWord hminus,
      literal?_minus_toDigits hbound hrest]
    rfl

/-! ## Registers, conditions and identifiers -/

theorem read_register {n : Nat} (h : n ≤ 9) {rest : List Char} (hrest : startsWithWord rest = false) :
    read ('R' :: (toString n).toList ++ rest) =
      .ok (.register n, ('R' :: (toString n).toList).length) := by
  have hregisters : ∀ n ≤ 9, ('R' :: (toString n).toList).all isWordChar = true ∧
      programTerminator? ('R' :: (toString n).toList) = none ∧
      read ('R' :: (toString n).toList) =
        .ok (.register n, ('R' :: (toString n).toList).length) := by decide
  obtain ⟨hword, hterminator, hread⟩ := hregisters n h
  rw [read_word_append (List.all_eq_true.1 hword) (List.cons_ne_nil _ _) hterminator hrest, hread]

theorem read_mnemonic (c : Condition) {rest : List Char} (hrest : startsWithWord rest = false) :
    read (c.mnemonic.toList ++ rest) = .ok (.condition c, c.mnemonic.toList.length) := by
  have hword : c.mnemonic.toList.all isWordChar = true := by cases c <;> decide
  rw [read_word_append (List.all_eq_true.1 hword) (by cases c <;> decide) (by cases c <;> decide) hrest]
  cases c <;> decide

/-! ### Kinds of tokens -/

theorem kind_of_register? {text : List Char} {found : Token × Nat} (h : register? text = some found) :
    found.1.kind = .register := by
  unfold register? at h
  split at h
  · split at h
    · obtain ⟨number, -, rfl⟩ := Option.map_eq_some_iff.1 h
      rfl
    · cases h
  · cases h

theorem kind_of_condition? {text : List Char} {found : Token × Nat}
    (h : condition? text = some found) : found.1.kind = .condition := by
  obtain ⟨condition, -, rfl⟩ := Option.map_eq_some_iff.1 h
  rfl

theorem kind_of_literal? {text : List Char} {found : Token × Nat}
    (h : literal? text = some (.ok found)) : found.1.kind = .literal := by
  simp only [literal?] at h
  generalize Numeral.ofSignedDigits _ _ = value at h
  cases value with
  | error e => simp [Except.map] at h
  | ok value =>
    simp only [Except.map, Option.ite_none_left_eq_some, Option.some.injEq, Except.ok.injEq] at h
    rw [← h.2]
    rfl

theorem kind_of_programTerminator? {text : List Char} {found : Token × Nat}
    (h : programTerminator? text = some found) : found.1.kind = .programTerminator := by
  simp only [programTerminator?] at h
  split at h <;> cases h
  rfl

theorem kind_of_addressingMode? {text : List Char} {found : Token × Nat}
    (h : addressingMode? text = some found) : found.1.kind = .addressingMode := by
  unfold addressingMode? at h
  split at h
  · split at h <;> cases h
    rfl
  · cases h

/-- The kinds of tokens of a single character. -/
def symbolKinds : List LexemeKind :=
  [.argumentSeparator, .statementTerminator, .labelMarker, .operator, .scope]

theorem kind_of_symbol? {text : List Char} {found : Token × Nat}
    (h : symbol? text = some found) : found.1.kind ∈ symbolKinds := by
  obtain ⟨token, htoken, rfl⟩ := Option.map_eq_some_iff.1 h
  obtain ⟨c, -, htoken⟩ := Option.bind_eq_some_iff.1 htoken
  unfold ofSymbol? at htoken
  split at htoken <;> cases htoken <;> decide

theorem kind_of_comment? {text : List Char} {found : Token × Nat}
    (h : comment? text = some found) : found.1.kind = .comment := by
  unfold comment? at h
  split at h <;> cases h
  rfl

/-- Only words that end no program are identifiers. -/
theorem of_read_eq_identifier {text : List Char} {length : Nat}
    (h : read text = .ok (.identifier, length)) :
    programTerminator? text = none ∧ identifier? text = some (.identifier, length) := by
  unfold read at h
  split at h
  · rename_i found hfound
    cases h
    obtain hregister | ⟨-, hcondition⟩ := (Option.orElse_eq_some _ _ _).1 hfound
    · cases kind_of_register? hregister
    · cases kind_of_condition? hcondition
  · split at h
    · rename_i hliteral
      cases h
      cases kind_of_literal? hliteral
    · simp only [Except.ok.injEq, Option.getD_eq_iff, Option.orElse_eq_some, Prod.mk.injEq,
        reduceCtorEq, false_and, and_false, or_false] at h
      obtain hterminator | ⟨hterminator, hmode | ⟨-, hsymbol | ⟨-, hcomment | ⟨-, h⟩⟩⟩⟩ := h
      · cases kind_of_programTerminator? hterminator
      · cases kind_of_addressingMode? hmode
      · exact absurd (kind_of_symbol? hsymbol) (show LexemeKind.identifier ∉ symbolKinds by decide)
      · cases kind_of_comment? hcomment
      · exact ⟨hterminator, h⟩

end Token

end Drama
