-- SUMMARY: Word files are read back as the words that they were written from, and a machine loaded from one runs alike.
import Drama.Program.WordFile
import Drama.Proofs.Machine.Run
import Drama.Proofs.Program.Layout
import Drama.Proofs.Source.Recognition
import Drama.Proofs.Text.Ascii
import Drama.Proofs.Text.Line

/-!
# Word files

The lines of a word file are the ten digits of each word, so what is read from it are the words that it was
written from, if there are addresses for all of them. A machine that is loaded from the word file of a program
differs from one made of the program only in what it knows of the program.
-/

namespace Drama

open Text

/-! ## Numerals -/

namespace Numeral

variable {digits : List Char}

theorem underscoresSeparate_of_not_mem (h : '_' ∉ digits) : underscoresSeparate digits = true := by
  fun_induction underscoresSeparate digits with
  | case1 => rfl
  | case2 rest => exact absurd List.mem_cons_self h
  | case3 => simp at h
  | case4 c rest _ _ ih => exact ih (List.not_mem_of_not_mem_cons h)

/-- Digits alone are read as the number that they spell, unless there are too many. -/
theorem read_digits (hdigits : ∀ c ∈ digits, c.isDigit = true) (hne : digits ≠ []) :
    read digits = ofSignedDigits false (digits.filterMap digitValue?) := by
  have hrun : ∀ c ∈ digits, isDigitOrUnderscore c = true := by
    intro c hc
    simp [isDigitOrUnderscore, isDecimalDigit_of_isDigit (hdigits c hc)]
  have hseparate : underscoresSeparate digits = true :=
    underscoresSeparate_of_not_mem fun h => absurd (hdigits _ h) (by decide)
  have hblank : digits.dropWhile isNumberBlank = digits := by
    cases digits with
    | nil => rfl
    | cons c rest =>
      have hc := (of_isDigit (hdigits c List.mem_cons_self)).1
      simp only [isBlank, Bool.or_eq_false_iff] at hc
      simp [hc.1]
  have hsign : splitSign digits = (false, digits) := by
    unfold splitSign
    split
    · exact absurd (hdigits '-' List.mem_cons_self) (by decide)
    · exact absurd (hdigits '+' List.mem_cons_self) (by decide)
    · rfl
  have htake : digits.takeWhile isDigitOrUnderscore = digits := List.takeWhile_eq_self_iff.2 hrun
  have hdrop : digits.dropWhile isDigitOrUnderscore = [] := List.dropWhile_eq_nil_iff.2 hrun
  simp only [read, hblank, hsign, htake, hdrop, hseparate, List.isEmpty_eq_false_iff.2 hne]
  cases ofSignedDigits false (digits.filterMap digitValue?) <;> rfl

theorem ofDigits_leftpad (width n : Nat) :
    ofDigits (((Nat.toDigits 10 n).leftpad width '0').filterMap digitValue?) = n := by
  have hzeros (count : Nat) (digits : List Nat) :
      ofDigits (List.replicate count 0 ++ digits) = ofDigits digits := by
    induction count with
    | zero => rfl
    | succ count ih => exact ih
  have hzero : digitValue? '0' = some 0 := by decide
  rw [List.leftpad, List.filterMap_append, List.filterMap_replicate_of_some hzero, hzeros,
    ofDigits_toDigits]

end Numeral

/-! ## Words as lines -/

namespace Word

theorem isDigit_of_mem_paddedDigits {width value : Nat} :
    ∀ c ∈ paddedDigits width value, c.isDigit = true := by
  intro c hc
  rw [paddedDigits, List.leftpad, List.mem_append] at hc
  cases hc with
  | inl hzero =>
    rw [(List.mem_replicate.1 hzero).2]
    rfl
  | inr hdigit => exact Nat.isDigit_of_mem_toDigits (by decide) (by decide) hdigit

/-- A word has as many digits as its kind. -/
theorem length_paddedDigits {n : Nat} (hn : 0 < n) (w : Word n) : (paddedDigits n w.raw).length = n := by
  have hraw : w.raw < 10 ^ n := w.raw_lt
  have hlength := (Nat.length_toDigits_le_iff (by decide) hn).2 hraw
  rw [paddedDigits, List.leftpad, List.length_append, List.length_replicate, Nat.sub_add_cancel hlength]

theorem ofInt_raw {n : Nat} (w : Word n) : ofInt n w.raw = .ok w :=
  dif_pos ⟨Int.natCast_nonneg _, w.raw_lt⟩

end Word

namespace WordFile

/-- The line of a word: its ten digits. -/
def line (w : MachineWord) : List Char := Word.paddedDigits 10 w.raw

theorem render_eq (words : List MachineWord) : render words = (words.map line).flatMap (· ++ ['\n']) := by
  simp [render, line, Word.text, List.flatMap_map]

theorem isDigit_of_mem_line {w : MachineWord} : ∀ c ∈ line w, c.isDigit = true :=
  Word.isDigit_of_mem_paddedDigits

theorem length_line (w : MachineWord) : (line w).length = 10 := w.length_paddedDigits (by decide)

theorem line_ne_nil (w : MachineWord) : line w ≠ [] :=
  List.ne_nil_of_length_pos (by rw [length_line]; decide)

theorem readWord_line (w : MachineWord) : readWord (line w) = .ok w := by
  have hcount : ((line w).filterMap digitValue?).length ≤ Numeral.maxDigits := by
    apply (List.length_filterMap_le _ _).trans
    rw [length_line]
    decide
  have hread : Numeral.read (line w) = .ok (w.raw : Int) := by
    rw [Numeral.read_digits isDigit_of_mem_line (line_ne_nil w), Numeral.ofSignedDigits, if_pos hcount, line,
      Word.paddedDigits, Numeral.ofDigits_leftpad]
    rfl
  have hword : Word.ofInt 10 (w.raw : Int) = .ok w := w.ofInt_raw
  simp only [readWord, hread]
  show (Word.ofInt 10 (w.raw : Int)).mapError _ = _
  rw [hword]
  rfl

theorem splitBy_render {isSeparator : Char → Bool} (hnewline : isSeparator '\n' = true)
    (hdigits : ∀ c : Char, c.isDigit = true → isSeparator c = false) (words : List MachineWord) :
    splitBy isSeparator (render words) = words.map line ++ [[]] := by
  have hclear : ∀ piece ∈ words.map line, ∀ c ∈ piece, isSeparator c = false := by
    intro piece hpiece c hc
    obtain ⟨w, -, rfl⟩ := List.mem_map.1 hpiece
    exact hdigits c (isDigit_of_mem_line c hc)
  rw [render_eq, splitBy_flatMap hclear hnewline]

theorem sourceLines_render (words : List MachineWord) :
    sourceLines (render words) = words.map line ++ [[]] := by
  apply splitBy_render (by decide)
  rintro c hc
  rw [beq_eq_false_iff_ne]
  rintro rfl
  exact absurd hc (by decide)

theorem splitLines_render (words : List MachineWord) :
    splitLines (render words) = words.map line ++ [[]] := by
  have hreturn : '\r' ∉ render words := by
    intro h
    simp only [render_eq, List.mem_flatMap, List.mem_map, List.mem_append, List.mem_singleton] at h
    obtain ⟨_, ⟨w, -, rfl⟩, hline | hnewline⟩ := h
    · exact absurd (isDigit_of_mem_line _ hline) (by decide)
    · exact absurd hnewline (by decide)
  rw [splitLines, normalizeNewlines_of_not_mem hreturn]
  exact splitBy_render (by decide) (fun c hc => (of_isDigit hc).2.1) words

theorem mapM_readWord_line (words : List MachineWord) : (words.map line).mapM readWord = .ok words := by
  induction words with
  | nil => rfl
  | cons w words ih =>
    rw [List.map_cons, List.mapM_cons, readWord_line, ih]
    rfl

/-- Word files are read back, unless they hold more words than there are addresses. -/
theorem read_render (words : List MachineWord) : read (render words) =
    if words.length ≤ addressSpace then .ok words else .error (.tooManyWords words.length) := by
  have hstrip : strip ∘ line = line := by
    funext w
    exact strip_of_not_blank fun c hc => (of_isDigit (isDigit_of_mem_line c hc)).1
  have hfull : ∀ piece ∈ words.map line, (!piece.isEmpty) = true := by
    intro piece hpiece
    obtain ⟨w, -, rfl⟩ := List.mem_map.1 hpiece
    simp [line_ne_nil]
  have hlines : ((splitLines (render words)).map strip).filter (!·.isEmpty) = words.map line := by
    rw [splitLines_render, List.map_append, List.map_map, hstrip, List.filter_append,
      List.filter_eq_self.2 hfull]
    exact List.append_nil _
  simp only [read, hlines, mapM_readWord_line]
  show (if words.length ≤ addressSpace then _ else _) = _
  split
  · rfl
  · rfl

end WordFile

/-! ## Machines -/

namespace Machine

/-- As many words as there are addresses are loaded from their word file. A machine loaded in this way runs like
one that is made of a program with these words, which differs in that it knows the program. -/
theorem exists_runs_of_program {p : Program} (h : p.size ≤ addressSpace) (limit : Nat) (inputs : List Int) :
    ∃ m m' : Machine, ofWords p.words.toList = .ok m ∧ (run limit inputs).run m = .ok () m' ∧
      ofProgram p = .ok (m.withProgram (some p)) ∧
      (run limit inputs).run (m.withProgram (some p)) = .ok () (m'.withProgram (some p)) := by
  have hle : p.words.toList.length ≤ addressSpace := h
  have hwords := ofWords_eq hle
  obtain ⟨-, m', -, hrun, -⟩ := exists_tracedRun limit inputs
    { empty with memory := Memory.empty.fill 0 p.words.toList }
  refine ⟨_, m', hwords, hrun, ?_, run_withProgram hrun (some p)⟩
  rw [ofProgram, hwords]
  rfl

end Machine

/-- A word file has a line of ten digits for each word, and is read back as these words, unless there are more of
them than addresses. So a machine loaded from the word file of a program that was assembled and a machine made of
that program are the same but for the program that the second one knows, and so they are after every run. -/
theorem wordFile_lossless :
    (∀ words : List MachineWord,
      sourceLines (WordFile.render words) = words.map WordFile.line ++ [[]] ∧
      WordFile.read (WordFile.render words) =
        if words.length ≤ addressSpace then .ok words else .error (.tooManyWords words.length)) ∧
    ∀ (text : List Char) (p : Program), Assembles text p → ∀ (limit : Nat) (inputs : List Int),
      ∃ words m m', WordFile.read (WordFile.render p.words.toList) = .ok words ∧
        Machine.ofWords words = .ok m ∧ (Machine.run limit inputs).run m = .ok () m' ∧
        Machine.ofProgram p = .ok { m with program := some p } ∧
        (Machine.run limit inputs).run { m with program := some p } =
          .ok () { m' with program := some p } := by
  refine ⟨fun words => ⟨WordFile.sourceLines_render words, WordFile.read_render words⟩, ?_⟩
  intro text p h limit inputs
  obtain ⟨lexemes, -, hassemble⟩ := h
  have hsize : p.size ≤ addressSpace := (CompilationUnit.laidOut_of_assemble hassemble).size_lt.le
  obtain ⟨m, m', hwords, hrun, hprogram, hrun'⟩ := Machine.exists_runs_of_program hsize limit inputs
  exact ⟨p.words.toList, m, m', (WordFile.read_render _).trans (if_pos hsize), hwords, hrun, hprogram, hrun'⟩

/-- A program that reads a word and prints it, run on one. -/
theorem wordFile_lossless_of_echo :
    ∃ p, Assembles "LEZ\nDRU\nSTP".toList p ∧ p.words.map (·.raw) = #[7100000000, 7300000000, 9900000000] ∧
      ∃ words m m', WordFile.read (WordFile.render p.words.toList) = .ok words ∧
        Machine.ofWords words = .ok m ∧ (Machine.run 10 [7]).run m = .ok () m' ∧
        Machine.ofProgram p = .ok { m with program := some p } ∧
        (Machine.run 10 [7]).run { m with program := some p } = .ok () { m' with program := some p } := by
  obtain ⟨p, h, hwords⟩ : ∃ p, Assembles "LEZ\nDRU\nSTP".toList p ∧
      p.words.map (·.raw) = #[7100000000, 7300000000, 9900000000] :=
    ⟨_, ⟨_, rfl, rfl⟩, by decide +kernel⟩
  exact ⟨p, h, hwords, wordFile_lossless.2 _ p h 10 [7]⟩

end Drama
