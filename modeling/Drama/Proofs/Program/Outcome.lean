-- SUMMARY: What becomes of a text: a program, an error of one of five kinds, or a number that is too long.
import Drama.Proofs.Program.Failure
import Drama.Proofs.Source.Scan
import Drama.Proofs.Text.Line

/-!
# Outcomes

Whatever a text is, it makes a script unless it has to do with a number of too many digits: a literal cannot be
read, or the number of all words cannot be written. A script has either a program or an error, and the error is
never one of packing digits into a word. Everything that a script is asked afterwards agrees with this.
-/

namespace Drama

open Text

/-! ## Numbers that are too long -/

/-- Why a text makes no script. -/
inductive TooLong (text : List Char) : Numeral.Error → Prop
  /-- Up to the literal, the text is divided into lexemes. -/
  | literal {before rest : List Char} {lexemes : List Lexeme} {count : Nat} (htext : text = before ++ rest)
      (hscans : Lexing.Scans rest 0 before lexemes) (hoverlong : Token.StartsOverlong rest count) :
      TooLong text (.tooManyDigits count)
  | size {lexemes : List Lexeme} (hlex : lex text = .ok lexemes)
      (hsize : Numeral.writeBound ≤ Element.wordsIn (CompilationUnit.ofLexemes lexemes).body) :
      TooLong text .notWritable

/-- A text has lexemes up to its end, or a literal that is too long. -/
theorem lex_ok_or_tooLong (text : List Char) :
    (∃ lexemes, lex text = .ok lexemes) ∨ ∃ error, lex text = .error error ∧ TooLong text error := by
  obtain ⟨before, rest, lexemes, htext, hscans, rfl | ⟨count, hoverlong, hfailure⟩⟩ :=
    Lexing.exists_scans 0 text
  · rw [List.append_nil] at htext
    exact .inl ⟨lexemes, lex_eq_ok_iff_scans.2 (htext ▸ hscans)⟩
  · have hscan : Lexing.ofText text = ⟨lexemes, some (.tooManyDigits count)⟩ := by
      rw [htext, Lexing.ofText, hscans.scan_eq, hfailure, List.append_nil]
    exact .inr ⟨_, by rw [lex, hscan], .literal htext hscans hoverlong⟩

/-- A number can be written or not, and nothing else can be the matter with it. -/
theorem Numeral.discard_write (value : Int) :
    discard (write value) = .ok () ∨ discard (write value) = .error .notWritable := by
  unfold write
  split
  · exact .inl rfl
  · exact .inr rfl

theorem Layout.checkAddresses_cases (l : Layout) :
    l.checkAddresses = .ok () ∨ l.checkAddresses = .error .notWritable := by
  unfold checkAddresses
  generalize l.symbols = symbols
  induction symbols with
  | nil => exact .inl rfl
  | cons entry symbols ih =>
    show (discard (Numeral.write entry.2) >>= fun _ => symbols.forM _) = _ ∨
      (discard (Numeral.write entry.2) >>= fun _ => symbols.forM _) = _
    obtain hwrite | hwrite := Numeral.discard_write entry.2
    · rwa [hwrite]
    · rw [hwrite]
      exact .inr rfl

theorem AssemblyError.checkMessage_cases (e : AssemblyError) :
    e.checkMessage = .ok () ∨ e.checkMessage = .error .notWritable := by
  unfold checkMessage
  split
  · exact Numeral.discard_write _
  · exact .inl rfl

/-! ## Errors -/

/-- Packing the digits of a command is never what is wrong with a statement. -/
theorem Statement.FailsWith.cause_ne_encoding {symbols : SymbolTable} {s : Statement} {e : AssemblyError}
    (h : s.FailsWith symbols e) (error : EncodingError) : e.cause ≠ .encoding error := by
  cases h <;> nofun

theorem CompilationUnit.FailsWith.cause_ne_encoding {u : CompilationUnit} {e : AssemblyError}
    (h : u.FailsWith e) (error : EncodingError) : e.cause ≠ .encoding error := by
  cases h with
  | unrecognised | duplicate | overflow => nofun
  | statement _ _ _ _ _ hfails => exact hfails.cause_ne_encoding error

theorem CompilationUnit.exists_assemble_eq_ok_iff {u : CompilationUnit}
    (hcases : u.Assemblable ∨ ∃ e, u.FailsWith e) : (∃ p, u.assemble = .ok p) ↔ u.Assemblable := by
  refine ⟨fun ⟨p, hp⟩ => hcases.resolve_right fun ⟨e, hfails⟩ => ?_, Assemblable.exists_program⟩
  cases hp.symm.trans hfails.assemble_eq

/-! ## Scripts -/

namespace Script

/-- A text with lexemes makes a script of them, unless a number cannot be written. -/
theorem ofText_cases {text : List Char} {lexemes : List Lexeme} (hlex : lex text = .ok lexemes) :
    ofText text = .ok ⟨text, lexemes, CompilationUnit.ofLexemes lexemes,
        (CompilationUnit.ofLexemes lexemes).assemble⟩ ∨
      ofText text = .error .notWritable := by
  unfold ofText
  rw [bind_of_eq_ok hlex]
  dsimp only
  obtain haddresses | haddresses := (CompilationUnit.ofLexemes lexemes).place.1.checkAddresses_cases
  · rw [haddresses]
    cases (CompilationUnit.ofLexemes lexemes).assemble with
    | ok p => exact .inl rfl
    | error e =>
      show (e.checkMessage >>= fun _ => _) = _ ∨ (e.checkMessage >>= fun _ => _) = _
      obtain hmessage | hmessage := e.checkMessage_cases
      · rw [hmessage]
        exact .inl rfl
      · rw [hmessage]
        exact .inr rfl
  · rw [haddresses]
    exact .inr rfl

/-- What holds of a script: what it was made from, that it has a program or an error but not both, and that
everything it can be asked agrees with this. -/
structure Settled (s : Script) : Prop where
  lexed : lex s.text = .ok s.lexemes
  parsed : s.unit = .ofLexemes s.lexemes
  program : s.program?.isSome ↔ s.unit.Assemblable
  error : ∀ e, s.error? = some e ↔ s.unit.FailsWith e
  exclusive : s.program?.isSome = !s.error?.isSome
  /-- Of the six kinds of errors there are, five can be the error of a script. -/
  kind : ∀ e, s.error? = some e → ∀ error, e.cause ≠ .encoding error
  described : s.describeError? = none ↔ s.program?.isSome
  /-- The line under which the error is shown is a line of the text. -/
  shown : ∀ span, s.errorSpan? = some span →
    ∃ line, (sourceLines s.text)[lineOf s.text span.start - 1]? = some line
  listed : s.listing = .error .notAssembled ↔ s.program? = none

variable (s : Script)

theorem isSome_program? : s.program?.isSome = !s.error?.isSome := by
  unfold program? error?
  cases s.outcome <;> rfl

theorem describeError?_eq_none_iff : s.describeError? = none ↔ s.program?.isSome := by
  rw [isSome_program?, describeError?, Option.map_eq_none_iff, Bool.not_eq_true', Option.isSome_eq_false_iff,
    Option.isNone_iff_eq_none]

/-- Whatever else keeps a program from being listed, it is not that there is none. -/
theorem listing_eq_notAssembled_iff : s.listing = .error .notAssembled ↔ s.program? = none := by
  unfold listing
  cases s.program? with
  | none => exact ⟨fun _ => rfl, fun _ => rfl⟩
  | some p =>
    refine ⟨fun h => ?_, nofun⟩
    cases hlisting : p.listing s.text with
    | ok lines => simp [hlisting, Except.mapError] at h
    | error error => simp [hlisting, Except.mapError] at h

theorem exists_line (text : List Char) (position : Int) :
    ∃ line, (sourceLines text)[lineOf text position - 1]? = some line := by
  have hle := lineOf_le text position
  have hpos : 0 < lineOf text position := Nat.succ_pos _
  exact ⟨_, List.getElem?_eq_getElem (by omega)⟩

variable {s}

theorem Settled.of_assemble (hlexed : lex s.text = .ok s.lexemes) (hparsed : s.unit = .ofLexemes s.lexemes)
    (houtcome : s.outcome = s.unit.assemble) : s.Settled := by
  have hcases : s.unit.Assemblable ∨ ∃ e, s.unit.FailsWith e :=
    hparsed ▸ CompilationUnit.assemblable_or_failsWith (CompilationUnit.inRange_ofLexemes hlexed)
  have herror (e : AssemblyError) : s.error? = some e ↔ s.unit.FailsWith e := by
    have hassemble : s.unit.assemble = .error e ↔ s.unit.FailsWith e :=
      ⟨CompilationUnit.failsWith_of_assemble hcases, CompilationUnit.FailsWith.assemble_eq⟩
    rw [← hassemble, ← houtcome, error?]
    cases s.outcome <;> simp
  have hprogram : s.program?.isSome ↔ s.unit.Assemblable := by
    rw [← CompilationUnit.exists_assemble_eq_ok_iff hcases, ← houtcome, program?]
    cases s.outcome <;> simp [Except.toOption]
  exact {
    lexed := hlexed
    parsed := hparsed
    program := hprogram
    error := herror
    exclusive := s.isSome_program?
    kind := fun e he => ((herror e).1 he).cause_ne_encoding
    described := s.describeError?_eq_none_iff
    shown := fun span _ => exists_line s.text span.start
    listed := s.listing_eq_notAssembled_iff }

end Script

/-- Every text makes a settled script, unless a literal or the number of all words is too long. -/
theorem script_settled_or_tooLong (text : List Char) :
    (∃ s, Script.ofText text = .ok s ∧ s.text = text ∧ s.Settled) ∨
      ∃ error, Script.ofText text = .error error ∧ TooLong text error := by
  obtain ⟨lexemes, hlex⟩ | ⟨error, hlex, hlong⟩ := lex_ok_or_tooLong text
  · obtain hscript | hscript := Script.ofText_cases hlex
    · exact .inl ⟨_, hscript, rfl, Script.Settled.of_assemble hlex rfl rfl⟩
    · refine .inr ⟨_, hscript, .size hlex (Nat.le_of_not_lt fun hsize => ?_)⟩
      have hcases := CompilationUnit.assemblable_or_failsWith (CompilationUnit.inRange_ofLexemes hlex)
      have hofText := Script.ofText_eq hlex (CompilationUnit.checkAddresses_place hsize) fun e he =>
        (CompilationUnit.failsWith_of_assemble hcases he).checkMessage hsize
      cases hofText.symm.trans hscript
  · refine .inr ⟨error, ?_, hlong⟩
    rw [Script.ofText, hlex]
    rfl

end Drama
