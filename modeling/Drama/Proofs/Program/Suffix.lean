-- SUMMARY: Suffixes: the letter that one shows is that of its mode, and a command either uses a mode or is rejected.
import Drama.Proofs.Program.Layout
import Drama.Proofs.Program.Lowering
import Drama.Proofs.Source.Boundaries
import Drama.Proofs.Source.Division
import Drama.Proofs.Source.Reach
import Drama.Proofs.Source.Scan
import Drama.Proofs.Text.Ascii

/-!
# Suffixes

A suffix is a point and the letter of an addressing mode in either case. Case is understood more widely where
suffixes are recognised than where their modes are looked up: two forms of the letter `I` make a suffix, but
one of no mode, and a command with such a suffix is like one without. Every other suffix gives its mode to the
command that it is written in. A command with a mode but no address to use it on is always rejected.
-/

namespace Drama

/-! ## The letter of a suffix -/

namespace Token

/-- The forms of the letter `I` that make a suffix but belong to no mode. -/
def foreignLetters : List Char := [Char.ofNat 0x130, Char.ofNat 0x131]

/-- What the character of a suffix shows: a mode by its letter in either case, or none. -/
inductive Shows (c : Char) : Option AddressingMode → Prop
  | mode {m : AddressingMode} (h : c = m.letter ∨ c = m.letter.toUpper) : Shows c (some m)
  | foreign (h : c ∈ foreignLetters) : Shows c none

theorem Shows.not_foreign {c : Char} {m : AddressingMode} (h : Shows c (some m)) : c ∉ foreignLetters := by
  cases h with
  | mode hletter =>
    obtain rfl | rfl := hletter
    · cases m with
      | value | address | direct | indirect => decide
    · cases m with
      | value | address | direct | indirect => decide

/-- Letters are the same in both cases only if they are the same letter. -/
theorem eq_letter_of_toUpper_eq {c : Char} {m : AddressingMode} (h : c.toUpper = m.letter.toUpper) :
    c = m.letter ∨ c = m.letter.toUpper := by
  by_cases hc : Text.IsAscii c
  · refine Text.IsAscii.of_codes (p := fun c => c.toUpper = m.letter.toUpper →
      c = m.letter ∨ c = m.letter.toUpper) ?_ hc h
    cases m with
    | value | address | direct | indirect => decide
  · unfold Char.toUpper at h
    split at h
    · rename_i hlower
      have hsmall : c.toNat ≤ 122 := hlower.2
      exact absurd (Nat.lt_of_le_of_lt hsmall (by decide)) hc
    · exact .inr h

theorem shows_of_toUpper_eq {c : Char} {m : AddressingMode} (h : c.toUpper = m.letter.toUpper) :
    Shows c (AddressingMode.ofLetter? c) := by
  have hfound : AddressingMode.ofLetter? c = some m := by
    obtain rfl | rfl := eq_letter_of_toUpper_eq h
    · cases m with
      | value | address | direct | indirect => rfl
    · cases m with
      | value | address | direct | indirect => rfl
  rw [hfound]
  exact .mode (eq_letter_of_toUpper_eq h)

theorem shows_ofLetter? {c : Char} (h : modeLetters.any (isLetter · c) = true) :
    Shows c (AddressingMode.ofLetter? c) := by
  simp only [modeLetters, isLetter, List.any_cons, List.any_nil, Bool.or_eq_true, Bool.and_eq_true,
    beq_iff_eq, Char.reduceEq, Bool.false_eq_true, false_and, or_false, true_and] at h
  obtain h | h | h | h | rfl | rfl := h
  · exact shows_of_toUpper_eq (m := .value) h
  · exact shows_of_toUpper_eq (m := .address) h
  · exact shows_of_toUpper_eq (m := .direct) h
  · exact shows_of_toUpper_eq (m := .indirect) h
  · exact .foreign List.mem_cons_self
  · exact .foreign (List.mem_cons_of_mem _ List.mem_cons_self)

/-- A suffix is a point and one character, which shows the mode of the token. -/
theorem suffix_of_readFrom {t : Token} {piece rest : List Char} (h : t.ReadFrom piece rest)
    (hkind : t.kind = .addressingMode) :
    ∃ c mode, piece = ['.', c] ∧ t = .addressingMode mode ∧ Shows c mode := by
  obtain ⟨p, more, rfl, -⟩ := h.head
  have hfound := recogniser_of_read h.read_eq
  simp only [hkind] at hfound
  obtain rfl : p = '.' := by
    by_contra hpoint
    cases (addressingMode?_of_ne hpoint _).symm.trans hfound
  obtain ⟨c, behind, hmore, hletter, -, htoken⟩ := of_addressingMode? hfound
  obtain ⟨rfl, hlength⟩ := Prod.mk.inj htoken
  obtain ⟨c', rfl⟩ := List.length_eq_one_iff.1 (Nat.succ.inj hlength)
  obtain ⟨rfl, -⟩ := List.cons.inj hmore
  exact ⟨c', _, rfl, rfl, shows_ofLetter? hletter⟩

end Token

theorem Lexeme.suffix_of_lex {text : List Char} {lexemes : List Lexeme} (hlex : lex text = .ok lexemes)
    {l : Lexeme} (hl : l ∈ lexemes) (hkind : l.kind = .addressingMode) :
    ∃ c mode, l.text = ['.', c] ∧ l.token = .addressingMode mode ∧ Token.Shows c mode := by
  obtain ⟨before, others, rfl⟩ := List.append_of_mem hl
  obtain ⟨front, behind, -, -, hread, -⟩ := (lex_eq_ok_iff_scans.1 hlex).exists_split
  exact Token.suffix_of_readFrom hread hkind

/-! ## The suffix of a command -/

/-- Behind the name of a command there is at most one suffix, which gives the mode. -/
inductive CommandStatement.SuffixIn : Option AddressingMode → List Lexeme → Prop
  | absent {more : List Lexeme} (h : ∀ l ∈ more, l.kind ≠ .addressingMode) : SuffixIn none more
  | written {mode : Option AddressingMode} {l : Lexeme} {rest : List Lexeme}
      (hl : l.token = .addressingMode mode) (h : ∀ k ∈ rest, k.kind ≠ .addressingMode) :
      SuffixIn mode (l :: rest)

open Drama.Parser

namespace CommandStatement

variable {command : CommandStatement} {first l : Lexeme} {more lexemes : List Lexeme} {span : Span}

/-- There are no suffixes among arguments. -/
theorem noSuffix_of_argumentsParser {c c' : Cursor} {arguments : List WrittenArgument}
    (h : argumentsParser.run c = .ok arguments c') :
    ∃ run, c.Moves run c' ∧ ∀ l ∈ run, l.kind ≠ .addressingMode := by
  have hkeeps : Keeps WrittenArgument.lexemeKinds c argumentsParser := keeps_argumentsParser
  have hkept := hkeeps c (.refl c)
  rw [h] at hkept
  cases hkept with
  | ok hreaches =>
    obtain ⟨run, hmoves, hkinds⟩ := hreaches
    have hnone : .addressingMode ∉ WrittenArgument.lexemeKinds := by decide
    exact ⟨run, hmoves, fun l hl hkind => hnone (hkind ▸ hkinds l hl)⟩

theorem suffixIn_of_run {c c' : Cursor}
    (h : parser.run c = .ok ⟨.command command, span⟩ c') :
    ∃ first more, c.Moves (first :: more) c' ∧ span = c.spanTo c' ∧ first.kind = .identifier ∧
      SuffixIn command.mode more := by
  obtain ⟨start, c₁, hstart, h₁⟩ := of_run_bind h
  obtain ⟨name, c₂, hname, h₂⟩ := of_run_bind h₁
  obtain ⟨first, -, hfirst, hmoves⟩ := of_run_read Lexeme.only_identifier? (by decide) hname
  obtain ⟨named, c₃, hnamed, h₃⟩ := of_run_bind h₂
  cases hstart
  cases hnamed
  have hkind : first.kind = .identifier := List.mem_singleton.1 (Lexeme.only_identifier?.kind_mem hfirst)
  split at h₃
  · cases h₃
  · obtain ⟨mode, c₄, hmode, h₄⟩ := of_run_bind h₃
    obtain ⟨arguments, c₅, harguments, h₅⟩ := of_run_bind h₄
    obtain ⟨run, hbehind, hrun⟩ := noSuffix_of_argumentsParser harguments
    cases h₅
    obtain ⟨rfl, rfl⟩ | ⟨l, m, -, hl, rfl, hsuffix⟩ := of_run_readIf Lexeme.only_mode? (by decide) hmode
    · exact ⟨first, run, hmoves.toMoves.trans hbehind, rfl, hkind, .absent hrun⟩
    · have htoken : l.token = .addressingMode m := by
        unfold Lexeme.mode? at hl
        split at hl
        · cases hl
          assumption
        · cases hl
      exact ⟨first, l :: run, hmoves.toMoves.trans (hsuffix.toMoves.trans hbehind), rfl, hkind,
        .written htoken hrun⟩

end CommandStatement

theorem Statement.value_of_valueParser {c c' : Cursor} {s : Statement} (h : valueParser.run c = .ok s c') :
    ∃ value, s.body = .value value := by
  obtain ⟨start, c₁, -, h₁⟩ := of_run_bind h
  obtain ⟨value, c₂, -, h₂⟩ := of_run_bind h₁
  cases h₂
  exact ⟨value, rfl⟩

theorem Statement.allocation_of_allocationParser {c c' : Cursor} {s : Statement}
    (h : allocationParser.run c = .ok s c') : ∃ size, s.body = .allocation size := by
  obtain ⟨start, c₁, -, h₁⟩ := of_run_bind h
  obtain ⟨keyword, c₂, -, h₂⟩ := of_run_bind h₁
  split at h₂
  · cases h₂
  · obtain ⟨beforeSize, c₃, -, h₃⟩ := of_run_bind h₂
    obtain ⟨size, c₄, -, h₄⟩ := of_run_bind h₃
    split at h₄
    · cases h₄
    · cases h₄
      exact ⟨_, rfl⟩

namespace CommandStatement

variable {command : CommandStatement} {lexemes : List Lexeme} {span : Span}

/-- Only the first of the constructs gives commands. -/
theorem of_ofConstructs {c c' : Cursor}
    (h : Element.ofConstructs c = .ok (.statement ⟨.command command, span⟩, c')) :
    parser.run c = .ok ⟨.command command, span⟩ c' := by
  obtain ⟨p, hp, hrun⟩ := Element.of_firstOf h
  simp only [List.mem_cons, List.not_mem_nil, or_false] at hp
  obtain rfl | rfl | rfl | rfl := hp
  · obtain ⟨s, hs, heq⟩ := of_run_map hrun
    cases heq
    exact hs
  · obtain ⟨s, hs, heq⟩ := of_run_map hrun
    cases heq
    obtain ⟨value, hvalue⟩ := Statement.value_of_valueParser hs
    cases hvalue
  · obtain ⟨s, hs, heq⟩ := of_run_map hrun
    cases heq
    obtain ⟨size, hsize⟩ := Statement.allocation_of_allocationParser hs
    cases hsize
  · obtain ⟨-, name, heq⟩ := Element.label_of_labelParser hrun
    cases heq

/-- The command of a unit is read from a stretch of lexemes, its suffix among them. -/
theorem suffixIn_of_mem
    (h : .statement ⟨.command command, span⟩ ∈ (CompilationUnit.ofLexemes lexemes).elements) :
    ∃ first more, first :: more <:+: lexemes ∧ span = ⟨first.start, (more.getLastD first).stop⟩ ∧
      first.kind = .identifier ∧ SuffixIn command.mode more := by
  obtain ⟨run, d, d', hmoves, hconstructs⟩ := CompilationUnit.exists_ofConstructs h rfl
  obtain ⟨first, more, hmore, hspan, hkind, hsuffix⟩ := suffixIn_of_run (of_ofConstructs hconstructs)
  refine ⟨first, more, ⟨run, d'.ahead, ?_⟩, hspan.trans hmore.spanTo_eq, hkind, hsuffix⟩
  rw [List.append_assoc, ← hmore.ahead]
  exact hmoves.ahead.symm

/-! ## Commands that need no mode -/

/-- An argument with no address in it has a value whatever the symbols are. -/
theorem exists_denotes (symbols : SymbolTable) {arguments : List WrittenArgument}
    (h : ∀ e, .address e ∉ arguments) :
    ∃ values, arguments.Forall₂ (WrittenArgument.Denotes symbols) values ∧ ∀ o, .operand o ∉ values := by
  induction arguments with
  | nil => exact ⟨[], .nil, fun o => List.not_mem_nil⟩
  | cons a arguments ih =>
    obtain ⟨values, hvalues, hnone⟩ := ih fun e he => h e (List.mem_cons_of_mem a he)
    cases a with
    | register number => exact ⟨_, .cons (.register number) hvalues, fun o => by simpa using hnone o⟩
    | condition c => exact ⟨_, .cons (.condition c) hvalues, fun o => by simpa using hnone o⟩
    | address e => exact absurd List.mem_cons_self (h e)

end CommandStatement

/-- A mode is not taken where there is no operand to use it on. -/
theorem Instruction.resolve_of_noOperand {i : Instruction} {mode : Option AddressingMode}
    {values : List Argument} (hmode : mode.isSome) (hvalues : ∀ o, .operand o ∉ values) :
    ∃ error, i.resolve mode values = .error error := by
  cases h : i.resolve mode values with
  | error error => exact ⟨error, rfl⟩
  | ok command =>
    simp only [resolve] at h
    split at h
    · cases h
    · rename_i operands hoperands
      have haddress : operands.shape.hasAddress = false := by
        unfold Operands.ofArguments? at hoperands
        split at hoperands <;> cases hoperands
        case h_4 o => exact absurd (by simp) (hvalues o)
        case h_5 r o => exact absurd (by simp) (hvalues o)
        case h_6 c o => exact absurd (by simp) (hvalues o)
        all_goals rfl
      simp only [haddress, hmode, Bool.not_false, if_true] at h
      split at h
      · cases h
      · cases h

namespace CommandStatement

variable {text : List Char} {lexemes : List Lexeme} {c : CommandStatement} {span : Span}

theorem command_of_noAddress (hmode : c.mode.isSome) (h : ∀ e, .address e ∉ c.arguments) (span : Span)
    (symbols : SymbolTable) :
    ∃ error, c.command span symbols = .error ⟨.commandFormat error, some span, none⟩ := by
  obtain ⟨values, hvalues, hnone⟩ := exists_denotes symbols h
  obtain ⟨error, herror⟩ := Instruction.resolve_of_noOperand (i := c.instruction) hmode hnone
  refine ⟨error, ?_⟩
  rw [command, bind_of_eq_ok (WrittenArgument.mapM_evaluate_eq_ok_iff.2 hvalues), herror]
  rfl

/-- The mode of a command is the one that a suffix in it shows. There is none if there is no suffix, or one with
a foreign letter. A command that has a mode but no address is rejected. -/
structure KeepsSuffix (c : CommandStatement) (span : Span) (lexemes : List Lexeme) : Prop where
  suffix : ∀ l ∈ lexemes, l.span.Within span → l.kind = .addressingMode → l.token = .addressingMode c.mode
  mode : ∀ m, c.mode = some m ↔ ∃ l ∈ lexemes, l.span.Within span ∧ l.token = .addressingMode (some m)
  noMode : c.mode = none ↔ ∀ l ∈ lexemes, l.span.Within span → l.kind = .addressingMode →
    ∃ x ∈ Token.foreignLetters, l.text = ['.', x]
  rejected : c.mode.isSome → (∀ e, .address e ∉ c.arguments) → ∀ symbols,
    ∃ error, c.command span symbols = .error ⟨.commandFormat error, some span, none⟩

/-- The suffixes in the span of a command are those behind its name. -/
theorem suffix_mem_iff (horder : Lexeme.InOrder lexemes) {first l : Lexeme} {more : List Lexeme}
    (hrun : first :: more <:+: lexemes) (hfirst : first.kind = .identifier) (hkind : l.kind = .addressingMode) :
    l ∈ more ↔ l ∈ lexemes ∧ l.span.Within ⟨first.start, (more.getLastD first).stop⟩ := by
  constructor
  · intro hl
    have hmem := List.mem_cons_of_mem first hl
    have horder' := horder.sublist hrun.sublist
    exact ⟨hrun.subset hmem, horder'.start_le hmem, horder'.le_stop hmem⟩
  · rintro ⟨hl, hwithin⟩
    by_contra hnot
    have hout : l ∉ first :: more := by
      rintro hmem
      obtain rfl | hmem := List.mem_cons.1 hmem
      · cases hfirst.symm.trans hkind
      · exact hnot hmem
    exact hwithin.not_apart ⟨Nat.le_refl _, Nat.le_refl _⟩ (horder.nonempty l hl)
      (horder.apart hrun hl hout).symm

theorem SuffixIn.token_eq {mode : Option AddressingMode} {more : List Lexeme} (h : SuffixIn mode more)
    {l : Lexeme}
    (hl : l ∈ more) (hkind : l.kind = .addressingMode) : l.token = .addressingMode mode := by
  cases h with
  | absent hnone => exact absurd hkind (hnone l hl)
  | written htoken hnone =>
    obtain rfl | hl := List.mem_cons.1 hl
    · exact htoken
    · exact absurd hkind (hnone l hl)

theorem SuffixIn.exists_mem {m : AddressingMode} {more : List Lexeme} (h : SuffixIn (some m) more) :
    ∃ l ∈ more, l.token = .addressingMode (some m) := by
  cases h with
  | written htoken => exact ⟨_, List.mem_cons_self, htoken⟩

theorem keepsSuffix_of_mem (hlex : lex text = .ok lexemes)
    (h : .statement ⟨.command c, span⟩ ∈ (CompilationUnit.ofLexemes lexemes).elements) :
    c.KeepsSuffix span lexemes := by
  obtain ⟨first, more, hrun, rfl, hfirst, hsuffix⟩ := suffixIn_of_mem h
  have hwithin {l : Lexeme} := suffix_mem_iff (l := l) (lex_inOrder hlex) hrun hfirst
  have htoken : ∀ l ∈ lexemes, l.span.Within ⟨first.start, (more.getLastD first).stop⟩ →
      l.kind = .addressingMode → l.token = .addressingMode c.mode := fun l hl hspan hkind =>
    hsuffix.token_eq ((hwithin hkind).2 ⟨hl, hspan⟩) hkind
  have hmode (m : AddressingMode) : c.mode = some m ↔ ∃ l ∈ lexemes,
      l.span.Within ⟨first.start, (more.getLastD first).stop⟩ ∧ l.token = .addressingMode (some m) := by
    constructor
    · intro hm
      obtain ⟨l, hl, htoken⟩ := (hm ▸ hsuffix).exists_mem
      obtain ⟨hl, hspan⟩ := (hwithin (congrArg Token.kind htoken)).1 hl
      exact ⟨l, hl, hspan, htoken⟩
    · rintro ⟨l, hl, hspan, hl'⟩
      have heq := htoken l hl hspan (congrArg Token.kind hl')
      rw [hl'] at heq
      exact (Token.addressingMode.inj heq).symm
  refine ⟨htoken, hmode, ⟨fun hnone l hl hspan hkind => ?_, fun hforeign => ?_⟩, fun hsome hnone =>
    command_of_noAddress hsome hnone _⟩
  · obtain ⟨x, mode, htext, htoken', hshows⟩ := Lexeme.suffix_of_lex hlex hl hkind
    have heq := htoken'.symm.trans (htoken l hl hspan hkind)
    rw [Token.addressingMode.inj heq, hnone] at hshows
    cases hshows with
    | foreign hx => exact ⟨x, hx, htext⟩
  · cases hm : c.mode with
    | none => rfl
    | some m =>
      obtain ⟨l, hl, hspan, hl'⟩ := (hmode m).1 hm
      have hkind := congrArg Token.kind hl'
      obtain ⟨x, hx, htext⟩ := hforeign l hl hspan hkind
      obtain ⟨x', mode, htext', htoken', hshows⟩ := Lexeme.suffix_of_lex hlex hl hkind
      obtain rfl : x = x' := by simpa using htext.symm.trans htext'
      rw [Token.addressingMode.inj (htoken'.symm.trans hl')] at hshows
      exact absurd hx hshows.not_foreign

end CommandStatement

/-- In a program that is assembled, a command with a mode has an address to use it on. -/
theorem CompilationUnit.exists_address_of_mode {u : CompilationUnit} {p : Program} (h : u.assemble = .ok p)
    {placed : PlacedStatement} (hplaced : placed ∈ p.statements) {c : CommandStatement}
    (hbody : placed.statement.body = .command c) (hmode : c.mode.isSome) : ∃ e, .address e ∈ c.arguments := by
  by_contra hnone
  have hlaid := laidOut_of_assemble h
  have hmem : placed.statement ∈ Element.statementsIn (Element.body u.elements) := by
    rw [← hlaid.statements]
    exact List.mem_map_of_mem (Array.mem_toList_iff.2 hplaced)
  obtain ⟨i, hi⟩ := List.getElem?_of_mem hmem
  have hwords := (hlaid.words i _ hi).2
  have hstatement : placed.statement = ⟨.command c, placed.statement.span⟩ := by rw [← hbody]
  rw [hstatement] at hwords
  obtain ⟨command, w, hcommand, -⟩ := Statement.words_command.1 hwords
  obtain ⟨error, herror⟩ := CommandStatement.command_of_noAddress hmode (not_exists.1 hnone) _ p.symbols
  cases hcommand.symm.trans herror

/-- Each suffix of a text shows its mode, unless its letter is a foreign one. A command has the mode that its
suffix shows, and it is only assembled with an address if it has one. -/
theorem suffixes_kept {text : List Char} {lexemes : List Lexeme} (hlex : lex text = .ok lexemes) :
    (∀ l ∈ lexemes, l.kind = .addressingMode →
      ∃ c mode, l.text = ['.', c] ∧ l.token = .addressingMode mode ∧ Token.Shows c mode) ∧
    (∀ c span, .statement ⟨.command c, span⟩ ∈ (CompilationUnit.ofLexemes lexemes).elements →
      c.KeepsSuffix span lexemes) ∧
    ∀ p, (CompilationUnit.ofLexemes lexemes).assemble = .ok p → ∀ placed ∈ p.statements, ∀ c : CommandStatement,
      placed.statement.body = .command c → c.mode.isSome → ∃ e, .address e ∈ c.arguments :=
  ⟨fun _ => Lexeme.suffix_of_lex hlex, fun _ _ => CommandStatement.keepsSuffix_of_mem hlex,
    fun _ hassemble _ hplaced _ => CompilationUnit.exists_address_of_mode hassemble hplaced⟩

/-- A suffix with a capital letter, and one on a command without an address, which is not assembled. -/
theorem suffixes_kept_of_capital :
    ∃ lexemes, lex "HIA.I R1, 5\nSTP.d".toList = .ok lexemes ∧
      lexemes.filterMap Lexeme.mode? = [some .indirect, some .direct] ∧
      ((∀ l ∈ lexemes, l.kind = .addressingMode →
        ∃ c mode, l.text = ['.', c] ∧ l.token = .addressingMode mode ∧ Token.Shows c mode) ∧
      (∀ c span, .statement ⟨.command c, span⟩ ∈ (CompilationUnit.ofLexemes lexemes).elements →
        c.KeepsSuffix span lexemes) ∧
      ∀ p, (CompilationUnit.ofLexemes lexemes).assemble = .ok p →
        ∀ placed ∈ p.statements, ∀ c : CommandStatement, placed.statement.body = .command c →
          c.mode.isSome → ∃ e, .address e ∈ c.arguments) := by
  obtain ⟨lexemes, hlex, hmodes⟩ : ∃ lexemes, lex "HIA.I R1, 5\nSTP.d".toList = .ok lexemes ∧
      lexemes.filterMap Lexeme.mode? = [some .indirect, some .direct] := ⟨_, rfl, rfl⟩
  exact ⟨lexemes, hlex, hmodes, suffixes_kept hlex⟩

/-- The dotless letter makes a suffix, but no mode is found for it. The command is assembled as if nothing were
written behind its name, although it takes no mode. -/
theorem suffix_lost_of_dotless_letter :
    ∃ lexemes p, lex ['S', 'T', 'P', '.', Char.ofNat 0x131] = .ok lexemes ∧
      lexemes.map Lexeme.token = [.identifier, .addressingMode none] ∧
      (CompilationUnit.ofLexemes lexemes).assemble = .ok p ∧
      p.words.toList.map (·.raw) = [9900000000] := by
  refine ⟨_, _, rfl, rfl, rfl, ?_⟩
  decide +kernel

end Drama
