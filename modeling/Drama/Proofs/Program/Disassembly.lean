-- SUMMARY: The text of a command assembles to the word of the command.
import Drama.Proofs.Command.Decoding
import Drama.Proofs.Program.Layout
import Drama.Proofs.Source.RoundTrip
import Drama.Proofs.Source.Stretch

/-!
# Disassembly

The text of a command is what is printed of a command statement whose arguments are written out in full.
So it is read back as such a statement, which resolves to the command and assembles to its word. None of its
lexemes ends a line, so it is a single line.
-/

namespace Drama

/-! ## Commands as statements -/

/-- An operand as an address of a single term. -/
def Operand.written (o : Operand) : WrittenArgument := .address ⟨[.literal o.base], o.index, .none⟩

namespace Operands

/-- The operands as the arguments that they are resolved from. -/
def arguments : Operands → List Argument
  | .nullary => []
  | .register r => [.register r]
  | .registers r s => [.register r, .register s]
  | .address _ o => [.operand o]
  | .registerAddress r _ o => [.register r, .operand o]
  | .conditionAddress c _ o => [.condition c, .operand o]

theorem arguments_inRange {operands : Operands} (h : operands.InRange) :
    ∀ a ∈ operands.arguments, a.InRange := by
  cases operands with
  | nullary => exact List.forall_mem_nil _
  | register | address => exact List.forall_mem_singleton.2 h
  | registers | registerAddress => exact List.forall_mem_cons.2 ⟨h.1, List.forall_mem_singleton.2 h.2⟩
  | conditionAddress => exact List.forall_mem_cons.2 ⟨trivial, List.forall_mem_singleton.2 h⟩

theorem operand?_of_mem {operands : Operands} {o : Operand} (h : .operand o ∈ operands.arguments) :
    operands.operand? = some o := by
  cases operands with
  | nullary | register | registers => simp [arguments] at h
  | address mode o' | registerAddress r mode o' | conditionAddress c mode o' =>
    obtain rfl : o = o' := by simpa [arguments] using h
    rfl

end Operands

/-- An argument as it stands in source text. -/
def Argument.written : Argument → WrittenArgument
  | .register r => .register r.toNat
  | .condition c => .condition c
  | .operand o => o.written

/-- A command as the statement that it stands for. -/
def Command.written (c : Command) : CommandStatement :=
  ⟨c.instruction, c.operands.mode?, c.operands.arguments.map Argument.written, .none⟩

/-! ## Text of commands -/

/-- The base of an operand, if there is one, can be written down. -/
def Operands.Writable (operands : Operands) : Prop :=
  ∀ o ∈ operands.operand?, o.base.natAbs < Numeral.writeBound

theorem Operand.print_written (o : Operand) :
    o.written.print = (toString o.base).toList ++ o.index.toList.flatMap Index.print := by
  simp [written, WrittenArgument.print, AddressExpression.print, Term.print]

theorem Operand.text_eq {o : Operand} (h : o.base.natAbs < Numeral.writeBound) :
    o.text = .ok (String.ofList o.written.print) := by
  rw [print_written]
  obtain ⟨base, index⟩ := o
  refine (bind_of_eq_ok (Numeral.write_of_lt h) _).trans ?_
  cases index with
  | none => exact congrArg Except.ok (by simp)
  | some index =>
    refine congrArg Except.ok (String.toList_inj.1 ?_)
    simp only [String.toList_append, String.toList_ofList, Option.toList_some, List.flatMap_singleton,
      Index.print, List.append_assoc]
    rfl

theorem registerText_eq {r : Int} (h : IsRegister r) :
    s!"R{r}" = String.ofList (WrittenArgument.print (.register r.toNat)) := by
  obtain ⟨n, rfl⟩ := Int.eq_ofNat_of_zero_le h.1
  apply String.toList_inj.1
  rw [String.toList_append, String.toList_ofList]
  rfl

theorem Operands.texts_eq {operands : Operands} (hrange : operands.InRange)
    (hwritable : operands.Writable) :
    operands.texts = .ok (operands.arguments.map fun a => String.ofList a.written.print) := by
  have haddress {o : Operand} (ho : operands.operand? = some o) :
      o.text = .ok (String.ofList o.written.print) := Operand.text_eq (hwritable o ho)
  cases operands with
  | nullary => rfl
  | register r => exact congrArg Except.ok (congrArg ([·]) (registerText_eq hrange))
  | registers r s =>
    exact congrArg Except.ok (congrArg₂ (fun a b => [a, b]) (registerText_eq hrange.1)
      (registerText_eq hrange.2))
  | address mode o => exact bind_of_eq_ok (haddress rfl) _
  | registerAddress r mode o =>
    refine (bind_of_eq_ok (haddress rfl) _).trans ?_
    rw [registerText_eq hrange.1]
    rfl
  | conditionAddress c mode o =>
    refine (bind_of_eq_ok (haddress rfl) _).trans ?_
    rw [← String.ofList_toList (s := c.mnemonic)]
    rfl

namespace Command

/-- The text of a command is what is printed of its statement. -/
theorem text_eq {c : Command} (hrange : c.operands.InRange) (hwritable : c.operands.Writable) :
    c.text = .ok (String.ofList c.written.print) := by
  rw [text, Operands.texts_eq hrange hwritable, CommandStatement.print, String.ofList_toList, written,
    List.map_map]
  rfl

theorem printable_written {c : Command} (h : c.Valid) (hwritable : c.operands.Writable) :
    c.written.Printable := by
  refine ⟨h.standard, List.forall_mem_map.2 fun a ha => ?_⟩
  have hrange := Operands.arguments_inRange h.inRange a ha
  cases a with
  | register r => exact Int.toNat_le.2 hrange.2
  | condition condition => exact trivial
  | operand o =>
    have hbase := hwritable o (Operands.operand?_of_mem ha)
    exact ⟨List.forall_mem_singleton.2 hbase, List.cons_ne_nil _ _, rfl, hrange⟩

end Command

/-! ## Commands are on one line -/

theorem Token.kind_operator_not_barrier (o : Operator) : (Token.operator o).kind ∉ Element.barriers := by
  simp [kind, Element.barriers]

theorem Term.kind_content_not_barrier (t : Term) : t.content.1.kind ∉ Element.barriers := by
  cases t <;> simp [content, Token.kind, Element.barriers]

theorem Index.kinds_not_barrier (i : Index) : ∀ content ∈ i.contents, content.1.kind ∉ Element.barriers := by
  obtain ⟨register, modification⟩ := i
  cases modification with
  | none => simp [contents, innerContents, Token.kind, Element.barriers]
  | some m =>
    cases m <;> simp [contents, innerContents, Modification.isPre, Operator.content, Token.kind, Element.barriers]

theorem AddressExpression.kinds_not_barrier (e : AddressExpression) :
    ∀ content ∈ e.contents, content.1.kind ∉ Element.barriers := by
  have hfurther (t : Term) : ∀ content ∈ t.furtherContents, content.1.kind ∉ Element.barriers :=
    List.forall_mem_cons.2 ⟨Token.kind_operator_not_barrier _,
      List.forall_mem_singleton.2 t.magnitude.kind_content_not_barrier⟩
  refine List.forall_mem_append.2 ⟨?_, List.forall_mem_flatMap.2 fun i _ => i.kinds_not_barrier⟩
  split
  · exact List.forall_mem_nil _
  · rename_i first others _
    exact List.forall_mem_cons.2 ⟨first.kind_content_not_barrier, List.forall_mem_flatMap.2 fun t _ => hfurther t⟩

theorem WrittenArgument.kinds_not_barrier (a : WrittenArgument) :
    ∀ content ∈ a.contents, content.1.kind ∉ Element.barriers := by
  cases a with
  | register number | condition c => exact List.forall_mem_singleton.2 (by simp [Token.kind, Element.barriers])
  | address e => exact e.kinds_not_barrier

/-- What is printed of a command has no lexeme that ends a line. -/
theorem CommandStatement.kinds_not_barrier (c : CommandStatement) :
    ∀ content ∈ c.contents, content.1.kind ∉ Element.barriers := by
  have hname : Token.identifier.kind ∉ Element.barriers := by decide
  have hmode : ∀ content ∈ c.mode.toList.map AddressingMode.content, content.1.kind ∉ Element.barriers :=
    List.forall_mem_map.2 fun m _ => by simp [AddressingMode.content, Token.kind, Element.barriers]
  refine List.forall_mem_cons.2 ⟨hname, List.forall_mem_append.2 ⟨hmode, ?_⟩⟩
  cases c.arguments with
  | nil => exact List.forall_mem_nil _
  | cons first others =>
    refine List.forall_mem_append.2 ⟨first.kinds_not_barrier, List.forall_mem_flatMap.2 fun a _ => ?_⟩
    exact List.forall_mem_cons.2 ⟨by decide, a.kinds_not_barrier⟩

/-- The text of a command is a single line. -/
theorem Command.newline_not_mem_text {c : Command} (h : c.Valid) (hwritable : c.operands.Writable) {shown : String}
    (hshown : c.text = .ok shown) : '\n' ∉ shown.toList := by
  have hreads := CommandStatement.reads (printable_written h hwritable) .nil
  rw [List.append_nil, List.append_nil] at hreads
  obtain ⟨lexemes, hlex, hcontents⟩ := hreads.lex
  rw [text_eq h.inRange hwritable] at hshown
  rw [← Except.ok.inj hshown, String.toList_ofList]
  refine Span.newline_not_mem_of_lex hlex fun l hl => ?_
  exact c.written.kinds_not_barrier l.content (hcontents ▸ List.mem_map_of_mem hl)

/-! ## Resolving the statement of a command -/

/-- An argument has its own value, wherever it stands. -/
theorem Argument.evaluate_of_unplaced {a : Argument} (ha : a.InRange) {written : WrittenArgument}
    (h : written.unplaced = a.written.unplaced) (symbols : SymbolTable) :
    written.evaluate symbols = .ok a := by
  cases a with
  | register r =>
    cases written <;> cases h
    exact congrArg (fun r => Except.ok (register r)) (Int.toNat_of_nonneg ha.1)
  | condition c =>
    cases written <;> cases h
    rfl
  | operand o =>
    cases written with
    | register | condition => cases h
    | address e =>
      obtain ⟨terms, index, span⟩ := e
      cases h
      show Except.ok (operand ⟨0 + o.base, o.index⟩) = _
      rw [Int.zero_add]

theorem Argument.mapM_evaluate {arguments : List Argument} (hrange : ∀ a ∈ arguments, a.InRange)
    {written : List WrittenArgument}
    (h : written.map WrittenArgument.unplaced =
      (arguments.map Argument.written).map WrittenArgument.unplaced) (symbols : SymbolTable) :
    written.mapM (·.evaluate symbols) = .ok arguments := by
  induction arguments generalizing written with
  | nil =>
    rw [List.map_eq_nil_iff.1 h]
    rfl
  | cons a arguments ih =>
    rw [List.forall_mem_cons] at hrange
    cases written with
    | nil => cases h
    | cons first others =>
      obtain ⟨hfirst, hothers⟩ := List.cons.inj h
      rw [List.mapM_cons, evaluate_of_unplaced hrange.1 hfirst, ih hrange.2 hothers]
      rfl

theorem Operands.ofArguments?_arguments (operands : Operands) :
    ofArguments? (operands.mode?.getD .direct) operands.arguments = some operands := by
  cases operands <;> rfl

theorem Operands.hasAddress_eq (operands : Operands) :
    operands.shape.hasAddress = operands.mode?.isSome := by
  cases operands <;> rfl

/-- A valid command is resolved from its arguments. -/
theorem Command.Valid.resolve {c : Command} (h : c.Valid) :
    c.instruction.resolve c.operands.mode? c.operands.arguments = .ok c := by
  have haccess :
      (c.instruction.memoryOnly && !(c.operands.mode?.getD .direct).accessesMemory) = false := by
    cases honly : c.instruction.memoryOnly with
    | false => rfl
    | true =>
      cases hmode : c.operands.mode? with
      | none => rfl
      | some mode => simp [h.accesses honly mode hmode]
  simp only [Instruction.resolve, Operands.ofArguments?_arguments, h.accepted, Operands.hasAddress_eq,
    haccess]
  cases hmode : c.operands.mode? <;> simp

/-- A statement that is the one of a command up to places stands for the command. -/
theorem Command.Valid.command_of_unplaced {c : Command} (h : c.Valid) {written : CommandStatement}
    (hwritten : written.unplaced = c.written.unplaced) (span : Span) (symbols : SymbolTable) :
    written.command span symbols = .ok c := by
  obtain ⟨i, mode, arguments, nameSpan⟩ := written
  simp only [CommandStatement.unplaced, written, CommandStatement.mk.injEq] at hwritten
  obtain ⟨rfl, rfl, harguments, -⟩ := hwritten
  have hvalues := Argument.mapM_evaluate (Operands.arguments_inRange h.inRange) harguments symbols
  refine (bind_of_eq_ok hvalues _).trans ?_
  rw [h.resolve]
  rfl

/-! ## Assembling the text of a command -/

/-- The text of a command is a statement alone, which stands for the command and assembles to its word. -/
structure Command.Reassembles (c : Command) (text : List Char) (w : MachineWord) : Prop where
  text_eq : c.text = .ok (String.ofList text)
  encode_eq : c.encode .standard = .ok w
  /-- The text is a single statement without unrecognised source, and the command of it is this one. -/
  statement : ∃ lexemes s, lex text = .ok lexemes ∧
    (CompilationUnit.ofLexemes lexemes).elements = [.statement s] ∧
    (CompilationUnit.ofLexemes lexemes).unrecognised = [] ∧ s.command? [] = some (.ok c)
  assembles : ∃ p, Assembles text p ∧ p.words = #[w]

theorem Command.Reassembles.eq_toList {c : Command} {text : List Char} {w : MachineWord}
    (h : c.Reassembles text w) {s : String} (hs : c.text = .ok s) : text = s.toList := by
  rw [h.text_eq] at hs
  rw [← Except.ok.inj hs, String.toList_ofList]

/-- A statement that is a command alone assembles to its word. -/
theorem assemble_statement {s : Statement} {w : MachineWord} (hcount : s.wordCount = 1)
    (hwords : s.words [] = .ok [w]) :
    CompilationUnit.assemble ⟨[.statement s]⟩ = .ok ⟨#[w], #[⟨0, s⟩], []⟩ := by
  have hplace : CompilationUnit.place ⟨[.statement s]⟩ = (Layout.empty.addStatement s, none) := by
    have hsize : (Layout.empty.addStatement s).size < addressSpace := by
      show 0 + s.wordCount < addressSpace
      rw [hcount]
      decide
    show (if (Layout.empty.addStatement s).size < addressSpace then _ else _) = _
    rw [if_pos hsize]
  have hlayout : CompilationUnit.layout ⟨[.statement s]⟩ = .ok (Layout.empty.addStatement s) := by
    rw [CompilationUnit.layout, hplace]
  have hall : Layout.wordsFrom [] 0 [⟨0, s⟩] = .ok [[w]] := by
    rw [Layout.wordsFrom, hwords]
    rfl
  refine (bind_of_eq_ok hlayout _).trans ?_
  refine (bind_of_eq_ok hall _).trans ?_
  rfl

/-- A command statement printed alone is read as a single element, which is that statement. -/
theorem CommandStatement.exists_lex_print {s : CommandStatement} (h : s.Printable) :
    ∃ lexemes written span, lex s.print = .ok lexemes ∧
      (CompilationUnit.ofLexemes lexemes).elements = [.statement ⟨.command written, span⟩] ∧
      written.unplaced = s.unplaced := by
  have hprintable : ∀ e ∈ [Element.statement ⟨.command s, .none⟩], e.Printable :=
    List.forall_mem_singleton.2 h
  obtain ⟨lexemes, hlex, hread⟩ := Element.exists_lex_printLines hprintable
  have hprint : Element.printLines [.statement ⟨.command s, .none⟩] = s.print :=
    List.intercalate_singleton ..
  rw [hprint] at hlex
  obtain ⟨e, helements, he⟩ := List.map_eq_singleton_iff.1 hread
  cases e with
  | statement read =>
    obtain ⟨body, span⟩ := read
    cases body with
    | command written =>
      refine ⟨lexemes, written, span, hlex, helements, ?_⟩
      simpa [Element.unplaced, Statement.Body.unplaced] using he
    | value | allocation => cases he
  | label | comment | terminator | unrecognised => cases he

/-- The text of a valid command whose base can be written down assembles to the word of the command. -/
theorem Command.Valid.reassembles {c : Command} (h : c.Valid) (hwritable : c.operands.Writable) :
    ∃ text w, c.Reassembles text w := by
  obtain ⟨-, w, -, -, hencode, -⟩ := h.exists_encode
  obtain ⟨lexemes, written, span, hlex, helements, hwritten⟩ :=
    CommandStatement.exists_lex_print (printable_written h hwritable)
  have hunit : CompilationUnit.ofLexemes lexemes = ⟨[.statement ⟨.command written, span⟩]⟩ :=
    congrArg CompilationUnit.mk helements
  have hcommand := h.command_of_unplaced hwritten span []
  have hwords : Statement.words ⟨.command written, span⟩ [] = .ok [w] := by
    refine (bind_of_eq_ok hcommand _).trans ?_
    rw [hencode]
    rfl
  refine ⟨c.written.print, w, text_eq h.inRange hwritable, hencode,
    ⟨lexemes, _, hlex, helements, ?_, congrArg some hcommand⟩,
    ⟨⟨#[w], #[⟨0, ⟨.command written, span⟩⟩], []⟩, ⟨lexemes, hlex, ?_⟩, rfl⟩⟩
  · rw [hunit]
    rfl
  · rw [hunit]
    exact assemble_statement rfl hwords

/-- The signed reading of a word has no more digits than the word. -/
theorem Word.natAbs_signed_le {n : Nat} (w : Word n) : w.signed.natAbs ≤ tenPow n := by
  have hlt := w.raw_lt
  unfold signed
  split <;> omega

theorem Operands.writable_narrow (operands : Operands) : operands.narrow.Writable := by
  have hbase (o : Operand) : o.narrow.base.natAbs < Numeral.writeBound :=
    calc o.narrow.base.natAbs ≤ tenPow 4 := Word.natAbs_signed_le _
      _ < tenPow 5 := by decide
      _ ≤ Numeral.writeBound := tenPow_le (by decide)
  intro o ho
  cases operands <;> cases ho <;> exact hbase _

/-- What is decoded can be written down. -/
theorem InstructionSet.writable_of_decode {w : MachineWord} {c : Command}
    (h : standard.decode w = .ok c) : c.operands.Writable := by
  obtain ⟨-, -, hread⟩ := readFrom_of_decode h
  rw [← hread.normal]
  unfold Command.normalForm
  split
  · exact nofun
  · exact c.operands.writable_narrow

/-- The text of every command that resolution builds, of a base that can be written down, and the text of
every command that a word decodes to assemble to the word of the command. -/
theorem reassemble_text :
    (∀ i ∈ InstructionSet.standard.entries, ∀ (mode : Option AddressingMode) (arguments : List Argument),
      (∀ a ∈ arguments, a.InRange) → ∀ c, i.resolve mode arguments = .ok c → c.operands.Writable →
        ∃ text w, c.Reassembles text w) ∧
    ∀ w c, InstructionSet.standard.decode w = .ok c → ∃ text w', c.Reassembles text w' := by
  constructor
  · intro i hi mode arguments hargs c h hwritable
    exact (Instruction.resolve_valid hi hargs h).2.reassembles hwritable
  · intro w c h
    obtain ⟨-, -, hread⟩ := InstructionSet.readFrom_of_decode h
    exact hread.valid.reassembles (InstructionSet.writable_of_decode h)

/-- A base that does not fit the word comes back too; only the word is the one of a smaller base. -/
theorem reassemble_text_of_large_base :
    (∃ i ∈ InstructionSet.standard.entries, ∃ c,
      i.resolve (some .indirect)
          [.register 1, .operand ⟨-20005, some ⟨2, some .preDecrement⟩⟩] = .ok c ∧
        c.Reassembles "HIA.i R1, -20005(-R2)".toList (Word.wrap 1145129995)) ∧
    ∃ c, InstructionSet.standard.decode (Word.wrap 3221780005) = .ok c ∧
      c.Reassembles "SPR.d 5".toList (Word.wrap 3221000005) := by
  obtain ⟨hresolved, hdecoded⟩ := reassemble_text
  constructor
  · have hresolve : Instruction.resolve
        ⟨"HIA", .ofList [.registers, .registerAddress], false, .coded 11 .load none⟩ (some .indirect)
        [.register 1, .operand ⟨-20005, some ⟨2, some .preDecrement⟩⟩] = .ok _ := rfl
    refine ⟨_, by decide, _, hresolve, ?_⟩
    obtain ⟨text, w, h⟩ := hresolved _ (by decide) _ _ (by decide) _ hresolve
      fun o ho => by cases ho; decide +kernel
    obtain rfl : text = "HIA.i R1, -20005(-R2)".toList := h.eq_toList (by decide +kernel)
    obtain rfl : w = Word.wrap 1145129995 := Except.ok.inj (h.encode_eq.symm.trans rfl)
    exact h
  · have hdecode : InstructionSet.standard.decode (Word.wrap 3221780005) = .ok _ := rfl
    refine ⟨_, hdecode, ?_⟩
    obtain ⟨text, w, h⟩ := hdecoded _ _ hdecode
    obtain rfl : text = "SPR.d 5".toList := h.eq_toList (by decide +kernel)
    obtain rfl : w = Word.wrap 3221000005 := Except.ok.inj (h.encode_eq.symm.trans rfl)
    exact h

end Drama
