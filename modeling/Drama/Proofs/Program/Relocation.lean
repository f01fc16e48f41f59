-- SUMMARY: A program behind a number of reserved words: where its addresses go, and what becomes of its words.
import Drama.Proofs.Command.Displacement
import Drama.Proofs.Program.Failure
import Drama.Proofs.Program.Observation
import Drama.Proofs.Source.Recovery
import Mathlib.Tactic.Ring

/-!
# Relocation

Where words are reserved in front of a program, all of its addresses grow by their number. A sum of symbols
grows by that number once for each added symbol and shrinks by it once for each subtracted one, and so do the
address digits of the command that the sum stands in. Nothing else in the program changes.
-/

namespace Drama

variable {symbols : SymbolTable} (k : Nat)

/-! ## Symbols and sums -/

/-- Symbols further on. -/
def SymbolTable.move (symbols : SymbolTable) : SymbolTable :=
  symbols.map fun entry => (entry.1, entry.2 + k)

theorem SymbolTable.lookup_move (name : List Char) :
    (symbols.move k).lookup name = (symbols.lookup name).map (· + (k : Int)) := by
  induction symbols with
  | nil => rfl
  | cons entry symbols ih =>
    show List.lookup name ((entry.1, entry.2 + (k : Int)) :: SymbolTable.move k symbols) = _
    rw [List.lookup_cons, List.lookup_cons, ih]
    cases name == entry.1 <;> rfl

namespace Term

/-- Whether a term is an added symbol. -/
def isAdded : Term → Bool
  | .literal _ => false
  | .symbol _ positive => positive

/-- How many more symbols are added than subtracted. -/
def balance (terms : List Term) : Int := (terms.countP isAdded : Int) - terms.countP isSubtracted

theorem balance_literal (value : Int) (terms : List Term) :
    balance (.literal value :: terms) = balance terms := by
  simp [balance, isAdded, isSubtracted]

theorem balance_symbol (name : List Char) (positive : Bool) (terms : List Term) :
    balance (.symbol name positive :: terms) = balance terms + if positive then 1 else -1 := by
  simp only [balance, List.countP_cons, isAdded, isSubtracted]
  cases positive <;> simp <;> ring

end Term

namespace AddressExpression

/-- How many symbols are added. -/
def added (e : AddressExpression) : Nat := e.terms.countP Term.isAdded

/-- How many symbols are subtracted. -/
def subtracted (e : AddressExpression) : Nat := e.terms.countP Term.isSubtracted

/-- What a sum gains if all symbols in it are further on. -/
def gain (e : AddressExpression) : Int := k * ((e.added : Int) - e.subtracted)

/-- A sum that starts `d` further on and has all of its symbols further on. -/
theorem sum_move {terms : List Term} {total value : Int} (h : sum symbols total terms = .ok value)
    (d : Int) :
    sum (symbols.move k) (total + d) terms = .ok (value + (d + k * Term.balance terms)) := by
  induction terms generalizing total d with
  | nil =>
    cases h
    simp [sum, Term.balance]
  | cons t terms ih =>
    cases t with
    | literal n => rw [sum, Int.add_right_comm, ih h d, Term.balance_literal]
    | symbol name positive =>
      rw [sum] at h
      cases hlookup : symbols.lookup name with
      | none => simp [hlookup] at h
      | some address =>
        rw [hlookup] at h
        rw [sum, SymbolTable.lookup_move, hlookup, Option.map_some, Term.balance_symbol]
        cases positive with
        | true =>
          have hstart : total + d + (address + k) = total + address + (d + k) := by ring
          have hgain (b : Int) : d + k * (b + 1) = d + k + k * b := by ring
          simp only [if_true] at h ⊢
          rw [hstart, hgain, ih h]
        | false =>
          have hstart : total + d - (address + k) = total - address + (d - k) := by ring
          have hgain (b : Int) : d + k * (b + -1) = d - k + k * b := by ring
          simp only [Bool.false_eq_true, if_false] at h ⊢
          rw [hstart, hgain, ih h]

theorem evaluate_move {e : AddressExpression} {base : Int} (h : e.evaluate symbols = .ok base) :
    e.evaluate (symbols.move k) = .ok (base + e.gain k) := by
  have hsum := sum_move k h 0
  rwa [Int.add_zero, Int.zero_add] at hsum

end AddressExpression

/-! ## Arguments -/

namespace WrittenArgument

def address? : WrittenArgument → Option AddressExpression
  | .address e => some e
  | .register _ | .condition _ => none

/-- Without an address nothing depends on symbols. -/
theorem forall₂_denotes_of_no_address {symbols' : SymbolTable} {arguments : List WrittenArgument}
    {values : List Argument} (h : arguments.Forall₂ (Denotes symbols) values)
    (hnone : arguments.findSome? address? = none) : arguments.Forall₂ (Denotes symbols') values := by
  induction h with
  | nil => exact .nil
  | cons hvalue _ ih =>
    cases hvalue with
    | register number => exact .cons (.register number) (ih hnone)
    | condition c => exact .cons (.condition c) (ih hnone)
    | address => cases hnone

/-- Arguments with an address make operands that are based further on if the symbols are. -/
theorem exists_denotes_move {mode : AddressingMode} {arguments : List WrittenArgument}
    {values : List Argument} {operands : Operands} {e : AddressExpression}
    (h : arguments.Forall₂ (Denotes symbols) values)
    (hoperands : Operands.ofArguments? mode values = some operands)
    (he : arguments.findSome? address? = some e) :
    operands.operand?.isSome ∧ ∃ values', arguments.Forall₂ (Denotes (symbols.move k)) values' ∧
      Operands.ofArguments? mode values' = some (operands.displace (e.gain k)) := by
  -- Each shape has at most one address, so that the first one found is the one that is displaced.
  unfold Operands.ofArguments? at hoperands
  split at hoperands <;> cases hoperands
  case h_1 =>
    cases h
    cases he
  case h_2 =>
    obtain _ | ⟨⟨⟩, ⟨⟩⟩ := h
    cases he
  case h_3 =>
    obtain _ | ⟨⟨⟩, _ | ⟨⟨⟩, ⟨⟩⟩⟩ := h
    cases he
  case h_4 =>
    obtain _ | ⟨_ | _ | hbase, ⟨⟩⟩ := h
    cases he
    exact ⟨rfl, _, .cons (.address (e.evaluate_move k hbase)) .nil, rfl⟩
  case h_5 =>
    obtain _ | ⟨⟨number⟩, _ | ⟨_ | _ | hbase, ⟨⟩⟩⟩ := h
    cases he
    exact ⟨rfl, _, .cons (.register number) (.cons (.address (e.evaluate_move k hbase)) .nil), rfl⟩
  case h_6 c _ =>
    obtain _ | ⟨⟨⟩, _ | ⟨_ | _ | hbase, ⟨⟩⟩⟩ := h
    cases he
    exact ⟨rfl, _, .cons (.condition c) (.cons (.address (e.evaluate_move k hbase)) .nil), rfl⟩

end WrittenArgument

/-! ## Words of a statement -/

namespace Statement

/-- The address of a command that has one. -/
def address? (s : Statement) : Option AddressExpression :=
  match s.body with
  | .command c => c.arguments.findSome? WrittenArgument.address?
  | .value _ | .allocation _ => none

/-- What becomes of a word of the statement. In that of a command with an address, the address digits grow by
`k` for each added symbol and shrink by `k` for each subtracted one, modulo 10000. Others stay as they are. -/
def relocate (s : Statement) (w : MachineWord) : MachineWord :=
  match s.address? with
  | some e => w.displace (e.gain k)
  | none => w

end Statement

/-- The words of a statement where all symbols are further on. -/
theorem Statement.words_move {s : Statement} (hs : s.body.InRange) {words : List MachineWord}
    (h : s.words symbols = .ok words) :
    s.words (symbols.move k) = .ok (words.map (s.relocate k)) := by
  obtain ⟨body, span⟩ := s
  cases body with
  | value number =>
    cases h
    rfl
  | allocation size =>
    cases h
    exact congrArg Except.ok (List.map_id' _).symm
  | command c =>
    obtain ⟨command, w, hcommand, hw, rfl⟩ := words_command.1 h
    obtain ⟨values, hvalues, hresolve⟩ := CommandStatement.command_eq_ok_iff.1 hcommand
    have haddress : (Statement.mk (.command c) span).address? =
        c.arguments.findSome? WrittenArgument.address? := rfl
    rw [words_command, List.map_singleton, relocate, haddress]
    cases hexpression : c.arguments.findSome? WrittenArgument.address? with
    | none =>
      have hcommand' : c.command span (symbols.move k) = .ok command :=
        CommandStatement.command_eq_ok_iff.2
          ⟨values, WrittenArgument.forall₂_denotes_of_no_address hvalues hexpression, hresolve⟩
      exact ⟨command, w, hcommand', hw, rfl⟩
    | some e =>
      obtain ⟨hstandard, harguments⟩ := hs
      have hrange := WrittenArgument.inRange_of_denotes hvalues harguments
      obtain ⟨-, hvalid⟩ := Instruction.resolve_valid hstandard hrange hresolve
      obtain ⟨-, hoperands⟩ := Instruction.of_resolve hresolve
      obtain ⟨hoperand, values', hvalues', hoperands'⟩ :=
        WrittenArgument.exists_denotes_move k hvalues hoperands hexpression
      have hresolve' := Instruction.resolve_displace hresolve hoperands'
      exact ⟨_, _, CommandStatement.command_eq_ok_iff.2 ⟨values', hvalues', hresolve'⟩,
        Command.encode_displace hvalid hoperand hw _, rfl⟩

/-! ## Layouts behind a statement -/

def PlacedStatement.move (p : PlacedStatement) : PlacedStatement := { p with address := p.address + k }

namespace Layout

variable {l l' : Layout} (s : Statement)

/-- The layout of what stands behind a statement. -/
def behind (l : Layout) : Layout where
  statements := #[⟨0, s⟩] ++ l.statements.map (.move s.wordCount)
  symbols := l.symbols.move s.wordCount
  size := l.size + s.wordCount

theorem statements_behind : (l.behind s).statements.toList =
    ⟨0, s⟩ :: l.statements.toList.map (.move s.wordCount) := by
  rw [behind, Array.toList_append, Array.toList_map]
  rfl

theorem addStatement_empty : empty.addStatement s = empty.behind s := by
  simp [empty, addStatement, behind, SymbolTable.move]

theorem addStatement_behind (t : Statement) :
    (l.behind s).addStatement t = (l.addStatement t).behind s := by
  simp only [addStatement, behind, Array.map_push, Array.append_push, PlacedStatement.move,
    Nat.add_right_comm]

theorem addLabel_behind (name : List Char) :
    (l.behind s).addLabel name = (l.addLabel name).behind s := by
  simp [addLabel, behind, SymbolTable.move]

theorem defines_behind (name : List Char) : (l.behind s).defines name = l.defines name := by
  simp only [defines, behind, SymbolTable.lookup_move, Option.isSome_map]

/-- The first pass goes the same way behind a statement, with all that it places further on. -/
theorem extend_behind {elements : List Element} (h : l.extend elements = (l', none)) :
    (l.behind s).extend elements = (l'.behind s, none) := by
  induction elements generalizing l with
  | nil =>
    cases h
    rfl
  | cons e rest ih =>
    cases e with
    | terminator =>
      cases h
      rfl
    | statement t =>
      rw [extend, addStatement_behind]
      exact ih h
    | comment | unrecognised => exact ih h
    | label name span =>
      rw [extend] at h
      rw [extend, defines_behind, addLabel_behind]
      split at h
      · cases h
      · rename_i hfresh
        rw [if_neg hfresh]
        exact ih h

/-- The second pass over things that are placed, if the words of each are known. -/
theorem wordsFrom_map {α : Type} {items : List α} (place : α → PlacedStatement)
    {words : α → List MachineWord}
    (h : ∀ a ∈ items, (place a).statement.words symbols = .ok (words a)) (index : Nat) :
    wordsFrom symbols index (items.map place) = .ok (items.map words) := by
  induction items generalizing index with
  | nil => rfl
  | cons a items ih =>
    rw [List.forall_mem_cons] at h
    rw [List.map_cons, wordsFrom, h.1, ih h.2]
    rfl

/-- The program of what stands behind an allocation, if the words of each statement there are known. -/
theorem program_behind {words : PlacedStatement → List MachineWord}
    (h : ∀ s ∈ l.statements.toList, s.statement.words (l.symbols.move k) = .ok (words s)) (span : Span) :
    (l.behind ⟨.allocation k, span⟩).program =
      .ok ⟨(List.replicate k Word.zero ++ l.statements.toList.flatMap words).toArray,
        (l.behind ⟨.allocation k, span⟩).statements, l.symbols.move k⟩ := by
  have hothers : wordsFrom (l.symbols.move k) 1 (l.statements.toList.map (.move k)) =
      .ok (l.statements.toList.map words) := wordsFrom_map (.move k) h 1
  have hwords : wordsFrom (l.symbols.move k) 0
      (⟨0, ⟨.allocation k, span⟩⟩ :: l.statements.toList.map (.move k)) =
        .ok (List.replicate k Word.zero :: l.statements.toList.map words) := by
    rw [wordsFrom, hothers]
    rfl
  have hsymbols : (l.behind ⟨.allocation k, span⟩).symbols = l.symbols.move k := rfl
  rw [program, statements_behind, hsymbols]
  exact bind_of_eq_ok hwords _

end Layout

/-! ## Programs behind reserved words -/

namespace Program

/-- The program behind `k` words that are reserved in front of it. -/
def relocate (p : Program) : Image where
  words := (List.replicate k Word.zero ++
    p.statements.toList.flatMap fun s => (p.wordsOf s).map (s.statement.relocate k)).toArray
  addresses := 0 :: p.statements.toList.map (·.address + k)
  symbols := p.symbols.move k

end Program

namespace CompilationUnit

variable {u : CompilationUnit} {p : Program}

/-- The words of a program are those of its statements, one after the other. -/
theorem words_eq_flatMap (h : u.assemble = .ok p) :
    p.words.toList = p.statements.toList.flatMap p.wordsOf := by
  have hlaid := laidOut_of_assemble h
  obtain ⟨l, -, h⟩ := of_bind_eq_ok h
  obtain ⟨words, hwords, h⟩ := of_bind_eq_ok h
  cases h
  have hmade : Layout.wordsFrom l.symbols 0 (l.statements.toList.map id) = _ :=
    Layout.wordsFrom_map id hlaid.words_wordsOf 0
  rw [List.map_id, hwords] at hmade
  exact congrArg List.flatten (Except.ok.inj hmade)

/-- A unit is assembled behind an allocation as well, if there is room for it. -/
theorem exists_assemble_behind (h : u.assemble = .ok p) (hrange : ∀ e ∈ u.elements, e.InRange)
    (hk : p.size + k < addressSpace) (span : Span) :
    ∃ p', assemble ⟨.statement ⟨.allocation k, span⟩ :: u.elements⟩ = .ok p' ∧
      p'.image = p.relocate k := by
  have hlaid := laidOut_of_assemble h
  obtain ⟨l, hlayout, h⟩ := of_bind_eq_ok h
  obtain ⟨words, -, h⟩ := of_bind_eq_ok h
  obtain ⟨hstatements, hsymbols⟩ : p.statements = l.statements ∧ p.symbols = l.symbols := by
    cases h
    exact ⟨rfl, rfl⟩
  obtain ⟨hrecognised, hextend, -⟩ := layout_eq_ok_iff.1 hlayout
  have hsize : l.size + k < addressSpace := by
    have hplaced : l.size = 0 + _ := (Layout.places_of_extend hextend).size
    rwa [hplaced, Nat.zero_add, ← hlaid.size_eq]
  have hlayout' : layout ⟨.statement ⟨.allocation k, span⟩ :: u.elements⟩ =
      .ok (l.behind ⟨.allocation k, span⟩) := by
    refine layout_eq_ok_iff.2 ⟨hrecognised, ?_, hsize⟩
    rw [Layout.extend, Layout.addStatement_empty]
    exact Layout.extend_behind _ hextend
  have hmoved : ∀ s ∈ l.statements.toList, s.statement.words (l.symbols.move k) =
      .ok ((p.wordsOf s).map (s.statement.relocate k)) := by
    rw [← hstatements, ← hsymbols]
    intro s hs
    have hin : s.statement ∈ Element.statementsIn u.body :=
      hlaid.statements ▸ List.mem_map_of_mem hs
    exact s.statement.words_move k (inRange_of_mem_statementsIn hrange _ hin) (hlaid.words_wordsOf s hs)
  refine ⟨_, (bind_of_eq_ok hlayout' _).trans (Layout.program_behind k hmoved span), ?_⟩
  simp only [Program.image, Program.relocate, hstatements, hsymbols, Layout.statements_behind,
    List.map_cons, List.map_map]
  rfl

end CompilationUnit

/-! ## The line that reserves words -/

/-- The line is read as one allocation. -/
theorem exists_lex_allocation (hk : k < Numeral.writeBound) :
    ∃ lexemes span, lex ("RESGR ".toList ++ (toString k).toList) = .ok lexemes ∧
      (∀ l ∈ lexemes, l.kind ≠ .programTerminator) ∧
      (CompilationUnit.ofLexemes lexemes).elements = [.statement ⟨.allocation k, span⟩] := by
  have hprintable : ∀ e ∈ [Element.statement ⟨.allocation k, .none⟩], e.Printable :=
    List.forall_mem_singleton.2 hk
  have hline : Element.printLines [.statement ⟨.allocation k, .none⟩] =
      "RESGR ".toList ++ (toString k).toList := by
    have hword : "RESGR ".toList = allocationWord ++ [' '] := by decide
    rw [hword, List.append_assoc, Element.printLines, List.map_singleton, List.intercalate_singleton]
    rfl
  obtain ⟨lexemes, hlex, hcontents⟩ := (Element.reads_printLines hprintable).lex
  rw [hline] at hlex
  have hread : (CompilationUnit.ofLexemes lexemes).elements.map Element.unplaced = _ :=
    Element.elementsFrom_lines hprintable hcontents
  obtain ⟨e, helements, he⟩ := List.map_eq_singleton_iff.1 hread
  have hallocation : ∃ span, e = .statement ⟨.allocation k, span⟩ := by
    cases e with
    | label | comment | terminator | unrecognised => cases he
    | statement s =>
      obtain ⟨body, span⟩ := s
      cases body with
      | command | value => cases he
      | allocation size =>
        cases he
        exact ⟨span, rfl⟩
  obtain ⟨span, rfl⟩ := hallocation
  refine ⟨lexemes, span, hlex, fun l hl => ?_, helements⟩
  have hcontent : l.content ∈ Element.linesContents [.statement ⟨.allocation k, .none⟩] :=
    hcontents ▸ List.mem_map_of_mem hl
  have hkinds : ∀ content ∈ Element.linesContents [.statement ⟨.allocation k, .none⟩],
      content.1.kind ≠ .programTerminator := by
    simp [Element.linesContents, Element.contents, Statement.Body.contents, Token.kind]
  exact hkinds _ hcontent

/-- Behind a line that reserves `k` words, a text that assembles assembles to the same program `k` addresses
further on. In the words, which are those of the statements one after the other, only the addresses of commands
change. -/
theorem relocated_of_assembles {text : List Char} {p : Program} (h : Assembles text p)
    (hk : p.size + k < addressSpace) :
    p.words.toList = p.statements.toList.flatMap p.wordsOf ∧
      ∃ p', Assembles ("RESGR ".toList ++ (toString k).toList ++ '\n' :: text) p' ∧
        p'.image = p.relocate k := by
  obtain ⟨lexemes, hlex, h⟩ := h
  refine ⟨CompilationUnit.words_eq_flatMap h, ?_⟩
  have hbound : k < Numeral.writeBound :=
    calc k < addressSpace := by omega
      _ ≤ Numeral.writeBound := tenPow_le (by decide)
  obtain ⟨line, span, hline, hterminator, helements⟩ := exists_lex_allocation k hbound
  obtain ⟨all, hall, first, second, before, behind, -, -, hsplit, hbefore, hbehind⟩ :=
    CompilationUnit.elements_append_newline hline hlex hterminator
  obtain ⟨p', hp', himage⟩ :=
    CompilationUnit.exists_assemble_behind k h (CompilationUnit.inRange_ofLexemes hlex) hk span
  have halike : (.statement ⟨.allocation k, span⟩ :: (CompilationUnit.ofLexemes lexemes).elements).Forall₂
      Element.Alike (CompilationUnit.ofLexemes all).elements := by
    rw [helements] at hbefore
    rw [hsplit]
    exact List.rel_append (hbefore.imp fun _ _ he => he.alike fun _ _ hname => hname)
      (hbehind.imp fun _ _ he => he.alike fun _ _ hname => hname)
  have hobserve : observe (CompilationUnit.ofLexemes all).assemble = .ok p'.image := by
    rw [CompilationUnit.assemble_alike halike, hp']
    rfl
  obtain ⟨q, hq, hqimage⟩ := of_observe_eq_ok hobserve
  exact ⟨q, ⟨all, hall, hq⟩, hqimage.trans himage⟩

/-- An address with more subtracted than added symbols, one that wraps around, and a command without one. -/
theorem relocated_of_assembles_of_sums :
    ∃ p, Assembles "x: HIA R1, 2 - x - y\nSPR y + 9999(R2)\ny: BST R1".toList p ∧
      p.size + 3 < addressSpace ∧
      (p.words.map (·.raw) = #[1131100000, 3222020001, 1225190000] ∧
        (p.relocate 3).words.map (·.raw) = #[0, 0, 0, 1131109994, 3222020004, 1225190000]) ∧
      p.words.toList = p.statements.toList.flatMap p.wordsOf ∧
      ∃ p', Assembles ("RESGR ".toList ++ (toString 3).toList ++ '\n' ::
          "x: HIA R1, 2 - x - y\nSPR y + 9999(R2)\ny: BST R1".toList) p' ∧
        p'.image = p.relocate 3 := by
  have hassembles : Assembles "x: HIA R1, 2 - x - y\nSPR y + 9999(R2)\ny: BST R1".toList _ :=
    ⟨_, rfl, rfl⟩
  have hrelocated := relocated_of_assembles 3 hassembles (by decide +kernel)
  exact ⟨_, hassembles, by decide +kernel, by decide +kernel, hrelocated⟩

end Drama
