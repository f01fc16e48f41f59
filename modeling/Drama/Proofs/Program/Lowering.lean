-- SUMMARY: Which error a statement ends in: that of the first symbol that is not defined, else that of its form.
import Drama.Program.Lowering
import Drama.Proofs.Command.RoundTrip
import Drama.Proofs.Source.Progress

/-!
# Lowering

A statement refers to symbols in the order of its arguments and of their terms. If one of them is not
defined, the first such one is the error. Otherwise all arguments have values, and the statement becomes
words unless its instruction does not take them. Packing the command never fails.
-/

namespace Drama

/-! ## References -/

/-- A symbol that an expression refers to, with the span of the expression. -/
abbrev Reference := List Char × Span

def Term.reference? (span : Span) : Term → Option Reference
  | .literal _ => none
  | .symbol name _ => some (name, span)

def AddressExpression.references (e : AddressExpression) : List Reference :=
  e.terms.filterMap (Term.reference? e.span)

def WrittenArgument.references : WrittenArgument → List Reference
  | .register _ | .condition _ => []
  | .address e => e.references

/-- The references of a command in the order of its arguments and of their terms. -/
def CommandStatement.references (c : CommandStatement) : List Reference :=
  c.arguments.flatMap WrittenArgument.references

/-- The first reference to a symbol that is not defined. -/
def SymbolTable.firstUndefined? (symbols : SymbolTable) (references : List Reference) :
    Option Reference :=
  references.find? fun r => (symbols.lookup r.1).isNone

def Reference.undefined (r : Reference) : AssemblyError := ⟨.undefinedSymbol r.1, some r.2, none⟩

variable {symbols : SymbolTable}

/-! ## Values of arguments -/

/-- Something that refers to symbols has a value if all of them are defined, else it ends in the error of
the first one that is not. -/
inductive Evaluates {α ε : Type} (symbols : SymbolTable) (error : Reference → ε) :
    List Reference → Except ε α → Prop
  | ok {references : List Reference} (a : α) (h : symbols.firstUndefined? references = none) :
      Evaluates symbols error references (.ok a)
  | error {references : List Reference} {r : Reference}
      (h : symbols.firstUndefined? references = some r) :
      Evaluates symbols error references (.error (error r))

namespace Evaluates

variable {α β ε : Type} {error : Reference → ε} {r : Reference} {references others : List Reference}
  {x : Except ε α}

theorem cons {value : Int} (hlookup : symbols.lookup r.1 = some value)
    (h : Evaluates symbols error references x) : Evaluates symbols error (r :: references) x := by
  have hfirst : symbols.firstUndefined? (r :: references) = symbols.firstUndefined? references := by
    rw [SymbolTable.firstUndefined?, List.find?_cons_of_neg (by simp [hlookup])]
    rfl
  cases h with
  | ok a h => exact .ok a (hfirst.trans h)
  | error h => exact .error (hfirst.trans h)

/-- What refers to symbols one after the other ends in the error of the first part that does. -/
theorem bind {f : α → Except ε β} (h : Evaluates symbols error references x)
    (hf : ∀ a, Evaluates symbols error others (f a)) :
    Evaluates symbols error (references ++ others) (x >>= f) := by
  cases h with
  | ok a h =>
    have hfirst : symbols.firstUndefined? (references ++ others) = symbols.firstUndefined? others := by
      rw [SymbolTable.firstUndefined?, List.find?_append, show references.find? _ = none from h]
      rfl
    have hrest := hf a
    show Evaluates symbols error (references ++ others) (f a)
    generalize f a = y at hrest
    cases hrest with
    | ok b h' => exact .ok b (hfirst.trans h')
    | error h' => exact .error (hfirst.trans h')
  | @error r h =>
    have hfirst : symbols.firstUndefined? (references ++ others) = some r := by
      rw [SymbolTable.firstUndefined?, List.find?_append, show references.find? _ = some r from h]
      rfl
    exact .error hfirst

end Evaluates

theorem AddressExpression.evaluates_sum (span : Span) (total : Int) (terms : List Term) :
    Evaluates symbols Prod.fst (terms.filterMap (Term.reference? span)) (sum symbols total terms) := by
  induction terms generalizing total with
  | nil => exact .ok total rfl
  | cons t terms ih =>
    cases t with
    | literal value => exact ih (total + value)
    | symbol name positive =>
      have hreference : Term.reference? span (.symbol name positive) = some (name, span) := rfl
      rw [List.filterMap_cons_some hreference, sum]
      cases hlookup : symbols.lookup name with
      | none =>
        refine .error (r := (name, span)) ?_
        exact List.find?_cons_of_pos (by simp [hlookup])
      | some value => exact .cons hlookup (ih _)

theorem WrittenArgument.evaluates (a : WrittenArgument) :
    Evaluates symbols Reference.undefined a.references (a.evaluate symbols) := by
  cases a with
  | register number => exact .ok _ rfl
  | condition c => exact .ok _ rfl
  | address e =>
    have hsum : Evaluates symbols Prod.fst e.references (e.evaluate symbols) :=
      AddressExpression.evaluates_sum e.span 0 e.terms
    simp only [evaluate, references]
    generalize hx : e.evaluate symbols = x at hsum
    cases hsum with
    | ok base h => exact .ok _ h
    | @error r h =>
      have hspan : r.2 = e.span := by
        have hmem := List.mem_of_find?_eq_some h
        obtain ⟨t, -, ht⟩ := List.mem_filterMap.1 hmem
        cases t with
        | literal => cases ht
        | symbol name positive =>
          cases ht
          rfl
      rw [← hspan]
      exact .error h

theorem CommandStatement.evaluates (c : CommandStatement) :
    Evaluates symbols Reference.undefined c.references (c.arguments.mapM (·.evaluate symbols)) := by
  rw [references]
  induction c.arguments with
  | nil => exact .ok [] rfl
  | cons a arguments ih =>
    rw [List.flatMap_cons, List.mapM_cons]
    refine a.evaluates.bind fun value => ?_
    rw [← List.append_nil (arguments.flatMap _)]
    exact ih.bind fun values => .ok (value :: values) rfl

/-! ## Commands -/

namespace WrittenArgument

/-- What an argument stands for. -/
inductive Denotes (symbols : SymbolTable) : WrittenArgument → Argument → Prop
  | register (number : Nat) : Denotes symbols (.register number) (.register number)
  | condition (c : Condition) : Denotes symbols (.condition c) (.condition c)
  | address {e : AddressExpression} {base : Int} (h : e.evaluate symbols = .ok base) :
      Denotes symbols (.address e) (.operand ⟨base, e.index⟩)

theorem evaluate_eq_ok_iff {a : WrittenArgument} {value : Argument} :
    a.evaluate symbols = .ok value ↔ a.Denotes symbols value := by
  constructor
  · intro h
    cases a with
    | register number =>
      cases h
      exact .register number
    | condition c =>
      cases h
      exact .condition c
    | address e =>
      simp only [evaluate] at h
      split at h
      · rename_i base hbase
        cases h
        exact .address hbase
      · cases h
  · rintro (_ | _ | h)
    · rfl
    · rfl
    · simp only [evaluate, h]

theorem mapM_evaluate_eq_ok_iff {arguments : List WrittenArgument} {values : List Argument} :
    arguments.mapM (·.evaluate symbols) = .ok values ↔ arguments.Forall₂ (Denotes symbols) values := by
  constructor
  · intro h
    induction arguments generalizing values with
    | nil =>
      cases h
      exact .nil
    | cons a arguments ih =>
      rw [List.mapM_cons] at h
      obtain ⟨value, hvalue, h⟩ := of_bind_eq_ok h
      obtain ⟨others, hothers, h⟩ := of_bind_eq_ok h
      cases h
      exact .cons (evaluate_eq_ok_iff.1 hvalue) (ih hothers)
  · intro h
    induction h with
    | nil => rfl
    | cons hvalue _ ih =>
      rw [List.mapM_cons, evaluate_eq_ok_iff.2 hvalue, ih]
      rfl

theorem Denotes.inRange {a : WrittenArgument} {value : Argument} (h : a.Denotes symbols value)
    (ha : a.InRange) : value.InRange := by
  cases h with
  | register number => exact ⟨Int.natCast_nonneg _, Int.ofNat_le.2 ha⟩
  | condition c => trivial
  | address => exact ha

theorem inRange_of_denotes {arguments : List WrittenArgument} {values : List Argument}
    (h : arguments.Forall₂ (Denotes symbols) values) (harguments : ∀ a ∈ arguments, a.InRange) :
    ∀ value ∈ values, value.InRange := by
  induction h with
  | nil => exact List.forall_mem_nil _
  | cons hvalue _ ih =>
    rw [List.forall_mem_cons] at harguments
    exact List.forall_mem_cons.2 ⟨hvalue.inRange harguments.1, ih harguments.2⟩

end WrittenArgument

theorem CommandStatement.command_eq_ok_iff {c : CommandStatement} {span : Span} {command : Command} :
    c.command span symbols = .ok command ↔ ∃ values,
      c.arguments.Forall₂ (WrittenArgument.Denotes symbols) values ∧
        c.instruction.resolve c.mode values = .ok command := by
  constructor
  · intro h
    obtain ⟨values, hvalues, h⟩ := of_bind_eq_ok h
    exact ⟨values, WrittenArgument.mapM_evaluate_eq_ok_iff.1 hvalues, of_mapError_eq_ok h⟩
  · rintro ⟨values, hvalues, h⟩
    rw [CommandStatement.command, bind_of_eq_ok (WrittenArgument.mapM_evaluate_eq_ok_iff.2 hvalues), h]
    rfl

/-- An instruction that does not take its arguments is named in the error. -/
theorem Instruction.mnemonic_of_resolve {i : Instruction} {mode : Option AddressingMode}
    {arguments : List Argument} {error : FormatError} (h : i.resolve mode arguments = .error error) :
    error.mnemonic = i.mnemonic := by
  simp only [resolve] at h
  split at h
  · cases h
    rfl
  · split_ifs at h <;> cases h <;> rfl

/-! ## Statements -/

theorem Statement.words_command {c : CommandStatement} {span : Span} {words : List MachineWord} :
    (Statement.mk (.command c) span).words symbols = .ok words ↔ ∃ command w,
      c.command span symbols = .ok command ∧ command.encode .standard = .ok w ∧ words = [w] := by
  constructor
  · intro h
    obtain ⟨command, hcommand, h⟩ := of_bind_eq_ok h
    obtain ⟨w, hw, h⟩ := of_bind_eq_ok h
    cases h
    exact ⟨command, w, hcommand, of_mapError_eq_ok hw, rfl⟩
  · rintro ⟨command, w, hcommand, hw, rfl⟩
    simp only [words]
    rw [bind_of_eq_ok hcommand, hw]
    rfl

/-- The error of a statement that has no words. Values and allocations always have words. -/
inductive Statement.FailsWith (symbols : SymbolTable) : Statement → AssemblyError → Prop
  | undefined {c : CommandStatement} {span : Span} {r : Reference}
      (hfirst : symbols.firstUndefined? c.references = some r) :
      FailsWith symbols ⟨.command c, span⟩ ⟨.undefinedSymbol r.1, some r.2, none⟩
  | format {c : CommandStatement} {span : Span} {arguments : List Argument} {error : FormatError}
      (hdefined : symbols.firstUndefined? c.references = none)
      (harguments : c.arguments.mapM (·.evaluate symbols) = .ok arguments)
      (hresolve : c.instruction.resolve c.mode arguments = .error error)
      (hmnemonic : error.mnemonic = c.instruction.mnemonic) :
      FailsWith symbols ⟨.command c, span⟩ ⟨.commandFormat error, some span, none⟩

namespace Statement

variable {s : Statement}

/-- Packing the words of a statement never fails: its error is an undefined symbol or the form. -/
theorem words_or_failsWith (hs : s.body.InRange) (symbols : SymbolTable) :
    (∃ words, s.words symbols = .ok words) ∨ ∃ e, s.FailsWith symbols e := by
  obtain ⟨body, span⟩ := s
  cases body with
  | value value => exact .inl ⟨_, rfl⟩
  | allocation size => exact .inl ⟨_, rfl⟩
  | command c =>
    have hvalues : Evaluates symbols Reference.undefined c.references
        (c.arguments.mapM (·.evaluate symbols)) := c.evaluates
    generalize hmapM : c.arguments.mapM (·.evaluate symbols) = values at hvalues
    cases hvalues with
    | error h => exact .inr ⟨_, .undefined h⟩
    | ok arguments h =>
      cases hresolve : c.instruction.resolve c.mode arguments with
      | error error =>
        exact .inr ⟨_, .format h hmapM hresolve (Instruction.mnemonic_of_resolve hresolve)⟩
      | ok command =>
        obtain ⟨hstandard, harguments⟩ := hs
        have hvalues := WrittenArgument.mapM_evaluate_eq_ok_iff.1 hmapM
        have hrange := WrittenArgument.inRange_of_denotes hvalues harguments
        obtain ⟨-, hvalid⟩ := Instruction.resolve_valid hstandard hrange hresolve
        obtain ⟨-, w, -, -, hencode, -⟩ := hvalid.exists_encode
        refine .inl ⟨[w], ?_⟩
        simp only [words, CommandStatement.command]
        rw [hmapM]
        simp [bind, Except.bind, hresolve, Except.mapError, hencode, pure, Except.pure]

/-- Either all statements have words, or there is a first one that fails. -/
theorem words_or_exists_first {statements : List Statement}
    (h : ∀ s ∈ statements, s.body.InRange) (symbols : SymbolTable) :
    (∀ s ∈ statements, ∃ words, s.words symbols = .ok words) ∨
      ∃ before s after e, statements = before ++ s :: after ∧
        (∀ s ∈ before, ∃ words, s.words symbols = .ok words) ∧ s.FailsWith symbols e := by
  induction statements with
  | nil => exact .inl (List.forall_mem_nil _)
  | cons s rest ih =>
    rw [List.forall_mem_cons] at h
    obtain hwords | ⟨e, hfails⟩ := words_or_failsWith h.1 symbols
    · obtain hrest | ⟨before, s', after, e, rfl, hbefore, hfails⟩ := ih h.2
      · exact .inl (List.forall_mem_cons.2 ⟨hwords, hrest⟩)
      · exact .inr ⟨s :: before, s', after, e, rfl,
          List.forall_mem_cons.2 ⟨hwords, hbefore⟩, hfails⟩
    · exact .inr ⟨[], s, rest, e, rfl, List.forall_mem_nil _, hfails⟩

theorem FailsWith.words_eq {e : AssemblyError} (h : s.FailsWith symbols e) :
    s.words symbols = .error e := by
  cases h with
  | @undefined c span r hfirst =>
    have hvalues : Evaluates symbols Reference.undefined c.references
        (c.arguments.mapM (·.evaluate symbols)) := c.evaluates
    simp only [words, CommandStatement.command]
    generalize c.arguments.mapM (·.evaluate symbols) = values at hvalues
    cases hvalues with
    | ok arguments h => cases h.symm.trans hfirst
    | error h =>
      cases h.symm.trans hfirst
      rfl
  | @format c span arguments error _ harguments hresolve _ =>
    simp only [words, CommandStatement.command]
    rw [harguments]
    simp [bind, Except.bind, hresolve, Except.mapError]

end Statement

end Drama
