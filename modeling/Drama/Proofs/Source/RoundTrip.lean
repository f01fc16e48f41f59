-- SUMMARY: Parsing reads printed elements back.
import Drama.Proofs.Source.Parsing
import Drama.Source.Unit

/-!
# Reading back what is printed

Each construct is read from the lexemes that it is printed as, up to the places in it. What stands behind
a construct decides where it ends: behind an address nothing that would continue it, behind an argument a
separator or the end of the line.
-/

namespace Drama

open Drama.Parser

/-! ## Elements without their places -/

/-- The span of what has no place. -/
def Span.none : Span := ⟨0, 0⟩

def WrittenArgument.unplaced : WrittenArgument → WrittenArgument
  | .address e => .address { e with span := .none }
  | a => a

def CommandStatement.unplaced (c : CommandStatement) : CommandStatement :=
  { c with arguments := c.arguments.map WrittenArgument.unplaced, instructionSpan := .none }

def Statement.Body.unplaced : Statement.Body → Statement.Body
  | .command c => .command c.unplaced
  | body => body

/-- An element up to the spans in it. Unrecognised source is all about its place. -/
def Element.unplaced : Element → Element
  | .statement s => .statement ⟨s.body.unplaced, .none⟩
  | .label name _ => .label name .none
  | .comment text _ => .comment text .none
  | .terminator _ => .terminator .none
  | .unrecognised source => .unrecognised source

/-! ## What stands behind a construct -/

/-- The kinds of lexemes behind an argument. -/
def argumentEnds : List LexemeKind := [.argumentSeparator, .statementTerminator]

/-- The kinds of lexemes behind the terms of an address. -/
def termEnds : List LexemeKind := .scope :: argumentEnds

variable {rest : List Content}

/-! ## Addresses -/

namespace Term

theorem takes_contents {t : Term} (ht : t.isSubtracted = false) :
    Takes parser (t.content :: rest) rest (· = t) := by
  cases t with
  | literal value => exact takes_read (Lexeme.of_content fun _ _ => ⟨_, rfl, rfl⟩)
  | symbol name positive =>
    cases positive with
    | false => cases ht
    | true => exact takes_read (Lexeme.of_content fun _ _ => ⟨_, rfl, rfl⟩)

/-- A term is its magnitude with its sign. -/
theorem signed_magnitude (t : Term) :
    (if t.operator = .plus then t.magnitude else t.magnitude.negated) = t := by
  cases t with
  | literal value =>
    by_cases h : value < 0
    · simp only [operator, magnitude, negated, h, if_true, reduceCtorEq, if_false]
      exact congrArg _ (by omega)
    · simp only [operator, magnitude, h, if_true, if_false]
      exact congrArg _ (by omega)
  | symbol name positive => cases positive <;> rfl

theorem isAdditive_operator (t : Term) : t.operator.isAdditive = true := by
  cases t with
  | literal value => by_cases h : value < 0 <;> simp [operator, h, Operator.isAdditive]
  | symbol name positive => cases positive <;> rfl

theorem takes_further (t : Term) :
    Takes further (t.furtherContents ++ rest) rest (fun r => ∃ a, r = some a ∧ a = t) := by
  have hoperator : Takes (peekMap Lexeme.operator?) (t.furtherContents ++ rest)
      (t.furtherContents ++ rest) (fun r => ∃ a, r = some a ∧ a = t.operator) :=
    takes_peekMap (Lexeme.of_content fun _ _ => ⟨_, rfl, rfl⟩)
  have hmagnitude : Takes parser (t.magnitude.content :: rest) rest (· = t.magnitude) :=
    takes_contents (by cases t <;> rfl)
  refine hoperator.bind ?_
  rintro _ ⟨_, rfl, rfl⟩
  simp only [isAdditive_operator, if_true]
  refine takes_advance.bind fun _ _ => hmagnitude.attempt.bind ?_
  rintro _ rfl
  exact .pure ⟨_, rfl, t.signed_magnitude⟩

theorem takes_further_none (h : StartsIn termEnds rest) :
    Takes further rest rest (· = none) := by
  have hoperator : Rejects Lexeme.operator? rest := h.rejects Lexeme.only_operator? (by decide)
  have hliteral : Rejects Lexeme.negativeLiteral? rest :=
    h.rejects Lexeme.only_negativeLiteral? (by decide)
  refine hoperator.takes_peekMap.bind ?_
  rintro _ rfl
  refine hliteral.takes_readIf.bind ?_
  rintro _ rfl
  exact .pure rfl

end Term

namespace Index

/-- An operator is read where there is one. -/
theorem takes_operator (o : Option Operator) (h : StartsIn [.register, .scope] rest) :
    Takes (readIf Lexeme.operator?) (o.toList.map Operator.content ++ rest) rest (· = o) := by
  cases o with
  | none => exact (h.rejects Lexeme.only_operator? (by decide)).takes_readIf
  | some o =>
    refine (takes_readIf (Lexeme.of_content fun _ _ => ⟨o, rfl, rfl⟩)).mono ?_
    rintro _ ⟨_, rfl, rfl⟩
    rfl

theorem takes_checkOperators {before after : Option Operator}
    (hadditive : ∀ o ∈ before.toList ++ after.toList, o.isAdditive = true)
    (honce : (before.isSome && after.isSome) = false) :
    Takes (checkOperators before after) rest rest (fun _ => True) := by
  have hfind : (before.toList ++ after.toList).find? (!·.isAdditive) = none :=
    List.find?_eq_none.2 fun o ho => by simpa using hadditive o ho
  unfold checkOperators
  simp only [hfind, honce, Bool.false_eq_true, if_false]
  exact .pure trivial

theorem takes_inner_of_operators (before after : Option Operator) {n : Nat} {text : List Char}
    (hadditive : ∀ o ∈ before.toList ++ after.toList, o.isAdditive = true)
    (honce : (before.isSome && after.isSome) = false) :
    Takes inner (before.toList.map Operator.content ++ (.register n, text) ::
        (after.toList.map Operator.content ++ (.scope .closing, [')']) :: rest)) rest
      (· = ⟨n, modificationOf before after⟩) := by
  refine (takes_operator before (.cons (by simp [Token.kind]) _)).bind ?_
  rintro _ rfl
  refine (takes_read (Lexeme.of_content fun _ _ => ⟨n, rfl, rfl⟩)).bind ?_
  rintro _ rfl
  refine (takes_operator after (.cons (by simp [Token.kind]) _)).bind ?_
  rintro _ rfl
  refine (takes_checkOperators hadditive honce).bind fun _ _ => takes_get.bind fun closing _ => ?_
  refine (takes_read (Lexeme.of_content fun _ _ => ⟨.closing, rfl, rfl⟩)).bind ?_
  rintro _ rfl
  exact .pure rfl

theorem takes_inner {i : Index} (hi : IsRegister i.register) :
    Takes inner (i.innerContents ++ (.scope .closing, [')']) :: rest) rest (· = i) := by
  obtain ⟨register, modification⟩ := i
  obtain ⟨n, rfl⟩ := Int.eq_ofNat_of_zero_le hi.1
  cases modification with
  | none => exact takes_inner_of_operators none none (by simp) rfl
  | some m =>
    cases m with
    | preIncrement => exact takes_inner_of_operators (some .plus) none (by decide) rfl
    | postIncrement => exact takes_inner_of_operators none (some .plus) (by decide) rfl
    | preDecrement => exact takes_inner_of_operators (some .minus) none (by decide) rfl
    | postDecrement => exact takes_inner_of_operators none (some .minus) (by decide) rfl

theorem takes_contents {i : Index} (hi : IsRegister i.register) :
    Takes parser (i.contents ++ rest) rest (· = some i) := by
  have hbracket : Takes (readIf Lexeme.bracket?) (i.contents ++ rest)
      (i.innerContents ++ (.scope .closing, [')']) :: rest)
      (fun r => ∃ a, r = some a ∧ a = .opening) := by
    have hsplit : i.contents ++ rest = (.scope .opening, ['(']) ::
        (i.innerContents ++ (.scope .closing, [')']) :: rest) := by simp [contents]
    rw [hsplit]
    exact takes_readIf (Lexeme.of_content fun _ _ => ⟨_, rfl, rfl⟩)
  refine takes_get.bind fun start _ => hbracket.bind ?_
  rintro _ ⟨_, rfl, rfl⟩
  refine (takes_inner hi).bind ?_
  rintro _ rfl
  exact .pure rfl

theorem takes_no_contents (h : StartsIn argumentEnds rest) : Takes parser rest rest (· = none) := by
  have hbracket : Rejects Lexeme.bracket? rest := h.rejects Lexeme.only_bracket? (by decide)
  refine takes_get.bind fun start _ => hbracket.takes_readIf.bind ?_
  rintro _ rfl
  exact .pure rfl

end Index

/-- An address up to the span of it. -/
theorem AddressExpression.takes_contents {e : AddressExpression} (he : e.Printable)
    (h : StartsIn argumentEnds rest) :
    Takes parser (e.contents ++ rest) rest (fun e' => e'.terms = e.terms ∧ e'.index = e.index) := by
  obtain ⟨first, others, hterms⟩ := List.exists_cons_of_ne_nil he.nonempty
  have hfirst : first.isSubtracted = false := by
    have h := he.first
    rwa [hterms] at h
  have hindex : StartsIn termEnds (e.index.toList.flatMap Index.contents ++ rest) ∧
      Takes Index.parser (e.index.toList.flatMap Index.contents ++ rest) rest (· = e.index) := by
    cases hindex : e.index with
    | none => exact ⟨h.mono (by decide), Index.takes_no_contents h⟩
    | some i =>
      rw [Option.toList_some, List.flatMap_singleton]
      exact ⟨.cons (by decide) _, Index.takes_contents (he.index i hindex)⟩
  have hothers : Takes (repeated Term.further) (others.flatMap Term.furtherContents ++
      (e.index.toList.flatMap Index.contents ++ rest))
      (e.index.toList.flatMap Index.contents ++ rest) (fun results => results.map id = others.map id) :=
    takes_repeated (fun _ => True) (fun t _ _ _ => Term.takes_further t) (fun _ _ _ => trivial) trivial
      (Term.takes_further_none hindex.1) (fun _ _ => List.cons_ne_nil _ _)
  have hcontents : e.contents ++ rest = first.content :: (others.flatMap Term.furtherContents ++
      (e.index.toList.flatMap Index.contents ++ rest)) := by
    simp [contents, hterms]
  rw [hcontents]
  refine takes_get.bind fun start _ => (Term.takes_contents hfirst).attempt.bind ?_
  rintro _ rfl
  refine hothers.bind fun results hresults => ?_
  refine hindex.2.bind ?_
  rintro _ rfl
  refine takes_get.bind fun stop _ => ?_
  exact .pure ⟨by rw [hterms, ← List.map_id others, ← hresults, List.map_id], rfl⟩

theorem takes_name (name : List Char) :
    Takes (read [.identifier] Lexeme.identifier?) ((.identifier, name) :: rest) rest (· = name) :=
  takes_read (Lexeme.of_content fun _ _ => ⟨name, rfl, rfl⟩)

/-! ## Arguments -/

/-- The kinds of lexemes that an argument starts with. -/
def argumentStarts : List LexemeKind := [.register, .condition, .literal, .identifier]

theorem AddressExpression.startsIn_contents {e : AddressExpression} (he : e.Printable) :
    StartsIn [.literal, .identifier] (e.contents ++ rest) := by
  obtain ⟨first, others, hterms⟩ := List.exists_cons_of_ne_nil he.nonempty
  simp only [contents, hterms, List.cons_append]
  apply StartsIn.cons
  cases first <;> simp [Term.content, Token.kind]

namespace WrittenArgument

theorem startsIn_contents {a : WrittenArgument} (ha : a.Printable) :
    StartsIn argumentStarts (a.contents ++ rest) := by
  cases a with
  | register number => exact .cons (by simp [argumentStarts, Token.kind]) _
  | condition c => exact .cons (by simp [argumentStarts, Token.kind]) _
  | address e => exact (AddressExpression.startsIn_contents ha).mono (by decide)

theorem contents_ne_nil {a : WrittenArgument} (ha : a.Printable) : a.contents ≠ [] := by
  cases a with
  | register | condition => exact List.cons_ne_nil _ _
  | address e =>
    obtain ⟨first, others, hterms⟩ := List.exists_cons_of_ne_nil (AddressExpression.Printable.nonempty ha)
    simp [contents, AddressExpression.contents, hterms]

theorem takes_contents {a : WrittenArgument} (ha : a.Printable) (h : StartsIn argumentEnds rest) :
    Takes parser (a.contents ++ rest) rest (fun a' => a'.unplaced = a.unplaced) := by
  cases a with
  | register number =>
    refine (takes_readIf (Lexeme.of_content fun _ _ => ⟨number, rfl, rfl⟩)).bind ?_
    rintro _ ⟨_, rfl, rfl⟩
    exact .pure rfl
  | condition c =>
    have hstart : StartsIn [.condition] ((contents (.condition c)) ++ rest) :=
      .cons List.mem_cons_self _
    refine (hstart.rejects Lexeme.only_register? (by decide)).takes_readIf.bind ?_
    rintro _ rfl
    refine (takes_readIf (Lexeme.of_content fun _ _ => ⟨c, rfl, rfl⟩)).bind ?_
    rintro _ ⟨_, rfl, rfl⟩
    exact .pure rfl
  | address e =>
    have hstart : StartsIn [.literal, .identifier] (e.contents ++ rest) :=
      AddressExpression.startsIn_contents ha
    refine (hstart.rejects Lexeme.only_register? (by decide)).takes_readIf.bind ?_
    rintro _ rfl
    refine (hstart.rejects Lexeme.only_condition? (by decide)).takes_readIf.bind ?_
    rintro _ rfl
    refine (AddressExpression.takes_contents ha h).attempt.bind fun e' he' => .pure ?_
    rw [unplaced, unplaced, he'.1, he'.2]

end WrittenArgument

namespace CommandStatement

theorem takes_furtherArgument {a : WrittenArgument} (ha : a.Printable)
    (h : StartsIn argumentEnds rest) :
    Takes furtherArgument (a.furtherContents ++ rest) rest
      (fun r => ∃ a', r = some a' ∧ a'.unplaced = a.unplaced) := by
  have hseparator : Takes (readIfKinds [.argumentSeparator]) (a.furtherContents ++ rest)
      (a.contents ++ rest) (fun r => ∃ l, r = some l ∧ True) :=
    takes_readIf (Lexeme.of_content fun _ _ => ⟨_, rfl, trivial⟩)
  refine hseparator.bind ?_
  rintro _ ⟨_, rfl, -⟩
  exact (WrittenArgument.takes_contents ha h).bind fun a' ha' => .pure ⟨a', rfl, ha'⟩

theorem takes_furtherArgument_none (h : StartsIn [.statementTerminator] rest) :
    Takes furtherArgument rest rest (· = none) := by
  have hseparator := h.rejects (Lexeme.only_ofKinds (List.cons_ne_nil .argumentSeparator [])) (by decide)
  refine hseparator.takes_readIf.bind ?_
  rintro _ rfl
  exact .pure rfl

theorem takes_argumentsParser {arguments : List WrittenArgument}
    (h : ∀ a ∈ arguments, a.Printable) (hrest : StartsIn [.statementTerminator] rest) :
    Takes argumentsParser (WrittenArgument.allContents arguments ++ rest) rest
      (fun results => results.map WrittenArgument.unplaced =
        arguments.map WrittenArgument.unplaced) := by
  cases arguments with
  | nil =>
    have hstart : Rejects Lexeme.argumentStart? (WrittenArgument.allContents [] ++ rest) :=
      hrest.rejects (Lexeme.only_ofKinds (List.cons_ne_nil _ _)) (by decide)
    refine hstart.takes_peekMap.bind ?_
    rintro _ rfl
    exact .pure rfl
  | cons first others =>
    rw [List.forall_mem_cons] at h
    have hbehind : StartsIn argumentEnds
        (others.flatMap WrittenArgument.furtherContents ++ rest) := by
      cases others with
      | nil => exact hrest.mono (by decide)
      | cons second others => exact .cons (by simp [argumentEnds, Token.kind]) _
    have hstart : StartsIn argumentStarts (WrittenArgument.allContents (first :: others) ++ rest) := by
      rw [WrittenArgument.allContents, List.append_assoc]
      exact WrittenArgument.startsIn_contents h.1
    have hne : WrittenArgument.allContents (first :: others) ++ rest ≠ [] := by
      simp [WrittenArgument.allContents, WrittenArgument.contents_ne_nil h.1]
    refine (hstart.takes_peekKinds hne).bind ?_
    rintro _ ⟨_, rfl, -⟩
    rw [WrittenArgument.allContents, List.append_assoc]
    refine (WrittenArgument.takes_contents h.1 hbehind).bind fun a ha => ?_
    have hothers : Takes (repeated furtherArgument)
        (others.flatMap WrittenArgument.furtherContents ++ rest) rest
        (fun results => results.map WrittenArgument.unplaced =
          others.map WrittenArgument.unplaced) :=
      takes_repeated (StartsIn argumentEnds)
        (fun a ha _ hafter => takes_furtherArgument (h.2 a ha) hafter)
        (fun _ _ _ => .cons (by simp [argumentEnds, Token.kind]) _) (hrest.mono (by decide))
        (takes_furtherArgument_none hrest) (fun _ _ => List.cons_ne_nil _ _)
    refine hothers.bind fun results hresults => .pure ?_
    rw [List.map_cons, List.map_cons, ha, hresults]

/-- A suffix is read where there is one. -/
theorem takes_mode (mode : Option AddressingMode)
    (h : StartsIn (.statementTerminator :: argumentStarts) rest) :
    Takes (readIf Lexeme.mode?) (mode.toList.map AddressingMode.content ++ rest) rest
      (fun m => m.join = mode) := by
  cases mode with
  | none =>
    refine (h.rejects Lexeme.only_mode? (by decide)).takes_readIf.mono ?_
    rintro _ rfl
    rfl
  | some m =>
    refine (takes_readIf (Lexeme.of_content fun _ _ => ⟨some m, rfl, rfl⟩)).mono ?_
    rintro _ ⟨_, rfl, rfl⟩
    rfl

/-- Mnemonics find their instructions. -/
theorem find?_mnemonic {i : Instruction} (hi : i ∈ InstructionSet.standard.entries) :
    InstructionSet.standard.find? (String.ofList (Text.toUpper i.mnemonic.toList)) = some i := by
  revert i
  decide +kernel

theorem takes_contents {c : CommandStatement} (hc : c.Printable)
    (hrest : StartsIn [.statementTerminator] rest) :
    Takes parser (c.contents ++ rest) rest
      (fun s => s.body.unplaced = (Statement.Body.command c).unplaced) := by
  have hbehind : StartsIn (.statementTerminator :: argumentStarts)
      (WrittenArgument.allContents c.arguments ++ rest) := by
    have harguments := hc.arguments
    cases harg : c.arguments with
    | nil => exact hrest.mono (by decide)
    | cons first others =>
      rw [harg, List.forall_mem_cons] at harguments
      rw [WrittenArgument.allContents, List.append_assoc]
      exact (WrittenArgument.startsIn_contents harguments.1).mono (List.subset_cons_self _ _)
  rw [contents, List.cons_append, List.cons_append, List.append_assoc]
  refine takes_get.bind fun start _ => (takes_name _).bind ?_
  rintro _ rfl
  refine takes_get.bind fun stop _ => ?_
  simp only [find?_mnemonic hc.standard]
  refine (takes_mode c.mode hbehind).bind fun mode hmode => ?_
  refine (takes_argumentsParser hc.arguments hrest).bind fun arguments harguments => ?_
  refine takes_get.bind fun stop _ => .pure ?_
  simp only [Statement.Body.unplaced, unplaced, hmode, harguments]

theorem fails_parser_of_unknown {name : List Char}
    (h : InstructionSet.standard.find? (String.ofList (Text.toUpper name)) = none) :
    Fails parser ((.identifier, name) :: rest) := by
  refine takes_get.bind_fails fun start _ => (takes_name name).bind_fails ?_
  rintro _ rfl
  refine takes_get.bind_fails fun stop _ => ?_
  simp only [h]
  exact fails_failAt _ _

theorem fails_parser_of_kind {before : List Content} (h : StartsIn [.literal] before) :
    Fails parser before := by
  have hname := (h.rejects Lexeme.only_identifier? (by decide)).fails_read [.identifier]
  exact takes_get.bind_fails fun start _ => hname.bind

end CommandStatement

/-! ## Other constructs -/

namespace Statement

theorem takes_valueParser (value : Int) :
    Takes valueParser ((.literal value, (toString value).toList) :: rest) rest
      (fun s => s.body.unplaced = (Statement.Body.value value).unplaced) := by
  refine takes_get.bind fun start _ => ?_
  refine (takes_read (Lexeme.of_content fun _ _ => ⟨value, rfl, rfl⟩)).bind ?_
  rintro _ rfl
  exact takes_get.bind fun stop _ => .pure rfl

theorem fails_valueParser {before : List Content} (h : StartsIn [.identifier] before) :
    Fails valueParser before := by
  have hvalue := (h.rejects Lexeme.only_literal? (by decide)).fails_read [.literal]
  exact takes_get.bind_fails fun start _ => hvalue.bind

theorem takes_keyword (word : List Char) :
    Takes (readKinds [.identifier]) ((.identifier, word) :: rest) rest (·.text = word) :=
  takes_read (Lexeme.of_content fun _ _ => ⟨_, rfl, rfl⟩)

theorem takes_allocationParser (size : Nat) {text : List Char} :
    Takes allocationParser ((.identifier, allocationWord) :: (.literal size, text) :: rest) rest
      (fun s => s.body.unplaced = (Statement.Body.allocation size).unplaced) := by
  have hupper : Text.toUpper allocationWord = allocationWord := by decide
  refine takes_get.bind fun start _ => (takes_keyword allocationWord).bind fun keyword hkeyword => ?_
  rw [hkeyword, if_neg (not_not.2 hupper)]
  have hsize : Takes (read [.literal] Lexeme.literal?) ((.literal size, text) :: rest) rest
      (· = (size : Int)) := takes_read (Lexeme.of_content fun _ _ => ⟨_, rfl, rfl⟩)
  refine takes_get.bind fun beforeSize _ => hsize.bind ?_
  rintro _ rfl
  rw [if_neg (Int.not_lt.2 (Int.natCast_nonneg size))]
  exact takes_get.bind fun stop _ => .pure rfl

/-- Nothing is reserved without a size. -/
theorem fails_allocationParser (word : List Char) (h : StartsIn [.labelMarker] rest) :
    Fails allocationParser ((.identifier, word) :: rest) := by
  refine takes_get.bind_fails fun start _ => (takes_keyword word).bind_fails fun keyword _ => ?_
  split
  · exact fails_failAt _ _
  · have hsize := (h.rejects Lexeme.only_literal? (by decide)).fails_read [.literal]
    exact takes_get.bind_fails fun beforeSize _ => hsize.bind

end Statement

theorem Element.takes_labelParser (name : List Char) :
    Takes labelParser ((.identifier, name) :: (.labelMarker, [':']) :: rest) rest
      (fun e => e.unplaced = .label name .none) := by
  refine takes_get.bind fun start _ => (takes_name name).bind ?_
  rintro _ rfl
  have hmarker : Takes (readIfKinds [.labelMarker]) ((.labelMarker, [':']) :: rest) rest
      (fun r => ∃ l, r = some l ∧ True) :=
    takes_readIf (Lexeme.of_content fun _ _ => ⟨_, rfl, trivial⟩)
  refine hmarker.bind ?_
  rintro _ ⟨_, rfl, -⟩
  exact takes_get.bind fun stop _ => .pure rfl

/-! ## Elements -/

namespace Element

theorem firstOf_of_ok {c c' : Cursor} {parser : Parser Element} {e : Element}
    (h : parser.run c = .ok e c') (others : List (Parser Element)) :
    firstOf c parser others = .ok (e, c') := by
  cases others <;> simp only [firstOf, h]

theorem firstOf_of_error {c c' : Cursor} {parser other : Parser Element}
    {others : List (Parser Element)} {error : ParseError} {found : Element × Cursor}
    (h : parser.run c = .error error c') (hothers : firstOf c other others = .ok found) :
    firstOf c parser (other :: others) = .ok found := by
  simp only [firstOf, h, hothers]
  rfl

theorem takes_statement {parser : Parser Statement} {before : List Content} {body : Statement.Body}
    (h : Takes parser before rest (fun s => s.body.unplaced = body.unplaced)) (span : Span) :
    Takes (Element.statement <$> parser) before rest
      (fun e => e.unplaced = (Element.statement ⟨body, span⟩).unplaced) :=
  h.map fun s hs => by rw [unplaced, unplaced, hs]

/-! ### Constructs that are tried before others

What a construct starts with shows that the ones which are tried before it fail. -/

section

variable {c c' : Cursor} {e : Element}

theorem ofConstructs_of_value (hc : StartsIn [.literal] c.contents)
    (h : (Element.statement <$> Statement.valueParser).run c = .ok e c') :
    ofConstructs c = .ok (e, c') := by
  obtain ⟨_, _, hcommand⟩ := (CommandStatement.fails_parser_of_kind hc).map c rfl
  exact firstOf_of_error hcommand (firstOf_of_ok h _)

theorem ofConstructs_of_allocation {word : List Char} (hc : c.contents = (.identifier, word) :: rest)
    (hword : Text.toUpper word = allocationWord)
    (h : (Element.statement <$> Statement.allocationParser).run c = .ok e c') :
    ofConstructs c = .ok (e, c') := by
  have hunknown : InstructionSet.standard.find? (String.ofList (Text.toUpper word)) = none := by
    rw [hword]
    decide +kernel
  have hidentifier : StartsIn [.identifier] ((.identifier, word) :: rest) := .cons List.mem_cons_self _
  obtain ⟨_, _, hcommand⟩ := (CommandStatement.fails_parser_of_unknown hunknown).map c hc
  obtain ⟨_, _, hvalue⟩ := (Statement.fails_valueParser hidentifier).map c hc
  exact firstOf_of_error hcommand (firstOf_of_error hvalue (firstOf_of_ok h _))

theorem ofConstructs_of_label {name : List Char} (hc : c.contents = (.identifier, name) :: rest)
    (hunknown : InstructionSet.standard.find? (String.ofList (Text.toUpper name)) = none)
    (hmarker : StartsIn [.labelMarker] rest) (h : labelParser.run c = .ok e c') :
    ofConstructs c = .ok (e, c') := by
  have hidentifier : StartsIn [.identifier] ((.identifier, name) :: rest) := .cons List.mem_cons_self _
  obtain ⟨_, _, hcommand⟩ := (CommandStatement.fails_parser_of_unknown hunknown).map c hc
  obtain ⟨_, _, hvalue⟩ := (Statement.fails_valueParser hidentifier).map c hc
  obtain ⟨_, _, hallocation⟩ := (Statement.fails_allocationParser name hmarker).map c hc
  exact firstOf_of_error hcommand (firstOf_of_error hvalue
    (firstOf_of_error hallocation (firstOf_of_ok h _)))

end

/-- An element is read by its construct, and the constructs that are tried before that one fail. -/
theorem ofConstructs_contents {e : Element} (he : e.Printable)
    (hrest : StartsIn [.statementTerminator] rest) {c : Cursor}
    (hc : c.contents = e.contents ++ rest) :
    ∃ e' c', ofConstructs c = .ok (e', c') ∧ e'.unplaced = e.unplaced ∧ c'.contents = rest := by
  cases e with
  | statement s =>
    obtain ⟨body, span⟩ := s
    cases body with
    | command command =>
      obtain ⟨e', c', hrun, he', hc'⟩ :=
        takes_statement (CommandStatement.takes_contents he hrest) span c hc
      exact ⟨e', c', firstOf_of_ok hrun _, he', hc'⟩
    | value number =>
      have hliteral : StartsIn [.literal] c.contents := by
        rw [hc]
        exact .cons List.mem_cons_self _
      obtain ⟨e', c', hrun, he', hc'⟩ := takes_statement (Statement.takes_valueParser number) span c hc
      exact ⟨e', c', ofConstructs_of_value hliteral hrun, he', hc'⟩
    | allocation size =>
      obtain ⟨e', c', hrun, he', hc'⟩ :=
        takes_statement (Statement.takes_allocationParser size) span c hc
      exact ⟨e', c', ofConstructs_of_allocation hc (by decide) hrun, he', hc'⟩
  | label name span =>
    have hunknown : InstructionSet.standard.find? (String.ofList (Text.toUpper name)) = none :=
      InstructionSet.find?_eq_none_iff.2 he.2
    have hmarker : StartsIn [.labelMarker] ((.labelMarker, [':']) :: rest) :=
      .cons List.mem_cons_self _
    obtain ⟨e', c', hrun, he', hc'⟩ := takes_labelParser name c hc
    exact ⟨e', c', ofConstructs_of_label hc hunknown hmarker hrun, he', hc'⟩
  | comment | terminator | unrecognised => exact absurd he not_false

/-- The kinds of lexemes that a printed element starts with. -/
def starts : List LexemeKind := [.identifier, .literal]

theorem exists_contents {e : Element} (he : e.Printable) :
    ∃ content more, e.contents = content :: more ∧ content.1.kind ∈ starts := by
  cases e with
  | statement s =>
    obtain ⟨body, span⟩ := s
    cases body <;> exact ⟨_, _, rfl, by simp [starts, Token.kind]⟩
  | label name span => exact ⟨_, _, rfl, by simp [starts, Token.kind]⟩
  | comment | terminator | unrecognised => exact absurd he not_false

/-- Where a printed element is ahead, one round reads it. -/
theorem elementsFrom_contents {e : Element} (he : e.Printable)
    (hrest : StartsIn [.statementTerminator] rest) {c : Cursor}
    (hc : c.contents = e.contents ++ rest) (rounds : Nat) :
    ∃ e' c', CompilationUnit.elementsFrom (rounds + 1) c =
        e' :: CompilationUnit.elementsFrom rounds c' ∧
      e'.unplaced = e.unplaced ∧ c'.contents = rest := by
  obtain ⟨content, more, hcontents, hkind⟩ := exists_contents he
  obtain ⟨e', c', hconstructs, he', hc'⟩ := ofConstructs_contents he hrest hc
  refine ⟨e', c', ?_, he', hc'⟩
  obtain ⟨position, lastStop, ahead⟩ := c
  rw [hcontents, List.cons_append] at hc
  cases ahead with
  | nil => cases hc
  | cons l others =>
    have hl : l.kind ∈ starts := by
      rw [← (List.cons.inj hc).1] at hkind
      exact hkind
    have hnext : next ⟨position, lastStop, l :: others⟩ l others = (e', c') := by
      unfold next
      split
      · rename_i hcomment
        rw [hcomment] at hl
        exact absurd hl (by decide)
      · rename_i hterminator
        rw [hterminator] at hl
        exact absurd hl (by decide)
      · rw [hconstructs]
    have hkind : ¬l.kind = .statementTerminator := by
      intro hterminator
      rw [hterminator] at hl
      exact absurd hl (by decide)
    simp only [CompilationUnit.elementsFrom, hnext, if_neg hkind]

theorem startsIn_further (elements : List Element) :
    StartsIn [.statementTerminator] (elements.flatMap furtherContents) := by
  cases elements with
  | nil => exact nofun
  | cons e elements => exact .cons List.mem_cons_self _

/-- Where a statement terminator is ahead, one round passes it. -/
theorem elementsFrom_statementTerminator {c : Cursor} {text : List Char}
    (hc : c.contents = (.statementTerminator, text) :: rest) (rounds : Nat) :
    CompilationUnit.elementsFrom (rounds + 1) c = CompilationUnit.elementsFrom rounds c.advance ∧
      c.advance.contents = rest := by
  obtain ⟨position, lastStop, ahead⟩ := c
  cases ahead with
  | nil => cases hc
  | cons l others =>
    obtain ⟨hl, hothers⟩ := List.cons.inj hc
    have hkind : l.kind = .statementTerminator := congrArg (·.1.kind) hl
    refine ⟨?_, hothers⟩
    rw [CompilationUnit.elementsFrom]
    simp only [hkind, if_true]

/-- Printed elements behind others are read back one after the other. Each takes up two rounds, and at
least as many lexemes. -/
theorem elementsFrom_further {elements : List Element} (h : ∀ e ∈ elements, e.Printable) {c : Cursor}
    {rounds : Nat} (hc : c.contents = elements.flatMap furtherContents)
    (hrounds : c.contents.length ≤ rounds) :
    (CompilationUnit.elementsFrom rounds c).map unplaced = elements.map unplaced := by
  induction elements generalizing c rounds with
  | nil =>
    have hnone : c.ahead = [] := List.map_eq_nil_iff.1 hc
    cases rounds with
    | zero => rfl
    | succ rounds => simp only [CompilationUnit.elementsFrom, hnone, List.map_nil]
  | cons e elements ih =>
    rw [List.forall_mem_cons] at h
    rw [List.flatMap_cons, furtherContents, List.cons_append] at hc
    obtain ⟨content, more, hcontents, -⟩ := exists_contents h.1
    have hlength : (elements.flatMap furtherContents).length + 2 ≤ rounds := by
      rw [hc, hcontents] at hrounds
      simp only [List.length_cons, List.length_append] at hrounds
      omega
    obtain ⟨rounds, rfl⟩ := Nat.exists_eq_add_of_le' (Nat.le_of_add_left_le hlength)
    obtain ⟨hadvance, hbehind⟩ := elementsFrom_statementTerminator hc (rounds + 1)
    obtain ⟨e', c', hround, he', hc'⟩ :=
      elementsFrom_contents h.1 (startsIn_further elements) hbehind rounds
    have hrounds' : c'.contents.length ≤ rounds := by
      rw [hc']
      omega
    rw [hadvance, hround, List.map_cons, List.map_cons, he', ih h.2 hc' hrounds']

/-- Printed elements are read back. -/
theorem elementsFrom_lines {elements : List Element} (h : ∀ e ∈ elements, e.Printable) {c : Cursor}
    (hc : c.contents = linesContents elements) :
    (CompilationUnit.ofCursor c).elements.map unplaced = elements.map unplaced := by
  have hlength : c.contents.length = c.ahead.length := List.length_map _
  cases elements with
  | nil => exact elementsFrom_further h hc hlength.le
  | cons e elements =>
    rw [List.forall_mem_cons] at h
    rw [linesContents] at hc
    obtain ⟨content, more, hcontents, -⟩ := exists_contents h.1
    rw [hc, hcontents, List.length_append, List.length_cons, Nat.add_right_comm] at hlength
    obtain ⟨e', c', hround, he', hc'⟩ :=
      elementsFrom_contents h.1 (startsIn_further elements) hc
        (more.length + (elements.flatMap furtherContents).length)
    have hrounds : c'.contents.length ≤ more.length + (elements.flatMap furtherContents).length := by
      rw [hc']
      exact Nat.le_add_left _ _
    show (CompilationUnit.elementsFrom c.ahead.length c).map unplaced = _
    rw [← hlength, hround, List.map_cons, List.map_cons, he', elementsFrom_further h.2 hc' hrounds]

/-- The text that is printed of elements is divided into lexemes, and these make the elements. -/
theorem exists_lex_printLines {elements : List Element} (h : ∀ e ∈ elements, e.Printable) :
    ∃ lexemes, lex (printLines elements) = .ok lexemes ∧
      (CompilationUnit.ofLexemes lexemes).elements.map unplaced = elements.map unplaced := by
  obtain ⟨lexemes, hlex, hcontents⟩ := (reads_printLines h).lex
  exact ⟨lexemes, hlex, elementsFrom_lines h hcontents⟩

theorem unrecognised?_unplaced (e : Element) : e.unplaced.unrecognised? = e.unrecognised? := by
  cases e <;> rfl

theorem Printable.unrecognised? {e : Element} (h : e.Printable) : e.unrecognised? = none := by
  cases e with
  | unrecognised => exact absurd h not_false
  | statement | label | comment | terminator => rfl

end Element

/-- Printing elements one on a line and reading the text gives these elements back up to their places. -/
theorem parse_printLines {elements : List Element} (h : ∀ e ∈ elements, e.Printable) :
    ∃ lexemes, lex (Element.printLines elements) = .ok lexemes ∧
      (CompilationUnit.ofLexemes lexemes).elements.map Element.unplaced =
        elements.map Element.unplaced ∧
      (CompilationUnit.ofLexemes lexemes).unrecognised = [] := by
  obtain ⟨lexemes, hlex, hread⟩ := Element.exists_lex_printLines h
  refine ⟨lexemes, hlex, hread, ?_⟩
  calc (CompilationUnit.ofLexemes lexemes).unrecognised
      = ((CompilationUnit.ofLexemes lexemes).elements.map Element.unplaced).filterMap
          Element.unrecognised? := by
        rw [List.filterMap_map, CompilationUnit.unrecognised]
        exact congrArg (List.filterMap · _) (funext fun e => (Element.unrecognised?_unplaced e).symm)
    _ = elements.filterMap Element.unrecognised? := by
        rw [hread, List.filterMap_map]
        exact congrArg (List.filterMap · _) (funext Element.unrecognised?_unplaced)
    _ = [] := List.filterMap_eq_nil_iff.2 fun e he => (h e he).unrecognised?

/-- A label, commands, a value and an allocation, with terms of every kind. -/
def Element.sample : List Element := [
  .label "start".toList .none,
  .statement ⟨.command ⟨InstructionSet.standard.entries.get ⟨0, by decide⟩, some .value,
    [.register 1, .address ⟨[.symbol "table".toList true, .literal 2, .symbol "size".toList false,
      .literal (-3)], some ⟨9, some .preDecrement⟩, .none⟩], .none⟩, .none⟩,
  .statement ⟨.command ⟨InstructionSet.standard.entries.get ⟨9, by decide⟩, none,
    [.condition .nonpositive, .address ⟨[.symbol "start".toList true], none, .none⟩], .none⟩, .none⟩,
  .statement ⟨.value (-7), .none⟩,
  .statement ⟨.allocation 0, .none⟩]

theorem parse_printLines_of_sample :
    String.ofList (Element.printLines Element.sample) =
      "start:\nHIA.w R1, table + 2 - size - 3(-R9)\nVSP NPOS, start\n-7\nRESGR 0" ∧
    (∀ e ∈ Element.sample, e.Printable) ∧
    ∃ lexemes, lex (Element.printLines Element.sample) = .ok lexemes ∧
      (CompilationUnit.ofLexemes lexemes).elements.map Element.unplaced =
        Element.sample.map Element.unplaced ∧
      (CompilationUnit.ofLexemes lexemes).unrecognised = [] := by
  have hprintable : ∀ e ∈ Element.sample, e.Printable := by decide +kernel
  exact ⟨by decide +kernel, hprintable, parse_printLines hprintable⟩

end Drama
