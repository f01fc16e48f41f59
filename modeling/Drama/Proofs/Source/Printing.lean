-- SUMMARY: Printing elements of source text, and the lexemes that printed elements are divided into.
import Drama.Proofs.Command.Resolution
import Drama.Proofs.Source.Recognition
import Drama.Source.Construct

/-!
# Printing

Elements are printed one on a line, as they stand in source text. `Reads` says which lexemes, up to their
places, a text is divided into. Printed text is followed by nothing that would continue its last word, so
each construct gives the lexemes that it is printed from, whatever stands behind it.
-/

namespace Drama

open Text

/-! ## Printed elements -/

namespace Term

/-- A term as the first one of an address. -/
def print : Term → List Char
  | .literal value => (toString value).toList
  | .symbol name _ => name

/-- The operator before a term that stands behind others. -/
def operator : Term → Operator
  | .literal value => if value < 0 then .minus else .plus
  | .symbol _ positive => if positive then .plus else .minus

/-- The term without its sign. -/
def magnitude : Term → Term
  | .literal value => .literal value.natAbs
  | .symbol name _ => .symbol name true

/-- Whether a term is a subtracted symbol, which cannot be the first term. -/
def isSubtracted : Term → Bool
  | .literal _ => false
  | .symbol _ positive => !positive

/-- A term behind others. -/
def printFurther (t : Term) : List Char := ' ' :: t.operator.symbol :: ' ' :: t.magnitude.print

end Term

/-- An index register in its parentheses. -/
def Index.print (i : Index) : List Char := '(' :: i.text.toList ++ [')']

def AddressExpression.print (e : AddressExpression) : List Char :=
  (match e.terms with
    | [] => []
    | first :: others => first.print ++ others.flatMap Term.printFurther) ++
  e.index.toList.flatMap Index.print

namespace WrittenArgument

def print : WrittenArgument → List Char
  | .register number => 'R' :: (toString number).toList
  | .condition c => c.mnemonic.toList
  | .address e => e.print

/-- An argument behind others. -/
def printFurther (a : WrittenArgument) : List Char := ',' :: ' ' :: a.print

/-- The arguments of a command, behind its instruction. -/
def printAll : List WrittenArgument → List Char
  | [] => []
  | first :: others => ' ' :: first.print ++ others.flatMap printFurther

end WrittenArgument

def CommandStatement.print (c : CommandStatement) : List Char :=
  (Command.layoutText c.instruction.mnemonic c.mode
    (c.arguments.map fun a => String.ofList a.print)).toList

def Statement.Body.print : Statement.Body → List Char
  | .command c => c.print
  | .value number => (toString number).toList
  | .allocation size => allocationWord ++ ' ' :: (toString (size : Int)).toList

namespace Element

def print : Element → List Char
  | .statement s => s.body.print
  | .label name _ => name ++ [':']
  | .comment text _ => text
  | .terminator _ => Token.terminatorWord
  | .unrecognised source => source.lexemes.flatMap (·.text)

/-- Elements with one on each line. -/
def printLines (elements : List Element) : List Char := ['\n'].intercalate (elements.map print)

end Element

/-! ## Elements that can be printed -/

/-- A name is an identifier when it stands alone. -/
def IsName (name : List Char) : Prop := lex name = .ok [⟨.identifier, name, 0, name.length⟩]

instance (name : List Char) : Decidable (IsName name) :=
  inferInstanceAs (Decidable (lex name = .ok [⟨.identifier, name, 0, name.length⟩]))

def Term.Printable : Term → Prop
  | .literal value => value.natAbs < Numeral.writeBound
  | .symbol name _ => IsName name

structure AddressExpression.Printable (e : AddressExpression) : Prop where
  terms : ∀ t ∈ e.terms, t.Printable
  nonempty : e.terms ≠ []
  first : e.terms.head?.any Term.isSubtracted = false
  index : ∀ index ∈ e.index, IsRegister index.register

def WrittenArgument.Printable : WrittenArgument → Prop
  | .register number => number ≤ 9
  | .condition _ => True
  | .address e => e.Printable

structure CommandStatement.Printable (c : CommandStatement) : Prop where
  standard : c.instruction ∈ InstructionSet.standard.entries
  arguments : ∀ a ∈ c.arguments, a.Printable

def Statement.Body.Printable : Statement.Body → Prop
  | .command c => c.Printable
  | .value number => number.natAbs < Numeral.writeBound
  | .allocation size => size < Numeral.writeBound

/-- The elements that are read back from what is printed of them. -/
def Element.Printable : Element → Prop
  | .statement s => s.body.Printable
  | .label name _ => IsName name ∧
      String.ofList (Text.toUpper name) ∉ InstructionSet.standard.mnemonics
  | .comment .. | .terminator _ | .unrecognised _ => False

section

-- Whether elements can be printed is decided part by part.

instance : (t : Term) → Decidable t.Printable
  | .literal value => inferInstanceAs (Decidable (value.natAbs < Numeral.writeBound))
  | .symbol name _ => inferInstanceAs (Decidable (IsName name))

instance (e : AddressExpression) : Decidable e.Printable :=
  decidable_of_iff ((∀ t ∈ e.terms, t.Printable) ∧ e.terms ≠ [] ∧
      e.terms.head?.any Term.isSubtracted = false ∧ ∀ index ∈ e.index, IsRegister index.register)
    ⟨fun ⟨terms, nonempty, first, index⟩ => ⟨terms, nonempty, first, index⟩,
      fun ⟨terms, nonempty, first, index⟩ => ⟨terms, nonempty, first, index⟩⟩

instance : (a : WrittenArgument) → Decidable a.Printable
  | .register number => inferInstanceAs (Decidable (number ≤ 9))
  | .condition _ => .isTrue trivial
  | .address e => inferInstanceAs (Decidable e.Printable)

instance (c : CommandStatement) : Decidable c.Printable :=
  decidable_of_iff (c.instruction ∈ InstructionSet.standard.entries ∧ ∀ a ∈ c.arguments, a.Printable)
    ⟨fun ⟨standard, arguments⟩ => ⟨standard, arguments⟩,
      fun ⟨standard, arguments⟩ => ⟨standard, arguments⟩⟩

instance : (body : Statement.Body) → Decidable body.Printable
  | .command c => inferInstanceAs (Decidable c.Printable)
  | .value number => inferInstanceAs (Decidable (number.natAbs < Numeral.writeBound))
  | .allocation size => inferInstanceAs (Decidable (size < Numeral.writeBound))

instance : (e : Element) → Decidable e.Printable
  | .statement s => inferInstanceAs (Decidable s.body.Printable)
  | .label name _ => inferInstanceAs (Decidable (IsName name ∧
      String.ofList (Text.toUpper name) ∉ InstructionSet.standard.mnemonics))
  | .comment .. | .terminator _ | .unrecognised _ => .isFalse not_false

end

/-! ## Lexemes without their places -/

abbrev Content := Token × List Char

def Lexeme.content (l : Lexeme) : Content := (l.token, l.text)

def Operator.content (o : Operator) : Content := (.operator o, [o.symbol])

namespace Term

def content : Term → Content
  | .literal value => (.literal value, (toString value).toList)
  | .symbol name _ => (.identifier, name)

def furtherContents (t : Term) : List Content := [t.operator.content, t.magnitude.content]

end Term

def Modification.operator (m : Modification) : Operator := if m.step > 0 then .plus else .minus

namespace Index

/-- The lexemes between the parentheses. -/
def innerContents (i : Index) : List Content :=
  let register : Content := (.register i.register.toNat, 'R' :: (toString i.register).toList)
  match i.modification with
  | none => [register]
  | some m => if m.isPre then [m.operator.content, register] else [register, m.operator.content]

def contents (i : Index) : List Content :=
  (.scope .opening, ['(']) :: i.innerContents ++ [(.scope .closing, [')'])]

end Index

def AddressExpression.contents (e : AddressExpression) : List Content :=
  (match e.terms with
    | [] => []
    | first :: others => first.content :: others.flatMap Term.furtherContents) ++
  e.index.toList.flatMap Index.contents

namespace WrittenArgument

def contents : WrittenArgument → List Content
  | .register number => [(.register number, 'R' :: (toString number).toList)]
  | .condition c => [(.condition c, c.mnemonic.toList)]
  | .address e => e.contents

def furtherContents (a : WrittenArgument) : List Content :=
  (.argumentSeparator, [',']) :: a.contents

def allContents : List WrittenArgument → List Content
  | [] => []
  | first :: others => first.contents ++ others.flatMap furtherContents

end WrittenArgument

def AddressingMode.content (m : AddressingMode) : Content := (.addressingMode (some m), ['.', m.letter])

def CommandStatement.contents (c : CommandStatement) : List Content :=
  (.identifier, c.instruction.mnemonic.toList) :: c.mode.toList.map AddressingMode.content ++
    WrittenArgument.allContents c.arguments

def Statement.Body.contents : Statement.Body → List Content
  | .command c => c.contents
  | .value number => [(.literal number, (toString number).toList)]
  | .allocation size => [(.identifier, allocationWord), (.literal size, (toString (size : Int)).toList)]

namespace Element

def contents : Element → List Content
  | .statement s => s.body.contents
  | .label name _ => [(.identifier, name), (.labelMarker, [':'])]
  | .comment .. | .terminator _ | .unrecognised _ => []

/-- An element behind others on a line of its own. -/
def furtherContents (e : Element) : List Content := (.statementTerminator, ['\n']) :: e.contents

def linesContents : List Element → List Content
  | [] => []
  | first :: others => first.contents ++ others.flatMap furtherContents

end Element

/-! ## Dividing text into lexemes -/

/-- Wherever a text stands, it is divided into lexemes of the given contents. -/
def Reads (text : List Char) (contents : List Content) : Prop :=
  ∀ position, ∃ lexemes, Lexing.scan position 0 text = ⟨lexemes, none⟩ ∧
    lexemes.map Lexeme.content = contents

namespace Reads

variable {rest : List Char} {contents : List Content}

theorem lex {text : List Char} (h : Reads text contents) :
    ∃ lexemes, Drama.lex text = .ok lexemes ∧ lexemes.map Lexeme.content = contents := by
  obtain ⟨lexemes, hscan, hcontents⟩ := h 0
  refine ⟨lexemes, ?_, hcontents⟩
  simp only [Drama.lex, Lexing.ofText, hscan]

theorem nil : Reads [] [] := fun _ => ⟨[], rfl, rfl⟩

theorem blank (h : Reads rest contents) : Reads (' ' :: rest) contents := fun position =>
  h (position + 1)

/-- The characters of a lexeme that has been found are skipped. -/
theorem scan_append (position : Nat) (piece rest : List Char) :
    Lexing.scan position piece.length (piece ++ rest) =
      Lexing.scan (position + piece.length) 0 rest := by
  induction piece generalizing position with
  | nil => rfl
  | cons c piece ih =>
    rw [List.length_cons, List.cons_append, Lexing.scan, ih, Nat.add_right_comm]
    rfl

theorem token {piece : List Char} {t : Token} (hne : piece ≠ []) (ht : t ≠ .unrecognised)
    (hread : Token.read (piece ++ rest) = .ok (t, piece.length)) (h : Reads rest contents) :
    Reads (piece ++ rest) ((t, piece) :: contents) := by
  intro position
  cases piece with
  | nil => exact absurd rfl hne
  | cons c piece =>
    have hblank : isHorizontalBlank c = false := by
      by_contra hblank
      rw [List.cons_append, Token.read_of_isHorizontalBlank (by simpa using hblank)] at hread
      exact ht (Prod.mk.inj (Except.ok.inj hread)).1.symm
    obtain ⟨lexemes, hscan, rfl⟩ := h (position + 1 + piece.length)
    refine ⟨⟨t, c :: piece, position, position + (piece.length + 1)⟩ :: lexemes, ?_, rfl⟩
    rw [List.cons_append] at hread ⊢
    have htake : (c :: (piece ++ rest)).take (piece.length + 1) = c :: piece := by simp
    simp only [Lexing.scan, hblank, hread, List.length_cons, Nat.add_sub_cancel, scan_append, hscan,
      htake, Bool.false_eq_true, if_false]

end Reads

/-- The lexemes start where their scan starts to look for them, or behind that. -/
theorem Lexing.le_start_of_mem (position skip : Nat) (text : List Char) :
    ∀ l ∈ (scan position skip text).lexemes, position + skip ≤ l.start := by
  fun_induction scan position skip text with
  | case1 => exact List.forall_mem_nil _
  | case2 position skip c rest ih => exact fun l hl => by have := ih l hl; omega
  | case3 position c rest hblank ih => exact fun l hl => by have := ih l hl; omega
  | case4 => exact List.forall_mem_nil _
  | case5 position c rest hblank token length hread lexeme following ih =>
    rw [List.forall_mem_cons]
    exact ⟨Nat.le_refl _, fun l hl => by have := ih l hl; omega⟩

/-- A name is recognised as an identifier, to its end. -/
theorem IsName.read_eq {name : List Char} (h : IsName name) :
    name ≠ [] ∧ Token.read name = .ok (.identifier, name.length) := by
  have hscan : (Lexing.scan 0 0 name).lexemes = [⟨.identifier, name, 0, name.length⟩] := by
    unfold IsName lex Lexing.ofText at h
    dsimp only at h
    split at h
    · exact Except.ok.inj h
    · cases h
  cases name with
  | nil => cases hscan
  | cons c rest =>
    refine ⟨List.cons_ne_nil _ _, ?_⟩
    rw [Lexing.scan] at hscan
    split at hscan
    · -- a blank before the lexeme would move it on
      have hstart := Lexing.le_start_of_mem 1 0 rest ⟨.identifier, c :: rest, 0, rest.length + 1⟩
        (by rw [hscan]; exact List.mem_cons_self)
      exact absurd hstart (Nat.not_succ_le_zero 0)
    · cases hread : Token.read (c :: rest) with
      | error e => simp [hread] at hscan
      | ok found =>
        simp only [hread, List.cons.injEq, Lexeme.mk.injEq, Nat.zero_add] at hscan
        obtain ⟨⟨htoken, -, -, hlength⟩, -⟩ := hscan
        rw [← htoken, ← hlength]

/-- A name is a word, and none that ends the program. -/
theorem IsName.word {name : List Char} (h : IsName name) :
    name ≠ [] ∧ (∀ c ∈ name, isWordChar c = true) ∧ Token.programTerminator? name = none ∧
      Token.read name = .ok (.identifier, name.length) := by
  obtain ⟨hne, hread⟩ := h.read_eq
  obtain ⟨hterminator, hidentifier⟩ := Token.of_read_eq_identifier hread
  refine ⟨hne, ?_, hterminator, hread⟩
  have hlength : (Token.leadingWord name).length = name.length := by
    simp only [Token.identifier?, Option.ite_none_left_eq_some, Option.some.injEq,
      Prod.mk.injEq, true_and] at hidentifier
    exact hidentifier.2
  have hwhole : name.takeWhile isWordChar = name :=
    (List.takeWhile_prefix _).eq_of_length hlength
  exact List.takeWhile_eq_self_iff.1 hwhole

/-! ## Lexemes of printed elements -/

/-- A text that may stand behind a word, with its lexemes. -/
structure ReadsBehind (text : List Char) (contents : List Content) : Prop where
  start : Token.startsWithWord text = false
  reads : Reads text contents

namespace ReadsBehind

variable {rest : List Char} {contents : List Content}

theorem nil : ReadsBehind [] [] := ⟨rfl, .nil⟩

theorem blank (h : Reads rest contents) : ReadsBehind (' ' :: rest) contents :=
  ⟨by rw [Token.startsWithWord, List.head?_cons]; decide, h.blank⟩

theorem literal {value : Int} (hvalue : value.natAbs < Numeral.writeBound)
    (h : ReadsBehind rest contents) :
    Reads ((toString value).toList ++ rest) ((.literal value, (toString value).toList) :: contents) := by
  refine h.reads.token ?_ (by simp) (Token.read_literal hvalue h.start)
  cases value with
  | ofNat n =>
    rw [Int.ofNat_eq_natCast, Numeral.toList_toString_ofNat]
    exact Nat.toDigits_ne_nil
  | negSucc n =>
    rw [Numeral.toList_toString_negSucc]
    exact List.cons_ne_nil _ _

theorem name {name : List Char} (hname : IsName name) (h : ReadsBehind rest contents) :
    Reads (name ++ rest) ((.identifier, name) :: contents) := by
  obtain ⟨hne, hword, hterminator, hread⟩ := hname.word
  exact h.reads.token hne (by simp)
    ((Token.read_word_append hword hne hterminator h.start).trans hread)

theorem register {n : Nat} (hn : n ≤ 9) (h : ReadsBehind rest contents) :
    Reads ('R' :: (toString n).toList ++ rest)
      ((.register n, 'R' :: (toString n).toList) :: contents) :=
  h.reads.token (List.cons_ne_nil _ _) (by simp) (Token.read_register hn h.start)

theorem condition (c : Condition) (h : ReadsBehind rest contents) :
    Reads (c.mnemonic.toList ++ rest) ((.condition c, c.mnemonic.toList) :: contents) :=
  h.reads.token (by cases c <;> decide) (by simp) (Token.read_mnemonic c h.start)

theorem suffix (m : AddressingMode) (h : ReadsBehind rest contents) :
    ReadsBehind ('.' :: m.letter :: rest) (m.content :: contents) where
  start := by
    rw [Token.startsWithWord, List.head?_cons]
    decide
  reads := h.reads.token (List.cons_ne_nil '.' [m.letter]) (by simp) (Token.read_suffix m h.start)

/-- A symbol stands behind words and before anything, but a minus sign not before a digit. -/
theorem symbol {c : Char} {t : Token} (hc : Token.ofSymbol? c = some t)
    (hrest : c = '-' → ∀ d ∈ rest.head?, isDecimalDigit d = false) (h : Reads rest contents) :
    ReadsBehind (c :: rest) ((t, [c]) :: contents) := by
  obtain ⟨hword, -, -, hkind⟩ := Token.of_ofSymbol? hc
  refine ⟨by simpa [Token.startsWithWord] using hword, ?_⟩
  refine h.token (List.cons_ne_nil c []) ?_ (Token.read_symbol hc hrest)
  rintro rfl
  exact hkind rfl

/-- What is printed of items one after the other may stand behind a word if that of each may. -/
theorem flatMap {α : Type} {items : List α} {print : α → List Char} {lexemes : α → List Content}
    (hstep : ∀ x ∈ items, ∀ rest contents, ReadsBehind rest contents →
      ReadsBehind (print x ++ rest) (lexemes x ++ contents))
    (h : ReadsBehind rest contents) :
    ReadsBehind (items.flatMap print ++ rest) (items.flatMap lexemes ++ contents) := by
  induction items with
  | nil => exact h
  | cons x items ih =>
    rw [List.flatMap_cons, List.flatMap_cons, List.append_assoc, List.append_assoc]
    exact hstep x List.mem_cons_self _ _ (ih fun y hy => hstep y (List.mem_cons_of_mem x hy))

end ReadsBehind

section

variable {rest : List Char} {contents : List Content}

theorem Operator.ofSymbol?_symbol (o : Operator) : Token.ofSymbol? o.symbol = some (.operator o) := by
  cases o <;> rfl

theorem Term.reads {t : Term} (ht : t.Printable) (h : ReadsBehind rest contents) :
    Reads (t.print ++ rest) (t.content :: contents) := by
  cases t with
  | literal value => exact h.literal ht
  | symbol name positive => exact h.name ht

theorem Term.printable_magnitude {t : Term} (ht : t.Printable) : t.magnitude.Printable := by
  cases t with
  | literal value => exact ht
  | symbol name positive => exact ht

theorem Term.readsBehind_further {t : Term} (ht : t.Printable) (h : ReadsBehind rest contents) :
    ReadsBehind (t.printFurther ++ rest) (t.furtherContents ++ contents) := by
  have hterm := Term.reads (Term.printable_magnitude ht) h
  have hoperator := ReadsBehind.symbol t.operator.ofSymbol?_symbol (fun _ d hd => by
    cases hd
    decide) hterm.blank
  exact .blank hoperator.reads

theorem Index.toList_text (i : Index) :
    i.text.toList = match i.modification with
      | none => 'R' :: (toString i.register).toList
      | some m =>
        if m.isPre then m.operator.symbol :: 'R' :: (toString i.register).toList
        else 'R' :: (toString i.register).toList ++ [m.operator.symbol] := by
  obtain ⟨register, modification⟩ := i
  cases modification with
  | none =>
    simp only [Index.text, String.toList_append]
    rfl
  | some m =>
    cases m <;>
      simp only [Index.text, Modification.isPre, if_true, Bool.false_eq_true, if_false,
        String.toList_append] <;>
      rfl

theorem Index.readsBehind {i : Index} (hi : IsRegister i.register) (h : Reads rest contents) :
    ReadsBehind (i.print ++ rest) (i.contents ++ contents) := by
  obtain ⟨register, modification⟩ := i
  obtain ⟨n, rfl⟩ := Int.eq_ofNat_of_zero_le hi.1
  have hn : n ≤ 9 := Int.ofNat_le.1 hi.2
  have hnumber : toString (n : Int) = toString n := rfl
  have hclosing : ReadsBehind (')' :: rest) ((.scope .closing, [')']) :: contents) :=
    .symbol rfl (fun hc => absurd hc (by decide)) h
  have hopening {text : List Char} {inner : List Content} (h : Reads text inner) :
      ReadsBehind ('(' :: text) ((.scope .opening, ['(']) :: inner) :=
    .symbol rfl (fun hc => absurd hc (by decide)) h
  cases modification with
  | none =>
    simp only [Index.print, Index.toList_text, Index.contents, Index.innerContents, hnumber,
      Int.toNat_natCast, List.cons_append, List.nil_append, List.append_assoc]
    exact hopening (hclosing.register hn)
  | some m =>
    cases hm : m.isPre with
    | true =>
      have hoperator := ReadsBehind.symbol m.operator.ofSymbol?_symbol (fun _ d hd => by
        cases hd
        decide) (hclosing.register hn)
      simp only [Index.print, Index.toList_text, Index.contents, Index.innerContents, hnumber, hm,
        Int.toNat_natCast, List.cons_append, List.nil_append, List.append_assoc, if_true]
      exact hopening hoperator.reads
    | false =>
      have hoperator := ReadsBehind.symbol m.operator.ofSymbol?_symbol (fun _ d hd => by
        cases hd
        decide) hclosing.reads
      simp only [Index.print, Index.toList_text, Index.contents, Index.innerContents, hnumber, hm,
        Int.toNat_natCast, List.cons_append, List.nil_append, List.append_assoc, Bool.false_eq_true,
        if_false]
      exact hopening (hoperator.register hn)

theorem AddressExpression.reads {e : AddressExpression} (he : e.Printable)
    (h : ReadsBehind rest contents) : Reads (e.print ++ rest) (e.contents ++ contents) := by
  obtain ⟨first, others, hterms⟩ := List.exists_cons_of_ne_nil he.nonempty
  have hprintable := he.terms
  rw [hterms, List.forall_mem_cons] at hprintable
  have hindex : ReadsBehind (e.index.toList.flatMap Index.print ++ rest)
      (e.index.toList.flatMap Index.contents ++ contents) :=
    h.flatMap fun i hi _ _ h => Index.readsBehind (he.index i (Option.mem_toList.1 hi)) h.reads
  have hothers := hindex.flatMap fun t ht _ _ h => Term.readsBehind_further (hprintable.2 t ht) h
  simp only [print, AddressExpression.contents, hterms, List.append_assoc, List.cons_append]
  exact Term.reads hprintable.1 hothers

theorem WrittenArgument.reads {a : WrittenArgument} (ha : a.Printable)
    (h : ReadsBehind rest contents) : Reads (a.print ++ rest) (a.contents ++ contents) := by
  cases a with
  | register number => exact h.register ha
  | condition c => exact h.condition c
  | address e => exact AddressExpression.reads ha h

theorem WrittenArgument.readsBehind_further {a : WrittenArgument} (ha : a.Printable)
    (h : ReadsBehind rest contents) :
    ReadsBehind (a.printFurther ++ rest) (a.furtherContents ++ contents) :=
  .symbol rfl (fun hc => absurd hc (by decide)) (reads ha h).blank

/-- Texts with separators between them are the first one and the others behind a separator each. -/
theorem intercalate_cons {α : Type} (separator first : List α) (others : List (List α)) :
    separator.intercalate (first :: others) = first ++ others.flatMap (separator ++ ·) := by
  induction others generalizing first with
  | nil => rw [List.intercalate_singleton, List.flatMap_nil, List.append_nil]
  | cons second others ih =>
    rw [List.intercalate_cons_cons, ih, List.flatMap_cons, List.append_assoc, List.append_assoc]

theorem Command.toList_layoutText (mnemonic : String) (mode : Option AddressingMode)
    (texts : List String) :
    (layoutText mnemonic mode texts).toList =
      mnemonic.toList ++ (mode.toList.flatMap fun m => ['.', m.letter]) ++
        match texts.map String.toList with
        | [] => []
        | first :: others => ' ' :: first ++ others.flatMap ([',', ' '] ++ ·) := by
  have hseparator : ", ".toList = [',', ' '] := rfl
  cases mode <;> cases texts <;>
    simp [layoutText, String.toList_intercalate, intercalate_cons, hseparator]

theorem WrittenArgument.readsBehind_all {arguments : List WrittenArgument}
    (h : ∀ a ∈ arguments, a.Printable) (hrest : ReadsBehind rest contents) :
    ReadsBehind (printAll arguments ++ rest) (allContents arguments ++ contents) := by
  cases arguments with
  | nil => exact hrest
  | cons first others =>
    rw [List.forall_mem_cons] at h
    have hothers := hrest.flatMap fun a ha _ _ h' => readsBehind_further (h.2 a ha) h'
    simp only [printAll, allContents, List.cons_append, List.append_assoc]
    exact .blank (reads h.1 hothers)

theorem CommandStatement.print_eq (c : CommandStatement) :
    c.print = c.instruction.mnemonic.toList ++ (c.mode.toList.flatMap fun m => ['.', m.letter]) ++
      WrittenArgument.printAll c.arguments := by
  rw [print, Command.toList_layoutText, List.map_map]
  cases c.arguments with
  | nil => rfl
  | cons first others =>
    simp only [List.map_cons, Function.comp, String.toList_ofList, List.flatMap_map]
    rfl

theorem CommandStatement.reads {c : CommandStatement} (hc : c.Printable)
    (h : ReadsBehind rest contents) : Reads (c.print ++ rest) (c.contents ++ contents) := by
  have hmnemonics : ∀ i ∈ InstructionSet.standard.entries, IsName i.mnemonic.toList := by
    decide +kernel
  have harguments := WrittenArgument.readsBehind_all hc.arguments h
  simp only [print_eq, CommandStatement.contents, List.append_assoc, List.cons_append]
  apply ReadsBehind.name (hmnemonics _ hc.standard)
  cases c.mode with
  | none => exact harguments
  | some m => exact harguments.suffix m

theorem Statement.Body.reads {s : Statement.Body} (hs : s.Printable)
    (h : ReadsBehind rest contents) : Reads (s.print ++ rest) (s.contents ++ contents) := by
  cases s with
  | command c => exact CommandStatement.reads hs h
  | value number => exact h.literal hs
  | allocation size =>
    have hword : IsName allocationWord := by decide
    have hsize : (size : Int).natAbs < Numeral.writeBound := hs
    simp only [print, List.append_assoc, List.cons_append]
    exact ReadsBehind.name hword (.blank (h.literal hsize))

theorem Element.reads {e : Element} (he : e.Printable) (h : ReadsBehind rest contents) :
    Reads (e.print ++ rest) (e.contents ++ contents) := by
  cases e with
  | statement s => exact Statement.Body.reads he h
  | label name span =>
    have hmarker : ReadsBehind (':' :: rest) ((.labelMarker, [':']) :: contents) :=
      .symbol rfl (fun hc => absurd hc (by decide)) h.reads
    simp only [print, List.append_assoc]
    exact hmarker.name he.1
  | comment | terminator | unrecognised => exact absurd he not_false

/-- What is printed of elements is divided into the lexemes of these elements. -/
theorem Element.reads_printLines {elements : List Element} (h : ∀ e ∈ elements, e.Printable) :
    Reads (printLines elements) (linesContents elements) := by
  cases elements with
  | nil => exact .nil
  | cons first others =>
    rw [List.forall_mem_cons] at h
    have hothers : ReadsBehind (others.flatMap (fun e => ['\n'] ++ e.print) ++ [])
        (others.flatMap furtherContents ++ []) :=
      ReadsBehind.nil.flatMap fun e he _ _ h' =>
        .symbol rfl (fun hc => absurd hc (by decide)) (reads (h.2 e he) h')
    have hall := reads h.1 hothers
    rw [List.append_nil, List.append_nil] at hall
    rwa [printLines, List.map_cons, intercalate_cons, List.flatMap_map]

end

end Drama
