-- SUMMARY: The two passes of assembly: where the layout places statements and labels, and that the words follow it.
import Drama.Program.Basic
import Drama.Proofs.Command.Encoding
import Drama.Source.Unit
import Mathlib.Algebra.BigOperators.Group.List.Basic

/-!
# Layout

The first pass counts the words of statements, the second makes them. `Layout.Places` says what the first
pass makes of the elements before the first terminator: each statement and each label stands at the number
of words before it. The second pass makes as many words of a statement as the first one has counted, so
the words of each statement stand at its address.
-/

namespace Drama

/-! ## Elements of a program -/

namespace Element

def isTerminator : Element → Bool
  | .terminator _ => true
  | _ => false

/-- The elements that a program is made of, which are those before the first terminator. -/
def body (elements : List Element) : List Element := elements.takeWhile (!·.isTerminator)

/-- The statements among elements. -/
def statementsIn (elements : List Element) : List Statement := elements.filterMap statement?

/-- How many words the statements among elements take up. -/
def wordsIn (elements : List Element) : Nat := ((statementsIn elements).map Statement.wordCount).sum

theorem wordsIn_append (first second : List Element) :
    wordsIn (first ++ second) = wordsIn first + wordsIn second := by
  simp only [wordsIn, statementsIn, List.filterMap_append, List.map_append, List.sum_append]

theorem wordsIn_cons (e : Element) (rest : List Element) :
    wordsIn (e :: rest) = wordsIn [e] + wordsIn rest := wordsIn_append [e] rest

end Element

/-! ## The first pass -/

namespace Layout

/-- Statements one after the other from an address on. -/
def placedFrom (address : Nat) : List Statement → List PlacedStatement
  | [] => []
  | s :: rest => ⟨address, s⟩ :: placedFrom (address + s.wordCount) rest

theorem placedFrom_getElem? (address : Nat) (statements : List Statement) (i : Nat) :
    (placedFrom address statements)[i]? =
      statements[i]?.map (⟨address + ((statements.take i).map Statement.wordCount).sum, ·⟩) := by
  induction statements generalizing address i with
  | nil => rfl
  | cons s rest ih =>
    cases i with
    | zero => rfl
    | succ i =>
      rw [placedFrom, List.getElem?_cons_succ, List.getElem?_cons_succ, ih]
      simp only [List.take_succ_cons, List.map_cons, List.sum_cons, Nat.add_assoc]

theorem placedFrom_statement (address : Nat) (statements : List Statement) :
    (placedFrom address statements).map (·.statement) = statements := by
  induction statements generalizing address with
  | nil => rfl
  | cons s rest ih => rw [placedFrom, List.map_cons, ih]

/-- A layout after elements without a terminator have been placed: statements and labels stand at the
number of words before them. -/
structure Places (l : Layout) (body : List Element) (l' : Layout) : Prop where
  statements : l'.statements.toList =
    l.statements.toList ++ placedFrom l.size (Element.statementsIn body)
  size : l'.size = l.size + Element.wordsIn body
  symbols : ∀ name (address : Int), l'.symbols.lookup name = some address ↔
    l.symbols.lookup name = some address ∨
      ∃ before span after, body = before ++ .label name span :: after ∧
        address = (l.size + Element.wordsIn before : Nat)

namespace Places

variable {l l' : Layout} {body : List Element}

theorem nil : Places l [] l := by
  refine ⟨(List.append_nil _).symm, rfl, fun name address => ⟨.inl, ?_⟩⟩
  rintro (h | ⟨before, span, after, h, -⟩)
  · exact h
  · simp at h

/-- A label lies behind an element that is no label exactly if it lies in what follows that element. -/
theorem exists_label_cons {e : Element} (he : ∀ name span, e ≠ .label name span) {start : Nat}
    {name : List Char} {address : Int} :
    (∃ before span after, e :: body = before ++ .label name span :: after ∧
        address = (start + Element.wordsIn before : Nat)) ↔
      ∃ before span after, body = before ++ .label name span :: after ∧
        address = (start + Element.wordsIn [e] + Element.wordsIn before : Nat) := by
  constructor
  · rintro ⟨before, span, after, hbody, haddress⟩
    cases before with
    | nil => exact absurd (List.cons.inj hbody).1 (he name span)
    | cons d before =>
      obtain ⟨rfl, rfl⟩ := List.cons.inj hbody
      refine ⟨before, span, after, rfl, ?_⟩
      rw [haddress, Element.wordsIn_cons, Nat.add_assoc]
  · rintro ⟨before, span, after, rfl, haddress⟩
    refine ⟨e :: before, span, after, rfl, ?_⟩
    rw [haddress, Element.wordsIn_cons e before, Nat.add_assoc]

theorem statement {s : Statement} (h : Places (l.addStatement s) body l') :
    Places l (.statement s :: body) l' := by
  have hwords : Element.wordsIn [.statement s] = s.wordCount := Nat.add_zero _
  refine ⟨?_, ?_, fun name address => ?_⟩
  · rw [h.statements]
    simp [addStatement, Element.statementsIn, Element.statement?, placedFrom]
  · rw [h.size, Element.wordsIn_cons, hwords]
    exact Nat.add_assoc _ _ _
  · rw [h.symbols, exists_label_cons (by simp), hwords]
    rfl

/-- Elements that are neither statements nor labels leave no trace. -/
theorem other {e : Element} (hstatement : e.statement? = none) (he : ∀ name span, e ≠ .label name span)
    (h : Places l body l') : Places l (e :: body) l' := by
  have hnone : Element.statementsIn [e] = [] := by
    rw [Element.statementsIn, List.filterMap_cons_none hstatement, List.filterMap_nil]
  have hwords : Element.wordsIn [e] = 0 := by rw [Element.wordsIn, hnone, List.map_nil, List.sum_nil]
  refine ⟨?_, ?_, fun name address => ?_⟩
  · rw [h.statements, Element.statementsIn, Element.statementsIn, List.filterMap_cons_none hstatement]
  · rw [h.size, Element.wordsIn_cons e body, hwords, Nat.zero_add]
  · rw [h.symbols, exists_label_cons he, hwords, Nat.add_zero]

theorem label {name : List Char} {span : Span} (hfresh : l.defines name = false)
    (h : Places (l.addLabel name) body l') : Places l (.label name span :: body) l' := by
  have hlookup (name' : List Char) (address : Int) :
      (l.addLabel name).symbols.lookup name' = some address ↔
        l.symbols.lookup name' = some address ∨ name' = name ∧ address = l.size := by
    rw [addLabel, List.lookup_append]
    by_cases heq : name' = name
    · subst heq
      have hnone : l.symbols.lookup name' = none := by simpa [defines] using hfresh
      simp [hnone, eq_comm]
    · have hne : (name' == name) = false := beq_eq_false_iff_ne.2 heq
      simp [List.lookup_cons, hne, heq]
  refine ⟨h.statements, h.size, fun name' address => ?_⟩
  rw [h.symbols, hlookup]
  constructor
  · rintro ((hold | ⟨rfl, rfl⟩) | ⟨before, span', after, rfl, haddress⟩)
    · exact .inl hold
    · exact .inr ⟨[], span, body, rfl, rfl⟩
    · exact .inr ⟨.label name span :: before, span', after, rfl, haddress⟩
  · rintro (hold | ⟨before, span', after, hbody, haddress⟩)
    · exact .inl (.inl hold)
    · cases before with
      | nil =>
        cases hbody
        exact .inl (.inr ⟨rfl, haddress⟩)
      | cons d before =>
        cases hbody
        exact .inr ⟨before, span', after, rfl, haddress⟩

end Places

/-- The first pass places the elements before the first terminator. -/
theorem places_of_extend {l l' : Layout} {elements : List Element}
    (h : l.extend elements = (l', none)) : Places l (Element.body elements) l' := by
  induction elements generalizing l with
  | nil =>
    cases h
    exact .nil
  | cons e rest ih =>
    cases e with
    | terminator =>
      cases h
      exact .nil
    | statement s => exact .statement (ih h)
    | label name span =>
      rw [extend] at h
      split at h
      · cases h
      · rename_i hfresh
        exact .label (Bool.eq_false_iff.2 hfresh) (ih h)
    | comment | unrecognised => exact .other rfl (by simp) (ih h)

end Layout

/-! ## The second pass -/

/-- The second pass makes as many words of a statement as the first pass has counted. -/
theorem Statement.length_words {s : Statement} {symbols : SymbolTable} {words : List MachineWord}
    (h : s.words symbols = .ok words) : words.length = s.wordCount := by
  obtain ⟨body, span⟩ := s
  cases body with
  | command c =>
    obtain ⟨command, -, h⟩ := of_bind_eq_ok h
    obtain ⟨word, -, h⟩ := of_bind_eq_ok h
    cases h
    rfl
  | value value =>
    cases h
    rfl
  | allocation size =>
    cases h
    exact List.length_replicate

namespace Layout

/-- The second pass makes the words of all statements from the same symbols. -/
theorem words_of_wordsFrom {symbols : SymbolTable} {index : Nat} {statements : List PlacedStatement}
    {words : List (List MachineWord)} (h : wordsFrom symbols index statements = .ok words) :
    (statements.map (·.statement)).Forall₂ (fun s w => s.words symbols = .ok w) words := by
  induction statements generalizing index words with
  | nil =>
    cases h
    exact .nil
  | cons placed rest ih =>
    obtain ⟨first, hfirst, h⟩ := of_bind_eq_ok h
    obtain ⟨others, hothers, h⟩ := of_bind_eq_ok h
    cases h
    exact .cons (of_mapError_eq_ok hfirst) (ih hothers)

end Layout

/-- The words of each statement stand in a row at the number of words before them. -/
theorem Statement.words_eq_extract {symbols : SymbolTable} {statements : List Statement}
    {words : List (List MachineWord)}
    (h : statements.Forall₂ (fun s w => s.words symbols = .ok w) words) {i : Nat} {s : Statement}
    (hs : statements[i]? = some s) :
    s.words symbols = .ok ((words.flatten.drop ((statements.take i).map wordCount).sum).take
      s.wordCount) := by
  induction h generalizing i with
  | nil => simp at hs
  | @cons first w rest words hfirst _ ih =>
    have hlength := length_words hfirst
    cases i with
    | zero =>
      cases hs
      rw [hfirst, ← hlength]
      simp
    | succ i =>
      rw [ih hs, List.take_succ_cons, List.map_cons, List.sum_cons, ← hlength, List.flatten_cons,
        ← List.drop_drop, List.drop_left]

theorem Statement.sum_length_words {symbols : SymbolTable} {statements : List Statement}
    {words : List (List MachineWord)}
    (h : statements.Forall₂ (fun s w => s.words symbols = .ok w) words) :
    words.flatten.length = (statements.map wordCount).sum := by
  induction h with
  | nil => rfl
  | cons hfirst _ ih =>
    rw [List.flatten_cons, List.length_append, ih, length_words hfirst, List.map_cons, List.sum_cons]

/-! ## Programs -/

/-- The address of a statement among statements that stand one after the other from address 0 on. -/
def Statement.addressIn (statements : List Statement) (index : Nat) : Nat :=
  ((statements.take index).map wordCount).sum

/-- A program lies in memory as the elements that it is made of stand in the source. -/
structure Program.LaidOut (p : Program) (body : List Element) : Prop where
  statements : p.statements.toList.map (·.statement) = Element.statementsIn body
  size_eq : p.size = Element.wordsIn body
  size_lt : p.size < addressSpace
  /-- Each statement has its address, and its words stand there. -/
  words : ∀ (i : Nat) (s : Statement), (Element.statementsIn body)[i]? = some s →
    let address := Statement.addressIn (Element.statementsIn body) i
    p.addressOf? i = some address ∧
      s.words p.symbols = .ok (p.words.extract address (address + s.wordCount)).toList
  /-- Exactly the labels have addresses, and a label has that of what follows it. -/
  symbols : ∀ (name : List Char) (address : Int), p.symbols.lookup name = some address ↔
    ∃ before span after, body = before ++ .label name span :: after ∧
      address = Element.wordsIn before
  symbols_le : ∀ (name : List Char) (address : Int), p.symbols.lookup name = some address →
    0 ≤ address ∧ address ≤ p.size

/-- Indices that count from the start find the statement itself. -/
theorem Program.addressOf?_natCast (p : Program) (i : Nat) :
    p.addressOf? i = p.statements.toList[i]?.map (·.address) := by
  have hnot : ¬(i : Int) < 0 := Int.not_lt.2 (Int.natCast_nonneg i)
  by_cases h : i < p.statements.size <;> simp [addressOf?, place?, hnot, h]

namespace Program

/-- The words of a statement of the program. -/
def wordsOf (p : Program) (s : PlacedStatement) : List MachineWord :=
  (p.words.extract s.address (s.address + s.statement.wordCount)).toList

theorem LaidOut.words_wordsOf {p : Program} {body : List Element} (h : p.LaidOut body) :
    ∀ s ∈ p.statements.toList, s.statement.words p.symbols = .ok (p.wordsOf s) := by
  intro s hs
  obtain ⟨i, hi⟩ := List.getElem?_of_mem hs
  have hstatement : (Element.statementsIn body)[i]? = some s.statement := by
    rw [← h.statements, List.getElem?_map, hi]
    rfl
  obtain ⟨haddress, hwords⟩ := h.words i s.statement hstatement
  rw [addressOf?_natCast, hi] at haddress
  have heq : s.address = Statement.addressIn (Element.statementsIn body) i := Option.some.inj haddress
  rw [hwords, wordsOf, heq]

end Program

theorem CompilationUnit.layout_eq_ok_iff {u : CompilationUnit} {l : Layout} :
    u.layout = .ok l ↔
      u.unrecognised = [] ∧ Layout.empty.extend u.elements = (l, none) ∧ l.size < addressSpace := by
  unfold layout place
  cases hunrecognised : u.unrecognised with
  | cons => simp
  | nil =>
    rcases hextend : Layout.empty.extend u.elements with ⟨l', _ | error⟩
    · by_cases hsize : l'.size < addressSpace
      · simp only [hsize, if_true, Except.ok.injEq, Prod.mk.injEq, and_true, true_and]
        constructor
        · rintro rfl
          exact ⟨rfl, hsize⟩
        · exact And.left
      · simp only [hsize, if_false, reduceCtorEq, Prod.mk.injEq, and_true, true_and, false_iff]
        rintro ⟨rfl, hlt⟩
        exact hsize hlt
    · simp

/-- A unit that can be assembled makes a program that is laid out like its elements before the first
terminator. -/
theorem CompilationUnit.laidOut_of_assemble {u : CompilationUnit} {p : Program}
    (h : u.assemble = .ok p) : p.LaidOut (Element.body u.elements) := by
  obtain ⟨l, hlayout, h⟩ := of_bind_eq_ok h
  obtain ⟨words, hwords, h⟩ := of_bind_eq_ok h
  cases h
  obtain ⟨-, hextend, hlt⟩ := layout_eq_ok_iff.1 hlayout
  have hplaces := Layout.places_of_extend hextend
  have hplaced : l.statements.toList =
      Layout.placedFrom 0 (Element.statementsIn (Element.body u.elements)) := hplaces.statements
  have hstatements : l.statements.toList.map (·.statement) =
      Element.statementsIn (Element.body u.elements) := by
    rw [hplaced, Layout.placedFrom_statement]
  have hmade := Layout.words_of_wordsFrom hwords
  rw [hstatements] at hmade
  have hsize : words.flatten.toArray.size = Element.wordsIn (Element.body u.elements) :=
    Statement.sum_length_words hmade
  have hsymbols (name : List Char) (address : Int) : l.symbols.lookup name = some address ↔
      ∃ before span after, Element.body u.elements = before ++ .label name span :: after ∧
        address = Element.wordsIn before := by
    have h := hplaces.symbols name address
    simpa [Layout.empty] using h
  have hsize' : l.size = Element.wordsIn (Element.body u.elements) := by
    rw [hplaces.size]
    exact Nat.zero_add _
  refine ⟨hstatements, hsize, ?_, fun i s hs => ⟨?_, ?_⟩, hsymbols, fun name address h => ?_⟩
  · show words.flatten.toArray.size < _
    rwa [hsize, ← hsize']
  · rw [Program.addressOf?_natCast]
    show (l.statements.toList[i]?).map (·.address) = _
    rw [hplaced, Layout.placedFrom_getElem?, hs]
    simp [Statement.addressIn]
  · rw [Statement.words_eq_extract hmade hs, Array.toList_extract]
    simp [Statement.addressIn]
  · obtain ⟨before, span, after, hbody, rfl⟩ := (hsymbols name address).1 h
    refine ⟨Int.natCast_nonneg _, Int.ofNat_le.2 ?_⟩
    show _ ≤ words.flatten.toArray.size
    rw [hsize, hbody, Element.wordsIn_append]
    exact Nat.le_add_right _ _

/-- A text assembles to a program if the unit that its lexemes make does. -/
def Assembles (text : List Char) (p : Program) : Prop :=
  ∃ lexemes, lex text = .ok lexemes ∧ (CompilationUnit.ofLexemes lexemes).assemble = .ok p

/-- Every text that assembles makes a program that is laid out like the elements of the text. -/
theorem program_laidOut {text : List Char} {p : Program} (h : Assembles text p) :
    ∃ lexemes, lex text = .ok lexemes ∧
      p.LaidOut (Element.body (CompilationUnit.ofLexemes lexemes).elements) := by
  obtain ⟨lexemes, hlex, h⟩ := h
  exact ⟨lexemes, hlex, CompilationUnit.laidOut_of_assemble h⟩

/-- A reference forwards over an allocation without words, and one backwards; a label at the end. -/
theorem program_laidOut_of_references :
    ∃ p, Assembles "loop: HIA R1, end\nRESGR 0\nSPR loop\nend:\nEINDPR".toList p ∧
      (p.words.map (·.raw) = #[1131100002, 3221000000] ∧
        p.symbols = [("loop".toList, 0), ("end".toList, 2)]) ∧
      ∃ lexemes, lex "loop: HIA R1, end\nRESGR 0\nSPR loop\nend:\nEINDPR".toList = .ok lexemes ∧
        p.LaidOut (Element.body (CompilationUnit.ofLexemes lexemes).elements) :=
  ⟨_, ⟨_, rfl, rfl⟩, by decide +kernel, program_laidOut ⟨_, rfl, rfl⟩⟩

end Drama
