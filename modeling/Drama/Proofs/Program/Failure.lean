-- SUMMARY: When a unit is assembled, and which of its errors is reported if it is not.
import Drama.Program.Script
import Drama.Proofs.Program.Layout
import Drama.Proofs.Program.Lowering
import Drama.Proofs.Source.Division
import Mathlib.Data.List.Induction
import Mathlib.Data.List.Nodup

/-!
# Failure of assembly

A unit is assembled if all of its source is recognised, no label before the first terminator is defined
twice, the words leave an address free, and each statement has words once all labels are known. If several
of these fail, the first one in this order is reported (`CompilationUnit.FailsWith`), and within it what
stands first in the source.
-/

namespace Drama

/-! ## Labels among elements -/

namespace Element

def label? : Element → Option (List Char)
  | .label name _ => some name
  | .statement _ | .comment .. | .terminator _ | .unrecognised _ => none

/-- The names of the labels among elements. -/
def labelsIn (elements : List Element) : List (List Char) := elements.filterMap label?

theorem labelsIn_label (name : List Char) (span : Span) (rest : List Element) :
    labelsIn (.label name span :: rest) = name :: labelsIn rest := rfl

theorem labelsIn_append (first second : List Element) :
    labelsIn (first ++ second) = labelsIn first ++ labelsIn second := List.filterMap_append

/-- The labels among elements that stand from an address on, with the addresses of what follows them. -/
def symbolsFrom (address : Nat) : List Element → SymbolTable
  | [] => []
  | e :: rest => (e.label?.map (·, (address : Int))).toList ++ symbolsFrom (address + wordsIn [e]) rest

theorem symbolsFrom_lookup_isSome (address : Nat) (elements : List Element) (name : List Char) :
    ((symbolsFrom address elements).lookup name).isSome ↔ name ∈ labelsIn elements := by
  induction elements generalizing address with
  | nil => simp [symbolsFrom, labelsIn]
  | cons e rest ih =>
    cases hlabel : e.label? with
    | none =>
      rw [symbolsFrom, hlabel, labelsIn, List.filterMap_cons_none hlabel]
      exact ih _
    | some name' =>
      rw [symbolsFrom, hlabel, labelsIn, List.filterMap_cons_some hlabel, List.mem_cons]
      show ((List.lookup name ((name', (address : Int)) :: _)).isSome ↔ _)
      rw [List.lookup_cons]
      cases hname : name == name' with
      | true => simp [beq_iff_eq.1 hname]
      | false =>
        have hne : name ≠ name' := beq_eq_false_iff_ne.1 hname
        simp only [hne, false_or]
        exact ih _

/-- No label stands behind the last word. -/
theorem symbolsFrom_le (address : Nat) (elements : List Element) :
    ∀ entry ∈ symbolsFrom address elements,
      ∃ place : Nat, entry.2 = place ∧ place ≤ address + wordsIn elements := by
  induction elements generalizing address with
  | nil => exact List.forall_mem_nil _
  | cons e rest ih =>
    have hwords := wordsIn_cons e rest
    rw [symbolsFrom]
    refine List.forall_mem_append.2 ⟨fun entry hentry => ?_, fun entry hentry => ?_⟩
    · obtain ⟨name, -, rfl⟩ := Option.map_eq_some_iff.1 (Option.mem_toList.1 hentry)
      exact ⟨address, rfl, Nat.le_add_right _ _⟩
    · obtain ⟨place, hplace, hle⟩ := ih _ entry hentry
      exact ⟨place, hplace, by omega⟩

/-- Either no label is defined twice, or there is a first one that is defined already. -/
theorem nodup_or_exists_duplicate (elements : List Element) :
    (labelsIn elements).Nodup ∨ ∃ before name span after,
      elements = before ++ .label name span :: after ∧ (labelsIn before).Nodup ∧
        name ∈ labelsIn before := by
  induction elements using List.reverseRecOn with
  | nil => exact .inl .nil
  | append_singleton elements e ih =>
    obtain hnodup | ⟨before, name, span, after, rfl, hnodup, hmem⟩ := ih
    · cases e with
      | label name span =>
        by_cases hmem : name ∈ labelsIn elements
        · exact .inr ⟨elements, name, span, [], rfl, hnodup, hmem⟩
        · left
          rw [labelsIn_append]
          exact hnodup.append (List.nodup_singleton name) (List.disjoint_singleton.2 hmem)
      | statement | comment | terminator | unrecognised =>
        left
        rw [labelsIn_append]
        exact (List.append_nil _).symm ▸ hnodup
    · exact .inr ⟨before, name, span, after ++ [e], by simp, hnodup, hmem⟩

end Element

/-! ## The layout of elements -/

namespace Layout

/-- A layout to which elements have been added. -/
def placed (l : Layout) (body : List Element) : Layout where
  statements := l.statements ++ (placedFrom l.size (Element.statementsIn body)).toArray
  symbols := l.symbols ++ Element.symbolsFrom l.size body
  size := l.size + Element.wordsIn body

theorem placed_nil (l : Layout) : l.placed [] = l := by
  simp [placed, Element.statementsIn, placedFrom, Element.symbolsFrom, Element.wordsIn]

theorem placed_addStatement (l : Layout) (s : Statement) (body : List Element) :
    (l.addStatement s).placed body = l.placed (.statement s :: body) := by
  have hwords : Element.wordsIn [.statement s] = s.wordCount := Nat.add_zero _
  have hcons := Element.wordsIn_cons (.statement s) body
  have hstatements : Element.statementsIn (.statement s :: body) = s :: Element.statementsIn body := rfl
  simp only [placed, addStatement, hstatements, placedFrom, Element.symbolsFrom, hcons, hwords,
    Nat.add_assoc]
  simp [Element.label?]

theorem placed_addLabel (l : Layout) (name : List Char) (span : Span) (body : List Element) :
    (l.addLabel name).placed body = l.placed (.label name span :: body) := by
  have hwords : Element.wordsIn [.label name span] = 0 := rfl
  have hcons := Element.wordsIn_cons (.label name span) body
  have hstatements : Element.statementsIn (.label name span :: body) = Element.statementsIn body := rfl
  simp only [placed, addLabel, hstatements, Element.symbolsFrom, hcons, hwords, Nat.zero_add,
    Nat.add_zero]
  simp [Element.label?]

/-- Elements that are neither statements nor labels change nothing. -/
theorem placed_other (l : Layout) {e : Element} (hstatement : e.statement? = none)
    (hlabel : e.label? = none) (body : List Element) : l.placed (e :: body) = l.placed body := by
  have hwords : Element.wordsIn [e] = 0 := by
    rw [Element.wordsIn, Element.statementsIn, List.filterMap_cons_none hstatement]
    rfl
  have hcons := Element.wordsIn_cons e body
  simp only [placed, Element.symbolsFrom, hcons, hwords, hlabel, Nat.zero_add, Nat.add_zero,
    Element.statementsIn, List.filterMap_cons_none hstatement]
  rfl

theorem defines_placed_empty (body : List Element) (name : List Char) :
    (empty.placed body).defines name = true ↔ name ∈ Element.labelsIn body :=
  Element.symbolsFrom_lookup_isSome 0 body name

/-- Labels that are new and distinct are no obstacle to the elements before what follows. -/
theorem extend_append {l : Layout} {body : List Element} (rest : List Element)
    (hbody : ∀ e ∈ body, e.isTerminator = false)
    (hnew : ∀ name ∈ Element.labelsIn body, l.defines name = false)
    (hdistinct : (Element.labelsIn body).Nodup) :
    l.extend (body ++ rest) = (l.placed body).extend rest := by
  induction body generalizing l with
  | nil => rw [placed_nil, List.nil_append]
  | cons e body ih =>
    rw [List.forall_mem_cons] at hbody
    cases e with
    | terminator span => cases hbody.1
    | statement s =>
      rw [← placed_addStatement]
      exact ih hbody.2 hnew hdistinct
    | comment | unrecognised =>
      rw [placed_other l rfl rfl]
      exact ih hbody.2 hnew hdistinct
    | label name span =>
      rw [Element.labelsIn_label, List.nodup_cons] at hdistinct
      rw [Element.labelsIn_label, List.forall_mem_cons] at hnew
      rw [← placed_addLabel, List.cons_append, extend, if_neg (by simp [hnew.1])]
      refine ih hbody.2 (fun name' hname' => ?_) hdistinct.2
      have hne : (name' == name) = false :=
        beq_eq_false_iff_ne.2 fun heq => hdistinct.1 (heq ▸ hname')
      have hold := hnew.2 name' hname'
      rw [defines, Option.isSome_eq_false_iff, Option.isNone_iff_eq_none] at hold ⊢
      rw [addLabel, List.lookup_append, hold, List.lookup_cons, hne]
      rfl

/-- Nothing behind the first terminator is placed. -/
theorem extend_dropWhile (l : Layout) (elements : List Element) :
    l.extend (elements.dropWhile (!·.isTerminator)) = (l, none) := by
  induction elements with
  | nil => rfl
  | cons e rest ih =>
    cases e with
    | terminator => rfl
    | statement | label | comment | unrecognised => exact ih

theorem extend_of_nodup {elements : List Element}
    (h : (Element.labelsIn (Element.body elements)).Nodup) :
    empty.extend elements = (empty.placed (Element.body elements), none) := by
  have hbody : ∀ e ∈ Element.body elements, e.isTerminator = false := fun e he => by
    simpa using List.mem_takeWhile_imp he
  rw [← extend_dropWhile _ elements, ← extend_append _ hbody (fun _ _ => rfl) h, Element.body,
    List.takeWhile_append_dropWhile]

/-- The first label that is defined already ends the first pass. -/
theorem extend_of_duplicate {elements before after : List Element} {name : List Char} {span : Span}
    (hbody : Element.body elements = before ++ .label name span :: after)
    (hdistinct : (Element.labelsIn before).Nodup) (hdefined : name ∈ Element.labelsIn before) :
    empty.extend elements = (empty.placed before,
      some ⟨.duplicateSymbol name, some span, some (Element.statementsIn before).length⟩) := by
  have hbefore : ∀ e ∈ before, e.isTerminator = false := fun e he => by
    have hmem : e ∈ Element.body elements := hbody ▸ List.mem_append_left _ he
    simpa using List.mem_takeWhile_imp hmem
  have hsplit : elements =
      before ++ .label name span :: (after ++ elements.dropWhile (!·.isTerminator)) := by
    rw [← List.cons_append, ← List.append_assoc, ← hbody, Element.body,
      List.takeWhile_append_dropWhile]
  have hlength : (empty.placed before).statements.size = (Element.statementsIn before).length := by
    have hplaced := congrArg List.length (placedFrom_statement 0 (Element.statementsIn before))
    rw [List.length_map] at hplaced
    simp [placed, empty, hplaced]
  rw [hsplit, extend_append _ hbefore (fun _ _ => rfl) hdistinct, extend,
    if_pos ((defines_placed_empty before name).2 hdefined), hlength]

/-! ## The second pass -/

theorem exists_wordsFrom {symbols : SymbolTable} (index address : Nat) {statements : List Statement}
    (h : ∀ s ∈ statements, ∃ words, s.words symbols = .ok words) :
    ∃ words, wordsFrom symbols index (placedFrom address statements) = .ok words := by
  induction statements generalizing index address with
  | nil => exact ⟨[], rfl⟩
  | cons s rest ih =>
    rw [List.forall_mem_cons] at h
    obtain ⟨first, hfirst⟩ := h.1
    obtain ⟨others, hothers⟩ := ih (index + 1) (address + s.wordCount) h.2
    refine ⟨first :: others, ?_⟩
    rw [placedFrom, wordsFrom, hfirst, hothers]
    rfl

/-- The first statement without words gives the error, with its index. -/
theorem wordsFrom_eq_error {symbols : SymbolTable} (index address : Nat)
    {before after : List Statement} {s : Statement} {e : AssemblyError}
    (hbefore : ∀ s ∈ before, ∃ words, s.words symbols = .ok words)
    (he : s.words symbols = .error e) :
    wordsFrom symbols index (placedFrom address (before ++ s :: after)) =
      .error (e.atStatement (index + before.length)) := by
  induction before generalizing index address with
  | nil =>
    rw [List.nil_append, placedFrom, wordsFrom, he]
    rfl
  | cons first before ih =>
    rw [List.forall_mem_cons] at hbefore
    obtain ⟨words, hwords⟩ := hbefore.1
    rw [List.cons_append, placedFrom, wordsFrom, hwords, ih _ _ hbefore.2, List.length_cons,
      Nat.add_right_comm, ← Nat.add_assoc]
    rfl

end Layout

/-! ## Success and failure -/

namespace CompilationUnit

/-- The elements that a program is made of. -/
def body (u : CompilationUnit) : List Element := Element.body u.elements

/-- The labels of the program with their addresses. -/
def symbols (u : CompilationUnit) : SymbolTable := Element.symbolsFrom 0 u.body

/-- What it takes to be assembled. -/
structure Assemblable (u : CompilationUnit) : Prop where
  recognised : u.unrecognised = []
  distinct : (Element.labelsIn u.body).Nodup
  fits : Element.wordsIn u.body < addressSpace
  lowers : ∀ s ∈ Element.statementsIn u.body, ∃ words, s.words u.symbols = .ok words

/-- The error that is reported. Each one requires that there is none of the kinds before it. -/
inductive FailsWith (u : CompilationUnit) : AssemblyError → Prop
  | unrecognised {source : UnrecognisedSource} {others : List UnrecognisedSource}
      (h : u.unrecognised = source :: others) :
      FailsWith u ⟨.unrecognised source, some source.span, none⟩
  | duplicate {before after : List Element} {name : List Char} {span : Span}
      (hrecognised : u.unrecognised = []) (hbody : u.body = before ++ .label name span :: after)
      (hdistinct : (Element.labelsIn before).Nodup) (hdefined : name ∈ Element.labelsIn before) :
      FailsWith u ⟨.duplicateSymbol name, some span, some (Element.statementsIn before).length⟩
  | overflow (hrecognised : u.unrecognised = []) (hdistinct : (Element.labelsIn u.body).Nodup)
      (hsize : addressSpace ≤ Element.wordsIn u.body) :
      FailsWith u ⟨.overflow (Element.wordsIn u.body), none, none⟩
  | statement {before after : List Statement} {s : Statement} {e : AssemblyError}
      (hrecognised : u.unrecognised = []) (hdistinct : (Element.labelsIn u.body).Nodup)
      (hfits : Element.wordsIn u.body < addressSpace)
      (hstatements : Element.statementsIn u.body = before ++ s :: after)
      (hbefore : ∀ s ∈ before, ∃ words, s.words u.symbols = .ok words)
      (hfails : s.FailsWith u.symbols e) :
      FailsWith u (e.atStatement before.length)

variable {u : CompilationUnit}

theorem place_of_nodup (hrecognised : u.unrecognised = [])
    (hdistinct : (Element.labelsIn u.body).Nodup) :
    u.place = if Element.wordsIn u.body < addressSpace then (Layout.empty.placed u.body, none)
      else (Layout.empty.placed u.body, some ⟨.overflow (Element.wordsIn u.body), none, none⟩) := by
  have hsize : (Layout.empty.placed u.body).size = Element.wordsIn u.body := Nat.zero_add _
  rw [← hsize, place, hrecognised, Layout.extend_of_nodup hdistinct]
  rfl

theorem place_of_duplicate {before after : List Element} {name : List Char} {span : Span}
    (hrecognised : u.unrecognised = []) (hbody : u.body = before ++ .label name span :: after)
    (hdistinct : (Element.labelsIn before).Nodup) (hdefined : name ∈ Element.labelsIn before) :
    u.place = (Layout.empty.placed before,
      some ⟨.duplicateSymbol name, some span, some (Element.statementsIn before).length⟩) := by
  rw [place, hrecognised, Layout.extend_of_duplicate hbody hdistinct hdefined]

/-- The second pass over the elements of a unit whose labels are distinct. -/
theorem assemble_of_nodup (hrecognised : u.unrecognised = [])
    (hdistinct : (Element.labelsIn u.body).Nodup) (hfits : Element.wordsIn u.body < addressSpace) :
    u.assemble = (Layout.empty.placed u.body).program := by
  rw [assemble, layout, place_of_nodup hrecognised hdistinct, if_pos hfits]
  rfl

theorem program_eq (body : List Element) :
    (Layout.empty.placed body).program = (do
      let words ← Layout.wordsFrom (Element.symbolsFrom 0 body) 0
        (Layout.placedFrom 0 (Element.statementsIn body))
      return ⟨words.flatten.toArray, (Layout.empty.placed body).statements,
        Element.symbolsFrom 0 body⟩) := by
  have hstatements : (Layout.empty.placed body).statements.toList =
      Layout.placedFrom 0 (Element.statementsIn body) := by simp [Layout.placed, Layout.empty]
  rw [Layout.program, hstatements]
  rfl

theorem Assemblable.exists_program (h : u.Assemblable) : ∃ p, u.assemble = .ok p := by
  obtain ⟨words, hwords⟩ := Layout.exists_wordsFrom 0 0 h.lowers
  rw [assemble_of_nodup h.recognised h.distinct h.fits, program_eq]
  exact ⟨_, bind_of_eq_ok hwords _⟩

theorem FailsWith.assemble_eq {e : AssemblyError} (h : u.FailsWith e) : u.assemble = .error e := by
  cases h with
  | unrecognised h =>
    rw [assemble, layout, place, h]
    rfl
  | duplicate hrecognised hbody hdistinct hdefined =>
    rw [assemble, layout, place_of_duplicate hrecognised hbody hdistinct hdefined]
    rfl
  | overflow hrecognised hdistinct hsize =>
    rw [assemble, layout, place_of_nodup hrecognised hdistinct, if_neg (Nat.not_lt.2 hsize)]
    rfl
  | @statement before after s e hrecognised hdistinct hfits hstatements hbefore hfails =>
    have hwords : Layout.wordsFrom u.symbols 0 (Layout.placedFrom 0 (before ++ s :: after)) =
        .error (e.atStatement before.length) := by
      rw [Layout.wordsFrom_eq_error 0 0 hbefore hfails.words_eq, Nat.zero_add]
    rw [assemble_of_nodup hrecognised hdistinct hfits, program_eq, hstatements,
      show Element.symbolsFrom 0 u.body = u.symbols from rfl, hwords]
    rfl

theorem mem_elements_of_mem_statementsIn {s : Statement} (h : s ∈ Element.statementsIn u.body) :
    .statement s ∈ u.elements := by
  obtain ⟨e, he, hstatement⟩ := List.mem_filterMap.1 h
  have helement := (List.takeWhile_prefix _).subset he
  cases e with
  | statement =>
    cases hstatement
    exact helement
  | label | comment | terminator | unrecognised => cases hstatement

theorem inRange_of_mem_statementsIn (hrange : ∀ e ∈ u.elements, e.InRange) :
    ∀ s ∈ Element.statementsIn u.body, s.body.InRange :=
  fun _ hs => hrange _ (mem_elements_of_mem_statementsIn hs)

theorem assemblable_or_failsWith (hrange : ∀ e ∈ u.elements, e.InRange) :
    u.Assemblable ∨ ∃ e, u.FailsWith e := by
  cases hrecognised : u.unrecognised with
  | cons source others => exact .inr ⟨_, .unrecognised hrecognised⟩
  | nil =>
    obtain hdistinct | ⟨before, name, span, after, hbody, hdistinct, hdefined⟩ :=
      Element.nodup_or_exists_duplicate u.body
    · obtain hfits | hsize := Nat.lt_or_ge (Element.wordsIn u.body) addressSpace
      · obtain hlowers | ⟨before, s, after, e, hstatements, hbefore, hfails⟩ :=
          Statement.words_or_exists_first (inRange_of_mem_statementsIn hrange) u.symbols
        · exact .inl ⟨hrecognised, hdistinct, hfits, hlowers⟩
        · exact .inr ⟨_, .statement hrecognised hdistinct hfits hstatements hbefore hfails⟩
      · exact .inr ⟨_, .overflow hrecognised hdistinct hsize⟩
    · exact .inr ⟨_, .duplicate hrecognised hbody hdistinct hdefined⟩

/-- The error of a unit is the one that it fails with. -/
theorem failsWith_of_assemble (hcases : u.Assemblable ∨ ∃ e, u.FailsWith e) {e : AssemblyError}
    (he : u.assemble = .error e) : u.FailsWith e := by
  obtain hassemblable | ⟨e', hfails⟩ := hcases
  · obtain ⟨p, hp⟩ := hassemblable.exists_program
    cases hp.symm.trans he
  · cases hfails.assemble_eq.symm.trans he
    exact hfails

/-! ## Scripts -/

theorem inRange_ofLexemes {text : List Char} {lexemes : List Lexeme} (h : lex text = .ok lexemes) :
    ∀ e ∈ (ofLexemes lexemes).elements, e.InRange := by
  obtain ⟨-, -, -, hrange⟩ := (parses_ofLexemes lexemes).divided
  exact hrange (lex_register_le h)

theorem checkAddresses_placed {body : List Element}
    (h : Element.wordsIn body < Numeral.writeBound) :
    (Layout.empty.placed body).checkAddresses = .ok () := by
  have hsymbols := Element.symbolsFrom_le 0 body
  show (Element.symbolsFrom 0 body).forM _ = _
  generalize Element.symbolsFrom 0 body = symbols at hsymbols
  induction symbols with
  | nil => rfl
  | cons entry symbols ih =>
    rw [List.forall_mem_cons] at hsymbols
    obtain ⟨⟨place, hplace, hle⟩, hothers⟩ := hsymbols
    have hwrite : Numeral.write entry.2 = .ok (toString entry.2) :=
      Numeral.write_of_lt (by rw [hplace, Int.natAbs_natCast]; omega)
    show (discard (Numeral.write entry.2) >>= fun _ => symbols.forM _) = _
    rw [hwrite]
    exact ih hothers

/-- The addresses of labels are written down, which is possible if the number of all words is. -/
theorem checkAddresses_place (h : Element.wordsIn u.body < Numeral.writeBound) :
    u.place.1.checkAddresses = .ok () := by
  cases hrecognised : u.unrecognised with
  | cons source others =>
    rw [place, hrecognised]
    rfl
  | nil =>
    obtain hdistinct | ⟨before, name, span, after, hbody, hdistinct, hdefined⟩ :=
      Element.nodup_or_exists_duplicate u.body
    · rw [place_of_nodup hrecognised hdistinct]
      split <;> exact checkAddresses_placed h
    · have hwords := Element.wordsIn_append before (.label name span :: after)
      rw [← hbody] at hwords
      rw [place_of_duplicate hrecognised hbody hdistinct hdefined]
      exact checkAddresses_placed (by omega)

theorem FailsWith.checkMessage {e : AssemblyError} (h : u.FailsWith e)
    (hsize : Element.wordsIn u.body < Numeral.writeBound) : e.checkMessage = .ok () := by
  cases h with
  | unrecognised | duplicate => rfl
  | overflow =>
    have hwrite : Numeral.write (Element.wordsIn u.body) = .ok (toString (Element.wordsIn u.body : Int)) :=
      Numeral.write_of_lt (by rwa [Int.natAbs_natCast])
    show discard (Numeral.write (Element.wordsIn u.body)) = _
    rw [hwrite]
    rfl
  | statement _ _ _ _ _ hfails =>
    cases hfails <;> rfl

end CompilationUnit

theorem Script.ofText_eq {text : List Char} {lexemes : List Lexeme} (hlex : lex text = .ok lexemes)
    (haddresses : (CompilationUnit.ofLexemes lexemes).place.1.checkAddresses = .ok ())
    (hmessage : ∀ e, (CompilationUnit.ofLexemes lexemes).assemble = .error e →
      e.checkMessage = .ok ()) :
    ofText text = .ok ⟨text, lexemes, CompilationUnit.ofLexemes lexemes,
      (CompilationUnit.ofLexemes lexemes).assemble⟩ := by
  unfold ofText
  rw [bind_of_eq_ok hlex, bind_of_eq_ok haddresses]
  cases houtcome : (CompilationUnit.ofLexemes lexemes).assemble with
  | ok p => rfl
  | error e =>
    show (e.checkMessage >>= fun _ => _) = _
    rw [hmessage e houtcome]
    rfl

/-- A text whose words can be counted in writing makes a script. It has a program exactly if the unit of the
text can be assembled, and otherwise exactly the error that is the first in order. -/
theorem script_outcome {text : List Char} {lexemes : List Lexeme} (hlex : lex text = .ok lexemes)
    (hsize : Element.wordsIn (CompilationUnit.ofLexemes lexemes).body < Numeral.writeBound) :
    ∃ s, Script.ofText text = .ok s ∧ s.unit = CompilationUnit.ofLexemes lexemes ∧
      s.outcome = s.unit.assemble ∧ ((∃ p, s.outcome = .ok p) ↔ s.unit.Assemblable) ∧
      ∀ e, s.outcome = .error e ↔ s.unit.FailsWith e := by
  have hcases := CompilationUnit.assemblable_or_failsWith (CompilationUnit.inRange_ofLexemes hlex)
  refine ⟨⟨text, lexemes, CompilationUnit.ofLexemes lexemes,
    (CompilationUnit.ofLexemes lexemes).assemble⟩, ?_, rfl, rfl, ?_⟩
  · exact Script.ofText_eq hlex (CompilationUnit.checkAddresses_place hsize) fun e he =>
      (CompilationUnit.failsWith_of_assemble hcases he).checkMessage hsize
  · refine ⟨⟨?_, CompilationUnit.Assemblable.exists_program⟩, fun e =>
      ⟨CompilationUnit.failsWith_of_assemble hcases, CompilationUnit.FailsWith.assemble_eq⟩⟩
    rintro ⟨p, hp⟩
    obtain hassemblable | ⟨e, hfails⟩ := hcases
    · exact hassemblable
    · cases hp.symm.trans hfails.assemble_eq

/-- Two statements refer to symbols that are not defined, and the first one of these is not of the right
form either. -/
theorem script_outcome_of_several_faults :
    ∃ s, Script.ofText "HIA R1, 5\nSPR.w here\nHIA lost".toList = .ok s ∧
      s.outcome = .error ⟨.undefinedSymbol "here".toList, some ⟨16, 20⟩, some 1⟩ ∧
      s.unit.FailsWith ⟨.undefinedSymbol "here".toList, some ⟨16, 20⟩, some 1⟩ := by
  obtain ⟨lexemes, hlex, hwords, herror⟩ :
      ∃ lexemes, lex "HIA R1, 5\nSPR.w here\nHIA lost".toList = .ok lexemes ∧
        Element.wordsIn (CompilationUnit.ofLexemes lexemes).body = 3 ∧
        (CompilationUnit.ofLexemes lexemes).assemble =
          .error ⟨.undefinedSymbol "here".toList, some ⟨16, 20⟩, some 1⟩ := ⟨_, rfl, rfl, rfl⟩
  have hsize : 3 < Numeral.writeBound :=
    (show 3 < tenPow 1 by decide).trans_le (tenPow_le (by decide))
  obtain ⟨s, hs, hunit, houtcome, -, hfails⟩ := script_outcome hlex (hwords ▸ hsize)
  rw [← hunit, ← houtcome] at herror
  exact ⟨s, hs, herror, (hfails _).1 herror⟩

end Drama
