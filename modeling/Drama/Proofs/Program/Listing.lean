-- SUMMARY: Listings are complete: each word, each statement without words and each symbol has one line, in its place.
import Drama.Proofs.Program.Disassembly
import Drama.Proofs.Program.ErrorSpan
import Drama.Proofs.Program.Lookup
import Drama.Proofs.Program.Row
import Mathlib.Data.List.Sort

/-!
# Listings

The rows of a listing are found statement by statement, with the labels that have not been listed yet. Each step
lists one statement, after the labels at its address; labels that stand at no statement are left for the end. So
there is one row for each word, by address, one for each statement without words, and one for each symbol. Where a
label stands is settled by the first statement at its address (`Listing.home?`). No row has a newline in it, so
the rows are just the lines of the listing.
-/

namespace Drama

namespace Listing

/-! ## The rows of one statement after the other -/

variable {p : Program} {text : List Char} {labels : SymbolTable} {placed : PlacedStatement}
  {statements : List PlacedStatement} {lines : List Line} {rows : List Row}

/-- The rows of a statement of a program, with what the command column shows in the first one. -/
def rowsOf (p : Program) (text : List Char) (placed : PlacedStatement) (command : List Char) : List Row :=
  statementRows placed.address (placed.statement.span.extract text) command (p.wordsOf placed)

/-- What the command column shows for a statement: the text of the command that it stands for, if it is one. -/
inductive Column (symbols : SymbolTable) : Statement → List Char → Prop
  | command {c : CommandStatement} {span : Span} {command : Command} {shown : String}
      (hcommand : c.command span symbols = .ok command) (hshown : command.text = .ok shown) :
      Column symbols ⟨.command c, span⟩ shown.toList
  | value {value : Int} {span : Span} : Column symbols ⟨.value value, span⟩ []
  | allocation {size : Nat} {span : Span} : Column symbols ⟨.allocation size, span⟩ []

theorem commandText_command {c : CommandStatement} {span : Span} {command : Command}
    (hcommand : c.command span p.symbols = .ok command) :
    commandText p ⟨.command c, span⟩ = String.toList <$> command.text := by
  rw [commandText, Statement.command?]
  simp only [hcommand]

theorem column_of_commandText {s : Statement} {words : List MachineWord} {column : List Char}
    (hwords : s.words p.symbols = .ok words) (h : commandText p s = .ok column) :
    Column p.symbols s column := by
  obtain ⟨body, span⟩ := s
  cases body with
  | command c =>
    obtain ⟨command, w, hcommand, -⟩ := Statement.words_command.1 hwords
    rw [commandText_command hcommand] at h
    cases hshown : command.text with
    | error error =>
      rw [hshown] at h
      cases h
    | ok shown =>
      rw [hshown] at h
      cases h
      exact .command hcommand hshown
  | value value =>
    cases h
    exact .value
  | allocation size =>
    cases h
    exact .allocation

/-- The rows of statements that stand one after the other, with the labels that are not listed yet: each statement
stands behind the labels at its address, and the labels that are left over stand behind all statements. -/
inductive Rows (p : Program) (text : List Char) : SymbolTable → List PlacedStatement → List Row → Prop
  | nil {labels : SymbolTable} :
      Rows p text labels [] ((labels.mergeSort fun a b => a.2 ≤ b.2).map (.label ·.1))
  | cons {labels : SymbolTable} {placed : PlacedStatement} {statements : List PlacedStatement}
      {command : List Char} {rows : List Row} (hcolumn : Column p.symbols placed.statement command)
      (h : Rows p text (labels.filter fun label => !label.2 == (placed.address : Int)) statements rows) :
      Rows p text labels (placed :: statements)
        ((labels.filter fun label => label.2 == (placed.address : Int)).map (.label ·.1) ++
          rowsOf p text placed command ++ rows)

theorem map_line_labels (labels : SymbolTable) :
    (labels.map fun label => Row.label label.1).map Row.line = labels.map (labelLine ·.1) := by
  rw [List.map_map]
  rfl

theorem filterMap_labels_eq_nil {γ : Type} {f : Row → Option γ} (h : ∀ name, f (.label name) = none)
    (labels : SymbolTable) : (labels.map fun label => Row.label label.1).filterMap f = [] := by
  rw [List.filterMap_map]
  exact List.filterMap_eq_nil_iff.2 fun label _ => h label.1

/-- The lines of statements are those of their rows. -/
theorem exists_rows (h : linesFrom p text labels statements = .ok lines)
    (hwords : ∀ placed ∈ statements, ∃ words, placed.statement.words p.symbols = .ok words) :
    ∃ rows, Rows p text labels statements rows ∧ lines = rows.map Row.line := by
  induction statements generalizing labels lines with
  | nil =>
    cases h
    exact ⟨_, .nil, (map_line_labels _).symm⟩
  | cons placed statements ih =>
    rw [linesFrom, List.partition_eq_filter_filter] at h
    obtain ⟨column, hcolumn, h⟩ := of_bind_eq_ok h
    obtain ⟨following, hfollowing, h⟩ := of_bind_eq_ok h
    cases h
    rw [List.forall_mem_cons] at hwords
    obtain ⟨words, hfirst⟩ := hwords.1
    obtain ⟨rows, hrows, rfl⟩ := ih hfollowing hwords.2
    refine ⟨_, .cons (column_of_commandText hfirst hcolumn) hrows, ?_⟩
    rw [List.map_append, List.map_append, map_line_labels, rowsOf, map_line_statementRows]
    rfl

theorem exists_linesFrom (h : ∀ placed ∈ statements, ∃ column, commandText p placed.statement = .ok column)
    (labels : SymbolTable) : ∃ lines, linesFrom p text labels statements = .ok lines := by
  induction statements generalizing labels with
  | nil => exact ⟨_, rfl⟩
  | cons placed statements ih =>
    rw [List.forall_mem_cons] at h
    obtain ⟨column, hcolumn⟩ := h.1
    obtain ⟨following, hfollowing⟩ := ih h.2 (labels.filter fun label => !label.2 == (placed.address : Int))
    rw [linesFrom, List.partition_eq_filter_filter]
    exact ⟨_, (bind_of_eq_ok hcolumn _).trans (bind_of_eq_ok hfollowing _)⟩

namespace Rows

/-- The rows with a word are those of the words of the statements. -/
theorem filterMap_numbered (h : Rows p text labels statements rows) :
    rows.filterMap Row.numbered? = statements.flatMap fun placed =>
      (p.wordsOf placed).mapIdx fun offset word => (placed.address + offset, word) := by
  have hnone (name : List Char) : (Row.label name).numbered? = none := rfl
  induction h with
  | nil => exact filterMap_labels_eq_nil hnone _
  | cons hcolumn h ih =>
    rw [List.filterMap_append, List.filterMap_append, filterMap_labels_eq_nil hnone, List.nil_append, rowsOf,
      filterMap_numbered_statementRows, ih, List.flatMap_cons]

/-- The rows with an address alone are those of the statements without words. -/
theorem filterMap_vacant (h : Rows p text labels statements rows)
    (hwords : ∀ placed ∈ statements, p.wordsOf placed = [] ↔ placed.statement.wordCount = 0) :
    rows.filterMap Row.vacant? = (statements.filter (·.statement.wordCount = 0)).map fun placed =>
      (placed.address, placed.statement.span.extract text) := by
  have hnone (name : List Char) : (Row.label name).vacant? = none := rfl
  induction h with
  | nil => exact filterMap_labels_eq_nil hnone _
  | cons hcolumn h ih =>
    rw [List.forall_mem_cons] at hwords
    rw [List.filterMap_append, List.filterMap_append, filterMap_labels_eq_nil hnone, List.nil_append, rowsOf,
      filterMap_vacant_statementRows, ih hwords.2, List.filter_cons]
    simp only [hwords.1, decide_eq_true_eq]
    split
    · rfl
    · rfl

/-- Each label is listed once. -/
theorem filterMap_label_perm (h : Rows p text labels statements rows) :
    (rows.filterMap Row.label?).Perm (labels.map (·.1)) := by
  have hlabels (labels : SymbolTable) :
      (labels.map fun label => Row.label label.1).filterMap Row.label? = labels.map (·.1) := by
    rw [List.filterMap_map]
    exact congrFun List.filterMap_eq_map _
  induction h with
  | nil =>
    rw [hlabels]
    exact (List.mergeSort_perm _ _).map _
  | @cons labels placed _ _ _ hcolumn h ih =>
    rw [List.filterMap_append, List.filterMap_append, hlabels, rowsOf, filterMap_label_statementRows,
      List.append_nil]
    have hsplit :=
      List.filter_append_perm (fun label : List Char × Int => label.2 == (placed.address : Int)) labels
    refine (ih.append_left _).trans ?_
    rw [← List.map_append]
    exact hsplit.map _

/-- What holds of the rows of each label and of each statement holds of all rows. -/
theorem forall_mem {P : Row → Prop} (h : Rows p text labels statements rows)
    (hlabels : ∀ label ∈ labels, P (.label label.1))
    (hstatements : ∀ placed ∈ statements, ∀ command, Column p.symbols placed.statement command →
      ∀ row ∈ rowsOf p text placed command, P row) : ∀ row ∈ rows, P row := by
  induction h with
  | nil => exact List.forall_mem_map.2 fun label hlabel => hlabels label (List.mem_mergeSort.1 hlabel)
  | cons hcolumn h ih =>
    rw [List.forall_mem_cons] at hstatements
    refine List.forall_mem_append.2 ⟨List.forall_mem_append.2 ⟨?_, hstatements.1 _ hcolumn⟩, ?_⟩
    · exact List.forall_mem_map.2 fun label hlabel => hlabels label (List.mem_filter.1 hlabel).1
    · exact ih (fun label hlabel => hlabels label (List.mem_filter.1 hlabel).1) hstatements.2

/-- The rows of each statement are listed. -/
theorem exists_rowsOf (h : Rows p text labels statements rows) :
    ∀ placed ∈ statements, ∃ command, Column p.symbols placed.statement command ∧
      rowsOf p text placed command ⊆ rows := by
  induction h with
  | nil => exact List.forall_mem_nil _
  | cons hcolumn h ih =>
    refine List.forall_mem_cons.2 ⟨⟨_, hcolumn, fun row hrow => ?_⟩, fun other hother => ?_⟩
    · exact List.mem_append_left _ (List.mem_append_right _ hrow)
    · obtain ⟨command, hcommand, hrows⟩ := ih other hother
      exact ⟨command, hcommand, fun row hrow => List.mem_append_right _ (hrows hrow)⟩

end Rows

/-! ## Where labels stand -/

/-- The index of the first statement at an address, if there is one. -/
def home? (statements : List PlacedStatement) (address : Int) : Option Nat :=
  statements.findIdx? fun placed => address == (placed.address : Int)

/-- The labels that stand before the statement with the given index, or, without an index, those that stand
at no statement. -/
def labelsAt (labels : SymbolTable) (statements : List PlacedStatement) (home : Option Nat) : SymbolTable :=
  labels.filter fun label => home? statements label.2 == home

theorem labelsAt_zero (labels : SymbolTable) (placed : PlacedStatement) (statements : List PlacedStatement) :
    labelsAt labels (placed :: statements) (some 0) =
      labels.filter fun label => label.2 == (placed.address : Int) := by
  refine List.filter_congr fun label _ => ?_
  cases hhere : label.2 == (placed.address : Int) <;> simp [home?, List.findIdx?_cons, hhere]

/-- What stands at a later statement or at none does so among the labels that are left. -/
theorem labelsAt_cons (labels : SymbolTable) (placed : PlacedStatement) (statements : List PlacedStatement)
    (home : Option Nat) :
    labelsAt labels (placed :: statements) (home.map (· + 1)) =
      labelsAt (labels.filter fun label => !label.2 == (placed.address : Int)) statements home := by
  rw [labelsAt, labelsAt, List.filter_filter]
  refine List.filter_congr fun label _ => ?_
  cases hhere : label.2 == (placed.address : Int) with
  | true => cases home <;> simp [home?, List.findIdx?_cons, hhere]
  | false =>
    have hinjective : Function.Injective (Option.map (· + 1 : Nat → Nat)) :=
      Option.map_injective fun _ _ => Nat.succ.inj
    simp [home?, List.findIdx?_cons, hhere, hinjective.eq_iff]

/-- Labels that have been sorted by address are in ascending order. -/
theorem pairwise_mergeSort_address (labels : SymbolTable) :
    (labels.mergeSort fun a b => a.2 ≤ b.2).Pairwise (·.2 ≤ ·.2) := by
  have hsorted := @List.pairwise_mergeSort (List Char × Int) (fun a b => a.2 ≤ b.2)
    (fun a b c hab hbc => decide_eq_true ((of_decide_eq_true hab).trans (of_decide_eq_true hbc)))
    (fun a b => by simpa using Int.le_total a.2 b.2) labels
  exact hsorted.imp of_decide_eq_true

/-- The rows statement by statement, each with its labels in front. -/
def blocks (p : Program) (text : List Char) (labels : SymbolTable) (statements : List PlacedStatement)
    (commands : List (List Char)) : List (List Row) :=
  (statements.zip commands).mapIdx fun i entry =>
    (labelsAt labels statements (some i)).map (.label ·.1) ++ rowsOf p text entry.1 entry.2

/-- The rows stand in blocks, one for each statement, and the labels that are left over behind them. -/
theorem Rows.exists_blocks (h : Rows p text labels statements rows) :
    ∃ commands, statements.Forall₂ (fun placed command => Column p.symbols placed.statement command) commands ∧
      rows = (blocks p text labels statements commands).flatten ++
        ((labelsAt labels statements none).mergeSort fun a b => a.2 ≤ b.2).map (.label ·.1) := by
  induction h with
  | @nil labels =>
    refine ⟨[], .nil, ?_⟩
    have hall : labelsAt labels [] none = labels := List.filter_eq_self.2 fun _ _ => rfl
    rw [hall]
    rfl
  | @cons labels placed statements command _ hcolumn h ih =>
    obtain ⟨commands, hcommands, rfl⟩ := ih
    refine ⟨command :: commands, .cons hcolumn hcommands, ?_⟩
    have hlater := labelsAt_cons labels placed statements
    rw [blocks, blocks, List.zip_cons_cons, List.mapIdx_cons, List.flatten_cons, labelsAt_zero, ← hlater none]
    simp only [← hlater (some _), Option.map_some, Option.map_none, List.append_assoc]

/-! ## The words of a program in a row -/

theorem mapIdx_wordsOf (p : Program) (placed : PlacedStatement) :
    ((p.wordsOf placed).mapIdx fun offset word => (placed.address + offset, word)) =
      ((p.words.toList.mapIdx Prod.mk).drop placed.address).take placed.statement.wordCount := by
  apply List.ext_getElem?
  intro i
  rw [Program.wordsOf, Array.toList_extract, List.extract_eq_take_drop, Nat.add_sub_cancel_left,
    List.getElem?_mapIdx, List.getElem?_take, List.getElem?_take, List.getElem?_drop, List.getElem?_drop,
    List.getElem?_mapIdx]
  split
  · rfl
  · rfl

/-- The words of statements that stand one after the other stand in a row. -/
theorem flatMap_placedFrom (p : Program) (address : Nat) (statements : List Statement) :
    ((Layout.placedFrom address statements).flatMap fun placed =>
        (p.wordsOf placed).mapIdx fun offset word => (placed.address + offset, word)) =
      ((p.words.toList.mapIdx Prod.mk).drop address).take (statements.map Statement.wordCount).sum := by
  induction statements generalizing address with
  | nil => rfl
  | cons s statements ih =>
    rw [Layout.placedFrom, List.flatMap_cons, mapIdx_wordsOf, ih, List.map_cons, List.sum_cons, List.take_add,
      List.drop_drop]

end Listing

/-- The base of the operand of each command can be written down. -/
def Program.Writable (p : Program) : Prop :=
  ∀ placed ∈ p.statements, ∀ command, placed.statement.command? p.symbols = some (.ok command) →
    command.operands.Writable

theorem Operands.exists_texts {operands : Operands} (h : operands.Writable) :
    ∃ texts, operands.texts = .ok texts := by
  cases operands with
  | nullary | register | registers => exact ⟨_, rfl⟩
  | address mode o | registerAddress r mode o | conditionAddress c mode o =>
    exact ⟨_, bind_of_eq_ok (Operand.text_eq (h o rfl)) _⟩

theorem Program.Writable.exists_column {p : Program} (h : p.Writable) :
    ∀ placed ∈ p.statements.toList, ∃ column, Listing.commandText p placed.statement = .ok column := by
  intro placed hplaced
  rw [Listing.commandText]
  split
  · rename_i command hcommand
    obtain ⟨texts, htexts⟩ := Operands.exists_texts (h placed (Array.mem_toList_iff.1 hplaced) command hcommand)
    rw [Command.text, htexts]
    exact ⟨_, rfl⟩
  · exact ⟨[], rfl⟩
  · exact ⟨[], rfl⟩

/-! ## Programs as they are laid out -/

namespace Program.LaidOut

variable {p : Program} {body : List Element}

theorem wordsOf_eq_nil_iff (h : p.LaidOut body) {placed : PlacedStatement}
    (hplaced : placed ∈ p.statements.toList) : p.wordsOf placed = [] ↔ placed.statement.wordCount = 0 := by
  rw [← Statement.length_words (h.words_wordsOf placed hplaced), List.length_eq_zero_iff]

/-- The statements stand one after the other from the first address on. -/
theorem statements_eq_placedFrom (h : p.LaidOut body) :
    p.statements.toList = Layout.placedFrom 0 (Element.statementsIn body) := by
  apply List.ext_getElem?
  intro i
  rw [Layout.placedFrom_getElem?, ← h.statements, List.getElem?_map, Array.getElem?_toList]
  by_cases hi : i < p.statements.size
  · have haddress := h.address_eq hi
    rw [wordsBefore, Statement.addressIn] at haddress
    rw [Array.getElem?_eq_getElem hi, Option.map_some, Option.map_some, Nat.zero_add, ← haddress]
  · rw [Array.getElem?_eq_none (Nat.le_of_not_lt hi)]
    rfl

/-- No statement reaches over the end of the program. -/
theorem address_add_wordCount_le (h : p.LaidOut body) {placed : PlacedStatement}
    (hplaced : placed ∈ p.statements.toList) :
    placed.address + placed.statement.wordCount ≤ p.size := by
  obtain ⟨i, hi, rfl⟩ := Array.mem_iff_getElem.1 (Array.mem_toList_iff.1 hplaced)
  rw [h.address_eq hi, ← p.wordsBefore_succ hi, ← h.wordsBefore_size]
  exact p.wordsBefore_mono hi

end Program.LaidOut

theorem Element.symbolsFrom_map_fst (address : Nat) (elements : List Element) :
    (symbolsFrom address elements).map (·.1) = labelsIn elements := by
  induction elements generalizing address with
  | nil => rfl
  | cons e rest ih =>
    rw [symbolsFrom, List.map_append, ih, labelsIn, labelsIn, List.filterMap_cons]
    cases e.label? <;> rfl

/-- The names of the symbols of a program are those of the labels. -/
theorem CompilationUnit.Assemblable.symbols_map_fst {u : CompilationUnit} {p : Program} (h : u.Assemblable)
    (hassemble : u.assemble = .ok p) : p.symbols.map (·.1) = Element.labelsIn u.body := by
  rw [assemble_of_nodup h.recognised h.distinct h.fits, program_eq] at hassemble
  obtain ⟨words, -, hprogram⟩ := of_bind_eq_ok hassemble
  cases hprogram
  exact Element.symbolsFrom_map_fst _ _

/-- The name of a label is an identifier of the text, so it is a single line. -/
theorem CompilationUnit.newline_not_mem_label {text name : List Char} {lexemes : List Lexeme}
    (hlex : lex text = .ok lexemes) (h : name ∈ Element.labelsIn (ofLexemes lexemes).body) : '\n' ∉ name := by
  obtain ⟨e, he, hname⟩ := List.mem_filterMap.1 h
  cases e with
  | label labelName span =>
    cases hname
    have helement : .label name span ∈ (ofLexemes lexemes).elements := (List.takeWhile_sublist _).subset he
    obtain ⟨first, more, hrun, hclear, -, hnames⟩ :=
      (parses_ofLexemes lexemes).readFrom (List.suffix_refl lexemes) _ helement _ List.mem_cons_self
    have hmem : name ∈ (first :: more).filterMap Lexeme.identifier? := hnames ▸ List.mem_cons_self
    obtain ⟨l, hl, hidentifier⟩ := List.mem_filterMap.1 hmem
    have htext : l.text = name := by
      unfold Lexeme.identifier? at hidentifier
      split at hidentifier <;> cases hidentifier
      rfl
    exact htext ▸ (lex_eq_ok_iff_scans.1 hlex).newline_not_mem (hrun.subset hl) (hclear l hl)
  | statement | comment | terminator | unrecognised => cases hname

/-! ## The listing of a program -/

namespace Listing

/-- What the rows of a listing are. -/
structure Complete (p : Program) (text : List Char) (rows : List Row) : Prop where
  /-- Each address has one row with its word, in ascending order. -/
  numbered : rows.filterMap Row.numbered? = p.words.toList.mapIdx Prod.mk
  /-- Each statement without words has one row with an address and no word. -/
  vacant : rows.filterMap Row.vacant? =
    (p.statements.toList.filter (·.statement.wordCount = 0)).map fun placed =>
      (placed.address, placed.statement.span.extract text)
  /-- Each symbol has one row with its name, since no two have the same name. -/
  labels : (rows.filterMap Row.label?).Perm (p.symbols.map (·.1))
  distinct : (p.symbols.map (·.1)).Nodup
  /-- The rows of statements follow each other, each behind the labels whose first statement it is. The
  labels that stand at no statement follow all of them, by address. -/
  inPlace : ∃ (commands : List (List Char)) (trailing : SymbolTable),
    p.statements.toList.Forall₂ (fun placed command => Column p.symbols placed.statement command) commands ∧
    trailing.Perm (labelsAt p.symbols p.statements.toList none) ∧ trailing.Pairwise (·.2 ≤ ·.2) ∧
    rows = (blocks p text p.symbols p.statements.toList commands).flatten ++ trailing.map (.label ·.1)
  /-- The row of a command shows the text of the command that it stands for. -/
  commands : ∀ placed ∈ p.statements, ∀ c, placed.statement.body = .command c →
    ∃ command shown w, c.command placed.statement.span p.symbols = .ok command ∧ command.text = .ok shown ∧
      p.words[placed.address]? = some w ∧
      .first placed.address w (placed.statement.span.extract text) shown.toList ∈ rows
  /-- Each address fills its column. -/
  aligned : ∀ row ∈ rows, ∀ a ∈ row.address?, (digits 4 a).length = 4
  /-- Each row is a single line. -/
  oneLine : ∀ row ∈ rows, '\n' ∉ row.text

section

variable {p : Program} {text : List Char} {lexemes : List Lexeme} {rows : List Row}

/-- The words in the rows are all words of the program, since its statements stand one after the other. -/
theorem Rows.numbered {body : List Element} (hlaid : p.LaidOut body)
    (h : Rows p text p.symbols p.statements.toList rows) :
    rows.filterMap Row.numbered? = p.words.toList.mapIdx Prod.mk := by
  have hsize : p.words.toList.length = ((Element.statementsIn body).map Statement.wordCount).sum := by
    rw [Array.length_toList]
    exact hlaid.size_eq
  rw [h.filterMap_numbered, hlaid.statements_eq_placedFrom, flatMap_placedFrom, List.drop_zero, ← hsize]
  exact List.take_of_length_le (by rw [List.length_mapIdx])

/-- The row of a command, with its word and its text. -/
theorem Rows.exists_commandRow {body : List Element} (hlaid : p.LaidOut body)
    (h : Rows p text p.symbols p.statements.toList rows) :
    ∀ placed ∈ p.statements, ∀ c, placed.statement.body = .command c →
      ∃ command shown w, c.command placed.statement.span p.symbols = .ok command ∧
        command.text = .ok shown ∧ p.words[placed.address]? = some w ∧
        .first placed.address w (placed.statement.span.extract text) shown.toList ∈ rows := by
  intro placed hplaced c hbody
  obtain ⟨column, hshown, hrows⟩ := h.exists_rowsOf placed (Array.mem_toList_iff.2 hplaced)
  have hwords := hlaid.words_wordsOf placed (Array.mem_toList_iff.2 hplaced)
  have hstatement : placed.statement = ⟨.command c, placed.statement.span⟩ := by rw [← hbody]
  rw [hstatement] at hwords hshown
  obtain ⟨-, w, -, -, hword⟩ := Statement.words_command.1 hwords
  rw [rowsOf, hword] at hrows
  have hfirst : p.words[placed.address]? = some w := by
    have hhead := congrArg List.head? hword
    have hcount : 0 < placed.statement.wordCount := by
      rw [hstatement]
      exact Nat.one_pos
    rw [Program.wordsOf, Array.toList_extract, List.extract_eq_take_drop, List.head?_take, if_neg (by omega),
      List.head?_drop, Array.getElem?_toList] at hhead
    exact hhead
  cases hshown with
  | command hcommand hshown => exact ⟨_, _, w, hcommand, hshown, hfirst, hrows List.mem_cons_self⟩

/-- No row has an address of more than four digits, since a program leaves an address free. -/
theorem Rows.aligned {body : List Element} (hlaid : p.LaidOut body)
    (h : Rows p text p.symbols p.statements.toList rows) :
    ∀ row ∈ rows, ∀ a ∈ row.address?, (digits 4 a).length = 4 := by
  refine h.forall_mem (fun _ _ a ha => by cases ha) fun placed hplaced command _ row hrow a ha => ?_
  obtain ⟨-, haddress⟩ := of_mem_statementRows hrow
  have hle := haddress a ha
  have hcount := Statement.length_words (hlaid.words_wordsOf placed hplaced)
  have hsize := hlaid.address_add_wordCount_le hplaced
  have hlt : a < tenPow 4 := by
    have hfits : p.size < tenPow 4 := hlaid.size_lt
    omega
  exact Word.length_paddedDigits (by decide) (⟨a, hlt⟩ : Word 4)

/-- What the command column shows is a single line. -/
theorem Column.newline_not_mem {symbols : SymbolTable} {s : Statement} {shown : List Char}
    (h : Column symbols s shown) (hrange : s.body.InRange)
    (hwritable : ∀ command, s.command? symbols = some (.ok command) → command.operands.Writable) :
    '\n' ∉ shown := by
  cases h with
  | @command c span command shown hcommand hshown =>
    obtain ⟨hstandard, harguments⟩ := hrange
    obtain ⟨values, hvalues, hresolve⟩ := CommandStatement.command_eq_ok_iff.1 hcommand
    obtain ⟨-, hvalid⟩ :=
      Instruction.resolve_valid hstandard (WrittenArgument.inRange_of_denotes hvalues harguments) hresolve
    exact command.newline_not_mem_text hvalid (hwritable command (congrArg some hcommand)) hshown
  | value | allocation => exact List.not_mem_nil

/-- Names, sources and commands are read from a single line each. -/
theorem Rows.oneLine (hlex : lex text = .ok lexemes) (hwritable : p.Writable)
    (hlabels : p.symbols.map (·.1) = Element.labelsIn (CompilationUnit.ofLexemes lexemes).body)
    (hstatements : p.statements.toList.map (·.statement) =
      Element.statementsIn (CompilationUnit.ofLexemes lexemes).body)
    (h : Rows p text p.symbols p.statements.toList rows) : ∀ row ∈ rows, '\n' ∉ row.text := by
  refine h.forall_mem (fun label hlabel => ?_) fun placed hplaced command hcolumn row hrow => ?_
  · have hname : label.1 ∈ Element.labelsIn (CompilationUnit.ofLexemes lexemes).body :=
      hlabels ▸ List.mem_map_of_mem hlabel
    exact Row.newline_not_mem_text
      (List.forall_mem_singleton.2 (CompilationUnit.newline_not_mem_label hlex hname))
  · have hmem : placed.statement ∈ Element.statementsIn (CompilationUnit.ofLexemes lexemes).body :=
      hstatements ▸ List.mem_map_of_mem hplaced
    have helement := CompilationUnit.mem_elements_of_mem_statementsIn hmem
    have hsource := ((CompilationUnit.span_of_statement helement).inLine hlex).newline
    have hcommand := hcolumn.newline_not_mem (CompilationUnit.inRange_ofLexemes hlex _ helement)
      (hwritable placed (Array.mem_toList_iff.1 hplaced))
    obtain ⟨hshown, -⟩ := of_mem_statementRows hrow
    refine Row.newline_not_mem_text fun piece hpiece => ?_
    obtain rfl | rfl := hshown piece hpiece
    · exact hsource
    · exact hcommand

theorem Rows.complete (hlex : lex text = .ok lexemes)
    (hassemblable : (CompilationUnit.ofLexemes lexemes).Assemblable)
    (hassemble : (CompilationUnit.ofLexemes lexemes).assemble = .ok p) (hwritable : p.Writable)
    (h : Rows p text p.symbols p.statements.toList rows) : Complete p text rows := by
  have hlaid := CompilationUnit.laidOut_of_assemble hassemble
  have hsymbols := hassemblable.symbols_map_fst hassemble
  obtain ⟨commands, hcommands, hrows⟩ := h.exists_blocks
  exact {
    numbered := h.numbered hlaid
    vacant := h.filterMap_vacant fun _ => hlaid.wordsOf_eq_nil_iff
    labels := h.filterMap_label_perm
    distinct := hsymbols ▸ hassemblable.distinct
    inPlace := ⟨commands, _, hcommands, List.mergeSort_perm _ _, pairwise_mergeSort_address _, hrows⟩
    commands := h.exists_commandRow hlaid
    aligned := h.aligned hlaid
    oneLine := h.oneLine hlex hwritable hsymbols hlaid.statements }

end

end Listing

/-- The script of a text that assembles has a listing. Its lines are the texts of rows, and these are complete. -/
theorem listing_complete {text : List Char} {p : Program} (h : Assembles text p) (hwritable : p.Writable) :
    ∃ s rows, Script.ofText text = .ok s ∧ s.program? = some p ∧
      s.listing = .ok (rows.flatMap fun row => row.text ++ ['\n']) ∧ Listing.Complete p text rows := by
  obtain ⟨lexemes, hlex, hassemble⟩ := h
  have hassemblable : (CompilationUnit.ofLexemes lexemes).Assemblable := by
    obtain hassemblable | ⟨e, hfails⟩ :=
      CompilationUnit.assemblable_or_failsWith (CompilationUnit.inRange_ofLexemes hlex)
    · exact hassemblable
    · cases hfails.assemble_eq.symm.trans hassemble
  have hlaid := CompilationUnit.laidOut_of_assemble hassemble
  obtain ⟨lines, hlines⟩ := Listing.exists_linesFrom hwritable.exists_column p.symbols
  obtain ⟨rows, hrows, rfl⟩ := Listing.exists_rows hlines fun placed hplaced =>
    ⟨_, hlaid.words_wordsOf placed hplaced⟩
  refine ⟨⟨text, lexemes, CompilationUnit.ofLexemes lexemes, .ok p⟩, rows, ?_, rfl, ?_,
    hrows.complete hlex hassemblable hassemble hwritable⟩
  · have hbound : addressSpace ≤ Numeral.writeBound := tenPow_le (by decide)
    rw [← hassemble]
    refine Script.ofText_eq hlex (CompilationUnit.checkAddresses_place (hassemblable.fits.trans_le hbound)) ?_
    intro e he
    cases hassemble.symm.trans he
  · show (p.listing text).mapError _ = _
    rw [Program.listing, hlines, ← Listing.Row.flatMap_render]
    rfl

/-- Two labels in front of a statement without words, two in front of the next one, and two behind the last
command. -/
theorem listing_complete_of_shared_addresses :
    ∃ p, Assembles "a: b: RESGR 0\nHIA.a R1, c\nc: RESGR 0\nd: SPR b\nf: e:".toList p ∧ p.Writable ∧
      ∃ s rows, Script.ofText "a: b: RESGR 0\nHIA.a R1, c\nc: RESGR 0\nd: SPR b\nf: e:".toList = .ok s ∧
        s.program? = some p ∧ s.listing = .ok (rows.flatMap fun row => row.text ++ ['\n']) ∧
        Listing.Complete p "a: b: RESGR 0\nHIA.a R1, c\nc: RESGR 0\nd: SPR b\nf: e:".toList rows := by
  obtain ⟨p, hp, hbases⟩ : ∃ p, Assembles "a: b: RESGR 0\nHIA.a R1, c\nc: RESGR 0\nd: SPR b\nf: e:".toList p ∧
      (p.statements.toList.filterMap (·.statement.command? p.symbols)).map
        (·.map fun command => command.operands.operand?.map (·.base)) = [.ok (some 1), .ok (some 0)] :=
    ⟨_, ⟨_, rfl, rfl⟩, rfl⟩
  have hwritable : p.Writable := by
    intro placed hplaced command hcommand o ho
    have hmem : (.ok command : Except AssemblyError Command) ∈
        p.statements.toList.filterMap (·.statement.command? p.symbols) :=
      List.mem_filterMap.2 ⟨placed, Array.mem_toList_iff.2 hplaced, hcommand⟩
    have hbase := List.mem_map_of_mem (f := (·.map fun command => command.operands.operand?.map (·.base))) hmem
    rw [hbases] at hbase
    have hbound : 10 ≤ Numeral.writeBound := tenPow_le (n := 1) (by decide)
    have hsmall : o.base = 1 ∨ o.base = 0 := by
      simpa [Except.map, Option.mem_def.1 ho] using hbase
    omega
  exact ⟨p, hp, hwritable, listing_complete hp hwritable⟩

end Drama
