-- SUMMARY: What is made of a text, places apart, depends on its code only: not on blanks, comments, or what follows its end.
import Drama.Program.Script
import Drama.Proofs.Command.Encoding
import Drama.Proofs.Source.Correspondence
import Drama.Proofs.Source.Inert
import Drama.Proofs.Source.RoundTrip

/-!
# Observation

A text is observed to assemble to words, addresses of statements and symbols, or to fail with an error whose
place in the text is left out. Units whose elements are the same up to places are observed to be the same,
since both passes of assembly look at places for their errors only.
-/

namespace Drama

/-! ## What is observed -/

namespace AssemblyError

/-- What an error is about. Of unrecognised source only the class of its error counts. -/
inductive Subject
  | unrecognised (errorClass : ParseError.ErrorClass)
  | duplicateSymbol (name : List Char)
  | overflow (wordCount : Nat)
  | undefinedSymbol (name : List Char)
  | commandFormat (error : FormatError)
  | encoding (error : EncodingError)
deriving DecidableEq

def Cause.subject : Cause → Subject
  | .unrecognised source => .unrecognised source.error.cause.errorClass
  | .duplicateSymbol name => .duplicateSymbol name
  | .overflow wordCount => .overflow wordCount
  | .undefinedSymbol name => .undefinedSymbol name
  | .commandFormat error => .commandFormat error
  | .encoding error => .encoding error

/-- What the error is about, and the number of statements before it where that is known. -/
def observed (e : AssemblyError) : Subject × Option Nat := (e.cause.subject, e.statement)

theorem checkMessage_eq (e : AssemblyError) : e.checkMessage =
    match e.cause.subject with
    | .overflow wordCount => discard (Numeral.write wordCount)
    | _ => .ok () := by
  obtain ⟨cause, _, _⟩ := e
  cases cause <;> rfl

theorem checkMessage_congr {e e' : AssemblyError} (h : e'.observed = e.observed) :
    e'.checkMessage = e.checkMessage := by
  have hsubject : e'.cause.subject = e.cause.subject := congrArg Prod.fst h
  rw [checkMessage_eq, checkMessage_eq, hsubject]

end AssemblyError

open AssemblyError

/-- The words of a program, the addresses of its statements, and its symbols. -/
structure Program.Image where
  words : Array MachineWord
  addresses : List Nat
  symbols : SymbolTable
deriving DecidableEq

def Program.image (p : Program) : Image := ⟨p.words, p.statements.toList.map (·.address), p.symbols⟩

/-- What is observed of the outcome of assembly. -/
def observe (outcome : Except AssemblyError Program) : Except (Subject × Option Nat) Program.Image :=
  (outcome.map Program.image).mapError AssemblyError.observed

theorem of_observe_eq_ok {outcome : Except AssemblyError Program} {image : Program.Image}
    (h : observe outcome = .ok image) : ∃ p, outcome = .ok p ∧ p.image = image := by
  cases outcome with
  | ok p => exact ⟨p, rfl, Except.ok.inj h⟩
  | error e => cases h

/-- What is observed of a text. -/
def Script.observed (text : List Char) :
    Except Numeral.Error (Except (Subject × Option Nat) Program.Image) :=
  (ofText text).map fun s => observe s.outcome

/-! ## Elements that are alike -/

/-- Elements that are the same but for their places, what comments say, and the texts of what is not
recognised. -/
inductive Element.Alike : Element → Element → Prop
  | statement {s s' : Statement} (h : s'.body.unplaced = s.body.unplaced) :
      Alike (.statement s) (.statement s')
  | label (name : List Char) (span span' : Span) : Alike (.label name span) (.label name span')
  | comment (text text' : List Char) (span span' : Span) :
      Alike (.comment text span) (.comment text' span')
  | terminator (span span' : Span) : Alike (.terminator span) (.terminator span')
  | unrecognised {source source' : UnrecognisedSource}
      (h : source'.error.cause.errorClass = source.error.cause.errorClass) :
      Alike (.unrecognised source) (.unrecognised source')

structure PlacedStatement.Alike (p p' : PlacedStatement) : Prop where
  address_eq : p'.address = p.address
  body_eq : p'.statement.body.unplaced = p.statement.body.unplaced

structure Layout.Alike (l l' : Layout) : Prop where
  statements : l.statements.toList.Forall₂ PlacedStatement.Alike l'.statements.toList
  symbols_eq : l'.symbols = l.symbols
  size_eq : l'.size = l.size

/-! ## The first pass -/

theorem Statement.wordCount_unplaced (body : Statement.Body) (span span' : Span) :
    (Statement.mk body.unplaced span').wordCount = (Statement.mk body span).wordCount := by
  cases body <;> rfl

theorem Statement.wordCount_congr {s s' : Statement} (h : s'.body.unplaced = s.body.unplaced) :
    s'.wordCount = s.wordCount := by
  rw [← wordCount_unplaced s'.body s'.span .none, ← wordCount_unplaced s.body s.span .none, h]

namespace Layout

variable {l l' : Layout} {elements elements' : List Element}

theorem Alike.extend (hl : l.Alike l') (h : elements.Forall₂ Element.Alike elements') :
    (l.extend elements).1.Alike (l'.extend elements').1 ∧
      (l'.extend elements').2.map observed = (l.extend elements).2.map observed := by
  induction h generalizing l l' with
  | nil => exact ⟨hl, rfl⟩
  | @cons e e' rest rest' he _ ih =>
    cases he with
    | terminator => exact ⟨hl, rfl⟩
    | comment | unrecognised => exact ih hl
    | @statement s s' hbody =>
      refine ih ⟨?_, hl.symbols_eq, ?_⟩
      · rw [addStatement, addStatement, Array.toList_push, Array.toList_push]
        exact List.rel_append hl.statements (.cons ⟨hl.size_eq, hbody⟩ .nil)
      · rw [addStatement, addStatement, hl.size_eq, Statement.wordCount_congr hbody]
    | label name span span' =>
      have hdefines : l'.defines name = l.defines name := by rw [defines, defines, hl.symbols_eq]
      have hsize : l'.statements.size = l.statements.size := by
        rw [← Array.length_toList, ← Array.length_toList, hl.statements.length_eq]
      rw [Layout.extend, Layout.extend, hdefines]
      split
      · refine ⟨hl, ?_⟩
        rw [hsize]
        rfl
      · refine ih ⟨hl.statements, ?_, hl.size_eq⟩
        rw [addLabel, addLabel, hl.symbols_eq, hl.size_eq]

end Layout

namespace CompilationUnit

variable {u u' : CompilationUnit}

theorem unrecognised_alike (h : u.elements.Forall₂ Element.Alike u'.elements) :
    u'.unrecognised.map (·.error.cause.errorClass) = u.unrecognised.map (·.error.cause.errorClass) := by
  unfold unrecognised
  generalize u.elements = elements at h
  generalize u'.elements = elements' at h
  induction h with
  | nil => rfl
  | cons he _ ih =>
    cases he with
    | statement | label | comment | terminator => exact ih
    | unrecognised herror => exact congrArg₂ List.cons herror ih

/-- Units that are alike are laid out alike, as far as they go, and the same is wrong with them. -/
theorem place_alike (h : u.elements.Forall₂ Element.Alike u'.elements) :
    u.place.1.Alike u'.place.1 ∧ u'.place.2.map observed = u.place.2.map observed := by
  have hempty : Layout.empty.Alike Layout.empty := ⟨.nil, rfl, rfl⟩
  have hunrecognised := unrecognised_alike h
  unfold place
  generalize u.unrecognised = sources at hunrecognised
  generalize u'.unrecognised = sources' at hunrecognised
  cases sources with
  | cons source =>
    cases sources' with
    | nil => cases hunrecognised
    | cons source' =>
      have hclass : source'.error.cause.errorClass = source.error.cause.errorClass :=
        (List.cons.inj hunrecognised).1
      refine ⟨hempty, ?_⟩
      simp only [Option.map_some, observed, Cause.subject, hclass]
  | nil =>
    obtain rfl := List.map_eq_nil_iff.1 hunrecognised
    obtain ⟨hl, herror⟩ := hempty.extend h
    generalize Layout.empty.extend u.elements = found at hl herror
    generalize Layout.empty.extend u'.elements = found' at hl herror
    obtain ⟨l, error⟩ := found
    obtain ⟨l', error'⟩ := found'
    have hsize : l'.size = l.size := hl.size_eq
    cases error with
    | some error =>
      obtain ⟨error', rfl, -⟩ := Option.map_eq_some_iff.1 herror
      exact ⟨hl, herror⟩
    | none =>
      obtain rfl := Option.map_eq_none_iff.1 herror
      simp only [hsize]
      split
      · exact ⟨hl, rfl⟩
      · exact ⟨hl, rfl⟩

end CompilationUnit

/-! ## The second pass -/

theorem mapError_bind {ε ε' α β : Type} (x : Except ε α) (f : α → Except ε β) (g : ε → ε') :
    (x >>= f).mapError g = x.mapError g >>= fun a => (f a).mapError g := by
  cases x <;> rfl

section

variable (symbols : SymbolTable)

theorem WrittenArgument.evaluate_unplaced (a : WrittenArgument) :
    (a.unplaced.evaluate symbols).mapError observed = (a.evaluate symbols).mapError observed := by
  cases a with
  | register | condition => rfl
  | address e =>
    have hvalue : AddressExpression.evaluate { e with span := .none } symbols = e.evaluate symbols := rfl
    simp only [unplaced, evaluate, hvalue]
    cases e.evaluate symbols <;> rfl

theorem WrittenArgument.mapM_evaluate_unplaced (arguments : List WrittenArgument) :
    ((arguments.map unplaced).mapM (evaluate symbols)).mapError observed =
      (arguments.mapM (evaluate symbols)).mapError observed := by
  induction arguments with
  | nil => rfl
  | cons a arguments ih =>
    rw [List.map_cons, List.mapM_cons, List.mapM_cons, mapError_bind, mapError_bind, evaluate_unplaced]
    simp only [mapError_bind, ih]

theorem CommandStatement.command_unplaced (c : CommandStatement) (span span' : Span) :
    (c.unplaced.command span' symbols).mapError observed =
      (c.command span symbols).mapError observed := by
  have harguments := WrittenArgument.mapM_evaluate_unplaced symbols c.arguments
  have hresolve (resolved : Except FormatError Command) (span : Span) :
      (resolved.mapError (⟨.commandFormat ·, some span, none⟩ : FormatError → AssemblyError)).mapError
        observed = resolved.mapError fun error => (.commandFormat error, none) := by
    cases resolved <;> rfl
  simp only [command, mapError_bind, hresolve]
  rw [← harguments]
  rfl

theorem Statement.words_unplaced (body : Statement.Body) (span span' : Span) :
    ((Statement.mk body.unplaced span').words symbols).mapError observed =
      ((Statement.mk body span).words symbols).mapError observed := by
  cases body with
  | value | allocation => rfl
  | command c =>
    have hencode (word : Except EncodingError MachineWord) (span : Span) :
        (word.mapError (⟨.encoding ·, some span, none⟩ : EncodingError → AssemblyError)).mapError
          observed = word.mapError fun error => (.encoding error, none) := by
      cases word <;> rfl
    have hcommand := CommandStatement.command_unplaced symbols c span span'
    simp only [words, Body.unplaced, mapError_bind, hencode, hcommand]

theorem Statement.words_congr {s s' : Statement} (h : s'.body.unplaced = s.body.unplaced) :
    (s'.words symbols).mapError observed = (s.words symbols).mapError observed := by
  rw [← words_unplaced symbols s'.body s'.span .none, ← words_unplaced symbols s.body s.span .none, h]

theorem Layout.wordsFrom_congr {statements statements' : List PlacedStatement}
    (h : statements.Forall₂ PlacedStatement.Alike statements') (index : Nat) :
    (wordsFrom symbols index statements').mapError observed =
      (wordsFrom symbols index statements).mapError observed := by
  have hindex (index : Nat) (words : Except AssemblyError (List MachineWord)) :
      (words.mapError (·.atStatement index)).mapError observed =
        (words.mapError observed).mapError fun found => (found.1, some index) := by
    cases words <;> rfl
  induction h generalizing index with
  | nil => rfl
  | @cons p p' rest rest' hp _ ih =>
    simp only [wordsFrom, mapError_bind, hindex, Statement.words_congr symbols hp.body_eq, ih]

end

theorem Layout.observe_program (l : Layout) :
    observe l.program = (wordsFrom l.symbols 0 l.statements.toList).mapError observed >>= fun words =>
      .ok ⟨words.flatten.toArray, l.statements.toList.map (·.address), l.symbols⟩ := by
  unfold Layout.program
  cases wordsFrom l.symbols 0 l.statements.toList <;> rfl

theorem Layout.Alike.program {l l' : Layout} (h : l.Alike l') : observe l'.program = observe l.program := by
  have haddresses : l'.statements.toList.map (·.address) = l.statements.toList.map (·.address) := by
    have hstatements := h.statements
    generalize l.statements.toList = statements at hstatements
    generalize l'.statements.toList = statements' at hstatements
    induction hstatements with
    | nil => rfl
    | cons hp _ ih => exact congrArg₂ List.cons hp.address_eq ih
  rw [observe_program, observe_program, h.symbols_eq, haddresses,
    Layout.wordsFrom_congr l.symbols h.statements 0]

namespace CompilationUnit

variable {u u' : CompilationUnit}

theorem assemble_alike (h : u.elements.Forall₂ Element.Alike u'.elements) :
    observe u'.assemble = observe u.assemble := by
  obtain ⟨hl, herror⟩ := place_alike h
  unfold assemble layout
  generalize u.place = found at hl herror
  generalize u'.place = found' at hl herror
  obtain ⟨l, error⟩ := found
  obtain ⟨l', error'⟩ := found'
  cases error with
  | none =>
    obtain rfl := Option.map_eq_none_iff.1 herror
    exact hl.program
  | some error =>
    obtain ⟨error', rfl, heq⟩ := Option.map_eq_some_iff.1 herror
    exact congrArg Except.error heq

end CompilationUnit

/-- The message of an error that is too long to be written counts as well as the error. -/
def observeWritten (outcome : Except AssemblyError Program) :
    Except Numeral.Error (Except (Subject × Option Nat) Program.Image) :=
  match outcome with
  | .ok p => .ok (observe (.ok p))
  | .error e => e.checkMessage.map fun _ => observe (.error e)

theorem observeWritten_congr {outcome outcome' : Except AssemblyError Program}
    (h : observe outcome' = observe outcome) : observeWritten outcome' = observeWritten outcome := by
  cases outcome with
  | ok p =>
    cases outcome' with
    | ok p' => exact congrArg Except.ok h
    | error e' => cases h
  | error e =>
    cases outcome' with
    | ok p' => cases h
    | error e' => rw [observeWritten, observeWritten, checkMessage_congr (Except.error.inj h), h]

theorem Script.observed_eq {text : List Char} {lexemes : List Lexeme} (hlex : lex text = .ok lexemes) :
    observed text = (CompilationUnit.ofLexemes lexemes).place.1.checkAddresses >>= fun _ =>
      observeWritten (CompilationUnit.ofLexemes lexemes).assemble := by
  unfold observed ofText
  rw [bind_of_eq_ok hlex]
  dsimp only
  cases (CompilationUnit.ofLexemes lexemes).place.1.checkAddresses with
  | error error => rfl
  | ok checked =>
    cases (CompilationUnit.ofLexemes lexemes).assemble with
    | ok p => rfl
    | error e =>
      show ((e.checkMessage >>= _).map _) = e.checkMessage.map _
      cases e.checkMessage <;> rfl

/-- Texts whose elements are alike are observed to be the same. -/
theorem Script.observed_congr {text text' : List Char} {lexemes lexemes' : List Lexeme}
    (hlex : lex text = .ok lexemes) (hlex' : lex text' = .ok lexemes')
    (h : (CompilationUnit.ofLexemes lexemes).elements.Forall₂ Element.Alike
      (CompilationUnit.ofLexemes lexemes').elements) :
    observed text' = observed text := by
  obtain ⟨hl, -⟩ := CompilationUnit.place_alike h
  rw [observed_eq hlex, observed_eq hlex', Layout.checkAddresses, Layout.checkAddresses, hl.symbols_eq,
    observeWritten_congr (CompilationUnit.assemble_alike h)]

/-! ## Corresponding elements are alike -/

namespace Correspondence

variable {k : Correspondence} (hnames : ∀ name name', k.texts .identifier name name' → name' = name)
include hnames

theorem unplaced_of_arguments {arguments arguments' : List WrittenArgument}
    (h : arguments.Forall₂ k.Arguments arguments') :
    arguments'.map WrittenArgument.unplaced = arguments.map WrittenArgument.unplaced := by
  induction h with
  | nil => rfl
  | cons ha _ ih =>
    refine congrArg₂ List.cons ?_ ih
    cases ha with
    | register | condition => rfl
    | @address e e' he =>
      rw [WrittenArgument.unplaced, WrittenArgument.unplaced, eq_of_terms hnames he.terms, he.index_eq]

theorem unplaced_of_bodies {body body' : Statement.Body} (h : k.Bodies body body') :
    body'.unplaced = body.unplaced := by
  cases h with
  | value | allocation => rfl
  | command hc =>
    rw [Statement.Body.unplaced, Statement.Body.unplaced, CommandStatement.unplaced,
      CommandStatement.unplaced, unplaced_of_arguments hnames hc.arguments, hc.instruction_eq, hc.mode_eq]

theorem Elements.alike {e e' : Element} (h : k.Elements e e') : e.Alike e' := by
  cases h with
  | statement hs => exact .statement (unplaced_of_bodies hnames hs.body)
  | label hname hspan =>
    rw [hnames _ _ hname]
    exact .label _ _ _
  | comment => exact .comment _ _ _ _
  | terminator => exact .terminator _ _
  | unrecognised _ _ herror => exact .unrecognised herror

end Correspondence

/-- Lexemes correspond if they are the same but for their places and for what is no code. -/
def Correspondence.inert : Correspondence where
  position := 0
  behind := []
  separated := by simp
  places _ _ := True
  texts kind text text' := kind ∈ LexemeKind.inert ∨ text' = text
  toUpper_eq := by
    rintro text _ (hkind | rfl)
    · exact absurd hkind (by decide)
    · rfl
  head?_eq := by
    rintro text _ (hkind | rfl)
    · exact absurd hkind (by decide)
    · rfl

theorem Correspondence.inert_of_code {lexemes lexemes' : List Lexeme}
    (h : lexemes'.map Lexeme.code = lexemes.map Lexeme.code) :
    lexemes.Forall₂ inert.Lexemes lexemes' := by
  have hcodes : (lexemes.map Lexeme.code).Forall₂ Eq (lexemes'.map Lexeme.code) := by
    rw [List.forall₂_eq_eq_eq, h]
  rw [List.forall₂_map_left_iff, List.forall₂_map_right_iff] at hcodes
  refine hcodes.imp fun l l' hcode => ?_
  have htoken : l.token = l'.token := congrArg Prod.fst hcode
  have hkind : l.kind = l'.kind := congrArg Token.kind htoken
  refine ⟨htoken.symm, ?_, trivial, trivial⟩
  by_cases hinert : l.kind ∈ LexemeKind.inert
  · exact .inl hinert
  · have htext : (if l.kind ∈ LexemeKind.inert then [] else l.text) =
        if l'.kind ∈ LexemeKind.inert then [] else l'.text := congrArg Prod.snd hcode
    rw [← hkind, if_neg hinert, if_neg hinert] at htext
    exact .inr htext.symm

/-- Lexemes with the same code make elements that are alike. -/
theorem CompilationUnit.alike_of_code {lexemes lexemes' : List Lexeme}
    (h : lexemes'.map Lexeme.code = lexemes.map Lexeme.code) :
    (ofLexemes lexemes).elements.Forall₂ Element.Alike (ofLexemes lexemes').elements := by
  have helements := elements_correspond (k := .inert) rfl rfl trivial (Correspondence.inert_of_code h)
  refine helements.imp fun e e' he => he.alike fun name name' hname => ?_
  exact hname.resolve_left (by decide)

/-! ## Inert text leaves no trace -/

/-- Blanks between lexemes change neither their kinds, texts and values, nor what the text assembles to, nor
the error that it fails with, places apart. -/
theorem observed_of_spaced {text text' : List Char} {lexemes : List Lexeme} (hlex : lex text = .ok lexemes)
    (h : Relation.ReflTransGen Spaced text text') :
    (∃ lexemes', lex text' = .ok lexemes' ∧
      lexemes'.map Lexeme.content = lexemes.map Lexeme.content) ∧
      Script.observed text' = Script.observed text := by
  obtain ⟨lexemes', hlex', hcontent⟩ :=
    exists_lex_of_reflTransGen (fun _ _ _ hspaced => hspaced.lex) h hlex
  refine ⟨⟨lexemes', hlex', hcontent⟩, Script.observed_congr hlex hlex' ?_⟩
  exact CompilationUnit.alike_of_code (Lexeme.map_code_of_content hcontent)

/-- Blanks in front of a text, and one between a symbol and the number that is taken from it. -/
theorem observed_of_spaced_of_difference :
    ∃ lexemes, lex "x:HIA R1,x-1".toList = .ok lexemes ∧
      Relation.ReflTransGen Spaced "x:HIA R1,x-1".toList "\t x:HIA R1,x -1".toList ∧
      (∃ lexemes', lex "\t x:HIA R1,x -1".toList = .ok lexemes' ∧
        lexemes'.map Lexeme.content = lexemes.map Lexeme.content) ∧
      Script.observed "\t x:HIA R1,x -1".toList = Script.observed "x:HIA R1,x-1".toList := by
  have hbehind : Spaced "x:HIA R1,x-1".toList "x:HIA R1,x -1".toList :=
    @Spaced.behind _ [' '] _ ⟨.identifier, ['x'], 9, 10⟩ rfl (by decide +kernel) (by decide)
      (by decide) (List.forall_mem_singleton.2 rfl)
  have hstart : Spaced "x:HIA R1,x -1".toList "\t x:HIA R1,x -1".toList :=
    @Spaced.start _ ['\t', ' '] (List.forall_mem_cons.2 ⟨rfl, List.forall_mem_singleton.2 rfl⟩)
  have hspaced := (Relation.ReflTransGen.single hbehind).tail hstart
  exact ⟨_, rfl, hspaced, observed_of_spaced rfl hspaced⟩

/-- What comments say and what stands behind the end of the program changes neither what the text assembles to
nor the error that it fails with, places apart. -/
theorem observed_of_reworded {text text' : List Char} {lexemes : List Lexeme}
    (hlex : lex text = .ok lexemes) (h : Relation.ReflTransGen Reworded text text') :
    (∃ lexemes', lex text' = .ok lexemes' ∧ lexemes'.map Lexeme.code = lexemes.map Lexeme.code) ∧
      Script.observed text' = Script.observed text := by
  obtain ⟨lexemes', hlex', hcode⟩ :=
    exists_lex_of_reflTransGen (fun _ _ _ hreworded => hreworded.lex) h hlex
  exact ⟨⟨lexemes', hlex', hcode⟩,
    Script.observed_congr hlex hlex' (CompilationUnit.alike_of_code hcode)⟩

/-- A remark and an end that look like code, and an undefined symbol in the code itself. -/
theorem observed_of_reworded_of_code :
    ∃ lexemes, lex "SPR x|a\nEINDPR".toList = .ok lexemes ∧
      Relation.ReflTransGen Reworded "SPR x|a\nEINDPR".toList
        "SPR x|x: '; | EINDPR\nEINDPRx:\n(".toList ∧
      (∃ lexemes', lex "SPR x|x: '; | EINDPR\nEINDPRx:\n(".toList = .ok lexemes' ∧
        lexemes'.map Lexeme.code = lexemes.map Lexeme.code) ∧
      Script.observed "SPR x|x: '; | EINDPR\nEINDPRx:\n(".toList =
        Script.observed "SPR x|a\nEINDPR".toList := by
  have hcomment : Reworded "SPR x|a\nEINDPR".toList "SPR x|x: '; | EINDPR\nEINDPR".toList :=
    @Reworded.comment _ "x: '; | EINDPR".toList _ ⟨.comment, ['|', 'a'], 5, 7⟩ rfl (by decide +kernel)
      rfl (by decide)
  have htail : Reworded "SPR x|x: '; | EINDPR\nEINDPR".toList
      "SPR x|x: '; | EINDPR\nEINDPRx:\n(".toList :=
    @Reworded.tail _ "x:\n(".toList _ ⟨.programTerminator, Token.terminatorWord, 21, 27⟩ rfl
      (by decide +kernel) rfl
  have hreworded := (Relation.ReflTransGen.single hcomment).tail htail
  exact ⟨_, rfl, hreworded, observed_of_reworded rfl hreworded⟩

end Drama
