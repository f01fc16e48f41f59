-- SUMMARY: The case of letters decides nothing but which names are the same.
import Drama.Proofs.Program.Layout
import Drama.Proofs.Program.Observation
import Drama.Proofs.Source.LetterCase
import Drama.Proofs.Source.Naming

/-!
# Letter case of programs

Texts of ASCII that are equal up to the case of letters consist of corresponding lexemes, and these make
corresponding elements. If the names in the one text are spelled the same in the other, the elements are alike, so
that both texts are observed to be the same.
-/

namespace Drama

open Text

/-- What is related in two rows belongs to these rows. -/
theorem forall₂_mem {α β : Type} {related : α → β → Prop} {as : List α} {bs : List β}
    (h : as.Forall₂ related bs) : as.Forall₂ (fun a b => a ∈ as ∧ b ∈ bs ∧ related a b) bs := by
  have hright : bs.Forall₂ (fun b a => b ∈ bs ∧ related a b) as :=
    (List.forall₂_and_left _ _).2 ⟨fun _ hb => hb, h.flip⟩
  exact (List.forall₂_and_left _ _).2 ⟨fun _ ha => ha, hright.flip⟩

namespace Correspondence

/-! ## Names of what corresponds -/

section

variable {k : Correspondence} (hplaces : ∀ n n', k.places n n' → n' = n)
include hplaces

theorem eq_of_spans {s s' : Span} (h : k.Spans s s') : s' = s := by
  obtain ⟨start, stop⟩ := s
  obtain ⟨start', stop'⟩ := s'
  rw [Span.mk.injEq]
  exact ⟨hplaces _ _ h.start, hplaces _ _ h.stop⟩

theorem argumentSpans_eq {arguments arguments' : List WrittenArgument}
    (h : arguments.Forall₂ k.Arguments arguments') :
    (arguments'.filterMap WrittenArgument.naming?).map Prod.fst =
      (arguments.filterMap WrittenArgument.naming?).map Prod.fst := by
  induction h with
  | nil => rfl
  | cons ha _ ih =>
    cases ha with
    | register | condition => exact ih
    | address he => exact congrArg₂ List.cons (eq_of_spans hplaces he.span) ih

/-- Names stand at the same places in elements that correspond. -/
theorem namingSpans_eq {e e' : Element} (h : k.Elements e e') :
    e'.naming.map Prod.fst = e.naming.map Prod.fst := by
  cases h with
  | comment | terminator | unrecognised => rfl
  | label _ hspan =>
    rw [eq_of_spans hplaces hspan]
    rfl
  | @statement s s' hs =>
    obtain ⟨body, span⟩ := s
    obtain ⟨body', span'⟩ := s'
    cases hs.body with
    | value | allocation => rfl
    | command hc => exact argumentSpans_eq hplaces hc.arguments

end

/-- Terms with the same names are the same if they correspond. -/
theorem eq_of_names {k : Correspondence} {terms terms' : List Term} (h : terms.Forall₂ k.Terms terms')
    (hnames : terms'.flatMap Term.names = terms.flatMap Term.names) : terms' = terms := by
  induction h with
  | nil => rfl
  | cons ht _ ih =>
    cases ht with
    | literal value => rw [ih hnames]
    | symbol hname positive =>
      obtain ⟨rfl, hrest⟩ := List.cons.inj hnames
      rw [ih hrest]

/-- Corresponding arguments with the same names are the same but for their places. -/
theorem unplaced_of_names {k : Correspondence} {arguments arguments' : List WrittenArgument}
    (h : arguments.Forall₂ k.Arguments arguments')
    (hnames : (arguments'.filterMap WrittenArgument.naming?).map Prod.snd =
      (arguments.filterMap WrittenArgument.naming?).map Prod.snd) :
    arguments'.map WrittenArgument.unplaced = arguments.map WrittenArgument.unplaced := by
  induction h with
  | nil => rfl
  | cons ha _ ih =>
    cases ha with
    | register | condition => exact congrArg₂ List.cons rfl (ih hnames)
    | @address e e' he =>
      obtain ⟨hfirst, hrest⟩ := List.cons.inj hnames
      refine congrArg₂ List.cons ?_ (ih hrest)
      rw [WrittenArgument.unplaced, WrittenArgument.unplaced, eq_of_names he.terms hfirst, he.index_eq]

/-- Corresponding elements with the same names are alike. -/
theorem alike_of_names {k : Correspondence} {e e' : Element} (h : k.Elements e e')
    (hnames : e'.naming.map Prod.snd = e.naming.map Prod.snd) : e.Alike e' := by
  cases h with
  | comment => exact .comment _ _ _ _
  | terminator => exact .terminator _ _
  | unrecognised _ _ herror => exact .unrecognised herror
  | label =>
    obtain ⟨hname, -⟩ := List.cons.inj hnames
    obtain ⟨rfl, -⟩ := List.cons.inj hname
    exact .label _ _ _
  | @statement s s' hs =>
    obtain ⟨body, span⟩ := s
    obtain ⟨body', span'⟩ := s'
    apply Element.Alike.statement
    cases hs.body with
    | value | allocation => rfl
    | command hc =>
      have harguments := unplaced_of_names hc.arguments hnames
      simp only [Statement.Body.unplaced, CommandStatement.unplaced, harguments, hc.instruction_eq, hc.mode_eq]

/-! ## Texts up to case -/

/-- Lexemes correspond if they stand at the same places and are the same up to the case of letters. -/
def recased : Correspondence where
  position := 0
  behind := []
  separated _ hl := nomatch hl
  places n n' := n' = n
  texts kind text text' := toUpper text' = toUpper text ∧ (kind = .literal → text'.head? = text.head?)
  toUpper_eq _ _ h := h.1
  head?_eq _ _ h := h.2 rfl

theorem recased_of_capitalised {l l' : Lexeme} {text text' : List Char} (hl : l.OfAscii text)
    (hl' : l'.OfAscii text') (h : l'.capitalised = l.capitalised) : recased.Lexemes l l' := by
  simp only [Lexeme.capitalised, Lexeme.mk.injEq] at h
  obtain ⟨htoken, htext, hstart, hstop⟩ := h
  refine ⟨htoken, ⟨toUpper_eq_of_map_toUpper hl.ascii hl'.ascii htext, fun hkind => ?_⟩, hstart, hstop⟩
  have hhead (l : Lexeme) (hl : ∀ c ∈ l.text.head?, c.toUpper = c) :
      (l.text.map Char.toUpper).head? = l.text.head? := by
    rw [List.head?_map]
    cases htext : l.text.head? with
    | none => rfl
    | some c => exact congrArg some (hl c htext)
  have hkind' : l'.kind = .literal := (congrArg Token.kind htoken).trans hkind
  rw [← hhead l (hl.literal hkind), ← hhead l' (hl'.literal hkind'), htext]

/-- The lexemes of two texts of ASCII correspond if the texts are equal up to case. -/
theorem recased_of_lex {text text' : List Char} (h : ∀ c ∈ text, IsAscii c) (h' : ∀ c ∈ text', IsAscii c)
    {lexemes lexemes' : List Lexeme} (hlex : lex text = .ok lexemes) (hlex' : lex text' = .ok lexemes')
    (hcase : text'.map Char.toUpper = text.map Char.toUpper) :
    lexemes.Forall₂ (fun l l' => recased.Lexemes l l' ∧ l'.text = l.span.extract text') lexemes' := by
  have hcapitals : (lexemes'.map Lexeme.capitalised).Forall₂ Eq (lexemes.map Lexeme.capitalised) := by
    have hlexes := lex_congr_case h h' hcase
    rw [hlex, hlex'] at hlexes
    rw [List.forall₂_eq_eq_eq]
    exact Except.ok.inj hlexes
  rw [List.forall₂_map_left_iff, List.forall₂_map_right_iff] at hcapitals
  apply (forall₂_mem hcapitals.flip).imp
  rintro l l' ⟨hl, hl', hcapitalised⟩
  have hascii' := Lexeme.ofAscii_of_lex h' hlex' l' hl'
  have hrecased := recased_of_capitalised (Lexeme.ofAscii_of_lex h hlex l hl) hascii' hcapitalised
  refine ⟨hrecased, ?_⟩
  rw [hascii'.text_eq, Lexeme.span, hrecased.start, hrecased.stop]
  rfl

end Correspondence

/-! ## Names up to case -/

/-- Elements of texts that are equal up to case are alike if all names are spelled the same. -/
theorem CompilationUnit.alike_of_recased {text text' : List Char} (h : ∀ c ∈ text, IsAscii c)
    (h' : ∀ c ∈ text', IsAscii c) {lexemes lexemes' : List Lexeme} (hlex : lex text = .ok lexemes)
    (hlex' : lex text' = .ok lexemes') (hcase : text'.map Char.toUpper = text.map Char.toUpper)
    (hnames : ∀ l ∈ lexemes, (ofLexemes lexemes).IsName l → l.span.extract text' = l.text) :
    (ofLexemes lexemes).elements.Forall₂ Element.Alike (ofLexemes lexemes').elements := by
  have hrecased := Correspondence.recased_of_lex h h' hlex hlex' hcase
  have helements : (ofLexemes lexemes).elements.Forall₂ Correspondence.recased.Elements
      (ofLexemes lexemes').elements := elements_correspond rfl rfl rfl (hrecased.imp fun _ _ hl => hl.1)
  apply (forall₂_mem helements).imp
  rintro e e' ⟨he, he', hcorresponds⟩
  apply Correspondence.alike_of_names hcorresponds
  have hspans := Correspondence.namingSpans_eq (fun _ _ hplace => hplace) hcorresponds
  -- the names of both elements are what stands in the same spans
  have hstand {e : Element} {lexemes : List Lexeme}
      (h : ∀ naming ∈ e.naming, naming.2 = naming.1.identifiers lexemes) :
      e.naming.map Prod.snd = (e.naming.map Prod.fst).map fun s => s.identifiers lexemes := by
    rw [List.map_map]
    exact List.map_congr_left h
  rw [hstand (naming_eq hlex e he), hstand (naming_eq hlex' e' he'), hspans]
  apply List.map_congr_left
  intro s hs
  apply Span.identifiers_congr
  apply (forall₂_mem hrecased).imp
  rintro l l' ⟨hl, -, hlexemes, htext⟩
  refine ⟨hlexemes.token_eq, Correspondence.eq_of_spans (fun _ _ hplace => hplace) hlexemes.span, ?_⟩
  intro hkind hwithin
  obtain ⟨naming, hnaming, rfl⟩ := List.mem_map.1 hs
  exact htext.trans (hnames l hl ⟨hkind, e, he, naming, hnaming, hwithin⟩)

theorem Script.observed_of_error {text : List Char} {failure : Numeral.Error}
    (hlex : lex text = .error failure) : observed text = .error failure := by
  unfold observed ofText
  rw [hlex]
  rfl

/-- The second text is the first one with other cases of letters, but all names of labels and in address
expressions of the first one stand in it unchanged. -/
structure Recased (text text' : List Char) : Prop where
  ascii : ∀ c ∈ text, IsAscii c
  ascii' : ∀ c ∈ text', IsAscii c
  capitals_eq : text'.map Char.toUpper = text.map Char.toUpper
  names : ∀ lexemes, lex text = .ok lexemes → ∀ l ∈ lexemes,
    (CompilationUnit.ofLexemes lexemes).IsName l → l.span.extract text' = l.text

/-- The case of letters makes no difference, except in names: a text with other cases is observed to assemble to
the same program, or to fail with the same error. -/
theorem observed_of_recased {text text' : List Char} (h : Recased text text') :
    Script.observed text' = Script.observed text := by
  have hlexes := lex_congr_case h.ascii h.ascii' h.capitals_eq
  cases hlex : lex text with
  | error failure =>
    cases hlex' : lex text' with
    | ok lexemes' =>
      rw [hlex, hlex'] at hlexes
      cases hlexes
    | error failure' =>
      rw [hlex, hlex'] at hlexes
      cases hlexes
      rw [Script.observed_of_error hlex, Script.observed_of_error hlex']
  | ok lexemes =>
    cases hlex' : lex text' with
    | error failure' =>
      rw [hlex, hlex'] at hlexes
      cases hlexes
    | ok lexemes' =>
      apply Script.observed_congr hlex hlex'
      exact CompilationUnit.alike_of_recased h.ascii h.ascii' hlex hlex' h.capitals_eq (h.names lexemes hlex)

/-- Two labels that differ in their case only, among mnemonics, registers, a mode, a condition and an end in
either case. A symbol that is also a mnemonic keeps its case and is not defined. -/
theorem observed_of_recased_of_similar_names :
    (∃ p, Assembles "tel:HIA.W R1,Tel(R2+)\nTel:RESGR 2|A\nVSP GEL,tel\nEINDPR".toList p) ∧
      Recased "tel:HIA.W R1,Tel(R2+)\nTel:RESGR 2|A\nVSP GEL,tel\nEINDPR".toList
        "tel:hia.w r1,Tel(r2+)\nTel:resgr 2|a\nvsp gel,tel\neindpr".toList ∧
      Script.observed "tel:hia.w r1,Tel(r2+)\nTel:resgr 2|a\nvsp gel,tel\neindpr".toList =
        Script.observed "tel:HIA.W R1,Tel(R2+)\nTel:RESGR 2|A\nVSP GEL,tel\nEINDPR".toList ∧
      Recased "HIA R1,hia".toList "hia r1,hia".toList ∧
      Script.observed "HIA R1,hia".toList = .ok (.error (.undefinedSymbol "hia".toList, some 0)) ∧
      Script.observed "hia r1,hia".toList = Script.observed "HIA R1,hia".toList := by
  have hrecased {text text' : List Char} (hascii : (text ++ text').all fun c => IsAscii c)
      (hcapitals : text'.map Char.toUpper = text.map Char.toUpper)
      (hnames : ∀ lexemes ∈ (lex text).toOption, ∀ l ∈ lexemes,
        (CompilationUnit.ofLexemes lexemes).IsName l → l.span.extract text' = l.text) : Recased text text' := by
    obtain ⟨htext, htext'⟩ : (∀ c ∈ text, IsAscii c) ∧ ∀ c ∈ text', IsAscii c := by simpa using hascii
    refine ⟨htext, htext', hcapitals, fun lexemes hlex => hnames lexemes ?_⟩
    rw [hlex]
    rfl
  have hprogram : Recased "tel:HIA.W R1,Tel(R2+)\nTel:RESGR 2|A\nVSP GEL,tel\nEINDPR".toList
      "tel:hia.w r1,Tel(r2+)\nTel:resgr 2|a\nvsp gel,tel\neindpr".toList :=
    hrecased (by decide +kernel) (by decide +kernel) (by decide +kernel)
  have hundefined : Recased "HIA R1,hia".toList "hia r1,hia".toList :=
    hrecased (by decide +kernel) (by decide +kernel) (by decide +kernel)
  exact ⟨⟨_, _, rfl, rfl⟩, hprogram, observed_of_recased hprogram, hundefined, by decide +kernel,
    observed_of_recased hundefined⟩

end Drama
