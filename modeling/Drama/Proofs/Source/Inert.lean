-- SUMMARY: Text that is no code: blanks between lexemes, what comments say, and what stands behind the end.
import Drama.Proofs.Source.Scan
import Mathlib.Logic.Relation

/-!
# Inert text

Blanks may be inserted in front of a text and behind its lexemes (`Spaced`). What a comment says and what
stands behind the word that ends the program may be replaced (`Reworded`). Either way the text is divided into
the same lexemes, up to what comments and the end of the program are made of.
-/

namespace Drama

open Text

/-- A text and the same text with blanks inserted, at its start or behind one of its lexemes. -/
inductive Spaced (text : List Char) : List Char → Prop
  | start {blanks : List Char} (hblanks : ∀ c ∈ blanks, isHorizontalBlank c = true) :
      Spaced text (blanks ++ text)
  | behind {blanks : List Char} {lexemes : List Lexeme} {l : Lexeme} (hlex : lex text = .ok lexemes)
      (hl : l ∈ lexemes) (hcomment : l.kind ≠ .comment) (hterminator : l.kind ≠ .programTerminator)
      (hblanks : ∀ c ∈ blanks, isHorizontalBlank c = true) :
      Spaced text (text.take l.stop ++ (blanks ++ text.drop l.stop))

/-- A text and the same text with another remark in one of its comments, or with other text behind the
word that ends the program. -/
inductive Reworded (text : List Char) : List Char → Prop
  | comment {remark : List Char} {lexemes : List Lexeme} {l : Lexeme} (hlex : lex text = .ok lexemes)
      (hl : l ∈ lexemes) (hkind : l.kind = .comment) (hremark : '\n' ∉ remark) :
      Reworded text (text.take (l.start + 1) ++ (remark ++ text.drop l.stop))
  | tail {tail : List Char} {lexemes : List Lexeme} {l : Lexeme} (hlex : lex text = .ok lexemes)
      (hl : l ∈ lexemes) (hkind : l.kind = .programTerminator) :
      Reworded text (text.take (l.start + Token.terminatorWord.length) ++ tail)

/-- The kinds of lexemes whose text is no code. -/
def LexemeKind.inert : List LexemeKind := [.comment, .programTerminator]

/-- What a lexeme contributes to a program: its token, and its text unless that is inert. -/
def Lexeme.code (l : Lexeme) : Content := (l.token, if l.kind ∈ LexemeKind.inert then [] else l.text)

theorem Lexeme.code_of_inert {l l' : Lexeme} (htoken : l'.token = l.token)
    (hinert : l.kind ∈ LexemeKind.inert) : l'.code = l.code := by
  have hkind : l'.kind = l.kind := congrArg Token.kind htoken
  rw [code, code, htoken, if_pos hinert, if_pos (hkind ▸ hinert)]

theorem Lexeme.map_code_of_content {lexemes lexemes' : List Lexeme}
    (h : lexemes'.map Lexeme.content = lexemes.map Lexeme.content) :
    lexemes'.map Lexeme.code = lexemes.map Lexeme.code := by
  have hcode : Lexeme.code = (fun c : Content =>
      (c.1, if c.1.kind ∈ LexemeKind.inert then [] else c.2)) ∘ Lexeme.content := rfl
  rw [hcode, ← List.map_map, ← List.map_map, h]

/-- Other text of a lexeme does not matter if it is no code. -/
theorem Lexeme.map_code_replaced (front : List Lexeme) {l l' : Lexeme} {others others' : List Lexeme}
    (htoken : l'.token = l.token) (hinert : l.kind ∈ LexemeKind.inert)
    (hothers : others'.map Lexeme.content = others.map Lexeme.content) :
    (front ++ l' :: others').map Lexeme.code = (front ++ l :: others).map Lexeme.code := by
  rw [List.map_append, List.map_append, List.map_cons, List.map_cons, code_of_inert htoken hinert,
    map_code_of_content hothers]

namespace Lexing

variable {text : List Char} {lexemes : List Lexeme} {l : Lexeme}

/-- A lexeme of a text with what stands before and behind it. -/
theorem exists_around (hlex : lex text = .ok lexemes) (hl : l ∈ lexemes) :
    ∃ front others before behind, lexemes = front ++ l :: others ∧
      text = before ++ (l.text ++ behind) ∧ l.start = before.length ∧
      l.stop = (before ++ l.text).length ∧ Scans (l.text ++ behind) 0 before front ∧
      l.token.ReadFrom l.text behind ∧ Scans [] l.stop behind others := by
  obtain ⟨front, others, rfl⟩ := List.append_of_mem hl
  obtain ⟨before, behind, rfl, hfront, hread, hstart, hstop, hothers⟩ :=
    (lex_eq_ok_iff_scans.1 hlex).exists_split
  rw [Nat.zero_add] at hstart
  rw [List.append_nil] at hfront hread
  rw [hstart, ← List.length_append] at hstop
  exact ⟨front, others, before, behind, rfl, rfl, hstart, hstop, hfront, hread, hothers⟩

variable {front others : List Lexeme} {before behind gap piece : List Char}

/-- A lexeme is replaced by other characters that are read as the same token. -/
theorem exists_replaced (hfront : Scans (l.text ++ behind) 0 before front)
    (hread : l.token.ReadFrom l.text behind) (hothers : Scans [] l.stop behind others)
    (hread' : l.token.ReadFrom piece (gap ++ behind)) (hhead : piece.head? = l.text.head?)
    (hpoint : Token.addressingMode? ('.' :: (l.text ++ behind)) = none →
      Token.addressingMode? ('.' :: (piece ++ (gap ++ behind))) = none)
    (hgap : ∀ c ∈ gap, isHorizontalBlank c = true) :
    ∃ l' others', lex (before ++ (piece ++ (gap ++ behind))) = .ok (front ++ l' :: others') ∧
      l'.content = (l.token, piece) ∧
      others'.map Lexeme.content = others.map Lexeme.content := by
  have hhead' : (piece ++ (gap ++ behind)).head? = (l.text ++ behind).head? := by
    rw [List.head?_append_of_ne_nil _ hread'.ne_nil, List.head?_append_of_ne_nil _ hread.ne_nil, hhead]
  have hfront' : Scans (piece ++ (gap ++ behind)) 0 before front := by
    refine hfront.congr (fun _ _ => .of_head? hhead' hpoint) ?_
    rw [Token.startsWithWord, Token.startsWithWord, hhead']
  obtain ⟨others', hothers', hcontent⟩ :=
    hothers.exists_moved (0 + before.length + piece.length + gap.length)
  have hbehind := (Scans.of_blanks hgap).append hothers'
  rw [← List.append_nil (piece ++ (gap ++ behind))] at hfront'
  rw [← List.append_nil (gap ++ behind)] at hread'
  exact ⟨_, others', lex_eq_ok_iff_scans.2 (hfront'.append (.lexeme hread' hbehind)), rfl, hcontent⟩

/-- Another remark in a comment. -/
theorem exists_lex_of_remark (hlex : lex text = .ok lexemes) (hl : l ∈ lexemes) (hkind : l.kind = .comment)
    {remark : List Char} (hremark : '\n' ∉ remark) :
    ∃ lexemes', lex (text.take (l.start + 1) ++ (remark ++ text.drop l.stop)) = .ok lexemes' ∧
      lexemes'.map Lexeme.code = lexemes.map Lexeme.code := by
  obtain ⟨front, others, before, behind, rfl, rfl, hstart, hstop, hfront, hread, hothers⟩ :=
    exists_around hlex hl
  obtain ⟨said, hsaid, -, hbehind⟩ := Token.of_read_comment (Token.eq_comment hkind ▸ hread.read_eq)
  have htake : (before ++ (l.text ++ behind)).take (l.start + 1) = before ++ ['|'] := by
    rw [hstart, hsaid, List.take_length_add_append]
    rfl
  have hread' : l.token.ReadFrom ('|' :: remark) ([] ++ behind) := by
    refine ⟨⟨'|', remark, rfl, by decide⟩, ?_⟩
    rw [Token.eq_comment hkind]
    exact Token.read_comment hremark hbehind
  have hpoint (rest : List Char) : Token.addressingMode? ('.' :: '|' :: rest) = none := by
    have hletter : Token.modeLetters.any (Token.isLetter · '|') = false := by decide
    simp [Token.addressingMode?, hletter]
  obtain ⟨l', others', hlex', hl', hothers'⟩ := exists_replaced hfront hread hothers hread'
    (by rw [hsaid]; rfl) (fun _ => hpoint _) (List.forall_mem_nil _)
  rw [htake, hstop, ← List.append_assoc before, List.drop_left, List.append_assoc before]
  exact ⟨_, hlex', Lexeme.map_code_replaced front (congrArg Prod.fst hl') (hkind ▸ by decide) hothers'⟩

/-- Other text behind the word that ends the program. -/
theorem exists_lex_of_tail (hlex : lex text = .ok lexemes) (hl : l ∈ lexemes)
    (hkind : l.kind = .programTerminator) (tail : List Char) :
    ∃ lexemes', lex (text.take (l.start + Token.terminatorWord.length) ++ tail) = .ok lexemes' ∧
      lexemes'.map Lexeme.code = lexemes.map Lexeme.code := by
  obtain ⟨front, others, before, behind, rfl, rfl, hstart, hstop, hfront, hread, hothers⟩ :=
    exists_around hlex hl
  have htoken := Token.eq_programTerminator hkind
  obtain rfl := Token.rest_eq_nil_of_read (htoken ▸ hread.read_eq)
  have hsaid : Token.read l.text = .ok (.programTerminator, l.text.length) := by
    simpa only [List.append_nil, htoken] using hread.read_eq
  obtain ⟨hlength, hword⟩ := Token.read_programTerminator_append hsaid tail
  -- The word has at least two characters, and a point in front of it sees no more than these.
  obtain ⟨c, d, more, hmore, hblank⟩ : ∃ c d more, l.text = c :: d :: more ∧
      isHorizontalBlank c = false := by
    obtain ⟨c, more, hmore, hblank⟩ := hread.head
    rw [hmore] at hlength ⊢
    cases more with
    | nil => cases hlength
    | cons d more => exact ⟨c, d, more, rfl, hblank⟩
  have htake : l.text.take Token.terminatorWord.length = c :: d :: more.take 4 := by
    rw [hmore]
    rfl
  rw [htake] at hword
  have hread' : l.token.ReadFrom (c :: d :: (more.take 4 ++ tail)) ([] ++ []) := by
    refine ⟨⟨c, _, rfl, hblank⟩, ?_⟩
    rw [List.append_nil, List.append_nil, htoken]
    exact hword
  obtain ⟨l', others', hlex', hl', hothers'⟩ := exists_replaced hfront hread hothers hread'
    (by rw [hmore]; rfl) (by rw [hmore]; exact id) (List.forall_mem_nil _)
  rw [List.append_nil, hstart, List.take_length_add_append, htake, List.append_assoc]
  rw [List.append_nil, List.append_nil] at hlex'
  exact ⟨_, hlex', Lexeme.map_code_replaced front (congrArg Prod.fst hl') (hkind ▸ by decide) hothers'⟩

end Lexing

/-- Blanks between lexemes leave no trace in them but their places. -/
theorem Spaced.lex {text text' : List Char} {lexemes : List Lexeme} (h : Spaced text text')
    (hlex : Drama.lex text = .ok lexemes) :
    ∃ lexemes', Drama.lex text' = .ok lexemes' ∧
      lexemes'.map Lexeme.content = lexemes.map Lexeme.content := by
  cases h with
  | @start blanks hblanks =>
    obtain ⟨lexemes', hscans, hcontent⟩ :=
      (lex_eq_ok_iff_scans.1 hlex).exists_moved (0 + blanks.length)
    exact ⟨lexemes', lex_eq_ok_iff_scans.2 ((Lexing.Scans.of_blanks hblanks).append hscans), hcontent⟩
  | @behind blanks found l hlex' hl hcomment hterminator hblanks =>
    cases hlex.symm.trans hlex'
    obtain ⟨front, others, before, behind, rfl, rfl, -, hstop, hfront, hread, hothers⟩ :=
      Lexing.exists_around hlex hl
    rw [hstop, ← List.append_assoc before, List.take_left, List.drop_left, List.append_assoc]
    cases blanks with
    | nil => exact ⟨_, hlex, rfl⟩
    | cons blank blanks =>
      have hword : ∀ c ∈ (blank :: blanks ++ behind).head?, isWordChar c = false := by
        rintro _ ⟨⟩
        exact isWordChar_of_isHorizontalBlank (hblanks blank List.mem_cons_self)
      have htoken : l.token ≠ .programTerminator := fun h => hterminator (congrArg Token.kind h)
      have hread' : l.token.ReadFrom l.text (blank :: blanks ++ behind) :=
        hread.congr (.of_not_word hword htoken fun h => absurd (congrArg Token.kind h) hcomment)
      obtain ⟨l', others', hlex', hl', hothers'⟩ :=
        Lexing.exists_replaced hfront hread hothers hread' rfl
          (Token.addressingMode?_of_read hread.ne_nil hread.read_eq htoken) hblanks
      refine ⟨_, hlex', ?_⟩
      simp only [List.map_append, List.map_cons, hl', hothers']
      rfl

/-- Remarks and what stands behind the end of the program leave no trace in other lexemes but their places. -/
theorem Reworded.lex {text text' : List Char} {lexemes : List Lexeme} (h : Reworded text text')
    (hlex : Drama.lex text = .ok lexemes) :
    ∃ lexemes', Drama.lex text' = .ok lexemes' ∧
      lexemes'.map Lexeme.code = lexemes.map Lexeme.code := by
  cases h with
  | comment hlex' hl hkind hremark =>
    cases hlex.symm.trans hlex'
    exact Lexing.exists_lex_of_remark hlex hl hkind hremark
  | tail hlex' hl hkind =>
    cases hlex.symm.trans hlex'
    exact Lexing.exists_lex_of_tail hlex hl hkind _

/-- What one change leaves as it is, several changes leave as it is. -/
theorem exists_lex_of_reflTransGen {κ : Type} {change : List Char → List Char → Prop} {key : Lexeme → κ}
    (hstep : ∀ text text' lexemes, change text text' → lex text = .ok lexemes →
      ∃ lexemes', lex text' = .ok lexemes' ∧ lexemes'.map key = lexemes.map key)
    {text text' : List Char} (h : Relation.ReflTransGen change text text') {lexemes : List Lexeme}
    (hlex : lex text = .ok lexemes) :
    ∃ lexemes', lex text' = .ok lexemes' ∧ lexemes'.map key = lexemes.map key := by
  induction h with
  | refl => exact ⟨lexemes, hlex, rfl⟩
  | tail _ hchange ih =>
    obtain ⟨between, hbetween, hkey⟩ := ih
    obtain ⟨lexemes', hlex', hkey'⟩ := hstep _ _ _ hchange hbetween
    exact ⟨lexemes', hlex', hkey'.trans hkey⟩

end Drama
