-- SUMMARY: Dividing text that was put together from lines, and stripping text without blanks.
import Drama.Text.Blank
import Drama.Text.Line
import Mathlib.Data.List.Induction

/-!
# Lines

A text that was put together from pieces, each with a separator behind it, is divided into these pieces again
if no separator stands in one of them. Whatever a text is, there is a line for each position in it, which goes on
behind the column of the position as the text does behind the position.
-/

namespace Drama.Text

variable {isSeparator : Char → Bool} {piece : List Char}

theorem splitBy_ne_nil (isSeparator : Char → Bool) (text : List Char) : splitBy isSeparator text ≠ [] := by
  cases text with
  | nil => simp [splitBy]
  | cons c text =>
    rw [splitBy]
    split
    · simp
    · split <;> simp

/-- A text without a separator is one piece. -/
theorem splitBy_eq_singleton (hpiece : ∀ c ∈ piece, isSeparator c = false) : splitBy isSeparator piece = [piece] := by
  induction piece with
  | nil => rfl
  | cons c piece ih =>
    rw [List.forall_mem_cons] at hpiece
    simp [splitBy, hpiece.1, ih hpiece.2]

/-- A separator divides the pieces of what stands in front of it from those of what stands behind it. -/
theorem splitBy_append_separator {separator : Char} (hseparator : isSeparator separator = true)
    (before behind : List Char) :
    splitBy isSeparator (before ++ separator :: behind) =
      splitBy isSeparator before ++ splitBy isSeparator behind := by
  induction before with
  | nil => simp [splitBy, hseparator]
  | cons c before ih =>
    rw [List.cons_append, splitBy, splitBy, ih]
    split
    · rfl
    · cases hpieces : splitBy isSeparator before with
      | nil => simp [splitBy_ne_nil] at hpieces
      | cons piece pieces => rfl

theorem not_isSeparator_of_mem_splitBy {text : List Char} (h : piece ∈ splitBy isSeparator text) :
    ∀ c ∈ piece, isSeparator c = false := by
  induction text generalizing piece with
  | nil =>
    obtain rfl := List.mem_singleton.1 h
    exact List.forall_mem_nil _
  | cons c text ih =>
    rw [splitBy] at h
    split at h
    · obtain rfl | h := List.mem_cons.1 h
      · exact List.forall_mem_nil _
      · exact ih h
    · rename_i hc
      have hc : isSeparator c = false := by simpa using hc
      cases hpieces : splitBy isSeparator text with
      | nil => simp [splitBy_ne_nil] at hpieces
      | cons first pieces =>
        rw [hpieces] at h ih
        obtain rfl | h := List.mem_cons.1 h
        · exact List.forall_mem_cons.2 ⟨hc, ih List.mem_cons_self⟩
        · exact ih (List.mem_cons_of_mem _ h)

/-- The piece in front of the first separator. -/
theorem splitBy_append (hpiece : ∀ c ∈ piece, isSeparator c = false) {separator : Char}
    (hseparator : isSeparator separator = true) (rest : List Char) :
    splitBy isSeparator (piece ++ separator :: rest) = piece :: splitBy isSeparator rest := by
  rw [splitBy_append_separator hseparator, splitBy_eq_singleton hpiece, List.singleton_append]

/-- Pieces with the same separator behind each of them. -/
theorem splitBy_flatMap {pieces : List (List Char)}
    (hpieces : ∀ piece ∈ pieces, ∀ c ∈ piece, isSeparator c = false) {separator : Char}
    (hseparator : isSeparator separator = true) :
    splitBy isSeparator (pieces.flatMap (· ++ [separator])) = pieces ++ [[]] := by
  induction pieces with
  | nil => rfl
  | cons piece pieces ih =>
    rw [List.forall_mem_cons] at hpieces
    rw [List.flatMap_cons, List.append_assoc, List.singleton_append,
      splitBy_append hpieces.1 hseparator, ih hpieces.2, List.cons_append]

theorem length_splitBy (isSeparator : Char → Bool) (text : List Char) :
    (splitBy isSeparator text).length = text.countP isSeparator + 1 := by
  induction text with
  | nil => rfl
  | cons c text ih =>
    cases hc : isSeparator c with
    | true => rw [splitBy, if_pos hc, List.length_cons, ih, List.countP_cons_of_pos hc]
    | false =>
      rw [splitBy, if_neg (by simp [hc]), List.countP_cons_of_neg (by simp [hc])]
      cases hpieces : splitBy isSeparator text with
      | nil => simp [hpieces] at ih
      | cons piece pieces => rwa [hpieces] at ih

/-- There is a line with the number that a position has. -/
theorem lineOf_le (text : List Char) (position : Int) : lineOf text position ≤ (sourceLines text).length := by
  rw [sourceLines, length_splitBy]
  exact Nat.succ_le_succ ((List.take_sublist ..).count_le '\n')

/-- The pieces of what stands behind a text go on with the last piece of the text. -/
theorem exists_splitBy_append (isSeparator : Char → Bool) (before : List Char) :
    ∃ lines, lines.length = before.countP isSeparator ∧
      ∀ behind piece pieces, splitBy isSeparator behind = piece :: pieces →
        splitBy isSeparator (before ++ behind) =
          lines ++ ((before.reverse.takeWhile (!isSeparator ·)).reverse ++ piece) :: pieces := by
  induction before using List.reverseRecOn with
  | nil => exact ⟨[], rfl, fun _ _ _ h => h⟩
  | append_singleton before c ih =>
    obtain ⟨lines, hlength, hlines⟩ := ih
    cases hc : isSeparator c with
    | true =>
      refine ⟨lines ++ [(before.reverse.takeWhile (!isSeparator ·)).reverse], ?_,
        fun behind piece pieces h => ?_⟩
      · simp [hlength, hc]
      · have hbehind : splitBy isSeparator (c :: behind) = [] :: piece :: pieces := by
          rw [splitBy, if_pos hc, h]
        rw [List.append_assoc, List.singleton_append, hlines _ _ _ hbehind]
        simp [hc]
    | false =>
      refine ⟨lines, ?_, fun behind piece pieces h => ?_⟩
      · simp [hlength, hc]
      · have hbehind : splitBy isSeparator (c :: behind) = (c :: piece) :: pieces := by
          rw [splitBy, if_neg (by simp [hc]), h]
        rw [List.append_assoc, List.singleton_append, hlines _ _ _ hbehind]
        simp [hc]

/-- The first piece reaches to the first separator. -/
theorem exists_splitBy_eq (isSeparator : Char → Bool) (text : List Char) :
    ∃ pieces, splitBy isSeparator text = text.takeWhile (!isSeparator ·) :: pieces := by
  induction text with
  | nil => exact ⟨[], rfl⟩
  | cons c text ih =>
    obtain ⟨pieces, hpieces⟩ := ih
    rw [splitBy, hpieces]
    cases hc : isSeparator c with
    | true => exact ⟨text.takeWhile (!isSeparator ·) :: pieces, by simp [hc]⟩
    | false => exact ⟨pieces, by simp [hc]⟩

/-- The line of a position goes on behind its column as the text does behind the position. -/
theorem exists_line_eq (text : List Char) (position : Nat) :
    ∃ line, (sourceLines text)[lineOf text position - 1]? = some line ∧
      line.drop (columnOf text position) = (text.drop position).takeWhile (· != '\n') := by
  obtain ⟨lines, hlength, hlines⟩ := exists_splitBy_append (· == '\n') (text.take position)
  obtain ⟨pieces, hpieces⟩ := exists_splitBy_eq (· == '\n') (text.drop position)
  have hsplit := hlines _ _ _ hpieces
  rw [List.take_append_drop] at hsplit
  have hnumber : lineOf text position - 1 = lines.length := by
    rw [hlength, lineOf, clampPosition, if_neg (Int.not_lt.2 (Int.natCast_nonneg _))]
    rfl
  have hline : (sourceLines text)[lineOf text position - 1]? =
      some (((text.take position).reverse.takeWhile (· != '\n')).reverse ++
        (text.drop position).takeWhile (· != '\n')) := by
    rw [sourceLines, hsplit, hnumber, List.getElem?_append_right (Nat.le_refl _), Nat.sub_self]
    rfl
  exact ⟨_, hline, List.drop_left' (List.length_reverse ..)⟩

theorem normalizeNewlines_of_not_mem {text : List Char} (h : '\r' ∉ text) :
    normalizeNewlines text = text := by
  fun_induction normalizeNewlines text with
  | case1 => rfl
  | case2 rest ih => exact absurd List.mem_cons_self h
  | case3 c rest _ ih =>
    simp only [List.mem_cons, not_or] at h
    have hc : (c == '\r') = false := beq_eq_false_iff_ne.2 (Ne.symm h.1)
    simp [hc, ih h.2]

theorem strip_of_not_blank (h : ∀ c ∈ piece, isBlank c = false) : strip piece = piece := by
  have hdrop {piece : List Char} (h : ∀ c ∈ piece, isBlank c = false) :
      piece.dropWhile isBlank = piece := by
    cases piece with
    | nil => rfl
    | cons c piece => simp [h c List.mem_cons_self]
  rw [strip, hdrop h, hdrop fun c hc => h c (List.mem_reverse.1 hc), List.reverse_reverse]

end Drama.Text
