-- SUMMARY: The lines of a listing as data, what is printed of each, and the lines of a single statement.
import Drama.Program.Listing
import Drama.Proofs.Program.WordFile

/-!
# Rows of a listing

What each line of a listing says is a `Row`: the name of a label, a statement without words, the first word of a
statement, or a further one. `Row.text` is the line as it is printed, in its four columns. It has no newline in it
unless one stands in what the row shows.
-/

namespace Drama

namespace Listing

/-! ## Rows and what is printed of them -/

/-- What a line of a listing shows. -/
inductive Row
  | label (name : List Char)
  /-- A statement without words. -/
  | vacant (address : Nat) (source : List Char)
  /-- The first word of a statement, with the text of the command if it is one. -/
  | first (address : Nat) (word : MachineWord) (source command : List Char)
  /-- Any other word of a statement. -/
  | further (address : Nat) (word : MachineWord)

/-- A number in a fixed number of digits. -/
def digits (width value : Nat) : List Char := (Nat.toDigits 10 value).leftpad width '0'

def blanks (count : Nat) : List Char := List.replicate count ' '

/-- The four columns of a line. Source and labels have 29 characters, more only if they are longer. -/
def columns (address word source command : List Char) : List Char :=
  address ++ " | ".toList ++ word ++ " | ".toList ++ source.rightpad 29 ' ' ++ " | ".toList ++ command

namespace Row

/-- The line of a row. The source of a statement is moved four places to the right of labels. -/
def text : Row → List Char
  | label name => columns (blanks 4) (blanks 10) (name ++ [':']) []
  | vacant address source => columns (digits 4 address) (blanks 10) (blanks 4 ++ source) []
  | first address word source command =>
    columns (digits 4 address) (digits 10 word.raw) (blanks 4 ++ source) command
  | further address word => columns (digits 4 address) (digits 10 word.raw) [] []

def address? : Row → Option Nat
  | label _ => none
  | vacant address _ | first address _ _ _ | further address _ => some address

/-- The address and the word, if the row shows both. -/
def numbered? : Row → Option (Nat × MachineWord)
  | first address word _ _ | further address word => some (address, word)
  | label _ | vacant .. => none

/-- The address and the source of a row without a word. -/
def vacant? : Row → Option (Nat × List Char)
  | vacant address source => some (address, source)
  | label _ | first .. | further .. => none

def label? : Row → Option (List Char)
  | label name => some name
  | vacant .. | first .. | further .. => none

/-- The texts that a row shows besides its numbers. -/
def shown : Row → List (List Char)
  | label name => [name]
  | vacant _ source => [source]
  | first _ _ source command => [source, command]
  | further .. => []

theorem newline_not_mem_columns {address word source command : List Char} (haddress : '\n' ∉ address)
    (hword : '\n' ∉ word) (hsource : '\n' ∉ source) (hcommand : '\n' ∉ command) :
    '\n' ∉ columns address word source command := by
  simp [columns, List.rightpad, haddress, hword, hsource, hcommand]

theorem newline_not_mem_digits (width value : Nat) : '\n' ∉ digits width value := fun h =>
  absurd (Word.isDigit_of_mem_paddedDigits '\n' h) (by decide)

theorem newline_not_mem_blanks (count : Nat) : '\n' ∉ blanks count := by simp [blanks]

theorem newline_not_mem_text {row : Row} (h : ∀ piece ∈ row.shown, '\n' ∉ piece) : '\n' ∉ row.text := by
  have hnone : '\n' ∉ ([] : List Char) := List.not_mem_nil
  have hindented {source : List Char} (hsource : '\n' ∉ source) : '\n' ∉ blanks 4 ++ source := by
    simp [newline_not_mem_blanks, hsource]
  cases row with
  | label name =>
    have hname : '\n' ∉ name ++ [':'] := by simpa using h name List.mem_cons_self
    exact newline_not_mem_columns (newline_not_mem_blanks _) (newline_not_mem_blanks _) hname hnone
  | vacant address source =>
    exact newline_not_mem_columns (newline_not_mem_digits _ _) (newline_not_mem_blanks _)
      (hindented (h source List.mem_cons_self)) hnone
  | first address word source command =>
    have hcommand : '\n' ∉ command := h command (List.mem_cons_of_mem _ List.mem_cons_self)
    exact newline_not_mem_columns (newline_not_mem_digits _ _) (newline_not_mem_digits _ _)
      (hindented (h source List.mem_cons_self)) hcommand
  | further address word =>
    exact newline_not_mem_columns (newline_not_mem_digits _ _) (newline_not_mem_digits _ _) hnone hnone

/-- The line that is rendered for a row. -/
def line : Row → Line
  | label name => labelLine name
  | vacant address source => ⟨some address, none, indentation ++ source, []⟩
  | first address word source command => ⟨some address, some word, indentation ++ source, command⟩
  | further address word => ⟨some address, some word, [], []⟩

theorem render_line (row : Row) : row.line.render = row.text ++ ['\n'] := by
  have hword (w : MachineWord) : Text.padRight wordWidth w.text.toList = digits 10 w.raw := by
    have htext : w.text.toList = digits 10 w.raw := String.toList_ofList
    have hlength : (digits 10 w.raw).length = wordWidth := w.length_paddedDigits (by decide)
    rw [htext, Text.padRight, hlength, Nat.sub_self]
    exact List.append_nil _
  cases row with
  | label | vacant => rfl
  | first address word source command | further address word =>
    simp only [line, Line.render, Option.map_some, Option.getD_some, hword]
    rfl

example : (label "end".toList).text = "     |            | end:                          | ".toList := rfl

theorem flatMap_render (rows : List Row) :
    (rows.map line).flatMap Line.render = rows.flatMap fun row => row.text ++ ['\n'] := by
  rw [List.flatMap_map]
  exact List.flatMap_congr fun row _ => row.render_line

end Row

/-! ## The rows of one statement -/

/-- A statement has a row for each of its words, or one without a word. -/
def statementRows (address : Nat) (source command : List Char) : List MachineWord → List Row
  | [] => [.vacant address source]
  | word :: others => .first address word source command ::
      others.mapIdx fun offset word => .further (address + offset + 1) word

section

variable {α β γ : Type}

theorem filterMap_mapIdx {f : β → Option γ} {g : Nat → α → β} {h : Nat → α → γ}
    (hf : ∀ i a, f (g i a) = some (h i a)) (items : List α) :
    (items.mapIdx g).filterMap f = items.mapIdx h := by
  induction items generalizing g h with
  | nil => rfl
  | cons a items ih =>
    rw [List.mapIdx_cons, List.mapIdx_cons, List.filterMap_cons_some (hf 0 a), ih fun i => hf (i + 1)]

end

section

variable {address : Nat} {source command : List Char} {words : List MachineWord}

theorem map_line_statementRows : (statementRows address source command words).map Row.line =
    statementLines address source command words := by
  cases words with
  | nil => rfl
  | cons word others =>
    rw [statementRows, statementLines, List.map_cons, ← List.filterMap_eq_map]
    refine congrArg _ (filterMap_mapIdx (f := some ∘ Row.line) (fun offset word => ?_) others)
    rfl

theorem filterMap_numbered_statementRows : (statementRows address source command words).filterMap Row.numbered? =
    words.mapIdx fun offset word => (address + offset, word) := by
  cases words with
  | nil => rfl
  | cons word others =>
    have hfirst : (Row.first address word source command).numbered? = some (address, word) := rfl
    rw [statementRows, List.filterMap_cons_some hfirst, List.mapIdx_cons]
    refine congrArg _ (filterMap_mapIdx (f := Row.numbered?) (fun offset word => ?_) others)
    rfl

theorem filterMap_vacant_statementRows : (statementRows address source command words).filterMap Row.vacant? =
    if words = [] then [(address, source)] else [] := by
  cases words with
  | nil => rfl
  | cons word others =>
    have hfirst : (Row.first address word source command).vacant? = none := rfl
    rw [statementRows, List.filterMap_cons_none hfirst, if_neg (List.cons_ne_nil _ _)]
    refine List.filterMap_eq_nil_iff.2 fun row hrow => ?_
    obtain ⟨i, hi, rfl⟩ := List.mem_mapIdx.1 hrow
    rfl

theorem filterMap_label_statementRows :
    (statementRows address source command words).filterMap Row.label? = [] := by
  refine List.filterMap_eq_nil_iff.2 fun row hrow => ?_
  cases words with
  | nil =>
    obtain rfl := List.mem_singleton.1 hrow
    rfl
  | cons word others =>
    obtain rfl | hrow := List.mem_cons.1 hrow
    · rfl
    · obtain ⟨i, hi, rfl⟩ := List.mem_mapIdx.1 hrow
      rfl

/-- The rows of a statement show its source and its command, and no address behind those of its words. -/
theorem of_mem_statementRows {row : Row} (h : row ∈ statementRows address source command words) :
    (∀ piece ∈ row.shown, piece = source ∨ piece = command) ∧
      ∀ a ∈ row.address?, a ≤ address + (words.length - 1) := by
  cases words with
  | nil =>
    obtain rfl := List.mem_singleton.1 h
    exact ⟨List.forall_mem_singleton.2 (.inl rfl), fun a ha => (Option.some.inj ha).ge⟩
  | cons word others =>
    obtain rfl | h := List.mem_cons.1 h
    · refine ⟨List.forall_mem_cons.2 ⟨.inl rfl, List.forall_mem_singleton.2 (.inr rfl)⟩, fun a ha => ?_⟩
      exact (Option.some.inj ha).ge.trans (Nat.le_add_right _ _)
    · obtain ⟨i, hi, rfl⟩ := List.mem_mapIdx.1 h
      refine ⟨List.forall_mem_nil _, fun a ha => ?_⟩
      rw [List.length_cons, ← Option.some.inj ha]
      omega

end

end Listing

end Drama
