-- SUMMARY: Statements looked up by address: the one that a word belongs to, and the one that was executed last.
import Drama.Proofs.Machine.LifeCycle
import Drama.Proofs.Program.Layout

/-!
# Statements by address

The statements of a program take up its addresses one after the other, each one behind `Program.wordsBefore`,
which ascends but stands still at allocations of no words. `Program.statementAt?` searches the addresses by
halves. What a halving preserves is `Encloses`, so the search ends at the first statement that starts behind the
address it looks for. The word at that address belongs to the statement in front of it.
-/

namespace Drama

/-! ## The search -/

section Search

variable {α : Type} {items : Array α} {isBeyond : α → Bool} {low high : Nat}

/-- Items beyond stand behind all others. -/
def Partitioned (items : Array α) (isBeyond : α → Bool) : Prop :=
  ∀ i j (_ : i ≤ j) (hj : j < items.size), isBeyond items[i] → isBeyond items[j]

/-- What is in front of `low` is not beyond, and what is at `high` or behind it is. -/
structure Encloses (items : Array α) (isBeyond : α → Bool) (low high : Nat) : Prop where
  le : low ≤ high
  le_size : high ≤ items.size
  before : ∀ i (hi : i < items.size), i < low → ¬isBeyond items[i]
  beyond : ∀ i (hi : i < items.size), high ≤ i → isBeyond items[i]

namespace Encloses

theorem all (items : Array α) (isBeyond : α → Bool) : Encloses items isBeyond 0 items.size where
  le := Nat.zero_le _
  le_size := Nat.le_refl _
  before _ _ h := absurd h (Nat.not_lt_zero _)
  beyond _ hi h := absurd hi (Nat.not_lt.2 h)

/-- The upper half can be left out if an item between the halves is beyond. -/
theorem lower (h : Encloses items isBeyond low high) (hparts : Partitioned items isBeyond) {middle : Nat}
    (hlow : low ≤ middle) (hmiddle : middle < items.size) (hbeyond : isBeyond items[middle]) :
    Encloses items isBeyond low middle where
  le := hlow
  le_size := hmiddle.le
  before := h.before
  beyond i hi hle := hparts middle i hle hi hbeyond

/-- The lower half can be left out if it ends in an item that is not beyond. -/
theorem upper (h : Encloses items isBeyond low high) (hparts : Partitioned items isBeyond) {middle : Nat}
    (hhigh : middle < high) (hmiddle : middle < items.size) (hbefore : ¬isBeyond items[middle]) :
    Encloses items isBeyond (middle + 1) high where
  le := hhigh
  le_size := h.le_size
  before i _ hlt hbeyond := hbefore (hparts i middle (Nat.le_of_lt_succ hlt) hmiddle hbeyond)
  beyond := h.beyond

/-- The search leaves nothing between what is beyond and what is not. -/
theorem placeBeyond (h : Encloses items isBeyond low high) (hparts : Partitioned items isBeyond)
    (hsize : high ≤ items.size) :
    let place := placeBeyond items isBeyond low high hsize
    Encloses items isBeyond place place := by
  fun_induction Drama.placeBeyond items isBeyond low high hsize with
  | case1 low high hsize hlt middle hbeyond ih =>
    exact ih (h.lower hparts (by omega) (by omega) hbeyond)
  | case2 low high hsize hlt middle hbefore ih =>
    exact ih (h.upper hparts (by omega) (by omega) hbefore)
  | case3 low high hsize hnot =>
    obtain rfl : low = high := le_antisymm h.le (Nat.not_lt.1 hnot)
    exact h

end Encloses

end Search

/-! ## Addresses -/

theorem Statement.addressIn_succ {statements : List Statement} {i : Nat} {s : Statement}
    (hs : statements[i]? = some s) :
    addressIn statements (i + 1) = addressIn statements i + s.wordCount := by
  rw [addressIn, addressIn, List.take_add_one, hs, List.map_append, List.sum_append]
  rfl

theorem Statement.addressIn_mono {statements : List Statement} {i j : Nat} (h : i ≤ j) :
    addressIn statements i ≤ addressIn statements j := by
  obtain ⟨k, rfl⟩ := Nat.exists_eq_add_of_le h
  rw [addressIn, addressIn, List.take_add, List.map_append, List.sum_append]
  exact Nat.le_add_right _ _

namespace Program

variable {p : Program} {body : List Element}

/-- How many words the statements in front of the one with the given index have. -/
def wordsBefore (p : Program) (i : Nat) : Nat :=
  Statement.addressIn (p.statements.toList.map (·.statement)) i

theorem wordsBefore_mono (p : Program) {i j : Nat} (h : i ≤ j) : p.wordsBefore i ≤ p.wordsBefore j :=
  Statement.addressIn_mono h

theorem wordsBefore_succ (p : Program) {i : Nat} (hi : i < p.statements.size) :
    p.wordsBefore (i + 1) = p.wordsBefore i + p.statements[i].statement.wordCount := by
  apply Statement.addressIn_succ
  rw [List.getElem?_map, Array.getElem?_toList, Array.getElem?_eq_getElem hi]
  rfl

/-- The word at an address belongs to a statement. -/
def Owns (p : Program) (i : Nat) (a : Int) : Prop :=
  ∃ s address, p.statements[i]? = some s ∧ p.addressOf? i = some address ∧
    address ≤ a ∧ a < address + s.statement.wordCount

/-- An answer to the question which statement the word at an address belongs to. -/
inductive OwnerAt (p : Program) (a : Int) : Option Nat → Prop
  | inside {i : Nat} (ha : 0 ≤ a ∧ a < p.size) (owns : p.Owns i a) (unique : ∀ j, p.Owns j a → j = i) :
    OwnerAt p a (some i)
  | outside (ha : ¬(0 ≤ a ∧ a < p.size)) (none_owns : ∀ j, ¬p.Owns j a) : OwnerAt p a none

theorem OwnerAt.eq_some_iff {a : Int} {answer : Option Nat} (h : p.OwnerAt a answer) (i : Nat) :
    answer = some i ↔ p.Owns i a := by
  cases h with
  | @inside j ha owns unique =>
    constructor
    · rintro ⟨⟩
      exact owns
    · intro h
      rw [unique i h]
  | outside ha none_owns => exact ⟨nofun, fun h => absurd h (none_owns i)⟩

namespace LaidOut

/-- A statement stands behind the words of those in front of it. -/
theorem addressOf?_eq (h : p.LaidOut body) {i : Nat} (hi : i < p.statements.size) :
    p.addressOf? i = some (p.wordsBefore i) := by
  have hstatement : (Element.statementsIn body)[i]? = some p.statements[i].statement := by
    rw [← h.statements, List.getElem?_map, Array.getElem?_toList, Array.getElem?_eq_getElem hi]
    rfl
  rw [wordsBefore, h.statements]
  exact (h.words i _ hstatement).1

theorem address_eq (h : p.LaidOut body) {i : Nat} (hi : i < p.statements.size) :
    p.statements[i].address = p.wordsBefore i := by
  have haddress := h.addressOf?_eq hi
  rw [addressOf?_natCast, Array.getElem?_toList, Array.getElem?_eq_getElem hi] at haddress
  exact Option.some.inj haddress

/-- The words of all statements are those of the program. -/
theorem wordsBefore_size (h : p.LaidOut body) : p.wordsBefore p.statements.size = p.size := by
  have hlength : p.statements.size = (Element.statementsIn body).length := by
    rw [← h.statements, List.length_map, Array.length_toList]
  rw [wordsBefore, h.statements, h.size_eq, hlength, Statement.addressIn, List.take_length]
  rfl

/-- A statement has the addresses from its own one to that of the next statement. -/
theorem owns_iff (h : p.LaidOut body) {i : Nat} {a : Int} :
    p.Owns i a ↔ i < p.statements.size ∧ p.wordsBefore i ≤ a ∧ a < p.wordsBefore (i + 1) := by
  constructor
  · rintro ⟨s, address, hs, haddress, hle, hlt⟩
    obtain ⟨hi, rfl⟩ := Array.getElem?_eq_some_iff.1 hs
    cases haddress.symm.trans (h.addressOf?_eq hi)
    rw [p.wordsBefore_succ hi, Int.natCast_add]
    exact ⟨hi, hle, hlt⟩
  · rintro ⟨hi, hle, hlt⟩
    rw [p.wordsBefore_succ hi, Int.natCast_add] at hlt
    exact ⟨_, _, Array.getElem?_eq_getElem hi, h.addressOf?_eq hi, hle, hlt⟩

theorem inside_of_owns (h : p.LaidOut body) {i : Nat} {a : Int} (howns : p.Owns i a) :
    0 ≤ a ∧ a < p.size := by
  obtain ⟨hi, hle, hlt⟩ := h.owns_iff.1 howns
  have hend : p.wordsBefore (i + 1) ≤ p.size := h.wordsBefore_size ▸ p.wordsBefore_mono hi
  omega

/-- No two statements have an address in common. -/
theorem owns_unique (h : p.LaidOut body) {i j : Nat} {a : Int} (hi : p.Owns i a) (hj : p.Owns j a) :
    j = i := by
  have hnot {i j : Nat} (hi : p.Owns i a) (hj : p.Owns j a) : ¬i < j := by
    intro hlt
    obtain ⟨-, -, hbelow⟩ := h.owns_iff.1 hi
    obtain ⟨-, habove, -⟩ := h.owns_iff.1 hj
    have hmono : p.wordsBefore (i + 1) ≤ p.wordsBefore j := p.wordsBefore_mono (Nat.succ_le_of_lt hlt)
    omega
  exact le_antisymm (Nat.not_lt.1 (hnot hi hj)) (Nat.not_lt.1 (hnot hj hi))

/-- Addresses ascend, so those behind another one part the statements. -/
theorem partitioned (h : p.LaidOut body) (a : Int) :
    Partitioned p.statements fun s => decide (a < (s.address : Int)) := by
  intro i j hij hj hbeyond
  have hmono : p.statements[i].address ≤ p.statements[j].address := by
    rw [h.address_eq, h.address_eq]
    exact p.wordsBefore_mono hij
  simp only [decide_eq_true_eq] at hbeyond ⊢
  omega

/-- The place that the search ends at parts the addresses up to `a` from those behind it, the end of the
program included. -/
theorem lt_wordsBefore_iff (h : p.LaidOut body) {a : Int} (ha : a < p.size) {place : Nat}
    (hplace : Encloses p.statements (fun s => decide (a < (s.address : Int))) place place) {i : Nat}
    (hi : i ≤ p.statements.size) : a < p.wordsBefore i ↔ place ≤ i := by
  obtain hlt | rfl := Nat.lt_or_eq_of_le hi
  · rw [← h.address_eq hlt]
    constructor
    · intro hbeyond
      by_contra hbefore
      exact hplace.before i hlt (Nat.not_le.1 hbefore) (decide_eq_true hbeyond)
    · exact fun hle => of_decide_eq_true (hplace.beyond i hlt hle)
  · rw [h.wordsBefore_size]
    exact ⟨fun _ => hplace.le_size, fun _ => ha⟩

/-- The lookup finds the statement that the word belongs to, whichever share its address. -/
theorem ownerAt_statementAt? (h : p.LaidOut body) (a : Int) : p.OwnerAt a (p.statementAt? a) := by
  unfold statementAt?
  split
  · rename_i ha
    have hplace := (Encloses.all p.statements _).placeBeyond (h.partitioned a) (Nat.le_refl _)
    generalize placeBeyond p.statements _ 0 _ _ = place at hplace ⊢
    have hiff {i : Nat} (hi : i ≤ p.statements.size) := h.lt_wordsBefore_iff ha.2 hplace hi
    cases place with
    | zero => exact absurd ((hiff (Nat.zero_le _)).2 (Nat.le_refl _)) (Int.not_lt.2 ha.1)
    | succ i =>
      have hi : i < p.statements.size := hplace.le_size
      have hnot : ¬a < p.wordsBefore i := fun hlt => Nat.not_succ_le_self i ((hiff hi.le).1 hlt)
      have howns : p.Owns i a := h.owns_iff.2 ⟨hi, Int.not_lt.1 hnot, (hiff hi).2 (Nat.le_refl _)⟩
      exact .inside ha howns fun j hj => h.owns_unique howns hj
  · rename_i ha
    exact .outside ha fun j hj => ha (h.inside_of_owns hj)

/-- A statement is found at its own address exactly if a word stands there. -/
theorem statementAt?_address (h : p.LaidOut body) {i : Nat} {s : PlacedStatement}
    (hs : p.statements[i]? = some s) :
    ∃ address, p.addressOf? i = some address ∧
      (p.statementAt? address = some i ↔ 0 < s.statement.wordCount) := by
  obtain ⟨hi, rfl⟩ := Array.getElem?_eq_some_iff.1 hs
  refine ⟨p.wordsBefore i, h.addressOf?_eq hi, ?_⟩
  rw [(h.ownerAt_statementAt? _).eq_some_iff, h.owns_iff, p.wordsBefore_succ hi]
  constructor
  · rintro ⟨-, -, hlt⟩
    omega
  · intro hwords
    exact ⟨hi, le_rfl, by omega⟩

end LaidOut

end Program

/-! ## Machines that know their program -/

namespace Machine

variable {start m : Machine}

theorem stepped_program (m : Machine) : m.stepped.program = m.program := by
  obtain ⟨c, operation, -, -, -, hstepped⟩ | ⟨-, e, hstepped⟩ := m.stepped_cases
  · rw [hstepped]
    exact (m.fetched.sameRecords_effect operation c.operands).program
  · rw [hstepped]
    rfl

/-- A call does not make a machine forget its program. -/
theorem left_program (m : Machine) (c : Call) : (m.left c.action).program = m.program := by
  by_cases hstate : m.state = c.state
  · rw [left_of_ok (Call.run_of_state hstate)]
    cases c with
    | executeNext => exact m.stepped_program
    | provideInput w => rfl
  · rw [left_of_error (Call.run_of_state_ne hstate)]

theorem Reached.program (h : start.Reached m) : m.program = start.program := by
  induction h with
  | start => rfl
  | call _ c ih => rw [left_program, ih]

/-- The statement executed last is the one at the address that the step was taken at. -/
theorem stepped_executedStatement? {p : Program} (h : m.program = some p) :
    m.stepped.executedStatement? = p.statementAt? m.pc.raw := by
  rw [executedStatement?, m.stepped_program, m.stepped_previousPc, h]
  rfl

end Machine

/-! ## The result -/

/-- Addresses, and the steps of a machine that knows the program, lead back to the statements. -/
structure Program.Traceable (p : Program) : Prop where
  owner : ∀ a : Int, p.OwnerAt a (p.statementAt? a)
  /-- The lookup undoes the layout for statements with words, and for no others. -/
  address : ∀ (i : Nat) (s : PlacedStatement), p.statements[i]? = some s →
    ∃ address, p.addressOf? i = some address ∧
      (p.statementAt? address = some i ↔ 0 < s.statement.wordCount)
  loaded : ∃ start, Machine.ofProgram p = .ok start ∧ ∀ m, start.Reached m → m.program = some p
  step : ∀ m : Machine, m.program = some p → m.state = .ready →
    ∃ m', Machine.executeNext.run m = .ok () m' ∧ p.OwnerAt m.pc.raw m'.executedStatement?

/-- An assembled program finds the statement that each of its words belongs to, also where allocations of no
words share its address, and so does a machine that runs the program. -/
theorem traceable_of_assemble {u : CompilationUnit} {p : Program} (h : u.assemble = .ok p) :
    p.Traceable := by
  have hlaid := CompilationUnit.laidOut_of_assemble h
  have hwords : p.words.toList.length ≤ addressSpace := hlaid.size_lt.le
  refine ⟨hlaid.ownerAt_statementAt?, fun i s => hlaid.statementAt?_address, ?_, ?_⟩
  · refine ⟨{ Machine.empty with program := some p, memory := Memory.empty.fill 0 p.words.toList }, ?_, ?_⟩
    · rw [Machine.ofProgram, Machine.ofWords_eq hwords]
      rfl
    · exact fun m hreached => hreached.program
  · intro m hprogram hready
    refine ⟨m.stepped, Machine.executeNext_run hready, ?_⟩
    rw [Machine.stepped_executedStatement? hprogram]
    exact hlaid.ownerAt_statementAt? _

/-- Allocations of no words in front of a command, behind it, and at the end. -/
theorem traceable_of_assemble_of_empty_allocations :
    ∃ lexemes p, lex "RESGR 0\nRESGR 0\nHIA R1, 2\nRESGR 0\nRESGR 2\nRESGR 0".toList = .ok lexemes ∧
      (CompilationUnit.ofLexemes lexemes).assemble = .ok p ∧
      p.statements.map (·.address) = #[0, 0, 0, 1, 1, 3] ∧
      [-1, 0, 1, 2, 3].map p.statementAt? = [none, some 2, some 4, some 4, none] ∧ p.Traceable := by
  obtain ⟨lexemes, p, hlex, h, haddresses, hfound⟩ : ∃ lexemes p,
      lex "RESGR 0\nRESGR 0\nHIA R1, 2\nRESGR 0\nRESGR 2\nRESGR 0".toList = .ok lexemes ∧
      (CompilationUnit.ofLexemes lexemes).assemble = .ok p ∧
      p.statements.map (·.address) = #[0, 0, 0, 1, 1, 3] ∧
      [-1, 0, 1, 2, 3].map p.statementAt? = [none, some 2, some 4, some 4, none] :=
    ⟨_, _, rfl, rfl, by decide +kernel, by decide +kernel⟩
  exact ⟨lexemes, p, hlex, h, haddresses, hfound, traceable_of_assemble h⟩

end Drama
