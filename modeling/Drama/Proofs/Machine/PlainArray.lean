-- SUMMARY: Memory with its bins is a plain array of words, for every sequence of accesses.
import Mathlib.Data.Finset.Sort
import Mathlib.Data.Fintype.Basic
import Drama.Proofs.Machine.Effect
import Drama.Proofs.Machine.Memory

/-!
# Memory as a plain array

A `Plain` array has a word for each address at all times, and no bins. It remembers the places that were
written, from which the bins follow. Memory and such an array give the same answers to every sequence of
accesses, faults among them, if both have been cleared before: `Plain.Models` holds of the two after every access.
The fault of a number outside the array is that of its size (`refusal`), unless the number is too long to be named.
-/

namespace Drama

/-! ## Accesses -/

/-- What can be asked of memory. -/
inductive Access
  | read (key : Machine.Key)
  | write (key : Machine.Key) (word : MachineWord)
  | load (start : Int) (words : List MachineWord)
  | clear

/-- The answer to an access: the word that was read, if it is a read, or a fault. -/
abbrev Answer := Except Fault (Option MachineWord)

namespace Access

def action : Access → MachineM (Option MachineWord)
  | read key => do return some (← Machine.readAt key)
  | write key w => do
    Machine.writeAt key w
    return none
  | load start words => do
    Machine.writeAll start words
    return none
  | clear => do
    Machine.clearMemory
    return none

/-- The answer of a machine to an access, and the machine afterwards. -/
def perform (access : Access) (m : Machine) : Answer × Machine :=
  match access.action.run m with
  | .ok answer m' => (.ok answer, m')
  | .error fault m' => (.error fault, m')

end Access

/-- The answers to accesses one after the other, and what is left in the end. -/
def replay {σ : Type} (perform : Access → σ → Answer × σ) : List Access → σ → List Answer × σ
  | [], s => ([], s)
  | access :: rest, s =>
    let (answer, s) := perform access s
    let (answers, s) := replay perform rest s
    (answer :: answers, s)

/-! ## The plain array -/

/-- Whether a number is the number of an address. -/
abbrev IsPlace (number : Int) : Prop := 0 ≤ number ∧ number < addressSpace

/-- The place of an address in a plain array. -/
def placeOf (a : AddressWord) : Fin addressSpace := ⟨a.raw, a.raw_lt⟩

/-- The fault of a number that is no place. It names the number, if this has at most 4300 digits. -/
def refusal (number : Int) : Fault :=
  if number.natAbs < Numeral.writeBound then .noSuchAddress number else .numeral .notWritable

/-- The place of a key in a plain array. -/
def Machine.Key.place : Machine.Key → Except Fault (Fin addressSpace)
  | .number value =>
    if h : IsPlace value then .ok ⟨value.toNat, (Int.toNat_lt h.1).2 h.2⟩ else .error (refusal value)
  | .address a => .ok (placeOf a)
  | .word _ => .error .wordAsAddress

/-- The first number from `start` on, of `count` many, that is no place. -/
def refused? (start : Int) (count : Nat) : Option Int :=
  ((List.range count).map fun k : Nat => start + k).find? fun number => !decide (IsPlace number)

/-- The word that a place gets when words are put one after the other from `start` on. There is none before the
start, and none at all if there is no place for the first word. -/
def loaded? (start : Int) (words : List MachineWord) (place : Fin addressSpace) : Option MachineWord :=
  if 0 ≤ start ∧ start ≤ place then words[(place - start).toNat]? else none

/-- An array with a word for each address, and the places written since it was cleared last. -/
structure Plain where
  cells : Vector MachineWord addressSpace
  written : Finset (Fin addressSpace)

namespace Plain

def zero : Plain := ⟨Vector.replicate addressSpace Word.zero, ∅⟩

def store (p : Plain) (place : Fin addressSpace) (w : MachineWord) : Plain :=
  ⟨p.cells.set place w, insert place p.written⟩

/-- Every word that has a place before the first one that has none is kept. -/
def load (p : Plain) (start : Int) (words : List MachineWord) : Plain where
  cells := Vector.ofFn fun place => (loaded? start words place).getD p.cells[place]
  written := p.written ∪ Finset.univ.filter fun place => (loaded? start words place).isSome

/-- The answer of a plain array to an access, and the array afterwards. -/
def perform : Access → Plain → Answer × Plain
  | .read key, p =>
    match key.place with
    | .ok place => (.ok (some p.cells[place]), p)
    | .error fault => (.error fault, p)
  | .write key w, p =>
    match key.place with
    | .ok place => (.ok none, p.store place w)
    | .error fault => (.error fault, p)
  | .load start words, p =>
    match refused? start words.length with
    | none => (.ok none, p.load start words)
    | some number => (.error (refusal number), p.load start words)
  | .clear, _ => (.ok none, zero)

/-- The numbers of the bins that the written places lie in, in ascending order. -/
def bins (p : Plain) : List Nat := (p.written.image fun place => place.val / binSize).sort

end Plain

/-! ## Places -/

theorem placeOf_injective {a b : AddressWord} (h : placeOf a = placeOf b) : a = b :=
  Word.ext (congrArg Fin.val h)

theorem refusal_of_lt {number : Int} (h : number.natAbs < Numeral.writeBound) :
    refusal number = .noSuchAddress number := if_pos h

theorem refusal_of_le {number : Int} (h : Numeral.writeBound ≤ number.natAbs) :
    refusal number = .numeral .notWritable := if_neg (Nat.not_lt.2 h)

theorem Fault.ofAddress_eq (number : Int) : ofAddress number = refusal number := by
  unfold ofAddress
  obtain hwritable | hlong := Nat.lt_or_ge number.natAbs Numeral.writeBound
  · rw [Numeral.write_of_lt hwritable, refusal_of_lt hwritable]
  · rw [Numeral.write_of_le hlong, refusal_of_le hlong]

namespace Machine

theorem Key.resolve_of_isPlace {number : Int} (h : IsPlace number) :
    ∃ a, (Key.number number).resolve = .ok a ∧ (placeOf a).val = number := by
  have hplace : 0 ≤ number ∧ number.toNat < tenPow 4 := by
    obtain ⟨hzero, hlt⟩ := h
    simp only [addressSpace] at hlt
    omega
  refine ⟨⟨number.toNat, hplace.2⟩, ?_, Int.toNat_of_nonneg h.1⟩
  simp only [resolve, Word.ofInt, dif_pos hplace]

theorem Key.resolve_of_not_isPlace {number : Int} (h : ¬IsPlace number) :
    (Key.number number).resolve = .error (refusal number) := by
  have hplace : ¬(0 ≤ number ∧ number.toNat < tenPow 4) := by
    simp only [IsPlace, addressSpace] at h
    omega
  simp only [resolve, Word.ofInt, dif_neg hplace, Fault.ofAddress_eq]

/-- A key has a place in the plain array exactly if it leads to an address. -/
theorem Key.place_eq (key : Key) : key.place = key.resolve.map placeOf := by
  cases key with
  | number value =>
    by_cases h : IsPlace value
    · obtain ⟨a, hresolve, ha⟩ := resolve_of_isPlace h
      have hplace : placeOf a = ⟨value.toNat, (Int.toNat_lt h.1).2 h.2⟩ := by
        apply Fin.ext
        show (placeOf a).val = value.toNat
        omega
      rw [place, dif_pos h, hresolve, Except.map, hplace]
    · rw [place, dif_neg h, resolve_of_not_isPlace h]
      rfl
  | address a => rfl
  | word w => rfl

end Machine

/-! ## Accesses of a machine -/

namespace Access

open Machine

variable (m : Machine)

/-- A read changes nothing, whether it is refused or not. -/
theorem perform_read (key : Key) :
    (read key).perform m = (key.resolve.map fun a => some (m.memory.read a), m) := by
  simp only [perform, action, readAt, findCell]
  cases key.resolve with
  | ok a => rfl
  | error fault => rfl

theorem perform_write (key : Key) (w : MachineWord) :
    (write key w).perform m =
      match key.resolve with
      | .ok a => (.ok none, { m with memory := m.memory.write a w })
      | .error fault => (.error fault, m) := by
  simp only [perform, action, writeAt, findCell]
  cases key.resolve with
  | ok a => rfl
  | error fault => rfl

theorem perform_load_nil (start : Int) : (load start []).perform m = (.ok none, m) := rfl

theorem perform_load_cons (start : Int) (w : MachineWord) (rest : List MachineWord) :
    (load start (w :: rest)).perform m =
      match (Key.number start).resolve with
      | .ok a => (load (start + 1) rest).perform { m with memory := m.memory.write a w }
      | .error fault => (.error fault, m) := by
  simp only [perform, action, writeAll, writeAt, findCell]
  cases (Key.number start).resolve with
  | ok a => rfl
  | error fault => rfl

end Access

/-! ## Words one after the other -/

theorem refused?_succ (start : Int) (count : Nat) :
    refused? start (count + 1) = if IsPlace start then refused? (start + 1) count else some start := by
  have hnumbers : (List.range (count + 1)).map (fun k : Nat => start + k) =
      start :: (List.range count).map fun k : Nat => start + 1 + k := by
    simp [List.range_succ_eq_map, Int.add_assoc, Int.add_comm 1]
  rw [refused?, hnumbers]
  by_cases h : IsPlace start
  · rw [if_pos h, List.find?_cons_of_neg (by simpa only [Bool.not_eq_true', decide_eq_false_iff_not, not_not])]
    rfl
  · rw [if_neg h, List.find?_cons_of_pos (by simpa only [Bool.not_eq_true', decide_eq_false_iff_not])]

/-- Where there is no place for the first word, no place gets one. -/
theorem loaded?_of_not_isPlace {start : Int} (h : ¬IsPlace start) (words : List MachineWord)
    (place : Fin addressSpace) : loaded? start words place = none := by
  have hlt := place.isLt
  rw [loaded?, if_neg (by simp only [IsPlace] at h; omega)]

/-- The first word goes into the place that the words start from, the others go into those after it. -/
theorem loaded?_cons (place q : Fin addressSpace) (w : MachineWord) (rest : List MachineWord) :
    loaded? place (w :: rest) q = if q = place then some w else loaded? (place + 1) rest q := by
  by_cases hq : q = place
  · rw [if_pos hq, loaded?, if_pos (by omega), hq, Int.sub_self]
    rfl
  rw [if_neg hq]
  by_cases hle : place ≤ q
  · have hnext : ((q : Int) - place).toNat = ((q : Int) - (place + 1)).toNat + 1 := by omega
    rw [loaded?, loaded?, if_pos (by omega), if_pos (by omega), hnext, List.getElem?_cons_succ]
  · rw [loaded?, loaded?, if_neg (by omega), if_neg (by omega)]

theorem loaded?_succ_self (place : Fin addressSpace) (words : List MachineWord) :
    loaded? (place + 1) words place = none := by
  rw [loaded?, if_neg (by omega)]

namespace Plain

/-! ## Memory as a plain array -/

/-- Memory holds what the array holds, and its bins are those of the places written. -/
structure Models (p : Plain) (memory : Memory) : Prop where
  read_eq (a : AddressWord) : memory.read a = p.cells[placeOf a]
  mem_materialised (i : Nat) :
    i ∈ memory.materialised ↔ ∃ place ∈ p.written, place.val / binSize = i

namespace Models

variable {p : Plain} {memory : Memory}

theorem empty : zero.Models .empty where
  read_eq a := by simp [Memory.read_empty, zero]
  mem_materialised i := by simp [Memory.materialised_empty, zero]

theorem store (h : p.Models memory) (a : AddressWord) (w : MachineWord) :
    (p.store (placeOf a) w).Models (memory.write a w) where
  read_eq b := by
    by_cases hba : b = a
    · subst hba
      rw [Memory.read_write]
      simp [Plain.store]
    · have hne : (placeOf a).val ≠ (placeOf b).val := fun heq =>
        hba (placeOf_injective (Fin.ext heq.symm))
      rw [Memory.read_write_of_ne memory w hba, h.read_eq]
      simp [Plain.store, Vector.getElem_set_ne _ _ hne]
  mem_materialised i := by
    rw [Memory.mem_materialised_write, h.mem_materialised]
    simp only [Plain.store, Finset.exists_mem_insert]
    exact or_congr_left eq_comm

/-- The bins that exist are those of the places written, each once and in ascending order. -/
theorem materialised_eq (h : p.Models memory) : memory.materialised = p.bins := by
  have hpairwise := memory.pairwise_materialised
  have hset : memory.materialised.toFinset = p.written.image fun place => place.val / binSize := by
    ext i
    simp [h.mem_materialised]
  rw [bins, ← hset]
  apply Eq.symm
  apply (List.toFinset_sort (· ≤ ·) (hpairwise.imp Nat.ne_of_lt)).2
  exact hpairwise.imp Nat.le_of_lt

end Models

/-! ## Loading -/

theorem load_nil (p : Plain) (start : Int) : p.load start [] = p := by
  have hnone (place : Fin addressSpace) : loaded? start [] place = none := by simp [loaded?]
  simp [load, hnone]

theorem load_of_not_isPlace (p : Plain) {start : Int} (h : ¬IsPlace start) (words : List MachineWord) :
    p.load start words = p := by
  simp [load, loaded?_of_not_isPlace h]

/-- Loading puts the first word into its place and goes on with the others. -/
theorem load_cons (p : Plain) (place : Fin addressSpace) (w : MachineWord) (rest : List MachineWord) :
    p.load place (w :: rest) = (p.store place w).load (place + 1) rest := by
  have hcells (q : Fin addressSpace) : (loaded? place (w :: rest) q).getD p.cells[q] =
      (loaded? (place + 1) rest q).getD (p.store place w).cells[q] := by
    rw [loaded?_cons]
    by_cases hq : q = place
    · subst hq
      simp [loaded?_succ_self, store]
    · have hne : place.val ≠ q.val := fun heq => hq (Fin.ext heq.symm)
      simp [hq, store, Vector.getElem_set_ne _ _ hne]
  have hwritten : (p.load place (w :: rest)).written =
      ((p.store place w).load (place + 1) rest).written := by
    ext q
    by_cases hq : q = place
    · simp [load, store, loaded?_cons, hq]
    · simp [load, store, loaded?_cons, hq]
  simp only [load] at hwritten
  simp only [load, hcells, hwritten]

theorem perform_load_nil (start : Int) (p : Plain) : perform (.load start []) p = (.ok none, p) := by
  show (_, p.load start []) = _
  rw [load_nil]

theorem perform_load_cons (place : Fin addressSpace) (w : MachineWord) (rest : List MachineWord) (p : Plain) :
    perform (.load place (w :: rest)) p = perform (.load (place + 1) rest) (p.store place w) := by
  have hplace : IsPlace place := ⟨by omega, by omega⟩
  simp only [perform, List.length_cons, refused?_succ, if_pos hplace, load_cons]

theorem perform_load_of_not_isPlace {start : Int} (h : ¬IsPlace start) (w : MachineWord)
    (rest : List MachineWord) (p : Plain) :
    perform (.load start (w :: rest)) p = (.error (refusal start), p) := by
  simp only [perform, List.length_cons, refused?_succ, if_neg h, load_of_not_isPlace p h]

/-! ## Steps -/

/-- The machine answers the access as the array does, and changes nothing but its memory, which the array models
again afterwards. -/
def Follows (p : Plain) (m : Machine) (access : Access) : Prop :=
  ∃ memory, access.perform m = ((perform access p).1, { m with memory := memory }) ∧
    (perform access p).2.Models memory

namespace Models

variable {p : Plain} {m : Machine}

theorem follows_read (h : p.Models m.memory) (key : Machine.Key) : p.Follows m (.read key) := by
  refine ⟨m.memory, ?_, ?_⟩
  · rw [Access.perform_read, perform, key.place_eq]
    cases key.resolve with
    | ok a => simp only [Except.map, h.read_eq]
    | error fault => rfl
  · rw [perform]
    split <;> exact h

theorem follows_write (h : p.Models m.memory) (key : Machine.Key) (w : MachineWord) :
    p.Follows m (.write key w) := by
  unfold Follows
  rw [Access.perform_write, perform, key.place_eq]
  cases key.resolve with
  | ok a => exact ⟨m.memory.write a w, rfl, h.store a w⟩
  | error fault => exact ⟨m.memory, rfl, h⟩

theorem follows_load (h : p.Models m.memory) (start : Int) (words : List MachineWord) :
    p.Follows m (.load start words) := by
  -- each word that finds a place is a step to the load of the words after it
  induction words generalizing start p m with
  | nil =>
    refine ⟨m.memory, ?_, ?_⟩
    · rw [Access.perform_load_nil, perform_load_nil]
    · rw [perform_load_nil]
      exact h
  | cons w rest ih =>
    unfold Follows
    rw [Access.perform_load_cons]
    by_cases hplace : IsPlace start
    · obtain ⟨a, hresolve, ha⟩ := Machine.Key.resolve_of_isPlace hplace
      obtain ⟨memory, hanswer, hmodels⟩ := ih (m := { m with memory := m.memory.write a w })
        (h.store a w) (start + 1)
      rw [← ha] at hanswer hmodels
      rw [hresolve, ← ha, perform_load_cons]
      exact ⟨memory, hanswer, hmodels⟩
    · rw [Machine.Key.resolve_of_not_isPlace hplace, perform_load_of_not_isPlace hplace]
      exact ⟨m.memory, rfl, h⟩

theorem follows (h : p.Models m.memory) (access : Access) : p.Follows m access := by
  cases access with
  | read key => exact h.follows_read key
  | write key w => exact h.follows_write key w
  | load start words => exact h.follows_load start words
  | clear => exact ⟨.empty, rfl, .empty⟩

/-- A machine and a plain array that models its memory give the same answers to all accesses. -/
theorem replay (h : p.Models m.memory) (accesses : List Access) :
    ∃ memory, Drama.replay Access.perform accesses m =
        ((Drama.replay perform accesses p).1, { m with memory := memory }) ∧
      (Drama.replay perform accesses p).2.Models memory := by
  induction accesses generalizing p m with
  | nil => exact ⟨m.memory, rfl, h⟩
  | cons access rest ih =>
    obtain ⟨memory, hanswer, hmodels⟩ := h.follows access
    obtain ⟨memory', hanswers, hmodels'⟩ := ih (m := { m with memory := memory }) hmodels
    refine ⟨memory', ?_, hmodels'⟩
    simp only [Drama.replay, hanswer, hanswers]

end Models

end Plain

/-- A number that is no address is refused, and nothing is changed. -/
theorem Access.perform_of_not_isPlace {number : Int} (h : ¬IsPlace number) (m : Machine) :
    (Access.read (.number number)).perform m = (.error (refusal number), m) ∧
      ∀ w, (Access.write (.number number) w).perform m = (.error (refusal number), m) := by
  have hresolve := Machine.Key.resolve_of_not_isPlace h
  constructor
  · rw [perform_read, hresolve]
    rfl
  · intro w
    rw [perform_write, hresolve]

/-- Memory, once cleared, is a plain array of words: it gives the same answers to every sequence of accesses,
faults among them, and then holds the same words. Its bins are those of the places that have been written since
it was cleared, in ascending order. Reads change nothing, and neither does an access to a number outside the
array, which is refused. -/
theorem memory_refines_plain (accesses : List Access) (m : Machine) :
    ∃ m', replay Access.perform accesses { m with memory := .empty } =
        ((replay Plain.perform accesses .zero).1, m') ∧
      m' = { m with memory := m'.memory } ∧
      (∀ a, m'.memory.read a = (replay Plain.perform accesses .zero).2.cells[placeOf a]) ∧
      m'.memory.materialised = (replay Plain.perform accesses .zero).2.bins ∧
      (∀ key, ((Access.read key).perform m').2 = m') ∧
      ∀ number, ¬IsPlace number →
        (Access.read (.number number)).perform m' = (.error (refusal number), m') ∧
          ∀ w, (Access.write (.number number) w).perform m' = (.error (refusal number), m') := by
  have hempty : Plain.zero.Models ({ m with memory := .empty } : Machine).memory := .empty
  obtain ⟨memory, hanswers, hmodels⟩ := hempty.replay accesses
  refine ⟨{ m with memory := memory }, hanswers, rfl, hmodels.read_eq, hmodels.materialised_eq, ?_, ?_⟩
  · intro key
    rw [Access.perform_read]
  · intro number hnumber
    exact Access.perform_of_not_isPlace hnumber _

/-- The smallest number that cannot be written is outside the array, but the fault does not say so. -/
theorem long_number_not_named :
    ¬IsPlace Numeral.writeBound ∧
      (Access.read (.number Numeral.writeBound)).perform .empty = (.error (.numeral .notWritable), .empty) ∧
      ∀ w, (Access.write (.number Numeral.writeBound) w).perform .empty =
        (.error (.numeral .notWritable), .empty) := by
  have hbound : addressSpace ≤ Numeral.writeBound := tenPow_le (n := 4) (by decide)
  have hplace : ¬IsPlace Numeral.writeBound := fun h => absurd (Int.ofNat_lt.1 h.2) (Nat.not_lt.2 hbound)
  have hrefused := Access.perform_of_not_isPlace hplace .empty
  rw [refusal_of_le (Nat.le_of_eq (Int.natAbs_natCast _).symm)] at hrefused
  exact ⟨hplace, hrefused⟩

end Drama
