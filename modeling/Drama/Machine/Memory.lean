-- SUMMARY: Memory: ten thousand words, in bins that exist once something is written into them.
import Drama.Word.Basic

/-!
# Memory

Memory is divided into bins of 128 words. A bin comes into being when something is written into it;
a word in a bin that does not exist yet reads as zero.
-/

namespace Drama

def binSize : Nat := 128

/-- As many bins as it takes for all addresses; the last one is not full. -/
def binCount : Nat := (addressSpace + binSize - 1) / binSize

structure Memory where
  bins : Vector (Option (Vector MachineWord binSize)) binCount
deriving DecidableEq

namespace Memory

def empty : Memory := ⟨Vector.replicate binCount none⟩

/-- The bin of an address. -/
def binOf (a : AddressWord) : Fin binCount :=
  ⟨a.raw / binSize, by
    have h : a.raw < 10000 := a.raw_lt
    show a.raw / 128 < 79
    omega⟩

/-- The place of an address in its bin. -/
def offsetOf (a : AddressWord) : Fin binSize := ⟨a.raw % binSize, Nat.mod_lt _ (by decide)⟩

def read (m : Memory) (a : AddressWord) : MachineWord :=
  match m.bins[binOf a] with
  | none => Word.zero
  | some bin => bin[offsetOf a]

def write (m : Memory) (a : AddressWord) (w : MachineWord) : Memory :=
  let bin := m.bins[binOf a].getD (Vector.replicate binSize Word.zero)
  ⟨m.bins.set (binOf a) (some (bin.set (offsetOf a) w))⟩

/-- The numbers of the bins that exist, in ascending order. -/
def materialised (m : Memory) : List Nat :=
  (List.range binCount).filter fun i => (m.bins[i]?.join).isSome

/-- All addresses in ascending order. -/
def addresses : List AddressWord := (List.range addressSpace).map fun i => Word.wrap (i : Nat)

/-- The words that are not zero, with their addresses. -/
def nonzero (m : Memory) : List (AddressWord × MachineWord) :=
  (addresses.map fun a => (a, m.read a)).filter fun entry => entry.2.raw != 0

end Memory

end Drama
