-- SUMMARY: Places in a sequence, counted from its start or from its end.

namespace Drama

/-- The place that an index denotes in a sequence of `length` items: indices from zero on count from the
start, negative ones from the end, the last item being at -1. -/
def place? (length : Nat) (index : Int) : Option (Fin length) :=
  let place := if index < 0 then index + length else index
  if h : 0 ≤ place ∧ place < length then some ⟨place.toNat, by omega⟩ else none

/-- The item at an index. -/
def itemAt? {α : Type} (items : List α) (index : Int) : Option α :=
  (place? items.length index).map items.get

/-- The first place of an item that lies beyond, at `low` or behind it, or `high` if there is none before
it. All items beyond have to stand behind the others, since the stretch that is left is halved. -/
def placeBeyond {α : Type} (items : Array α) (isBeyond : α → Bool) (low high : Nat)
    (h : high ≤ items.size) : Nat :=
  if hlow : low < high then
    let middle := (low + high) / 2
    if isBeyond items[middle] then placeBeyond items isBeyond low middle (by omega)
    else placeBeyond items isBeyond (middle + 1) high h
  else low
termination_by high - low

end Drama
