import GuardedStore.Identity

/-!
Slots for the items a store owns.

A slot counts how often it was vacated. An item id names a slot and that count, so an id held past
its item's removal never finds what reuses the slot. Vacated slots are reused last in, first out.

Putting an item in takes two steps, since the item is built under the id it will have: `reserve`
takes a slot out of the vacant ones, and `fill` puts the item in. A slot reserved and never filled
is lost.
-/
namespace GuardedStore

structure Slot (α : Type) where
  generation : UInt32 := 0
  item : Option α := none

/-- A slot with its item taken out, if it had one. -/
def Slot.vacate {α : Type} (s : Slot α) : Slot α :=
  if s.item.isSome then { generation := s.generation + 1 } else s

@[simp] theorem Slot.item_vacate {α : Type} (s : Slot α) : s.vacate.item = none := by
  unfold Slot.vacate
  split
  · rfl
  · next h => simpa using h

structure Arena (α : Type) where
  slots : List (Slot α) := []
  /-- Indices of vacant slots, the next one to reuse first. -/
  free : List UInt32 := []
  size : Nat := 0

namespace Arena

variable {α : Type}

/-- How many slots an arena can have. -/
def capacity : Nat := UInt32.size

/-- The slot of the given index; one that does not exist is vacant. -/
def slot (a : Arena α) (index : UInt32) : Slot α :=
  a.slots.getD index.toNat {}

def setSlot (a : Arena α) (index : UInt32) (s : Slot α) : Arena α :=
  { a with slots := a.slots.set index.toNat s }

/-- Takes a slot for an item about to be built; `none` when every slot there can be is taken. -/
def reserve? (a : Arena α) : Option (ItemId × Arena α) :=
  match a.free with
  | index :: free => some (⟨index, (a.slot index).generation⟩, { a with free := free })
  | [] =>
    if a.slots.length < capacity then
      some (⟨UInt32.ofNat a.slots.length, 0⟩, { a with slots := a.slots ++ [{}] })
    else none

/-- Puts an item into its reserved slot. -/
def fill (a : Arena α) (id : ItemId) (x : α) : Arena α :=
  { a.setSlot id.index { a.slot id.index with item := some x } with size := a.size + 1 }

/-- Both steps at once. -/
def insert? (a : Arena α) (build : ItemId → α) : Option (ItemId × Arena α) :=
  a.reserve?.map fun r => (r.1, r.2.fill r.1 (build r.1))

def get? (a : Arena α) (id : ItemId) : Option α :=
  if (a.slot id.index).generation = id.generation then (a.slot id.index).item else none

def contains (a : Arena α) (id : ItemId) : Bool :=
  (a.get? id).isSome

/-- Takes an item out and vacates its slot. -/
def remove? (a : Arena α) (id : ItemId) : Option (α × Arena α) := do
  let x ← a.get? id
  let vacant := a.setSlot id.index { generation := id.generation + 1 }
  some (x, { vacant with free := id.index :: a.free, size := a.size - 1 })

/-- The items, in slot order. -/
def toList (a : Arena α) : List α :=
  a.slots.filterMap Slot.item

/-- The indices of occupied slots, from a first index on. -/
def occupied : (first : Nat) → List (Slot α) → List UInt32
  | _, [] => []
  | i, s :: slots =>
    if s.item.isSome then UInt32.ofNat i :: occupied (i + 1) slots else occupied (i + 1) slots

/-- Takes every item out, in slot order. -/
def drain (a : Arena α) : List α × Arena α :=
  (a.toList,
    { slots := a.slots.map Slot.vacate
      free := (occupied 0 a.slots).reverse ++ a.free
      size := 0 })

theorem toList_drain (a : Arena α) : a.drain.2.toList = [] := by
  simp [drain, toList]

end Arena

end GuardedStore
