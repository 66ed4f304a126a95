import GuardedStore.Guard.Access

/-!
The cell of one item.

A cell is written by swapping in a new value and counting it, so the count tells whether a value
read earlier has been superseded, even by an equal one.
-/
namespace GuardedStore

inductive ItemState where
  /-- Built, but its first write is not over. -/
  | uninitialized
  | live
  | destroyed
  deriving DecidableEq, Inhabited

def ItemState.text : ItemState → String
  | uninitialized => "Uninitialized"
  | live => "Live"
  | destroyed => "Destroyed"

structure Item where
  descriptor : Descriptor
  value : Value
  /-- The aspects that guard the cell, by address, in chain order. -/
  chain : List Nat := []
  /-- The domain that the item's triggers go to, by address. -/
  affinity : Option Nat := none
  /-- How many writes were stored. The count goes up by one with each of them and so never comes
  near `2 ^ 64`: a counter of sixty-four bits holds it. -/
  writes : Nat := 0
  state : ItemState := .uninitialized
  deriving DecidableEq, Inhabited

namespace Item

/-- The item with one more value stored. -/
def store (i : Item) (value : Value) : Item :=
  { i with value := value, writes := i.writes + 1 }

def source (i : Item) : Source :=
  i.descriptor.source

end Item

end GuardedStore
