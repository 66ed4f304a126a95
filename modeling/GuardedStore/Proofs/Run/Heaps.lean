import GuardedStore.Table

/-!
Tables and heaps with every record changed.
-/
namespace GuardedStore

namespace Table

variable {κ α β : Type} [DecidableEq κ]

/-- The table with every value changed. -/
def map (f : α → β) (t : Table κ α) : Table κ β :=
  ⟨t.entries.map fun e => (e.1, f e.2)⟩

theorem find?_map (f : α → β) (t : Table κ α) (k : κ) : (t.map f).find? k = (t.find? k).map f := by
  unfold find? map
  induction t.entries with
  | nil => rfl
  | cons e es ih =>
    rw [List.map_cons, List.lookup_cons, List.lookup_cons, ih]
    cases k == e.1 <;> rfl

theorem map_erase (f : α → β) (t : Table κ α) (k : κ) : (t.erase k).map f = (t.map f).erase k := by
  simp [map, erase, List.filter_map, Function.comp_def]

theorem map_put (f : α → β) (t : Table κ α) (k : κ) (a : α) :
    (t.put k a).map f = (t.map f).put k (f a) := by
  unfold put
  rw [← map_erase]
  rfl

end Table

namespace Heap

variable {α : Type} [Inhabited α]

/-- The heap with every record changed. -/
def map (f : α → α) (h : Heap α) : Heap α :=
  ⟨h.next, h.records.map f⟩

theorem get_map {f : α → α} (hf : f default = default) (h : Heap α) (r : Nat) :
    (h.map f).get r = f (h.get r) := by
  unfold get map
  rw [Table.find?_map]
  cases h.records.find? r with
  | some a => rfl
  | none => exact hf.symm

omit [Inhabited α] in
theorem map_set (f : α → α) (h : Heap α) (r : Nat) (a : α) :
    (h.set r a).map f = (h.map f).set r (f a) := by
  simp only [map, set, Table.map_put]

omit [Inhabited α] in
theorem map_push (f : α → α) (h : Heap α) (a : α) : (h.push a).map f = (h.map f).push (f a) := by
  simp only [map, push, Table.map_put]

/-- A change that comes to the same before and after the other one. -/
theorem map_modify {f g : α → α} (hf : f default = default) (hg : ∀ a, f (g a) = g (f a))
    (h : Heap α) (r : Nat) : (h.modify r g).map f = (h.map f).modify r g := by
  unfold modify
  rw [map_set, get_map hf, hg]

end Heap

end GuardedStore
