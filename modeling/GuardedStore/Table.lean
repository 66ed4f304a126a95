/-!
Finite maps kept as lists of entries, and heaps of records addressed by number.

`Table` holds at most one entry per key: writing an entry removes the older one. `Heap` is a table
whose keys are handed out in order and whose lookup answers a default for an address never handed
out, so that a record is read and written without a side condition on its address.
-/
namespace GuardedStore

/-- A finite map, newest entry first. -/
structure Table (κ α : Type) where
  entries : List (κ × α) := []

namespace Table

variable {κ α : Type} [DecidableEq κ]

def find? (t : Table κ α) (k : κ) : Option α :=
  t.entries.lookup k

def contains (t : Table κ α) (k : κ) : Bool :=
  (t.find? k).isSome

def erase (t : Table κ α) (k : κ) : Table κ α :=
  ⟨t.entries.filter fun e => e.1 ≠ k⟩

def put (t : Table κ α) (k : κ) (a : α) : Table κ α :=
  ⟨(k, a) :: (t.erase k).entries⟩

@[simp] theorem find?_empty (k : κ) : (⟨[]⟩ : Table κ α).find? k = none := rfl

@[simp] theorem find?_put_self (t : Table κ α) (k : κ) (a : α) : (t.put k a).find? k = some a := by
  simp [put, find?]

theorem find?_erase_self (t : Table κ α) (k : κ) : (t.erase k).find? k = none := by
  simp only [find?, erase, List.lookup_eq_none_iff, List.mem_filter]
  rintro ⟨j, a⟩ ⟨_, h⟩
  simpa using fun h' : k = j => (by simpa using h : ¬ j = k) h'.symm

theorem find?_erase_of_ne (t : Table κ α) {k j : κ} (h : j ≠ k) :
    (t.erase k).find? j = t.find? j := by
  simp only [find?, erase]
  induction t.entries with
  | nil => rfl
  | cons e es ih =>
    obtain ⟨i, a⟩ := e
    by_cases hi : i = k
    · have hj : (j == i) = false := by simpa [hi] using h
      rw [List.filter_cons_of_neg (by simpa using hi), ih, List.lookup_cons, hj]
    · rw [List.filter_cons_of_pos (by simpa using hi), List.lookup_cons, List.lookup_cons, ih]

theorem find?_put_of_ne (t : Table κ α) {k j : κ} (a : α) (h : j ≠ k) :
    (t.put k a).find? j = t.find? j := by
  have hb : (j == k) = false := by simpa using h
  have := t.find?_erase_of_ne h
  simpa [put, find?, List.lookup_cons, hb] using this

theorem find?_put (t : Table κ α) (k j : κ) (a : α) :
    (t.put k a).find? j = if j = k then some a else t.find? j := by
  split
  · next h => subst h; simp
  · next h => exact t.find?_put_of_ne a h

theorem find?_erase (t : Table κ α) (k j : κ) :
    (t.erase k).find? j = if j = k then none else t.find? j := by
  split
  · next h => subst h; exact t.find?_erase_self j
  · next h => exact t.find?_erase_of_ne h

end Table

/-- Records by address; `next` is the first address not yet handed out. -/
structure Heap (α : Type) where
  next : Nat := 0
  records : Table Nat α := {}

namespace Heap

variable {α : Type} [Inhabited α]

def get (h : Heap α) (r : Nat) : α :=
  (h.records.find? r).getD default

def set (h : Heap α) (r : Nat) (a : α) : Heap α :=
  { h with records := h.records.put r a }

def modify (h : Heap α) (r : Nat) (f : α → α) : Heap α :=
  h.set r (f (h.get r))

/-- The heap with one more record; its address is the old `next`. -/
def push (h : Heap α) (a : α) : Heap α :=
  { next := h.next + 1, records := h.records.put h.next a }

theorem get_set (h : Heap α) (r s : Nat) (a : α) :
    (h.set r a).get s = if s = r then a else h.get s := by
  simp only [get, set, Table.find?_put]
  split <;> rfl

theorem get_modify (h : Heap α) (r s : Nat) (f : α → α) :
    (h.modify r f).get s = if s = r then f (h.get r) else h.get s :=
  h.get_set r s _

theorem get_push (h : Heap α) (s : Nat) (a : α) :
    (h.push a).get s = if s = h.next then a else h.get s := by
  simp only [get, push, Table.find?_put]
  split <;> rfl

omit [Inhabited α] in
@[simp] theorem next_set (h : Heap α) (r : Nat) (a : α) : (h.set r a).next = h.next := rfl

@[simp] theorem next_modify (h : Heap α) (r : Nat) (f : α → α) : (h.modify r f).next = h.next := rfl

omit [Inhabited α] in
@[simp] theorem next_push (h : Heap α) (a : α) : (h.push a).next = h.next + 1 := rfl

end Heap

end GuardedStore
