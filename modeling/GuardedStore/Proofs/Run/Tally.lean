import GuardedStore.World.Happening
import Mathlib.Algebra.GroupWithZero.Nat
import Mathlib.Algebra.Order.BigOperators.Group.List
import Mathlib.Algebra.Order.Group.Nat

/-!
How often something happened in a history: a tally of what each happening weighs.
-/
namespace GuardedStore

/-- How much the happenings of a history weigh. -/
def tally (weight : Happening → Nat) (history : List Happening) : Nat :=
  (history.map weight).sum

@[simp] theorem tally_nil (f : Happening → Nat) : tally f [] = 0 := rfl

@[simp] theorem tally_cons (f : Happening → Nat) (y : Happening) (h : List Happening) :
    tally f (y :: h) = f y + tally f h := by
  simp [tally]

theorem tally_append (f : Happening → Nat) (newer h : List Happening) :
    tally f (newer ++ h) = tally f newer + tally f h := by
  simp [tally]

theorem tally_eq_zero_iff {f : Happening → Nat} {h : List Happening} :
    tally f h = 0 ↔ ∀ y ∈ h, f y = 0 := by
  rw [tally, List.sum_eq_zero_iff, List.forall_mem_map]

theorem tally_eq_zero {f : Happening → Nat} {h : List Happening} (hf : ∀ y ∈ h, f y = 0) :
    tally f h = 0 :=
  tally_eq_zero_iff.mpr hf

theorem tally_congr {f g : Happening → Nat} {h : List Happening} (hf : ∀ y ∈ h, f y = g y) :
    tally f h = tally g h := by
  rw [tally, tally, List.map_congr_left hf]

theorem tally_add (f g : Happening → Nat) (h : List Happening) :
    tally (fun y => f y + g y) h = tally f h + tally g h :=
  List.sum_map_add

/-- What many weigh together is what each of them weighs. -/
theorem tally_sum {α : Type} (f : α → Happening → Nat) (l : List α) (h : List Happening) :
    tally (fun y => (l.map fun a => f a y).sum) h = (l.map fun a => tally (f a) h).sum := by
  induction l with
  | nil => exact tally_eq_zero fun _ _ => rfl
  | cons a l ih => simp only [List.map_cons, List.sum_cons, tally_add, ih]

end GuardedStore
