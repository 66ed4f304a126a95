import GuardedStore.Proofs.Estate.Slots
import Mathlib.Data.List.Nodup
import Mathlib.Data.List.Perm.Subperm

/-!
A store as a finite map.

A registry keeps the items that are live and the ids issued so far; it is what a store looks like
from outside. The history of a run tells the registry of each store.

A slot's generation is how often an id of its index was issued before the one that it has, or would
have, now. So an id is new as long as fewer were issued than there are generations.
-/
namespace GuardedStore

structure Entry where
  id : ItemId
  name : String
  type : ValueType
  deriving DecidableEq

/-- What an item is known as from outside. -/
def Item.entry (i : Item) : Entry :=
  ⟨i.descriptor.id, i.descriptor.name, i.descriptor.type⟩

structure Registry where
  live : List Entry := []
  issued : List ItemId := []
  deriving DecidableEq

namespace Registry

def create (r : Registry) (e : Entry) : Registry :=
  ⟨e :: r.live, e.id :: r.issued⟩

def destroy (r : Registry) (id : ItemId) : Registry :=
  { r with live := r.live.filter (·.id ≠ id) }

end Registry

/-- Whether a happening concerns the registry of a store. -/
def Happening.registers (s : StoreId) : Happening → Bool
  | .notice (.itemCreated t ..) | .notice (.itemDestroyed t ..) => t = s
  | _ => false

/-- The registry of a store, by what happened. -/
def registry (s : StoreId) : List Happening → Registry
  | [] => {}
  | .notice (.itemCreated t id name type) :: h =>
    if t = s then (registry s h).create ⟨id, name, type⟩ else registry s h
  | .notice (.itemDestroyed t id _) :: h =>
    if t = s then (registry s h).destroy id else registry s h
  | _ :: h => registry s h

theorem registry_cons {s : StoreId} {y : Happening} (hy : y.registers s = false)
    (h : List Happening) : registry s (y :: h) = registry s h := by
  rcases y with _ | _ | _ | _ | _ | _ | _ | _ | _ | n <;> try rfl
  cases n <;> first | rfl | exact if_neg (of_decide_eq_false hy)

theorem registry_append {s : StoreId} {notes : List Happening}
    (hn : ∀ y ∈ notes, y.registers s = false) (h : List Happening) :
    registry s (notes ++ h) = registry s h := by
  induction notes with
  | nil => rfl
  | cons y notes ih =>
    rw [List.cons_append, registry_cons (hn y List.mem_cons_self),
      ih fun z hz => hn z (List.mem_cons_of_mem y hz)]

/-- What is live was issued. -/
theorem issued_of_live {s : StoreId} {e : Entry} {h : List Happening}
    (he : e ∈ (registry s h).live) : e.id ∈ (registry s h).issued := by
  induction h with
  | nil => cases he
  | cons y h ih =>
    by_cases hy : y.registers s = false
    · rw [registry_cons hy] at he ⊢
      exact ih he
    · rcases y with _ | _ | _ | _ | _ | _ | _ | _ | _ | n <;> try exact absurd rfl hy
      cases n <;> try exact absurd rfl hy
      · have ht := of_decide_eq_true (Bool.not_eq_false _ ▸ hy)
        rw [registry, if_pos ht] at he ⊢
        rcases List.mem_cons.mp he with rfl | he
        · exact List.mem_cons_self
        · exact List.mem_cons_of_mem _ (ih he)
      · have ht := of_decide_eq_true (Bool.not_eq_false _ ▸ hy)
        rw [registry, if_pos ht] at he ⊢
        exact ih (List.mem_filter.mp he).1

/-- How often ids of an index were issued. -/
def turns (issued : List ItemId) (i : UInt32) : Nat :=
  issued.countP (·.index = i)

theorem turns_cons (id : ItemId) (issued : List ItemId) (i : UInt32) :
    turns (id :: issued) i = turns issued i + if id.index = i then 1 else 0 := by
  simp only [turns, List.countP_cons, decide_eq_true_eq]

namespace Arena

variable {α : Type} {a b : Arena α} {issued : List ItemId} {id : ItemId} {x : α}

/-- The generations of an arena's slots count the ids issued for it. -/
structure Issues (a : Arena α) (issued : List ItemId) : Prop where
  occupied : ∀ {i x}, (a.slot i).item = some x →
    ∃ n, turns issued i = n + 1 ∧ (a.slot i).generation = .ofNat n
  vacant : ∀ {i}, (a.slot i).item = none → (a.slot i).generation = .ofNat (turns issued i)
  within : ∀ {i : UInt32}, i.toNat < a.slots.length → 0 < turns issued i
  past : ∀ {id}, id ∈ issued → ∃ n < turns issued id.index, id.generation = .ofNat n
  distinct : issued.length ≤ UInt32.size → issued.Nodup

theorem issues_empty : ({} : Arena α).Issues [] where
  occupied h := by cases lt_length_of_item h
  vacant _ := rfl
  within h := by cases h
  past h := by cases h
  distinct _ := .nil

/-- The id of a slot that was just reserved has not been issued before, as long as fewer were issued
than there are generations. -/
theorem Issues.unissued (h : a.Issues issued) (ha : a.WellFormed) (hr : a.reserve? = some (id, b))
    (hn : issued.length < UInt32.size) : id ∉ issued := by
  intro hid
  have hres := ha.reserves hr
  obtain ⟨n, hlt, hg⟩ := h.past hid
  have hle : turns issued id.index ≤ issued.length := List.countP_le_length
  have he := congrArg UInt32.toNat (hg.symm.trans (hres.generation.trans (h.vacant hres.vacant)))
  rw [UInt32.toNat_ofNat_of_lt' (by omega), UInt32.toNat_ofNat_of_lt' (by omega)] at he
  omega

theorem Issues.fill (h : a.Issues issued) (ha : a.WellFormed) (hr : a.reserve? = some (id, b))
    (x : α) : (b.fill id x).Issues (id :: issued) := by
  have hres := ha.reserves hr
  have hslot := b.slot_fill hres.within x
  have hturn := turns_cons id issued
  have hg := h.vacant hres.vacant
  rw [← hres.generation] at hg
  refine ⟨fun {i y} hy => ?_, fun {i} hi => ?_, fun {i} hi => ?_, fun {id'} hid => ?_,
    fun hn => List.nodup_cons.mpr ⟨h.unissued ha hr hn, h.distinct (Nat.le_of_succ_le hn)⟩⟩
  · rw [hslot] at hy ⊢
    rw [hres.slot] at hy ⊢
    by_cases hi : i = id.index
    · rw [if_pos hi, hturn, if_pos hi.symm, hi]
      exact ⟨_, rfl, hres.generation.symm.trans hg⟩
    · rw [if_neg hi] at hy ⊢
      rw [hturn, if_neg (Ne.symm hi)]
      exact h.occupied hy
  · rw [hslot] at hi ⊢
    rw [hres.slot] at hi ⊢
    split at hi
    · cases hi
    · next hne =>
      rw [if_neg hne, hturn, if_neg (Ne.symm hne)]
      exact h.vacant hi
  · rw [hturn]
    by_cases hne : id.index = i
    · simp [hne]
    · refine Nat.lt_of_lt_of_le (h.within ?_) (Nat.le_add_right _ _)
      have hlen : i.toNat < b.slots.length := by
        have hset : (b.fill id x).slots.length = b.slots.length := List.length_set
        exact hset ▸ hi
      exact (lt_length_of_reserve? hr hlen).resolve_right (Ne.symm hne)
  · rcases List.mem_cons.mp hid with rfl | hid
    · exact ⟨_, by rw [hturn, if_pos rfl]; exact Nat.lt_succ_self _, hg⟩
    · obtain ⟨n, hn, hgen⟩ := h.past hid
      exact ⟨n, by rw [hturn]; exact Nat.lt_of_lt_of_le hn (Nat.le_add_right _ _), hgen⟩

theorem Issues.remove (h : a.Issues issued) (hr : a.remove? id = some (x, b)) :
    b.Issues issued := by
  have hrem := removes_of_remove? hr
  have hlen : b.slots.length = a.slots.length := by
    unfold remove? at hr
    simp only [Option.bind_eq_bind, Option.bind_eq_some_iff, Option.some.injEq,
      Prod.mk.injEq] at hr
    obtain ⟨y, -, -, rfl⟩ := hr
    exact List.length_set
  refine ⟨fun {i y} hy => ?_, fun {i} hi => ?_, fun {i} hi => h.within (hlen ▸ hi), h.past,
    h.distinct⟩
  · rw [hrem.slot] at hy ⊢
    split at hy
    · cases hy
    · next hne =>
      rw [if_neg hne]
      exact h.occupied hy
  · rw [hrem.slot] at hi ⊢
    split
    · next he =>
      obtain ⟨n, hn, hg⟩ := h.occupied hrem.item
      rw [he, hn, ← hrem.generation, hg]
      exact (UInt32.ofNat_add n 1).symm
    · next hne =>
      rw [if_neg hne] at hi
      exact h.vacant hi

theorem Issues.drain (h : a.Issues issued) : a.drain.2.Issues issued := by
  have hlen : a.drain.2.slots.length = a.slots.length := List.length_map ..
  refine ⟨fun {i y} hy => ?_, fun {i} _ => ?_, fun {i} hi => h.within (hlen ▸ hi), h.past,
    h.distinct⟩
  · rw [slot_drain, Slot.item_vacate] at hy
    cases hy
  · rw [slot_drain, Slot.vacate]
    cases hi : (a.slot i).item with
    | none => exact h.vacant hi
    | some x =>
      obtain ⟨n, hn, hg⟩ := h.occupied hi
      rw [hn, Option.isSome_some, if_pos rfl, hg]
      exact (UInt32.ofNat_add n 1).symm

/-- Slots and generations last for as many ids as there are generations. -/
theorem Issues.fresh (h : a.Issues issued) (ha : a.WellFormed)
    (hn : issued.length < UInt32.size) :
    ∃ id b, a.reserve? = some (id, b) ∧ id ∉ issued := by
  have hlen : a.slots.length ≤ issued.length := by
    have hsub : (List.range a.slots.length).map UInt32.ofNat ⊆ issued.map ItemId.index := by
      intro i hi
      obtain ⟨n, hn, rfl⟩ := List.mem_map.mp hi
      have hi := slot_ofNat ha.bounded (List.mem_range.mp hn)
      have hpos := h.within (i := .ofNat n) (by rw [hi.1]; exact List.mem_range.mp hn)
      obtain ⟨id, hid, hx⟩ := List.countP_pos_iff.mp hpos
      exact List.mem_map.mpr ⟨id, hid, of_decide_eq_true hx⟩
    have hnd : ((List.range a.slots.length).map UInt32.ofNat).Nodup := by
      refine List.Nodup.map_on (fun m hm n hn he => ?_) List.nodup_range
      rw [← (slot_ofNat ha.bounded (List.mem_range.mp hm)).1, he,
        (slot_ofNat ha.bounded (List.mem_range.mp hn)).1]
    simpa using (hnd.subperm hsub).length_le
  cases hr : a.reserve? with
  | none =>
    unfold reserve? at hr
    split at hr
    · cases hr
    · have hc : a.slots.length < capacity := Nat.lt_of_le_of_lt hlen hn
      rw [if_pos hc] at hr
      cases hr
  | some r =>
    obtain ⟨id, b⟩ := r
    exact ⟨id, b, rfl, h.unissued ha hr hn⟩

end Arena

end GuardedStore
