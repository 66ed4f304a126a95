import GuardedStore.Proofs.Run.Lookups
import Mathlib.Data.List.Basic
import Mathlib.Data.List.GetD
import Mathlib.Tactic.SplitIfs

/-!
Slots and what is in them.

An arena is spoken of slot by slot: reserving a slot changes no slot, filling and removing change
one, and draining vacates them all. It is well formed if its free list names each vacant slot once
and its size is the number of its items.
-/
namespace GuardedStore

/-- How many items there are in what may be vacant. -/
def Slot.count {α : Type} (s : Slot α) : Nat :=
  s.item.toList.length

namespace Arena

variable {α : Type} {a b : Arena α} {id : ItemId} {x : α}

theorem slot_setSlot (a : Arena α) (i j : UInt32) (s : Slot α) :
    (a.setSlot i s).slot j = if j = i ∧ i.toNat < a.slots.length then s else a.slot j := by
  have hj : i.toNat = j.toNat ↔ j = i := by rw [eq_comm, UInt32.toNat_inj]
  simp only [setSlot, slot, List.getD_eq_getElem?_getD, List.getElem?_set, hj]
  split_ifs with h h' h' h' <;> grind

theorem slot_of_length_le {i : UInt32} (h : a.slots.length ≤ i.toNat) : a.slot i = {} := by
  rw [slot, List.getD_eq_getElem?_getD, List.getElem?_eq_none h]
  rfl

theorem slot_eq_getElem {i : UInt32} (h : i.toNat < a.slots.length) :
    a.slot i = a.slots[i.toNat] := by
  simp [slot, List.getD_eq_getElem?_getD, h]

/-- The slot at a place of the list is that of the index written so. -/
theorem slot_ofNat {n : Nat} (ha : a.slots.length ≤ capacity) (h : n < a.slots.length) :
    (UInt32.ofNat n).toNat = n ∧ a.slot (.ofNat n) = a.slots[n] := by
  have hi : (UInt32.ofNat n).toNat = n := UInt32.toNat_ofNat_of_lt' (Nat.lt_of_lt_of_le h ha)
  refine ⟨hi, ?_⟩
  simp [slot, List.getD_eq_getElem?_getD, hi, h]

theorem lt_length_of_item {i : UInt32} (h : (a.slot i).item = some x) :
    i.toNat < a.slots.length := by
  refine Decidable.byContradiction fun hi => ?_
  rw [slot_of_length_le (Nat.le_of_not_lt hi)] at h
  cases h

theorem get?_eq_some : a.get? id = some x ↔
    (a.slot id.index).item = some x ∧ (a.slot id.index).generation = id.generation := by
  unfold get?
  split <;> simp_all

theorem mem_toList (h : a.slots.length ≤ capacity) :
    x ∈ a.toList ↔ ∃ i, (a.slot i).item = some x := by
  constructor
  · intro hx
    obtain ⟨s, hs, hx⟩ := List.mem_filterMap.mp hx
    obtain ⟨n, hn, rfl⟩ := List.getElem_of_mem hs
    exact ⟨.ofNat n, (slot_ofNat h hn).2 ▸ hx⟩
  · rintro ⟨i, hi⟩
    have hn := lt_length_of_item hi
    rw [slot_eq_getElem hn] at hi
    exact List.mem_filterMap.mpr ⟨_, List.getElem_mem hn, hi⟩

theorem length_toList_setSlot (a : Arena α) {i : UInt32} (hi : i.toNat < a.slots.length)
    (s : Slot α) :
    (a.setSlot i s).toList.length + (a.slot i).count = a.toList.length + s.count := by
  have hl : ∀ (l : List (Slot α)) {n : Nat} (h : n < l.length),
      ((l.set n s).filterMap Slot.item).length + l[n].count =
        (l.filterMap Slot.item).length + s.count := by
    intro l
    induction l with
    | nil => exact fun h => absurd h (Nat.not_lt_zero _)
    | cons t l ih =>
      intro n h
      have hc (u : Slot α) (l : List (Slot α)) : ((u :: l).filterMap Slot.item).length =
          u.count + (l.filterMap Slot.item).length := by
        cases hu : u.item <;> simp [Slot.count, hu, Nat.add_comm]
      cases n with
      | zero =>
        rw [List.set_cons_zero, hc, hc, List.getElem_cons_zero]
        omega
      | succ n =>
        have := ih (Nat.lt_of_succ_lt_succ h)
        rw [List.set_cons_succ, hc, hc, List.getElem_cons_succ]
        omega
  rw [slot_eq_getElem hi]
  exact hl a.slots hi

/-- Items come in the order of their slots. -/
theorem pairwise_index_lt (h : a.slots.length ≤ capacity) {f : α → UInt32}
    (hf : ∀ {i x}, (a.slot i).item = some x → f x = i) :
    (a.toList.map f).Pairwise (· < ·) := by
  rw [List.pairwise_map, toList, List.pairwise_filterMap, List.pairwise_iff_getElem]
  intro m n hm hn hmn x hx y hy
  have at_slot {n : Nat} {x : α} (hn : n < a.slots.length) (hx : a.slots[n].item = some x) :
      (f x).toNat = n := by
    obtain ⟨hi, hs⟩ := slot_ofNat h hn
    rw [hf (hs ▸ hx), hi]
  rw [UInt32.lt_iff_toNat_lt, at_slot hm hx, at_slot hn hy]
  exact hmn

/-- Every vacant slot is named once among the free ones, and items are counted. -/
structure WellFormed (a : Arena α) : Prop where
  bounded : a.slots.length ≤ capacity
  nodup : a.free.Nodup
  vacant : ∀ i, i ∈ a.free ↔ i.toNat < a.slots.length ∧ (a.slot i).item = none
  size : a.size = a.toList.length

theorem wellFormed_empty : WellFormed ({} : Arena α) where
  bounded := Nat.zero_le _
  nodup := .nil
  vacant i := by simp
  size := rfl

/-- A slot is reserved under the generation it has, and it is vacant. -/
structure Reserves (a : Arena α) (id : ItemId) (b : Arena α) : Prop where
  slot : b.slot = a.slot
  within : id.index.toNat < b.slots.length
  generation : id.generation = (a.slot id.index).generation
  vacant : (a.slot id.index).item = none

theorem reserve?_eq_some : a.reserve? = some (id, b) ↔
    (∃ free, a.free = id.index :: free ∧ (a.slot id.index).generation = id.generation ∧
      b = { a with free }) ∨
    (a.free = [] ∧ a.slots.length < capacity ∧ id = ⟨.ofNat a.slots.length, 0⟩ ∧
      b = { a with slots := a.slots ++ [{}] }) := by
  obtain ⟨index, generation⟩ := id
  unfold reserve?
  split
  · next hf => grind
  · next hf =>
    split
    · grind
    · grind

theorem size_of_reserve? (hr : a.reserve? = some (id, b)) : b.size = a.size := by
  obtain ⟨free, -, -, rfl⟩ | ⟨-, -, -, rfl⟩ := reserve?_eq_some.mp hr <;> rfl

theorem toList_of_reserve? (hr : a.reserve? = some (id, b)) : b.toList = a.toList := by
  obtain ⟨free, -, -, rfl⟩ | ⟨-, -, -, rfl⟩ := reserve?_eq_some.mp hr
  · rfl
  · simp [toList]

theorem WellFormed.reserves (ha : a.WellFormed) (hr : a.reserve? = some (id, b)) :
    a.Reserves id b := by
  obtain ⟨free, hf, hg, rfl⟩ | ⟨-, hlt, rfl, rfl⟩ := reserve?_eq_some.mp hr
  · have hv := (ha.vacant id.index).mp (by simp [hf])
    exact ⟨rfl, hv.1, hg.symm, hv.2⟩
  · have hi : (UInt32.ofNat a.slots.length).toNat = a.slots.length :=
      UInt32.toNat_ofNat_of_lt' hlt
    have hs := slot_of_length_le (a := a) (i := .ofNat a.slots.length) (Nat.le_of_eq hi.symm)
    refine ⟨?_, by simp [hi], by rw [hs], by rw [hs]⟩
    funext j
    simp only [Arena.slot, List.getD_eq_getElem?_getD, List.getElem?_append]
    split
    · rfl
    · next h =>
      rw [List.getElem?_eq_none (Nat.le_of_not_lt h)]
      cases j.toNat - a.slots.length <;> simp

theorem lt_length_of_reserve? (hr : a.reserve? = some (id, b)) {i : UInt32}
    (hi : i.toNat < b.slots.length) : i.toNat < a.slots.length ∨ i = id.index := by
  obtain ⟨free, -, -, rfl⟩ | ⟨-, hlt, rfl, rfl⟩ := reserve?_eq_some.mp hr
  · exact .inl hi
  · have hn : (UInt32.ofNat a.slots.length).toNat = a.slots.length :=
      UInt32.toNat_ofNat_of_lt' hlt
    rw [List.length_append, List.length_singleton] at hi
    rw [← UInt32.toNat_inj, hn]
    exact Nat.lt_succ_iff_lt_or_eq.mp hi

theorem slot_fill (b : Arena α) (hi : id.index.toNat < b.slots.length) (x : α) (j : UInt32) :
    (b.fill id x).slot j =
      if j = id.index then { b.slot id.index with item := some x } else b.slot j := by
  have h := b.slot_setSlot id.index j { b.slot id.index with item := some x }
  simp only [hi, and_true] at h
  exact h

/-- An item is filled in under the generation that its slot was reserved with. -/
theorem Reserves.slot_fill (h : a.Reserves id b) (x : α) (j : UInt32) :
    (b.fill id x).slot j =
      if j = id.index then { generation := id.generation, item := some x } else a.slot j := by
  rw [h.generation]
  exact (b.slot_fill h.within x j).trans (by rw [h.slot])

/-- The slot that is filled is the only one that leads to something else than before. -/
theorem WellFormed.get?_fill (ha : a.WellFormed) (hr : a.reserve? = some (id, b)) (x : α)
    (id' : ItemId) :
    (b.fill id x).get? id' = if id' = id then some x else a.get? id' := by
  have hres := ha.reserves hr
  obtain ⟨index, generation⟩ := id
  obtain ⟨index', generation'⟩ := id'
  rw [get?, get?, slot_fill b hres.within, hres.slot]
  by_cases hi : index' = index
  · subst hi
    simp only [if_true, ← hres.generation, hres.vacant, ItemId.mk.injEq, true_and, ite_self]
    exact if_congr eq_comm rfl rfl
  · simp [hi]

/-- The slot that is filled was reserved before. -/
theorem WellFormed.fill (ha : a.WellFormed) (hr : a.reserve? = some (id, b)) (x : α) :
    (b.fill id x).WellFormed := by
  have hres := ha.reserves hr
  have hlen : (b.fill id x).slots.length = b.slots.length := List.length_set
  have hsize : (b.fill id x).size = (b.fill id x).toList.length := by
    have h := b.length_toList_setSlot hres.within { b.slot id.index with item := some x }
    have hc : (b.slot id.index).count = 0 := by rw [hres.slot, Slot.count, hres.vacant]; rfl
    rw [hc, Nat.add_zero] at h
    change b.size + 1 = _
    rw [size_of_reserve? hr, ha.size, ← toList_of_reserve? hr]
    exact h.symm
  obtain ⟨free, hf, -, rfl⟩ | ⟨hf, hlt, rfl, rfl⟩ := reserve?_eq_some.mp hr
  · have hn := ha.nodup
    rw [hf] at hn
    refine ⟨hlen ▸ ha.bounded, hn.of_cons, fun i => ?_, hsize⟩
    have hv := ha.vacant i
    rw [hlen, slot_fill _ hres.within]
    change i ∈ free ↔ i.toNat < a.slots.length ∧ (if _ then _ else a.slot i).item = none
    rw [hf] at hv
    grind
  · refine ⟨?_, hf ▸ .nil, fun i => ?_, hsize⟩
    · rw [hlen]
      simpa using Nat.succ_le_of_lt hlt
    · have hv := ha.vacant i
      have hi : (UInt32.ofNat a.slots.length).toNat = a.slots.length :=
        UInt32.toNat_ofNat_of_lt' hlt
      have hj : i.toNat = a.slots.length ↔ i = .ofNat a.slots.length := by
        rw [← UInt32.toNat_inj, hi]
      rw [hlen, slot_fill _ hres.within, hres.slot, List.length_append, List.length_singleton]
      change i ∈ a.free ↔ _
      rw [hf] at hv ⊢
      grind

theorem WellFormed.mem_fill (ha : a.WellFormed) (hr : a.reserve? = some (id, b)) {x y : α} :
    y ∈ (b.fill id x).toList ↔ y ∈ a.toList ∨ y = x := by
  have hres := ha.reserves hr
  rw [mem_toList (ha.fill hr x).bounded, mem_toList ha.bounded]
  constructor
  · rintro ⟨j, hj⟩
    rw [hres.slot_fill] at hj
    split at hj
    · exact .inr (Option.some.inj hj).symm
    · exact .inl ⟨j, hj⟩
  · rintro (⟨j, hj⟩ | rfl)
    · refine ⟨j, ?_⟩
      rw [hres.slot_fill, if_neg, hj]
      rintro rfl
      rw [hres.vacant] at hj
      cases hj
    · exact ⟨id.index, by rw [hres.slot_fill, if_pos rfl]⟩

/-- What it means that an item was removed. -/
structure Removes (a : Arena α) (id : ItemId) (x : α) (b : Arena α) : Prop where
  item : (a.slot id.index).item = some x
  generation : (a.slot id.index).generation = id.generation
  slot : ∀ j, b.slot j = if j = id.index then { generation := id.generation + 1 } else a.slot j

theorem removes_of_remove? (hr : a.remove? id = some (x, b)) : a.Removes id x b := by
  unfold remove? at hr
  simp only [Option.bind_eq_bind, Option.bind_eq_some_iff, Option.some.injEq, Prod.mk.injEq] at hr
  obtain ⟨y, hy, rfl, rfl⟩ := hr
  obtain ⟨hi, hg⟩ := get?_eq_some.mp hy
  refine ⟨hi, hg, fun j => ?_⟩
  have h := a.slot_setSlot id.index j { generation := id.generation + 1 }
  simp only [lt_length_of_item hi, and_true] at h
  exact h

theorem remove?_eq_none : a.remove? id = none ↔ a.get? id = none := by
  unfold remove?
  cases a.get? id <;> simp

/-- An item that is removed takes no other one's id with it. -/
theorem Removes.get? (h : a.Removes id x b) (id' : ItemId) :
    b.get? id' = if id' = id then none else a.get? id' := by
  obtain ⟨index, generation⟩ := id
  obtain ⟨index', generation'⟩ := id'
  rw [Arena.get?, Arena.get?, h.slot]
  by_cases hi : index' = index
  · subst hi
    rw [if_pos rfl, ite_self, h.generation]
    split
    · rfl
    · next hne => rw [if_neg fun hg => hne (congrArg (ItemId.mk index') hg.symm)]
  · simp [hi]

theorem WellFormed.remove (ha : a.WellFormed) (hr : a.remove? id = some (x, b)) :
    b.WellFormed := by
  have hrem := removes_of_remove? hr
  have hi := lt_length_of_item hrem.item
  unfold remove? at hr
  simp only [Option.bind_eq_bind, Option.bind_eq_some_iff, Option.some.injEq, Prod.mk.injEq] at hr
  obtain ⟨y, -, -, rfl⟩ := hr
  have hv := ha.vacant
  have hlen : (a.setSlot id.index { generation := id.generation + 1 }).slots.length =
    a.slots.length := List.length_set
  refine ⟨?_, ?_, fun j => ?_, ?_⟩
  · exact hlen ▸ ha.bounded
  · refine List.nodup_cons.mpr ⟨fun h => ?_, ha.nodup⟩
    have := ((hv _).mp h).2
    rw [hrem.item] at this
    cases this
  · rw [hrem.slot]
    change j ∈ id.index :: a.free ↔ j.toNat < (a.setSlot _ _).slots.length ∧ _
    rw [hlen, List.mem_cons, hv]
    grind
  · have h := a.length_toList_setSlot hi { generation := id.generation + 1 }
    have hs := ha.size
    simp only [Slot.count, hrem.item, Option.toList_some, List.length_singleton, Option.toList_none,
      List.length_nil] at h
    change a.size - 1 = (a.setSlot _ _).toList.length
    omega

theorem occupied_eq_zipIdx (n : Nat) (l : List (Slot α)) :
    occupied n l = ((l.zipIdx n).filter (·.1.item.isSome)).map fun p => .ofNat p.2 := by
  induction l generalizing n with
  | nil => rfl
  | cons s l ih =>
    simp only [occupied, ih, List.zipIdx_cons, List.filter_cons]
    split <;> rfl

theorem mem_occupied (h : a.slots.length ≤ capacity) {i : UInt32} :
    i ∈ occupied 0 a.slots ↔ ∃ x, (a.slot i).item = some x := by
  simp only [occupied_eq_zipIdx, List.mem_map, List.mem_filter, Prod.exists,
    List.mk_mem_zipIdx_iff_getElem?, Option.isSome_iff_exists]
  constructor
  · rintro ⟨s, n, ⟨hs, hx⟩, rfl⟩
    obtain ⟨hn, rfl⟩ := List.getElem?_eq_some_iff.mp hs
    exact (slot_ofNat h hn).2 ▸ hx
  · rintro ⟨x, hx⟩
    have hi := lt_length_of_item hx
    refine ⟨a.slot i, i.toNat, ⟨?_, x, hx⟩, UInt32.ofNat_toNat⟩
    rw [slot_eq_getElem hi, List.getElem?_eq_getElem hi]

theorem pairwise_occupied (h : a.slots.length ≤ capacity) :
    (occupied 0 a.slots).Pairwise (· < ·) := by
  rw [occupied_eq_zipIdx, List.pairwise_map]
  refine List.Pairwise.filter _ (List.pairwise_iff_getElem.mpr fun m n hm hn hmn => ?_)
  rw [List.length_zipIdx] at hm hn
  simp only [List.getElem_zipIdx, Nat.zero_add]
  rwa [UInt32.lt_iff_toNat_lt, (slot_ofNat h hm).1, (slot_ofNat h hn).1]

/-- The occupied slots, taken one by one, give the items in the order in which they are listed. -/
theorem map_item_occupied (h : a.slots.length ≤ capacity) :
    (occupied 0 a.slots).map (fun i => (a.slot i).item) = a.toList.map some := by
  have hslot : ∀ p ∈ a.slots.zipIdx, (a.slot (.ofNat p.2)).item = p.1.item := by
    rintro ⟨s, n⟩ hp
    obtain ⟨hn, rfl⟩ := List.getElem?_eq_some_iff.mp (List.mk_mem_zipIdx_iff_getElem?.mp hp)
    rw [(slot_ofNat h hn).2]
  calc (occupied 0 a.slots).map (fun i => (a.slot i).item)
      = (a.slots.zipIdx.filter (·.1.item.isSome)).map fun p => (a.slot (.ofNat p.2)).item := by
        rw [occupied_eq_zipIdx, List.map_map]
        rfl
    _ = (a.slots.zipIdx.filter (·.1.item.isSome)).map fun p => p.1.item :=
        List.map_congr_left fun p hp => hslot p (List.mem_filter.mp hp).1
    _ = (a.slots.map Slot.item).filter Option.isSome := by
        conv_rhs => rw [← List.zipIdx_map_fst 0 a.slots, List.map_map, List.filter_map]
        rfl
    _ = a.toList.map some := List.map_filterMap_some_eq_filter_map_isSome.symm

theorem slot_drain (a : Arena α) (i : UInt32) : a.drain.2.slot i = (a.slot i).vacate :=
  List.getD_map a.slots {} Slot.vacate

theorem get?_drain (a : Arena α) (id : ItemId) : a.drain.2.get? id = none := by
  rw [get?, slot_drain, Slot.item_vacate, ite_self]

/-- Every slot is vacant then: those that were occupied are added to the vacant ones. -/
theorem WellFormed.drain (ha : a.WellFormed) : a.drain.2.WellFormed := by
  have hlen : a.drain.2.slots.length = a.slots.length := List.length_map ..
  refine ⟨hlen ▸ ha.bounded, ?_, fun i => ?_, ?_⟩
  · have hocc := (pairwise_occupied ha.bounded).imp fun h => (UInt32.ne_of_lt h).symm
    refine List.nodup_append.mpr ⟨List.pairwise_reverse.mpr hocc, ha.nodup, ?_⟩
    rintro i hi _ hj rfl
    obtain ⟨x, hx⟩ := (mem_occupied ha.bounded).mp (List.mem_reverse.mp hi)
    rw [((ha.vacant i).mp hj).2] at hx
    cases hx
  · rw [hlen, slot_drain]
    change i ∈ (occupied 0 a.slots).reverse ++ a.free ↔ _
    rw [List.mem_append, List.mem_reverse, mem_occupied ha.bounded, ha.vacant]
    cases hi : (a.slot i).item with
    | none => simp
    | some x => simpa using lt_length_of_item hi
  · rw [toList_drain]
    rfl

end Arena

end GuardedStore
