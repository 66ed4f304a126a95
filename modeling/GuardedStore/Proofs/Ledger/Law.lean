import GuardedStore.Proofs.Run.Making
import GuardedStore.Proofs.Run.Plain

/-!
The law of the ledger.

An item's cell, its count and the triggers it asks for stay in step: the history names every value
that was stored in the cell and every trigger that was requested for it, and both lists are as long
as the count says. Storing a value changes the three together; whatever else is done leaves all of
them alone. A read hands out what was in the cell when its last pass began.
-/
namespace GuardedStore

/-- The item whose cell or trigger a happening is about. -/
def Happening.item? : Happening → Option Nat
  | .made i _ | .stored i _ | .requested (.item i) _ _ | .concluded i _ (.returned _) => some i
  | _ => none

namespace Happening

def storedIn? (item : Nat) : Happening → Option Access
  | .stored i a => if i = item then some a else none
  | _ => none

def requestedBy? (item : Nat) : Happening → Option Event
  | .requested (.item i) _ e => if i = item then some e else none
  | _ => none

theorem storedIn?_eq_none {item : Nat} {y : Happening} (h : y.item? ≠ some item) :
    y.storedIn? item = none := by
  cases y with
  | stored i a => exact if_neg fun hi => h (congrArg some hi)
  | _ => rfl

theorem requestedBy?_eq_none {item : Nat} {y : Happening} (h : y.item? ≠ some item) :
    y.requestedBy? item = none := by
  cases y with
  | requested issuer d e =>
    cases issuer with
    | item i => exact if_neg fun hi => h (congrArg some hi)
    | _ => rfl
  | _ => rfl

end Happening

/-- The accesses whose values were stored in an item's cell, first one first. -/
def storedIn (item : Nat) (history : List Happening) : List Access :=
  history.reverse.filterMap (Happening.storedIn? item)

/-- The events that an item requested triggers for, first one first. -/
def requestedBy (item : Nat) (history : List Happening) : List Event :=
  history.reverse.filterMap (Happening.requestedBy? item)

theorem storedIn_append (item : Nat) (newer h : List Happening) :
    storedIn item (newer ++ h) = storedIn item h ++ storedIn item newer := by
  simp [storedIn]

theorem requestedBy_append (item : Nat) (newer h : List Happening) :
    requestedBy item (newer ++ h) = requestedBy item h ++ requestedBy item newer := by
  simp [requestedBy]

theorem storedIn_cons (item : Nat) (y : Happening) (h : List Happening) :
    storedIn item (y :: h) = storedIn item h ++ (y.storedIn? item).toList := by
  rw [storedIn, List.reverse_cons, List.filterMap_append]
  cases hy : y.storedIn? item <;> simp [storedIn, hy]

theorem requestedBy_cons (item : Nat) (y : Happening) (h : List Happening) :
    requestedBy item (y :: h) = requestedBy item h ++ (y.requestedBy? item).toList := by
  rw [requestedBy, List.reverse_cons, List.filterMap_append]
  cases hy : y.requestedBy? item <;> simp [requestedBy, hy]

theorem storedIn_of_other {item : Nat} {newer : List Happening}
    (hn : ∀ y ∈ newer, y.item? ≠ some item) (h : List Happening) :
    storedIn item (newer ++ h) = storedIn item h := by
  have h' : storedIn item newer = [] :=
    List.filterMap_eq_nil_iff.mpr fun y hy =>
      Happening.storedIn?_eq_none (hn y (List.mem_reverse.mp hy))
  rw [storedIn_append, h', List.append_nil]

theorem requestedBy_of_other {item : Nat} {newer : List Happening}
    (hn : ∀ y ∈ newer, y.item? ≠ some item) (h : List Happening) :
    requestedBy item (newer ++ h) = requestedBy item h := by
  have h' : requestedBy item newer = [] :=
    List.filterMap_eq_nil_iff.mpr fun y hy =>
      Happening.requestedBy?_eq_none (hn y (List.mem_reverse.mp hy))
  rw [requestedBy_append, h', List.append_nil]

/-- What was stored in an item's cell before was stored first. -/
theorem storedIn_earlier {h h' : List Happening} (hs : h <:+ h') (item : Nat) :
    storedIn item h <+: storedIn item h' := by
  obtain ⟨newer, rfl⟩ := hs
  exact ⟨_, (storedIn_append item newer h).symm⟩

/-- After this history the item's cell holds the value: the last one stored, or the one that the
item was made with. -/
def InCell (item : Nat) (history : List Happening) (v : Value) : Prop :=
  ∃ i, .made item i ∈ history ∧
    v = ((storedIn item history).getLast?.map (·.value)).getD i.value

/-- A read that hands out a value after `n` passes has found it in the cell when the last of them
began, and asked every aspect of the chain then. Nothing was stored meanwhile, unless the read might
not begin again. -/
structure Snapshot (item : Nat) (chain : List Nat) (a : Access) (n : Nat)
    (asked earlier : List Happening) : Prop where
  found : InCell item earlier a.value
  admitted : (chain.map (.admitted · .read a true)).reverse.Sublist asked
  passes : n ≤ Engine.readAttempts
  current : n < Engine.readAttempts → storedIn item asked = []

/-- What comes up in the older part of a history. -/
theorem older_of_append {newer old later earlier : List Happening} {y : Happening}
    (h : newer ++ old = later ++ y :: earlier) (hy : y ∉ newer) :
    ∃ k, later = newer ++ k ∧ old = k ++ y :: earlier := by
  rcases List.append_eq_append_iff.mp h with ⟨k, rfl, rfl⟩ | ⟨k, rfl, hk⟩
  · exact ⟨k, rfl, rfl⟩
  · cases k with
    | nil => exact ⟨[], by simp, hk.symm⟩
    | cons z k =>
      obtain ⟨rfl, -⟩ := List.cons_eq_cons.mp hk
      exact absurd (by simp) hy

namespace World

/-- The cell of an item, its count and its triggers are in step. -/
structure Tallies (w : World) (item : Nat) : Prop where
  requests : requestedBy item w.history =
    (List.range' 1 (w.item item).writes).map fun n => ⟨(w.item item).source, n⟩
  stored : (storedIn item w.history).length = (w.item item).writes
  made : ∃ i, .made item i ∈ w.history
  cell : ∀ i, .made item i ∈ w.history →
    (w.item item).value = ((storedIn item w.history).getLast?.map (·.value)).getD i.value

/-- Every stored value was followed at once by the trigger for it. -/
def Issued (w : World) : Prop :=
  ∀ newer item a older, w.history = newer ++ .stored item a :: older →
    ∃ later domain, newer = later ++
      [.requested (.item item) domain ⟨(w.item item).source, (storedIn item older).length + 1⟩,
        .notice (.writeStored (w.item item).descriptor ((storedIn item older).length + 1))]

/-- Every read that handed out a value had a snapshot of the cell. -/
def Handed (w : World) : Prop :=
  ∀ newer i a n older, w.history = newer ++ .concluded i a (.returned n) :: older →
    ∃ later asked earlier, older = later ++ (asked ++ .began (w.item i).chain .read a :: earlier) ∧
      Snapshot i (w.item i).chain a n asked earlier

structure InStep (w : World) : Prop where
  sound : w.Sound
  tallies : ∀ {i}, i < w.items.next → w.Tallies i
  fresh : ∀ {i y}, w.items.next ≤ i → y ∈ w.history → y.item? ≠ some i
  issued : w.Issued
  handed : w.Handed
  /-- A value was stored under a write that went through the chain of its item. -/
  guarded : ∀ {i a}, .stored i a ∈ w.history →
    .began (w.item i).chain .write a ∈ w.history ∧ a.descriptor = (w.item i).descriptor

/-- No cell was written, and no item made. -/
structure Unwritten (w w' : World) : Prop where
  grows : w.Grows w'
  sound : w'.Sound
  items : w'.items.next = w.items.next
  value : ∀ i, (w'.item i).value = (w.item i).value
  writes : ∀ i, (w'.item i).writes = (w.item i).writes
  history : ∃ newer, (∀ y ∈ newer, y.item? = none) ∧ w'.history = newer ++ w.history

theorem InStep.stored_lt {w : World} (hw : w.InStep) {i : Nat} {a : Access}
    (h : .stored i a ∈ w.history) : i < w.items.next :=
  Nat.lt_of_not_le fun hi => hw.fresh hi h rfl

/-- Happenings about no item come after all triggers that are due. -/
theorem InStep.issued_of_grows {w w' : World} (hw : w.InStep) (hg : w.Grows w')
    (newer : List Happening) (hn : ∀ y ∈ newer, ∀ i a, y ≠ .stored i a)
    (hh : w'.history = newer ++ w.history) : w'.Issued := by
  intro newer' i a older h'
  obtain ⟨k, rfl, ho⟩ := older_of_append (hh.symm.trans h') fun hm => hn _ hm i a rfl
  obtain ⟨later, d, rfl⟩ := hw.issued k i a older ho
  have hi := hw.stored_lt (ho ▸ List.mem_append_right _ List.mem_cons_self)
  refine ⟨newer ++ later, d, ?_⟩
  rw [Item.source, Item.source, hg.descriptor hi, List.append_assoc]

theorem InStep.handed_lt {w : World} (hw : w.InStep) {i n : Nat} {a : Access}
    (h : .concluded i a (.returned n) ∈ w.history) : i < w.items.next :=
  Nat.lt_of_not_le fun hi => hw.fresh hi h rfl

/-- Where no read hands out a value, the snapshots stay as they were. -/
theorem InStep.handed_of_grows {w w' : World} (hw : w.InStep) (hg : w.Grows w')
    (newer : List Happening) (hn : ∀ y ∈ newer, ∀ i a n, y ≠ .concluded i a (.returned n))
    (hh : w'.history = newer ++ w.history) : w'.Handed := by
  intro newer' i a n older h'
  obtain ⟨k, rfl, ho⟩ := older_of_append (hh.symm.trans h') fun hm => hn _ hm i a n rfl
  rw [hg.chain (hw.handed_lt (ho ▸ List.mem_append_right _ List.mem_cons_self))]
  exact hw.handed k i a n older ho

/-- The ledger of an item stays as it is while nothing happens to the item. -/
theorem Tallies.of_others {w w' : World} {i : Nat} (h : w.Tallies i) {newer : List Happening}
    (hn : ∀ y ∈ newer, y.item? ≠ some i) (hh : w'.history = newer ++ w.history)
    (hs : (w'.item i).source = (w.item i).source) (hv : (w'.item i).value = (w.item i).value)
    (hc : (w'.item i).writes = (w.item i).writes) : w'.Tallies i := by
  have hrequests := requestedBy_of_other hn w.history
  have hstored := storedIn_of_other hn w.history
  rw [← hh] at hrequests hstored
  constructor
  · rw [hrequests, hc, hs, h.requests]
  · rw [hstored, hc, h.stored]
  · obtain ⟨x, hx⟩ := h.made
    exact ⟨x, hh ▸ List.mem_append_right _ hx⟩
  · intro x hx
    rw [hh] at hx
    rw [hv, hstored]
    exact h.cell x ((List.mem_append.mp hx).resolve_left fun hm => hn _ hm rfl)

theorem Unwritten.inStep {w w' : World} (h : w.Unwritten w') (hw : w.InStep) : w'.InStep := by
  obtain ⟨newer, hn, hh⟩ := h.history
  have hn' (i : Nat) : ∀ y ∈ newer, y.item? ≠ some i := fun y hy => by simp [hn y hy]
  have hstored {i a} : .stored i a ∈ w'.history ↔ .stored i a ∈ w.history := by
    rw [hh, List.mem_append]
    exact ⟨fun hm => hm.resolve_left fun hm => hn' i _ hm rfl, .inr⟩
  exact {
    sound := h.sound
    tallies := fun {i} hi => by
      rw [h.items] at hi
      refine (hw.tallies hi).of_others (hn' i) hh ?_ (h.value i) (h.writes i)
      rw [Item.source, Item.source, h.grows.descriptor hi]
    fresh := fun {i y} hi hy => by
      rw [hh] at hy
      rcases List.mem_append.mp hy with hy | hy
      · exact hn' i y hy
      · exact hw.fresh (h.items ▸ hi) hy
    issued := hw.issued_of_grows h.grows newer (fun y hy i a hya => hn' i y hy (hya ▸ rfl)) hh
    handed := hw.handed_of_grows h.grows newer (fun y hy i a n hya => hn' i y hy (hya ▸ rfl)) hh
    guarded := fun {i a} hm => by
      have hm := hstored.mp hm
      have hi := hw.stored_lt hm
      rw [h.grows.chain hi, h.grows.descriptor hi]
      exact ⟨h.grows.history.subset (hw.guarded hm).1, (hw.guarded hm).2⟩ }

end World

/-- The law of the ledger. -/
def ledger : Law where
  inv := World.InStep
  rel w _ w' := w.Grows w'
  refl _ := .refl _
  trans _ _ h _ h' := h.trans h'

theorem World.Unwritten.holds {w w' : World} (h : w.Unwritten w') (hw : w.InStep) :
    ledger.Holds w .done w' :=
  ⟨h.inStep hw, h.grows⟩

theorem item?_of_aside {h : Happening} (hh : h.aside) : h.item? = none := by
  cases h with
  | requested issuer d e => cases issuer <;> first | rfl | cases hh
  | _ => first | rfl | cases hh

theorem item?_of_inTrace {h : Happening} (hh : h.inTrace) : h.item? = none := by
  cases h <;> first | rfl | cases hh

theorem item?_of_ofGuards {h : Happening} (hh : h.ofGuards) : h.item? = none := by
  cases h with
  | concluded i a u => cases u <;> first | rfl | cases hh
  | _ => first | rfl | cases hh

namespace World

variable {w w' : World}

theorem Quiet.unwritten (h : w.Quiet w') (hw : w.Sound) : w.Unwritten w' where
  grows := h.grows
  sound := h.sound hw
  items := h.items
  value := h.value
  writes := h.writes
  history := by
    obtain ⟨asides, ha, hh⟩ := h.history
    exact ⟨asides, fun y hy => item?_of_aside (ha y hy), hh⟩

theorem Idle.unwritten (h : w.Idle w') (hw : w.Sound) : w.Unwritten w' where
  grows := h.grows
  sound := h.sound hw
  items := by rw [h.items]
  value _ := by rw [item, item, h.items]
  writes _ := by rw [item, item, h.items]
  history := by
    obtain ⟨notes, hn, hh⟩ := h.history
    exact ⟨notes, fun y hy => item?_of_inTrace (hn y hy), hh⟩

theorem Guarding.unwritten (h : w.Guarding w') (hw : w.Sound) : w.Unwritten w' where
  grows := h.grows
  sound := h.sound hw
  items := by rw [h.items]
  value _ := by rw [item, item, h.items]
  writes _ := by rw [item, item, h.items]
  history := by
    obtain ⟨marks, hm, hh⟩ := h.history
    exact ⟨marks, fun y hy => item?_of_ofGuards (hm y hy), hh⟩

/-- Only the history, panics and things other than items have changed. -/
theorem unwritten_of_items (hg : w.Grows w') (hs : w'.Sound) (hi : w'.items = w.items)
    (hh : ∃ newer, (∀ y ∈ newer, y.item? = none) ∧ w'.history = newer ++ w.history) :
    w.Unwritten w' where
  grows := hg
  sound := hs
  items := by rw [hi]
  value _ := by rw [item, item, hi]
  writes _ := by rw [item, item, hi]
  history := hh

end World

end GuardedStore
