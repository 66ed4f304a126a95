import GuardedStore.Proofs.Custody.Record
import GuardedStore.Proofs.Estate.Steps
import GuardedStore.Proofs.Run.Making
import GuardedStore.Proofs.Run.Plain
import GuardedStore.Proofs.Run.Signalling

/-!
The law of custody of one store.

Who is held is what the history says, and a store that is gone is within reach only while it is held.
What is gone was dropped, and neither a store that goes by a name nor one that is in use is. A
computation leaves those held who were held before, and a store that is in use as it was in use,
unless it gets stuck.

In the end it leaves nobody else held, but in the course of a delivery more are; so the law has a
parameter, which says whether the end is meant.
-/
namespace GuardedStore

namespace World

variable {s : Nat} {u v w w' : World}

structure Safekeeping (s : Nat) (w : World) : Prop where
  held : w.held = heldBy w.history
  custodial : Custodial s w.history
  gone : Gone s w.history → (w.store s).dropped
  unused : (w.store s).dropped → (w.store s).inUse = false
  named : w.Named s → (w.store s).dropped = false ∧ (w.store s).replaced = false
  single : ∀ {n n'}, w.names.stores.find? n = some s → w.names.stores.find? n' = some s → n = n'
  unborn : w.stores.next ≤ s → (w.store s).inUse = false ∧ ¬ Gone s w.history

/-- A store that is in use is in use as it was. -/
def Uses (s : Nat) (w w' : World) : Prop :=
  (w.store s).inUse → (w'.store s).sharers = (w.store s).sharers ∧
    (w'.store s).owned = (w.store s).owned

theorem Uses.refl (s : Nat) (w : World) : w.Uses s w :=
  fun _ => ⟨rfl, rfl⟩

theorem Uses.inUse (h : w.Uses s w') (hu : (w.store s).inUse) : (w'.store s).inUse := by
  obtain ⟨hs, ho⟩ := h hu
  rwa [Store.inUse, hs, ho]

theorem Uses.trans (h : u.Uses s v) (h' : v.Uses s w) : u.Uses s w := fun hu =>
  have hv := h' (h.inUse hu)
  ⟨hv.1.trans (h hu).1, hv.2.trans (h hu).2⟩

/-- The store is held by a delivery, or a call is using it. -/
def Safe (s : Nat) (w : World) : Prop :=
  .store s ∈ w.held ∨ (w.store s).inUse

/-- Whoever is safe is held if it is gone. -/
theorem Safe.held (h : w.Safe s) (hc : w.Safekeeping s) (hg : Gone s w.history) :
    .store s ∈ heldBy w.history := by
  rcases h with h | h
  · exact hc.held ▸ h
  · rw [hc.unused (hc.gone hg)] at h
    cases h

/-- Neither who is held nor the store's place among the things that are used and named has changed,
and nothing happened that concerns it. -/
structure Spares (s : Nat) (w w' : World) : Prop where
  grows : w.Grows w'
  held : w'.held = w.held
  storeNames : w'.names.stores = w.names.stores
  steady : w.Steady s w'
  notes : ∃ notes, (∀ y ∈ notes, y.custodial s = false) ∧ w'.history = notes ++ w.history

end World

/-- The law of custody of the store at an address. -/
def custody (s : Nat) (strict : Prop) : Law where
  inv w := w.Sound ∧ w.Safekeeping s
  rel w e w' := w.Grows w' ∧ w.held <+: w'.held ∧
    (e ≠ .stuck → w.Uses s w' ∧ (strict → w'.held = w.held))
  refl _ := ⟨.refl _, List.prefix_refl _, fun _ => ⟨.refl s _, fun _ => rfl⟩⟩
  trans := by
    rintro u v w d e - - ⟨hg, hh, h⟩ hd ⟨hg', hh', h'⟩
    refine ⟨hg.trans hg', hh.trans hh', fun he => ?_⟩
    obtain ⟨hu, he'⟩ := h hd
    obtain ⟨hu', he''⟩ := h' (Ending.ne_stuck_of_andThen he).2
    exact ⟨hu.trans hu', fun hs => (he'' hs).trans (he' hs)⟩

open World

variable {s t : Nat} {strict : Prop} {w w' : World} {e : Ending}

theorem custody_stuck (_ : (custody s strict).inv w) : (custody s strict).rel w .stuck w :=
  ⟨.refl w, List.prefix_refl _, fun h => absurd rfl h⟩

theorem custody_weaken (h : (custody s strict).Holds w e w') : (custody s False).Holds w e w' :=
  ⟨h.1, h.2.1, h.2.2.1, fun he => ⟨(h.2.2.2 he).1, False.elim⟩⟩

theorem Engine.Keeps.custody_weaken {α : Type} {m : Engine α} (h : m.Keeps (custody s strict)) :
    m.Keeps (custody s False) :=
  fun w hw => GuardedStore.custody_weaken (h w hw)

theorem World.Safe.mono (h : w.Safe s) (hh : (custody s strict).Holds w .done w') : w'.Safe s := by
  obtain ⟨-, -, hp, hu⟩ := hh
  exact h.imp (fun h => hp.subset h) (hu (by decide)).1.inUse

namespace World

theorem Spares.custody (h : w.Spares s w') (hc : w.Safekeeping s) : w'.Safekeeping s := by
  obtain ⟨notes, hn, hh⟩ := h.notes
  obtain ⟨notes', hd, hh'⟩ := h.steady.notes
  obtain rfl : notes' = notes := List.append_cancel_right (hh'.symm.trans hh)
  have hgone : Gone s w'.history ↔ Gone s w.history := hh ▸ gone_append hd
  have huse : (w'.store s).inUse = (w.store s).inUse := by
    rw [Store.inUse, h.steady.sharers, h.steady.owned, Store.inUse]
  refine ⟨?_, ?_, fun hg => ?_, fun hx => ?_, fun hx => ?_, fun {n n'} hx hx' => ?_, fun hx => ?_⟩
  · rw [h.held, hh, heldBy_append hn, hc.held]
  · exact hh ▸ hc.custodial.append hn
  · exact h.steady.dropped.trans (hc.gone (hgone.mp hg))
  · exact huse.trans (hc.unused (h.steady.dropped ▸ hx))
  · rw [Named, h.storeNames] at hx
    rw [h.steady.dropped, h.steady.replaced]
    exact hc.named hx
  · rw [h.storeNames] at hx hx'
    exact hc.single hx hx'
  · rw [huse, hgone]
    exact hc.unborn (Nat.le_trans h.grows.stores hx)

theorem Spares.holds (h : w.Spares s w') (hw' : w'.Sound) (hw : (GuardedStore.custody s strict).inv w) :
    (GuardedStore.custody s strict).Holds w .done w' :=
  ⟨⟨hw', h.custody hw.2⟩, h.grows, h.held ▸ List.prefix_refl _, fun _ =>
    ⟨fun _ => ⟨h.steady.sharers, h.steady.owned⟩, fun _ => h.held⟩⟩

/-- No store has changed, nor what any is called. -/
theorem spares_of_stores (hg : w.Grows w') (hst : w'.stores = w.stores) (hheld : w'.held = w.held)
    (hnames : w'.names.stores = w.names.stores)
    (hh : ∃ notes : List Happening, (∀ y ∈ notes, y.custodial s = false ∧ y.drops s = false) ∧
      w'.history = notes ++ w.history) : w.Spares s w' := by
  obtain ⟨notes, hn, hh⟩ := hh
  exact ⟨hg, hheld, hnames, steady_of_stores hst ⟨notes, fun y hy => (hn y hy).2, hh⟩, notes,
    fun y hy => (hn y hy).1, hh⟩

theorem custodial_of_ofStore {y : Happening} (hy : y.ofStore t) : y.custodial s = false := by
  cases y <;> first | rfl | cases hy

theorem drops_of_ofStore {y : Happening} (hy : y.ofStore t) (ht : t ≠ s) : y.drops s = false := by
  cases y with
  | notice n =>
    cases n with
    | storeDropped id name released =>
      have hid : id = .drawn t := by simpa [Happening.ofStore, Notice.ofStore] using hy
      simp [Happening.drops, hid, ht]
    | _ => rfl
  | _ => rfl

theorem unconcerned_of_ofGuards {y : Happening} (hy : y.ofGuards) :
    y.custodial s = false ∧ y.drops s = false := by
  cases y with
  | notice n => cases n <;> first | exact ⟨rfl, rfl⟩ | cases hy
  | _ => first | exact ⟨rfl, rfl⟩ | cases hy

theorem unconcerned_of_inTrace {y : Happening} (hy : y.inTrace) :
    y.custodial s = false ∧ y.drops s = false := by
  cases y <;> first | exact ⟨rfl, rfl⟩ | cases hy

theorem unconcerned_of_ofSignals {y : Happening} (hy : y.ofSignals (· ≠ s)) :
    y.custodial s = false ∧ y.drops s = false := by
  cases y with
  | ran t hook n => exact ⟨decide_eq_false hy, rfl⟩
  | notice n => cases n <;> first | exact ⟨rfl, rfl⟩ | cases hy
  | _ => first | exact ⟨rfl, rfl⟩ | cases hy

/-- What a store does about what is its own concerns another store not at all, and the store itself
not in this respect if it stays in use and present as it was. -/
theorem Keeping.spares (h : w.Keeping t w') (ht : t = s → w.Steady s w') : w.Spares s w' := by
  have hnames : w'.names.stores = w.names.stores := by rw [h.names]
  obtain ⟨notes, hn, hh⟩ := h.notes
  have hn' : ∀ y ∈ notes, y.custodial s = false := fun y hy => custodial_of_ofStore (hn y hy)
  by_cases hts : t = s
  · exact ⟨h.grows, h.held, hnames, ht hts, notes, hn', hh⟩
  · have hst := h.elsewhere s (Ne.symm hts)
    exact ⟨h.grows, h.held, hnames, ⟨by rw [hst], by rw [hst], by rw [hst], by rw [hst], notes,
      fun y hy => drops_of_ofStore (hn y hy) hts, hh⟩, notes, hn', hh⟩

theorem Guarding.spares (h : w.Guarding w') : w.Spares s w' := by
  obtain ⟨marks, hm, hh⟩ := h.history
  exact spares_of_stores h.grows h.stores h.held h.storeNames
    ⟨marks, fun y hy => unconcerned_of_ofGuards (hm y hy), hh⟩

theorem Idle.spares (h : w.Idle w') : w.Spares s w' := by
  obtain ⟨notes, hn, hh⟩ := h.history
  exact spares_of_stores h.grows h.stores h.held h.storeNames
    ⟨notes, fun y hy => unconcerned_of_inTrace (hn y hy), hh⟩

theorem Signalling.spares (h : w.Signalling (· ≠ s) w') : w.Spares s w' := by
  have hst := h.elsewhere s (fun h => h rfl)
  obtain ⟨notes, hn, hh⟩ := h.notes
  have hn' (y : Happening) (hy : y ∈ notes) := unconcerned_of_ofSignals (hn y hy)
  exact ⟨h.grows, h.held, by rw [h.names], ⟨by rw [hst], by rw [hst], by rw [hst], by rw [hst],
    notes, fun y hy => (hn' y hy).2, hh⟩, notes, fun y hy => (hn' y hy).1, hh⟩

theorem spares_mark {y : Happening} (hc : y.custodial s = false) (hd : y.drops s = false) :
    w.Spares s (w.mark y) :=
  spares_of_stores (grows_mark y w) rfl rfl rfl ⟨[y], by simpa using ⟨hc, hd⟩, rfl⟩

/-- A change of what stores count for themselves, at most. -/
theorem spares_modifyStore {f : Store → Store} (hf : ∀ x, SameHouse x (f x)) :
    w.Spares s (w.modifyStore t f) := by
  have hq := w.quiet_modifyStore_of_same t fun x => ⟨(hf x).id, (hf x).arena, (hf x).affinity⟩
  have hst : SameHouse (w.store s) ((w.modifyStore t f).store s) := by
    rw [store_modifyStore]
    split
    · next h => exact h ▸ hf _
    · exact .refl _
  exact ⟨hq.grows, rfl, rfl, ⟨hst.dropped, hst.sharers, hst.owned, hst.replaced, [], by simp, rfl⟩,
    [], by simp, rfl⟩

end World

theorem custody_plain (s : Nat) (strict : Prop) : (custody s strict).Plain where
  sound hw := hw.1
  grows h := h.1
  guarding h hw := h.spares.holds (h.sound hw.1) hw
  stuck := custody_stuck

theorem custody_signalling (s : Nat) (strict : Prop) : (custody s strict).Signalling (· ≠ s) where
  signalling h hw := h.spares.holds (h.sound hw.1) hw
  stuck := custody_stuck

/-- A new store has no past. -/
theorem custody_withStore {config : StoreConfig} {affinity : Option Nat}
    (hd : w.Offers affinity) (hw : (custody s strict).inv w) :
    (custody s strict).Holds w .done
      (w.withStore { id := .drawn w.stores.next, config, affinity }) := by
  have hs := sound_withStore (s := { id := .drawn w.stores.next, config, affinity })
    rfl rfl hd hw.1
  have hg := grows_withStore (w := w) { id := .drawn w.stores.next, config, affinity }
  by_cases hn : s = w.stores.next
  · have hst : (w.withStore { id := .drawn w.stores.next, config, affinity }).store s =
        { id := .drawn w.stores.next, config, affinity } := by
      rw [store_withStore, if_pos hn]
    obtain ⟨hu, hgone⟩ := hw.2.unborn (Nat.le_of_eq hn.symm)
    refine ⟨⟨hs, hw.2.held, hw.2.custodial, fun h => absurd h hgone, fun h => ?_, fun _ => ?_,
      hw.2.single, fun h => ?_⟩, hg, List.prefix_refl _, fun _ => ⟨fun h => ?_, fun _ => rfl⟩⟩
    · rw [hst] at h
      cases h
    · rw [hst]
      exact ⟨rfl, rfl⟩
    · exact absurd (hn ▸ h) (Nat.not_succ_le_self _)
    · rw [hu] at h
      cases h
  · have hst : (w.withStore { id := .drawn w.stores.next, config, affinity }).store s =
        w.store s := by rw [store_withStore, if_neg hn]
    exact Spares.holds ⟨hg, rfl, rfl, ⟨by rw [hst], by rw [hst], by rw [hst], by rw [hst], [],
      by simp, rfl⟩, [], by simp, rfl⟩ hs hw

theorem custody_withItem {x : Item} (hs : t < w.stores.next) (hx : x.descriptor.store = .drawn t)
    (hc : w.Has x.chain) (hd : w.Offers x.affinity) (hw : (custody s strict).inv w) :
    (custody s strict).Holds w .done (w.withItem x) :=
  (spares_of_stores (grows_withItem x) rfl rfl rfl
    ⟨[_], by simp [Happening.custodial, Happening.drops], rfl⟩).holds
    (sound_withItem ⟨t, hs, hx⟩ hc hd hw.1) hw

/-- Whatever stores do short of a change of how they are in use. -/
theorem custody_housing (s : Nat) (strict : Prop) : (custody s strict).Housing fun _ => True where
  sound hw := hw.1
  grows h := h.1
  minding _ h hst hw := (h.toKeeping.spares fun ht => ht ▸ hst).holds (h.sound hw.1) hw
  heeding _ h hst hw := (h.spares fun ht => ht ▸ hst).holds (h.sound hw.1) hw
  stuck := custody_stuck
  newStore _ _ _ hd := Engine.keepsAt_of_eq rfl (custody_withStore hd)
  newItem _ hs hx hc hd _ _ := Engine.keepsAt_of_eq rfl (custody_withItem hs hx hc hd)

theorem custody_keeping (s : Nat) (strict : Prop) : (custody s strict).Keeping (· ≠ s) where
  sound hw := hw.1
  grows h := h.1
  tending ht h hw := (h.toKeeping.spares fun he => absurd he ht).holds (h.sound hw.1) hw
  keeping ht h hw := (h.spares fun he => absurd he ht).holds (h.sound hw.1) hw
  stuck := custody_stuck

theorem custody_panic (text : String) : (Engine.panic text).Keeps (custody s strict) := by
  intro w hw
  unfold Engine.panic
  split
  · exact ⟨hw, (custody s strict).refl hw⟩
  · have h : (custody s strict).Holds w .done (w.raise text) :=
      (spares_of_stores (grows_raise text) rfl rfl rfl
        ⟨[_], by simp [Happening.custodial, Happening.drops], rfl⟩).holds
        (sound_raise text hw.1) hw
    exact ⟨h.1, h.2.1, h.2.2.1, fun _ => h.2.2.2 (by decide)⟩

theorem custody_basics (s : Nat) (strict : Prop) : Engine.Basics (custody s strict) where
  sound hw := hw.1
  grows h := h.1
  stuck := custody_stuck
  idle h hw := h.spares.holds (h.sound hw.1) hw
  panic := custody_panic
  newAspect _ _ := Engine.keepsAt_of_eq rfl fun hw =>
    (spares_of_stores (grows_withAspect _) rfl rfl rfl ⟨[], by simp, rfl⟩).holds
      (sound_withAspect _ hw.1) hw

end GuardedStore
