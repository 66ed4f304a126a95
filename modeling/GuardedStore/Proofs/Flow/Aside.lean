import GuardedStore.Proofs.Flow.Law

/-!
What the flow of events is no concern of: guards, items, what stores own, and everything made anew.
-/
namespace GuardedStore

variable {s : Nat}

theorem concerns_of_ofStore {t : Nat} {h : Happening} (hh : h.ofStore t) :
    h.concerns s = false := by
  cases h <;> first | rfl | cases hh

theorem concerns_of_inTrace {h : Happening} (hh : h.inTrace) : h.concerns s = false := by
  cases h <;> first | rfl | cases hh

theorem concerns_of_ofGuards {h : Happening} (hh : h.ofGuards) : h.concerns s = false := by
  cases h <;> first | rfl | cases hh

namespace World

variable {w w' : World}

theorem Keeping.aloof {t : Nat} (h : w.Keeping t w') (hw : w.Sound) : w.Aloof s w' where
  grows := h.grows
  sound := h.sound hw
  signal := by
    by_cases hs : s = t
    · rw [hs, h.signal]
    · rw [h.elsewhere s hs]
  queue := h.queue
  kind _ := h.kind _
  history := by
    obtain ⟨notes, hn, hh⟩ := h.notes
    exact ⟨notes, fun y hy => concerns_of_ofStore (hn y hy), hh⟩

theorem Guarding.aloof (h : w.Guarding w') (hw : w.Sound) : w.Aloof s w' where
  grows := h.grows
  sound := h.sound hw
  signal := by rw [store, store, h.stores]
  queue _ := by rw [domain, domain, h.domains]
  kind _ := by rw [domain, domain, h.domains]
  history := by
    obtain ⟨marks, hm, hh⟩ := h.history
    exact ⟨marks, fun y hy => concerns_of_ofGuards (hm y hy), hh⟩

theorem Idle.aloof (h : w.Idle w') (hw : w.Sound) : w.Aloof s w' where
  grows := h.grows
  sound := h.sound hw
  signal := by rw [store, store, h.stores]
  queue _ := by rw [domain, domain, h.domains]
  kind _ := by rw [domain, domain, h.domains]
  history := by
    obtain ⟨notes, hn, hh⟩ := h.history
    exact ⟨notes, fun y hy => concerns_of_inTrace (hn y hy), hh⟩

/-- Neither stores nor domains have changed. -/
theorem aloof_of_same (hg : w.Grows w') (hs : w'.Sound) (hst : w'.stores = w.stores)
    (hd : w'.domains = w.domains)
    (hh : ∃ newer, (∀ y ∈ newer, y.concerns s = false) ∧ w'.history = newer ++ w.history) :
    w.Aloof s w' where
  grows := hg
  sound := hs
  signal := by rw [store, store, hst]
  queue _ := by rw [domain, domain, hd]
  kind _ := by rw [domain, domain, hd]
  history := hh

theorem queue_fresh {label : String} {mode : DomainMode} (hm : mode.Fresh) :
    ({ label, mode } : Domain).queue = [] := by
  cases hm <;> rfl

theorem aloof_withDomain {label : String} {mode : DomainMode} (hm : mode.Fresh)
    (hw : w.Counted s) : w.Aloof s (w.withDomain { label, mode }) where
  grows := grows_withDomain _
  sound := sound_withDomain hm hw.sound
  signal := rfl
  queue d := by
    rw [domain_withDomain]
    split
    · next hd => rw [queue_fresh hm, (hw.unmade (Nat.le_of_eq hd.symm)).2.1]
    · rfl
  kind {d} hd := by rw [domain_withDomain, if_neg (Nat.ne_of_gt hd)]
  history := ⟨[], by simp, rfl⟩

theorem aloof_withStore {x : Store} (hid : x.id = .drawn w.stores.next)
    (ha : x.arena.toList = []) (hd : w.Offers x.affinity) (hx : x.signal = {})
    (hw : w.Counted s) : w.Aloof s (w.withStore x) where
  grows := grows_withStore x
  sound := sound_withStore hid ha hd hw.sound
  signal := by
    rw [store_withStore]
    split
    · next hs => rw [hx, hw.unbuilt (Nat.le_of_eq hs.symm)]
    · rfl
  queue _ := rfl
  kind _ := rfl
  history := ⟨[], by simp, rfl⟩

end World

theorem flow_storekeeping (s : Nat) : (flow s).Storekeeping fun _ => True where
  sound hw := hw.sound
  grows h := h.1.grows
  tending _ h hw := (h.toKeeping.aloof hw.sound).holds hw
  keeping _ h hw := (h.aloof hw.sound).holds hw
  stuck _ := ⟨{
    grows := .refl _
    raised := fun h => by cases h
    done := fun h => by cases h
    running := fun h => absurd rfl h }, fun h => by cases h⟩
  newStore _ hid ha hd hx := Engine.keepsAt_of_eq rfl fun hw =>
    (World.aloof_withStore hid ha hd hx hw).holds hw
  newItem {w i r} _ hr hid hc hd _ _ := Engine.keepsAt_of_eq rfl fun hw =>
    (World.aloof_of_same (World.grows_withItem _)
      (World.sound_withItem ⟨r, hr, hid⟩ hc hd hw.sound) rfl rfl
      ⟨[_], by simp [Happening.concerns], rfl⟩).holds hw

theorem flow_renames (s : Nat) : (flow s).Renames := fun _ hn _ hw =>
  (World.aloof_of_same World.grows_rename (World.sound_rename hn hw.sound) rfl rfl
    ⟨[], by simp, rfl⟩).holds hw

theorem flow_plain (s : Nat) : (flow s).Plain where
  sound hw := hw.sound
  grows h := h.1.grows
  guarding h hw := (h.aloof hw.sound).holds hw
  stuck := (flow_storekeeping s).stuck

theorem panic_keeps_flow (s : Nat) (text : String) : (Engine.panic text).Keeps (flow s) := by
  intro w hw
  unfold Engine.panic
  split
  · exact ⟨hw, (flow s).refl hw⟩
  · have h : w.Aloof s (w.raise text) := World.aloof_of_same (World.grows_raise text)
      (World.sound_raise text hw.sound) rfl rfl ⟨[.raised text], by simp [Happening.concerns], rfl⟩
    exact ⟨h.counted hw, {
      grows := h.grows
      raised := fun _ => ⟨[.raised text], text, rfl, by simp⟩
      done := fun he => by cases he
      running := fun _ => h.flows.running (by decide) }, fun he => by cases he⟩

theorem flow_basics (s : Nat) : Engine.Basics (flow s) where
  sound hw := World.Counted.sound hw
  grows h := h.1.grows
  stuck := (flow_storekeeping s).stuck
  idle h hw := (h.aloof (World.Counted.sound hw)).holds hw
  panic := panic_keeps_flow s
  newAspect _ _ := Engine.keepsAt_of_eq rfl fun hw =>
    (World.aloof_of_same (World.grows_withAspect _) (World.sound_withAspect _ (World.Counted.sound hw))
      rfl rfl ⟨[], by simp, rfl⟩).holds hw

end GuardedStore
