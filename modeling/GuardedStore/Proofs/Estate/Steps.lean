import GuardedStore.Proofs.Estate.Creating
import GuardedStore.Proofs.Run.Calm

/-!
Every step keeps stores in order.

A call shares a store, or the store belongs to it, from before what it does until afterwards. Either
way the store was in use in the meantime, so the call finds it as it left it; and only a store that
nobody else uses can be dropped at the end.
-/
namespace GuardedStore

open World

namespace Engine

variable {call : Nat → Engine Unit} {s : Nat} {w : World}

theorem create_holding (hc : ∀ r, (call r).Keeps estates) (name : String) (value : Value)
    {factory : Descriptor → Engine (List Nat)} (hf : w.Supplies estates factory)
    (ho : w.Lent s) :
    (create call s name value factory).KeepsAt (holding s) w := by
  intro hw
  rw [create_apply]
  split
  · exact ⟨hw, (holding s).refl hw⟩
  · next hn =>
    cases hr : (w.store s).arena.reserve? with
    | none => exact ⟨hw, (holding s).refl hw⟩
    | some r =>
      obtain ⟨id, arena⟩ := r
      dsimp only
      rw [bind_apply]
      rcases hv : createIn call s id name value factory (w.modifyStore s fun x => { x with arena })
        with ⟨_ | _ | _, v⟩
      all_goals
        have h := createIn_holds hc hw.1 hw.2 ho hf hr (by simpa using hn) hv
        exact ⟨⟨h.1.1, Nat.lt_of_lt_of_le hw.2 h.1.2.1.stores⟩, h.1.2, fun he hp _ => (h.2 he hp).minds⟩

theorem destroy_holding (key : Key) (ho : w.Lent s) :
    (destroy s key).KeepsAt (holding s) w := by
  intro hw
  have hk := keeping_destroy hw.1.1 hw.2 key
  rw [destroy_apply] at hk ⊢
  split
  · exact ⟨hw, (holding s).refl hw⟩
  · next hid =>
    rw [if_neg hid] at hk
    cases hr : (w.store s).arena.remove? key.id with
    | none => exact ⟨hw, (holding s).refl hw⟩
    | some r =>
      obtain ⟨i, arena⟩ := r
      rw [hr] at hk
      dsimp only at hk ⊢
      have hst := store_destroying s i arena w
      have hid := hw.1.1.ids hw.2
      have h := estate_keeping (T := (· = s)) hk hw.2 hw.1 (absurd rfl) fun hp hpw => by
        obtain ⟨ho, ht⟩ := ho hp
        have hin := hpw.stores hw.2
        exact hin.destroying hid (hin.used (by rw [Store.inUse, ho]; rfl)) ht hw.1.1 hr
      refine ⟨⟨h.1, Nat.lt_of_lt_of_le hw.2 h.2.1.stores⟩, h.2, fun _ _ _ => ?_⟩
      exact ⟨by rw [hst], by rw [hst], fun ht => ht.destroying hr hid⟩

theorem dropIfIdle_apply (s : Nat) (w : World) : dropIfIdle s w =
    (.done (), if (w.store s).replaced && !(w.store s).inUse then w.dropping s else w) := by
  unfold dropIfIdle
  refine (bind_of_done (m := Engine.get) rfl).trans ?_
  split
  · exact dropStore_apply s w
  · rfl

/-- How a store is in use is not changed by dropping it. -/
theorem usage_dropping (s : Nat) (w : World) :
    ((w.dropping s).store s).sharers = (w.store s).sharers ∧
      ((w.dropping s).store s).owned = (w.store s).owned := by
  have hd : ∀ (items : List Nat) (v : World),
      let x := (items.foldl (fun v i => v.releasing s i) v).store s
      x.sharers = (v.store s).sharers ∧ x.owned = (v.store s).owned := by
    intro items
    induction items with
    | nil => exact fun _ => ⟨rfl, rfl⟩
    | cons i items ih =>
      intro v
      have := ih (v.releasing s i)
      rw [store_releasing] at this
      exact this
  have he := hd (w.store s).arena.toList
    (w.modifyStore s fun x => { x with arena := (w.store s).arena.drain.2 })
  rw [store_modifyStore, if_pos rfl] at he
  rw [dropping, store_retiring]
  exact he

theorem usage_dropIfIdle (s : Nat) (w : World) :
    ((dropIfIdle s w).2.store s).sharers = (w.store s).sharers ∧
      ((dropIfIdle s w).2.store s).owned = (w.store s).owned := by
  rw [dropIfIdle_apply]
  dsimp only
  split
  · exact usage_dropping s w
  · exact ⟨rfl, rfl⟩

end Engine

section Usage

variable {T : Nat → Prop} {s : Nat} {w : World} {f : Store → Store}

/-- Only how the store is in use has changed. -/
structure Usage (f : Store → Store) : Prop where
  house : ∀ x, (f x).id = x.id ∧ (f x).arena = x.arena ∧ (f x).affinity = x.affinity ∧
    (f x).signal = x.signal
  names : ∀ x, (f x).names = x.names
  dropped : ∀ x, (f x).dropped = x.dropped

theorem Usage.keeping (hf : Usage f) (s : Nat) (w : World) : w.Keeping s (w.modifyStore s f) := by
  have hq := w.quiet_modifyStore_of_same s fun x =>
    ⟨(hf.house x).1, (hf.house x).2.1, (hf.house x).2.2.1⟩
  exact hq.keeping_of_store fun x => (hf.house x).2.2.2

theorem Usage.unmoved (hf : Usage f) (s : Nat) (w : World) : w.Unmoved s (w.modifyStore s f) := by
  have hst : (w.modifyStore s f).store s = f (w.store s) := by rw [store_modifyStore, if_pos rfl]
  refine ⟨?_, ?_, ?_, fun _ => .rfl, fun _ => rfl, fun _ => rfl, rfl⟩
  · rw [hst, (hf.house _).2.1]
  · rw [hst, hf.names]
  · rw [hst, hf.dropped]

/-- A store may be used otherwise if it is not dropped, and tidy unless it belongs to a call. -/
theorem Usage.holds (hf : Usage f) (hT : T s) (hs : s < w.stores.next)
    (hr : ¬ Panicked w.history → w.Named s → (f (w.store s)).replaced = (w.store s).replaced)
    (h : ¬ Panicked w.history → (w.store s).dropped = false ∧
      ((f (w.store s)).owned = false → w.Tidy s))
    (hw : (estate T).inv w) : (estate T).Holds w .done (w.modifyStore s f) := by
  have hst : (w.modifyStore s f).store s = f (w.store s) := by rw [store_modifyStore, if_pos rfl]
  have hm := hf.unmoved s w
  refine estate_keeping (hf.keeping s w) hs hw (absurd hT) fun hp hpw => ?_
  obtain ⟨hd, ht⟩ := h hp
  have hin := hpw.stores hs
  refine ⟨fun hn => ?_, fun _ => hm.dropped.trans hd, fun _ ho => hm.tidy hw.1 (ht ?_),
    hin.bound.modifyStore fun x => ⟨hf.dropped x, (hf.house x).2.2.1⟩⟩
  · rw [hst, hf.dropped, hr hp hn]
    exact hin.named hn
  · rwa [hst] at ho

theorem usage_share : Usage fun x => { x with sharers := x.sharers + 1 } :=
  ⟨fun _ => ⟨rfl, rfl, rfl, rfl⟩, fun _ => rfl, fun _ => rfl⟩

theorem usage_unshare : Usage fun x => { x with sharers := x.sharers - 1 } :=
  ⟨fun _ => ⟨rfl, rfl, rfl, rfl⟩, fun _ => rfl, fun _ => rfl⟩

theorem usage_own (b : Bool) : Usage fun x => { x with owned := b } :=
  ⟨fun _ => ⟨rfl, rfl, rfl, rfl⟩, fun _ => rfl, fun _ => rfl⟩

namespace Engine

theorem ensure_done {α : Type} {m : Engine α} {c : Engine Unit}
    (h : (ensure m c w).1.ending = .done) :
    ∃ a v v', m w = (.done a, v) ∧ c v = (.done (), v') ∧ (ensure m c w).2 = v' := by
  unfold ensure at h ⊢
  rcases hm : m w with ⟨a | _ | _, v⟩ <;> rw [hm] at h <;> dsimp only at h ⊢
  · change ((c >>= fun _ => pure a) v).1.ending = _ at h
    change ∃ a' v₁ v', _ ∧ _ ∧ ((c >>= fun _ => pure a) v).2 = v'
    rw [bind_apply] at h ⊢
    rcases hc : c v with ⟨_ | _ | _, v'⟩ <;> rw [hc] at h
    · exact ⟨a, v, v', rfl, hc, rfl⟩
    · cases h
    · cases h
  · rcases hc : c v with ⟨_ | _ | _, v'⟩ <;> rw [hc] at h <;> cases h
  · cases h

theorem endSharing_estate (hT : T s) (hs : s < w.stores.next)
    (h : ¬ Panicked w.history → (w.store s).inUse) : (endSharing s).KeepsAt (estate T) w := by
  have hd (hw : (estate T).inv w) (hp : ¬ Panicked w.history) : (w.store s).dropped = false :=
    ((hw.2 hp).stores hs).used (h hp)
  have hf (hw : (estate T).inv w) := usage_unshare.holds hT hs (fun _ _ => rfl)
    (fun hp => ⟨hd hw hp, ((hw.2 hp).stores hs).tidy (hd hw hp)⟩) hw
  intro hw
  refine keepsAt_modify_bind hf (fun hw => ?_) hw
  refine dropIfIdle_estate hT hs fun hp => ?_
  rw [store_modifyStore, if_pos rfl]
  exact hd hw hp

theorem endOwning_estate (hT : T s) (hs : s < w.stores.next) (h : w.Lent s) :
    (endOwning s).KeepsAt (estate T) w := by
  have hd (hw : (estate T).inv w) (hp : ¬ Panicked w.history) : (w.store s).dropped = false :=
    ((hw.2 hp).stores hs).used (by rw [Store.inUse, (h hp).1]; rfl)
  have hf (hw : (estate T).inv w) := (usage_own false).holds hT hs (fun _ _ => rfl)
    (fun hp => ⟨hd hw hp, fun _ => (h hp).2⟩) hw
  intro hw
  refine keepsAt_modify_bind hf (fun hw => ?_) hw
  refine dropIfIdle_estate hT hs fun hp => ?_
  rw [store_modifyStore, if_pos rfl]
  exact hd hw hp

/-- What is said about every store but one, and about that one besides. -/
theorem estates_of_estate {e : Ending} {w' : World} (h : (estate (· = s)).Holds w e w')
    (hl : e = .done → ¬ Panicked w'.history → w.Leaves s w') : estates.Holds w e w' := by
  refine ⟨h.1, h.2.1, h.2.2.1, fun he hp t _ => ?_⟩
  by_cases hts : t = s
  · exact hts ▸ hl he hp
  · exact h.2.2.2 he hp t hts

/-- Whoever shared a store that somebody else uses as well finds nothing to do at the end. -/
theorem leaves_endSharing {v : World} (ho : (w.store s).owned = false)
    (h : (w.share s).Leaves s v) : w.Leaves s (endSharing s v).2 := by
  have hw : (w.share s).store s = { w.store s with sharers := (w.store s).sharers + 1 } := by
    rw [share, store_modifyStore, if_pos rfl]
  let u := v.modifyStore s fun x => { x with sharers := x.sharers - 1 }
  have hu : u.store s = { v.store s with sharers := (v.store s).sharers - 1 } := by
    rw [store_modifyStore, if_pos rfl]
  have he : endSharing s v = dropIfIdle s u := rfl
  obtain ⟨hsh, hown⟩ := usage_dropIfIdle s u
  have hsharers : (u.store s).sharers = (w.store s).sharers := by
    rw [hu]
    change (v.store s).sharers - 1 = _
    rw [h.sharers, hw]
    rfl
  have howned : (u.store s).owned = (w.store s).owned := by
    rw [hu]
    exact h.owned.trans (by rw [hw])
  rw [he]
  refine ⟨hsh.trans hsharers, hown.trans howned, fun hin => ?_, fun ho' => ?_⟩
  · have hin' : (u.store s).inUse = true := by rwa [Store.inUse, hsharers, howned]
    rw [dropIfIdle_apply, hin', if_neg (by simp)]
    refine (usage_share.unmoved s w).trans ((h.unmoved ?_).trans (usage_unshare.unmoved s v))
    simp [Store.inUse, hw]
  · rw [ho] at ho'
    cases ho'

/-- A call that shares a store leaves it alone, as the calls do that it makes. -/
theorem sharing_estates {α : Type} {m : Engine α} (hn : w.Named s)
    (ho : (w.store s).owned = false) (hm : m.KeepsAt estates (w.share s)) :
    (modify (World.share s) >>= fun _ => ensure m (endSharing s)).KeepsAt estates w := by
  intro hw
  have hs := hw.1.named hn
  have hshare : (estate (· = s)).Holds w .done (w.share s) :=
    usage_share.holds rfl hs (fun _ _ => rfl) (fun hp => by
      have hin := (hw.2 hp).stores hs
      exact ⟨(hin.named hn).1, hin.tidy (hin.named hn).1⟩) hw
  have hin : ((w.share s).store s).inUse := by
    rw [share, store_modifyStore, if_pos rfl]
    simp [Store.inUse]
  have hleaves {a : α} {v : World} (hv : m (w.share s) = (.done a, v))
      (hp : ¬ Panicked v.history) : (w.share s).Leaves s v :=
    leaves_of_estates (hm.holds hshare.1 hv) hp s
  have hend (o : Outcome α) (v : World) (hv : m (w.share s) = (o, v)) (hne : o.ending ≠ .stuck) :
      (endSharing s).KeepsAt (estate (· = s)) v := by
    have h := hm.holds hshare.1 hv
    refine endSharing_estate rfl (Nat.lt_of_lt_of_le hs h.2.1.stores) fun hp => ?_
    cases o with
    | done a => exact (hleaves hv hp).inUse.trans hin
    | panicked text => exact absurd (h.2.2.1 rfl) hp
    | stuck => exact absurd rfl hne
  have hk : (ensure m (endSharing s)).KeepsAt (estate (· = s)) (w.share s) :=
    KeepsAt.ensure (fun hw => estates_weaken (hm hw)) fun o v hv _ hne => hend o v hv hne
  refine estates_of_estate (hshare.done_trans hw (hk hshare.1)) fun he hp => ?_
  obtain ⟨a, v, v', hv, hv', he'⟩ := ensure_done he
  have hgrows := ((hend _ v hv (by simp)).holds (hm.holds hshare.1 hv).1 hv').2.1
  change ¬ Panicked (ensure m (endSharing s) (w.share s)).2.history at hp
  change w.Leaves s (ensure m (endSharing s) (w.share s)).2
  rw [he'] at hp ⊢
  have := leaves_endSharing ho (hleaves hv fun h => hp (hgrows.panicked h))
  rwa [hv'] at this

/-- A call that a store belongs to keeps the store from everybody else. -/
theorem owning_estates {α : Type} {m : Engine α} (hn : w.Named s)
    (hu : (w.store s).inUse = false) (hm : (w.own s).Lent s → m.KeepsAt (holding s) (w.own s)) :
    (modify (World.own s) >>= fun _ => ensure m (endOwning s)).KeepsAt estates w := by
  intro hw
  have hs := hw.1.named hn
  have hst : (w.own s).store s = { w.store s with owned := true } := by
    rw [World.own, store_modifyStore, if_pos rfl]
  have hunowned : (w.store s).owned = false := by
    simp only [Store.inUse, Bool.or_eq_false_iff] at hu
    exact hu.1
  have hown : (estate (· = s)).Holds w .done (w.own s) :=
    (usage_own true).holds rfl hs (fun _ _ => rfl) (fun hp =>
      ⟨((hw.2 hp).stores hs |>.named hn).1, fun h => by cases h⟩) hw
  have hlent : (w.own s).Lent s := fun hp => by
    have hin := (hw.2 hp).stores hs
    refine ⟨by rw [hst], ?_⟩
    exact ((usage_own true).unmoved s w).tidy hw.1 (hin.tidy (hin.named hn).1 hunowned)
  replace hm := hm hlent
  have hinv : (holding s).inv (w.own s) := ⟨hown.1, hs⟩
  have hminds {a : α} {v : World} (hv : m (w.own s) = (.done a, v))
      (hp : ¬ Panicked v.history) : (w.own s).Minds s v :=
    (hm.holds hinv hv).2.2 rfl hp (by rw [hst])
  have hend (o : Outcome α) (v : World) (hv : m (w.own s) = (o, v)) (hne : o.ending ≠ .stuck) :
      (endOwning s).KeepsAt (estate (· = s)) v := by
    have h := hm.holds hinv hv
    refine endOwning_estate rfl h.1.2 ?_
    cases o with
    | done a => exact hlent.mono h
    | panicked text => exact fun hp => absurd (h.2.1.2.1 rfl) hp
    | stuck => exact absurd rfl hne
  have hk : (ensure m (endOwning s)).KeepsAt (estate (· = s)) (w.own s) :=
    KeepsAt.ensure (fun _ => ⟨(hm hinv).1.1, (hm hinv).2.1⟩) fun o v hv _ hne => hend o v hv hne
  refine estates_of_estate (hown.done_trans hw (hk hown.1)) fun he hp => ?_
  obtain ⟨a, v, v', hv, hv', he'⟩ := ensure_done he
  have hgrows := ((hend _ v hv (by simp)).holds (hm.holds hinv hv).1.1 hv').2.1
  change ¬ Panicked (ensure m (endOwning s) (w.own s)).2.history at hp
  change w.Leaves s (ensure m (endOwning s) (w.own s)).2
  rw [he'] at hp ⊢
  have hmi := hminds hv fun h => hp (hgrows.panicked h)
  have hd : endOwning s v = dropIfIdle s (v.modifyStore s fun x => { x with owned := false }) := rfl
  obtain ⟨hsh, ho⟩ := usage_dropIfIdle s (v.modifyStore s fun x => { x with owned := false })
  rw [← hd, hv', store_modifyStore, if_pos rfl] at hsh ho
  refine ⟨hsh.trans (hmi.sharers.trans (by rw [hst])), ho.trans hunowned.symm,
    fun h => absurd (hu.symm.trans h) (by decide), fun h => ?_⟩
  rw [hunowned] at h
  cases h

end Engine

end Usage

end GuardedStore
