import GuardedStore.Proofs.Estate.Admitted

/-!
A store that belongs to a call is sheltered.

Whatever aspects, scripts and other stores do meanwhile, and however it ends, the store's slots,
names, items, binding and subscriptions stay as they are. So what a call leaves behind that comes to
nothing is what the call itself has done to its store.
-/
namespace GuardedStore

namespace World

variable {s : Nat} {u v w w' : World}

/-- The store is as it was, and it has the items and the subscriptions that it had. -/
structure Walled (s : Nat) (w w' : World) : Prop where
  arena : (w'.store s).arena = (w.store s).arena
  names : (w'.store s).names = (w.store s).names
  affinity : (w'.store s).affinity = (w.store s).affinity
  owns : ∀ i, w'.Owns s i ↔ w.Owns s i
  table : ∀ {d source}, source.owner = .drawn s → ¬ w'.Meddled d source →
    ¬ w.Meddled d source ∧ (w'.domain d).tally s source = (w.domain d).tally s source ∨
      (w'.domain d).tally s source = 0 ∧ (w.store s).affinity ≠ some d

/-- The store, its items and its subscriptions are as they were. -/
structure Sealed (s : Nat) (w w' : World) : Prop extends w.Walled s w' where
  items : ∀ {i}, w.Owns s i → w'.item i = w.item i

/-- How the store is in use has not changed if it is in use, and if it belongs to a call it is as it
was. -/
structure Shelters (s : Nat) (w w' : World) : Prop where
  sharers : (w.store s).inUse → (w'.store s).sharers = (w.store s).sharers
  owned : (w.store s).inUse → (w'.store s).owned = (w.store s).owned
  kept : (w.store s).owned = true → w.Sealed s w'

theorem Walled.refl (s : Nat) (w : World) : w.Walled s w :=
  ⟨rfl, rfl, rfl, fun _ => .rfl, fun _ hm => .inl ⟨hm, rfl⟩⟩

theorem Walled.trans (h : u.Walled s v) (h' : v.Walled s w) : u.Walled s w where
  arena := h'.arena.trans h.arena
  names := h'.names.trans h.names
  affinity := h'.affinity.trans h.affinity
  owns i := (h'.owns i).trans (h.owns i)
  table ho hm := by
    rcases h'.table ho hm with ⟨hm, he⟩ | ⟨hz, ha⟩
    · rcases h.table ho hm with ⟨hm, he'⟩ | ⟨hz, ha⟩
      · exact .inl ⟨hm, he.trans he'⟩
      · exact .inr ⟨he.trans hz, ha⟩
    · exact .inr ⟨hz, h.affinity ▸ ha⟩

theorem Sealed.refl (s : Nat) (w : World) : w.Sealed s w :=
  ⟨.refl s w, fun _ => rfl⟩

theorem Sealed.trans (h : u.Sealed s v) (h' : v.Sealed s w) : u.Sealed s w :=
  ⟨h.toWalled.trans h'.toWalled, fun hi => (h'.items ((h.owns _).mpr hi)).trans (h.items hi)⟩

theorem Shelters.inUse (h : w.Shelters s w') (hu : (w.store s).inUse) : (w'.store s).inUse := by
  rw [Store.inUse, h.sharers hu, h.owned hu]
  exact hu

theorem inUse_of_owned {x : Store} (ho : x.owned = true) : x.inUse := by
  rw [Store.inUse, ho]
  rfl

theorem Shelters.refl (s : Nat) (w : World) : w.Shelters s w :=
  ⟨fun _ => rfl, fun _ => rfl, fun _ => .refl s w⟩

theorem Shelters.trans (h : u.Shelters s v) (h' : v.Shelters s w) : u.Shelters s w where
  sharers hu := (h'.sharers (h.inUse hu)).trans (h.sharers hu)
  owned hu := (h'.owned (h.inUse hu)).trans (h.owned hu)
  kept ho := (h.kept ho).trans (h'.kept ((h.owned (inUse_of_owned ho)).trans ho))

/-- Nobody has a say in what happens to a store that is not in use. -/
theorem shelters_of_idle (hu : (w.store s).inUse = false) : w.Shelters s w' where
  sharers h := absurd (hu.symm.trans h) (by decide)
  owned h := absurd (hu.symm.trans h) (by decide)
  kept h := absurd (hu.symm.trans (inUse_of_owned h)) (by decide)

theorem Spared.shelters (h : w.Spared s w') (hi : ∀ {i}, w.Owns s i → w'.item i = w.item i) :
    w.Shelters s w' :=
  ⟨fun _ => h.sharers, fun _ => h.owned,
    fun _ => ⟨⟨h.arena, h.names, h.affinity, h.owns, h.table⟩, hi⟩⟩

/-- A change that has to do neither with domains nor with the store, except for who took its
name. -/
theorem walled_of_same (hg : w.Grows w')
    (hs : w'.store s = { w.store s with replaced := (w'.store s).replaced })
    (ho : ∀ i, w'.Owns s i ↔ w.Owns s i) (hd : w'.domains = w.domains) : w.Walled s w' := by
  refine ⟨by rw [hs], by rw [hs], by rw [hs], ho, fun {d source} _ hm => .inl ⟨?_, ?_⟩⟩
  · exact fun h => hm (h.mono hg.history (by rw [domain, domain, hd]))
  · rw [domain, domain, hd]

theorem shelters_of_same (hg : w.Grows w')
    (hs : w'.store s = { w.store s with replaced := (w'.store s).replaced })
    (ho : ∀ i, w'.Owns s i ↔ w.Owns s i)
    (hi : (w.store s).owned = true → ∀ {i}, w.Owns s i → w'.item i = w.item i)
    (hd : w'.domains = w.domains) : w.Shelters s w' where
  sharers _ := by rw [hs]
  owned _ := by rw [hs]
  kept hown := ⟨walled_of_same hg hs ho hd, hi hown⟩

/-- Storing a value in an item is nothing to its store. -/
theorem walled_issuing (s i : Nat) (a : Access) (w : World) : w.Walled s (w.issuing i a) := by
  have hg := grows_issuing (w := w) i a
  exact walled_of_same hg rfl (fun j => and_congr_right fun hj => by rw [hg.descriptor hj]) rfl

end World

/-- Stores with `T` do as they like, and if `s` is none of them it is sheltered. -/
def shelter (T : Nat → Prop) (s : Nat) : Law where
  inv w := w.Sound ∧ s < w.stores.next
  rel w e w' := w.Grows w' ∧ (¬ T s → e ≠ .stuck → w.Shelters s w')
  refl _ := ⟨.refl _, fun _ _ => .refl s _⟩
  trans := by
    rintro u v w d e - - ⟨hg, h⟩ - ⟨hg', h'⟩
    refine ⟨hg.trans hg', fun ht he => ?_⟩
    obtain ⟨hd, he⟩ := Ending.ne_stuck_of_andThen he
    exact (h ht hd).trans (h' ht he)

/-- All stores but one do as they like. -/
abbrev sheltering (s : Nat) : Law :=
  shelter (· ≠ s) s

section Shelter

open World

variable {T : Nat → Prop} {s : Nat} {w w' : World} {e : Ending}

theorem shelter_holds (hw : (shelter T s).inv w) (hw' : w'.Sound) (hg : w.Grows w')
    (h : ¬ T s → w.Shelters s w') : (shelter T s).Holds w .done w' :=
  ⟨⟨hw', Nat.lt_of_lt_of_le hw.2 hg.stores⟩, hg, fun ht _ => h ht⟩

theorem shelters_of_sheltering (h : (sheltering s).Holds w e w') (he : e ≠ .stuck) :
    w.Shelters s w' :=
  h.2.2 (fun h => h rfl) he

/-- Whoever shelters the store keeps what is kept where nothing does. -/
theorem exposed_of_shelter (h : (shelter T s).Holds w e w') :
    (shelter (fun _ => True) s).Holds w e w' :=
  ⟨h.1, h.2.1, fun ht => absurd trivial ht⟩

theorem shelter_of_exposed (h : (shelter (fun _ => True) s).Holds w e w')
    (hs : ¬ T s → e ≠ .stuck → w.Shelters s w') : (shelter T s).Holds w e w' :=
  ⟨h.1, h.2.1, hs⟩

theorem keepsAt_of_idle {α : Type} {m : Engine α} (hu : (w.store s).inUse = false)
    (h : m.KeepsAt (shelter (fun _ => True) s) w) : m.KeepsAt (shelter T s) w :=
  fun hw => shelter_of_exposed (h hw) fun _ _ => shelters_of_idle hu

theorem shelter_untouched (h : w.Untouched w') (hi : w'.items = w.items) (hw' : w'.Sound)
    (hg : w.Grows w') (hw : (shelter T s).inv w) : (shelter T s).Holds w .done w' :=
  shelter_holds hw hw' hg fun _ => (h.spared s).shelters fun _ => by rw [item, item, hi]

theorem shelter_stuck (_ : (shelter T s).inv w) : (shelter T s).rel w .stuck w :=
  ⟨.refl _, fun _ h => absurd rfl h⟩

theorem shelter_panic (text : String) : (Engine.panic text).Keeps (shelter T s) := by
  intro w hw
  unfold Engine.panic
  split
  · exact ⟨hw, (shelter T s).refl hw⟩
  · refine ⟨⟨sound_raise text hw.1, hw.2⟩, grows_raise text, fun _ _ => ?_⟩
    exact shelters_of_same (grows_raise text) rfl (fun _ => .rfl) (fun _ _ _ => rfl) rfl

theorem shelter_lenient (T : Nat → Prop) (s : Nat) : (shelter T s).Lenient where
  sound hw := hw.1
  grows h := h.1
  stuck := shelter_stuck
  untouched := shelter_untouched

theorem shelter_basics (T : Nat → Prop) (s : Nat) : Engine.Basics (shelter T s) :=
  (shelter_lenient T s).basics shelter_panic

theorem shelter_renames (T : Nat → Prop) (s : Nat) : (shelter T s).Renames :=
  fun {_ _} _ hn _ hw => shelter_holds hw (sound_rename hn hw.1) grows_rename fun _ =>
    shelters_of_same grows_rename rfl (fun _ => .rfl) (fun _ _ _ => rfl) rfl

/-- What a store does about what is its own is no concern of another store. -/
theorem shelter_keeping {t : Nat} (ht : T t) (h : w.Keeping t w') (hw : (shelter T s).inv w) :
    (shelter T s).Holds w .done w' := by
  refine shelter_holds hw (h.sound hw.1) h.grows fun hs => ?_
  have hne : s ≠ t := fun he => hs (he ▸ ht)
  refine (h.spared hne).shelters fun hi => h.strangers _ ?_
  rw [hi.2]
  exact fun he => hne (StoreId.drawn.inj he)

theorem shelter_withStore {x : Store} (hid : x.id = .drawn w.stores.next)
    (ha : x.arena.toList = []) (hd : w.Offers x.affinity) (hw : (shelter T s).inv w) :
    (shelter T s).Holds w .done (w.withStore x) := by
  refine shelter_holds hw (sound_withStore hid ha hd hw.1) (grows_withStore x) fun _ => ?_
  have hst : (w.withStore x).store s = w.store s := by
    rw [store_withStore, if_neg (Nat.ne_of_lt hw.2)]
  refine shelters_of_same (grows_withStore x) ?_ (fun _ => .rfl) (fun _ _ _ => rfl) rfl
  rw [hst]

/-- A new item of another store is none of this one's. -/
theorem shelter_withItem {x : Item} {t : Nat} (ht : T t) (hlt : t < w.stores.next)
    (hx : x.descriptor.store = .drawn t) (hc : w.Has x.chain) (hd : w.Offers x.affinity)
    (hw : (shelter T s).inv w) : (shelter T s).Holds w .done (w.withItem x) := by
  refine shelter_holds hw (sound_withItem ⟨t, hlt, hx⟩ hc hd hw.1) (grows_withItem x) fun hs => ?_
  have hold {i : Nat} (hi : i ≠ w.items.next) : (w.withItem x).item i = w.item i := by
    rw [item_withItem, if_neg hi]
  refine shelters_of_same (grows_withItem x) rfl
    (fun i => ⟨?_, fun hi => hi.mono (grows_withItem x)⟩) (fun _ {i} hi => hold (Nat.ne_of_lt hi.1)) rfl
  rintro ⟨hi, hxs⟩
  by_cases he : i = w.items.next
  · rw [item_withItem, if_pos he, hx] at hxs
    exact absurd (StoreId.drawn.inj hxs ▸ ht) hs
  · rw [hold he] at hxs
    exact ⟨Nat.lt_of_le_of_ne (Nat.le_of_lt_succ hi) he, hxs⟩

theorem shelter_storekeeping (T : Nat → Prop) (s : Nat) : (shelter T s).Storekeeping T where
  sound hw := hw.1
  grows h := h.1
  tending ht h := shelter_keeping ht h.toKeeping
  keeping := shelter_keeping
  stuck := shelter_stuck
  newStore _ hid ha hd _ := Engine.keepsAt_of_eq rfl (shelter_withStore hid ha hd)
  newItem ht hlt hx hc hd _ _ := Engine.keepsAt_of_eq rfl (shelter_withItem ht hlt hx hc hd)

/-- The item may be written by others than the call that the store belongs to, if there is one. -/
def World.Common (w : World) (s i : Nat) : Prop :=
  i < w.items.next ∧ (w.Owns s i → (w.store s).inUse ∧ (w.store s).owned = false)

theorem World.Common.mono {i : Nat} (hi : w.Common s i) (h : (sheltering s).Holds w .done w') :
    w'.Common s i := by
  have hg := h.2.1
  have hs := shelters_of_sheltering h (by decide)
  refine ⟨Nat.lt_of_lt_of_le hi.1 hg.items, fun ho => ?_⟩
  obtain ⟨hu, ho⟩ := hi.2 ⟨hi.1, hg.descriptor hi.1 ▸ ho.2⟩
  exact ⟨hs.inUse hu, (hs.owned hu).trans ho⟩

namespace Engine

variable {call : Nat → Engine Unit} (hc : ∀ r, (call r).Keeps (shelter T s))

include hc

/-- A write changes no item of the store if it is not known to be the store's own. -/
theorem write_shelter {i : Nat} (value : Value)
    (hi : ∀ v, (shelter T s).Holds w .done v → ¬ T s → v.Common s i) :
    (write call i value).KeepsAt (shelter T s) w := by
  refine write_keepsAt (shelter_lenient T s).plain hc value fun pass v _ hv => ?_
  refine storeValue_keepsAt (fun hw => ?_) (forward_keeps (shelter_lenient T s).delivering hc _ _ _)
  have hg := grows_issuing (w := v) i pass.access
  refine shelter_holds hw (sound_issuing i pass.access hw.1) hg fun ht =>
    ⟨fun _ => rfl, fun _ => rfl, fun ho => ⟨walled_issuing s i pass.access v, fun {j} hj => ?_⟩⟩
  rw [item_issuing, if_neg]
  rintro rfl
  exact absurd (((hi v hv ht).2 hj).2.symm.trans ho) (by decide)

end Engine

end Shelter

namespace Engine

open World

variable {α : Type} {s : Nat} {w : World}

/-- However a computation ended that was cleaned up after, the clean-up came last. -/
theorem ensure_ended {m : Engine α} {c : Engine Unit}
    (h : (ensure m c w).1.ending ≠ .stuck) :
    (m w).1.ending ≠ .stuck ∧ (ensure m c w).2 = (c (m w).2).2 := by
  unfold ensure at h ⊢
  rcases hm : m w with ⟨a | _ | _, v⟩ <;> rw [hm] at h <;> dsimp only at h ⊢
  · refine ⟨by simp, ?_⟩
    change ((c >>= fun _ => pure a) v).2 = _
    rw [bind_apply]
    rcases c v with ⟨_ | _ | _, v'⟩ <;> rfl
  · refine ⟨by simp, ?_⟩
    rcases c v with ⟨_ | _ | _, v'⟩ <;> rfl
  · exact absurd rfl h

/-- Whoever shares a store that is in use leaves it in the use it was in. -/
theorem sharing_sheltering {m : Engine α} (hs : s < w.stores.next)
    (ho : (w.store s).owned = false) (hm : m.KeepsAt (sheltering s) (w.share s)) :
    (modify (World.share s) >>= fun _ => ensure m (endSharing s)).KeepsAt (sheltering s) w := by
  intro hw
  have hst : (w.share s).store s = { w.store s with sharers := (w.store s).sharers + 1 } := by
    rw [World.share, store_modifyStore, if_pos rfl]
  have hshare : (shelter (fun _ => True) s).Holds w .done (w.share s) :=
    shelter_keeping trivial (usage_share.keeping s w) hw
  have hfree := Performing.shared_keepsAt (shelter_storekeeping (fun _ => True) s).toTending
    trivial hs
    (fun hw => exposed_of_shelter (hm hw)) hw
  refine shelter_of_exposed hfree fun _ he => ?_
  obtain ⟨hne, hv⟩ := ensure_ended (m := m) (c := endSharing s) (w := w.share s) he
  have hin : ((w.share s).store s).inUse := by
    rw [hst]
    simp [Store.inUse]
  have h := shelters_of_sheltering (hm ⟨hshare.1.1, hshare.1.2⟩) hne
  have hsh := h.sharers hin
  have hown := h.owned hin
  generalize (m (w.share s)).2 = v at hv hsh hown
  obtain ⟨hd, hd'⟩ :=
    usage_dropIfIdle s (v.modifyStore s fun x => { x with sharers := x.sharers - 1 })
  rw [store_modifyStore, if_pos rfl] at hd hd'
  rw [hst] at hsh hown
  have hres : (modify (World.share s) >>= fun _ => ensure m (endSharing s)) w =
      ensure m (endSharing s) (w.share s) := rfl
  rw [hres, hv]
  refine ⟨fun _ => hd.trans ?_, fun _ => hd'.trans hown, fun h => ?_⟩
  · change (v.store s).sharers - 1 = _
    rw [hsh]
    rfl
  · rw [ho] at h
    cases h

/-- A store that belongs to no call may be bound otherwise. -/
theorem setAffinity_sheltering {affinity : Option Nat} (hs : s < w.stores.next)
    (ho : (w.store s).owned = false) (ha : w.Offers affinity) :
    (setAffinity s affinity).KeepsAt (sheltering s) w := by
  intro hw
  have hfree := setAffinity_keepsAt (shelter_storekeeping (fun _ => True) s).heeding trivial hs
    ha hw
  refine shelter_of_exposed hfree fun _ _ => ?_
  rw [setAffinity_apply]
  split
  · exact .refl s w
  split
  · exact .refl s w
  · have hst := store_rebinding s affinity w
    exact ⟨fun _ => by rw [hst], fun _ => by rw [hst],
      fun h => absurd (ho.symm.trans h) (by decide)⟩

/-- A store that loses its name while it is in use is not dropped. -/
theorem replace_sheltering (hs : s < w.stores.next) :
    (replace s).KeepsAt (sheltering s) w := by
  have hfree : (replace s).KeepsAt (shelter (fun _ => True) s) w :=
    replace_keepsAt (shelter_storekeeping (fun _ => True) s).toTending trivial hs
  cases hu : (w.store s).inUse with
  | false => exact keepsAt_of_idle hu hfree
  | true =>
    refine fun hw => shelter_of_exposed (hfree hw) fun _ _ => ?_
    have hst : (w.modifyStore s fun x => { x with replaced := true }).store s =
        { w.store s with replaced := true } := by rw [store_modifyStore, if_pos rfl]
    have hres : (replace s w).2 = w.modifyStore s fun x => { x with replaced := true } := by
      change (dropIfIdle s (w.modifyStore s fun x => { x with replaced := true })).2 = _
      have hu' : ((w.modifyStore s fun x => { x with replaced := true }).store s).inUse = true := by
        rwa [hst]
      rw [dropIfIdle_apply, hu', if_neg (by simp)]
    have hg := (hfree hw).2.1
    rw [hres] at hg ⊢
    refine shelters_of_same hg ?_ (fun _ => .rfl) (fun _ _ _ => rfl) rfl
    rw [hst]

end Engine

namespace Performing

open World

variable {call : Nat → Engine Unit} {s : Nat}

theorem newStore_sheltering (name : String) (plan : StorePlan) :
    (newStore name plan).run.Keeps (sheltering s) := by
  have c := shelter_storekeeping (· ≠ s) s
  refine newStore_kept c.sound (shelter_renames _ s) (fun config _ ha hw => ?_)
    (fun {w t} ht => ?_) name plan
  · exact Engine.buildStore_keepsAt c.housing config (Nat.ne_of_gt hw.2) ha hw
  · by_cases h : t = s
    · subst h
      exact Engine.replace_sheltering ht
    · exact Engine.replace_keepsAt c.toTending h ht

theorem dropStore_sheltering (name : String) : (dropStore name).run.Keeps (sheltering s) := by
  have c := shelter_storekeeping (· ≠ s) s
  refine dropStore_kept c.sound (shelter_renames _ s) (fun {w t} ht hu => ?_) name
  by_cases h : t = s
  · subst h
    exact keepsAt_of_idle hu
      (Engine.dropStore_keepsAt (shelter_storekeeping (fun _ => True) t).toTending trivial ht)
  · exact Engine.dropStore_keepsAt c.toTending h ht

variable (hc : ∀ r, (call r).Keeps (sheltering s))

include hc

theorem create_sheltering (storeName key name : String) (type : ValueType) (argument : Literal)
    (convert : Option ArgumentType) (plan : FactoryPlan Script) :
    (create call storeName key name type argument convert plan).run.Keeps (sheltering s) := by
  intro w hw
  refine (looks_storeNamed _).keepsAt_bind (fun t ht => owning_kept fun hu => ?_) hw
  have hlt := hw.1.named ht
  by_cases h : t = s
  · subst h
    have hc' (r : Nat) : (call r).Keeps (shelter (fun _ => True) t) :=
      fun v hv => exposed_of_shelter (hc r v hv)
    have c := shelter_storekeeping (fun _ => True) t
    refine keepsAt_of_idle hu (owned_keepsAt c.toTending trivial hlt ?_)
    exact creating_keepsAt (w := w.own t) c.housing trivial (shelter_basics _ t)
      (fun v _ => Engine.write_shelter hc' v fun _ _ h => absurd trivial h) hlt _ _ _ _ _ _ _
  · have c := shelter_storekeeping (· ≠ s) s
    refine owned_keepsAt c.toTending h hlt ?_
    refine creating_keepsAt (w := w.own t) c.housing h (shelter_basics _ s)
      (fun v hi => Engine.write_shelter hc v fun u hu _ => ?_) hlt _ _ _ _ _ _ _
    -- an item of another store is none of this one's
    have hi := hi.mono hu.2.1
    exact ⟨hi.1, fun ho => absurd (StoreId.drawn.inj (hi.2.symm.trans ho.2)) h⟩

omit hc in
theorem destroy_sheltering (key : String) (store : Option String) :
    (destroy key store).run.Keeps (sheltering s) := by
  intro w hw
  refine (looks_named _ _ _).keepsAt_bind (fun k _ => (looks_presentedTo k store).keepsAt_bind
    fun t ht => owning_kept fun hu => ?_) hw
  have hlt := hw.1.named ht
  by_cases h : t = s
  · subst h
    have c := shelter_storekeeping (fun _ => True) t
    exact keepsAt_of_idle hu
      (owned_keepsAt c.toTending trivial hlt (destroying_keepsAt (w := w.own t) c.minding trivial hlt k.key))
  · have c := shelter_storekeeping (· ≠ s) s
    exact owned_keepsAt c.toTending h hlt (destroying_keepsAt (w := w.own t) c.minding h hlt k.key)

omit hc in
/-- What a call shares with others may be written to by others. -/
theorem common_of_shared {w : World} {t i : Nat} (hw : (sheltering s).inv w)
    (ho : (w.store t).owned = false) (hi : i ∈ ((w.share t).store t).arena.toList) :
    (w.share t).Common s i := by
  have hst : (w.share t).store t = { w.store t with sharers := (w.store t).sharers + 1 } := by
    rw [share, store_modifyStore, if_pos rfl]
  rw [hst] at hi
  have hown : w.Owns t i := hw.1.arenas hi
  refine ⟨hown.1, fun hos => ?_⟩
  obtain rfl := StoreId.drawn.inj (hown.2.symm.trans hos.2)
  rw [hst]
  exact ⟨by simp [Store.inUse], ho⟩

omit hc in
theorem setAffinity_sheltering {w : World} {t : Nat} {affinity : Option Nat} (ht : w.Named t)
    (ho : (w.store t).owned = false) (ha : w.Offers affinity) :
    (Engine.setAffinity t affinity).KeepsAt (sheltering s) w := by
  intro hw
  have hlt := hw.1.named ht
  by_cases h : t = s
  · subst h
    exact Engine.setAffinity_sheltering hlt ho ha hw
  · exact Engine.setAffinity_keepsAt (shelter_storekeeping (· ≠ s) s).heeding h hlt ha hw

omit hc in
theorem sharing_sheltering {α : Type} {m : Engine α} {w : World} {t : Nat} (ht : w.Named t)
    (ho : (w.store t).owned = false) (hm : m.KeepsAt (sheltering s) (w.share t)) :
    (Engine.modify (World.share t) >>= fun _ => Engine.ensure m (Engine.endSharing t)).KeepsAt
      (sheltering s) w := by
  intro hw
  have hlt := hw.1.named ht
  by_cases h : t = s
  · subst h
    exact Engine.sharing_sheltering hlt ho hm hw
  · exact shared_keepsAt (shelter_storekeeping (· ≠ s) s).toTending h hlt hm hw

/-- The store is sheltered from all operations that steps are made of. -/
theorem sheltering_admits : Engine.Admits call (sheltering s) fun w i => w.Common s i :=
  (shelter_lenient _ s).admits hc shelter_panic setAffinity_sheltering newStore_sheltering
    dropStore_sheltering sharing_sheltering (fun hw _ ho hi => common_of_shared hw ho hi)
    (fun hi _ h => hi.mono h) (fun v hi => Engine.write_shelter hc v fun _ h _ => hi.mono h)
    (create_sheltering hc) destroy_sheltering

end Performing

end GuardedStore
