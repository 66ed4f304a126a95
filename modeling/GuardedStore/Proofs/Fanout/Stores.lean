import GuardedStore.Proofs.Fanout.Law

/-!
What stores do about those who follow their sources.

A store never adds to them. It removes all who follow a source when it lets go of the item, when it
is dropped, and when it leaves the domain that they follow it in.
-/
namespace GuardedStore

namespace World

variable {w : World} {s d i : Nat} {affinity : Option Nat} {source src : Source}

theorem followers_subscribing (affinity : Option Nat) (ho : source.owner = .drawn s) :
    ((w.subscribing affinity source (.store s)).domain d).followers src =
      (w.domain d).followers src := by
  rw [Domain.followers, subscribers_subscribing]
  split
  · next h => exact followers_concat_store (h.2.2 ▸ ho) _
  · rfl

theorem followers_unsubscribing (w : World) (affinity : Option Nat) (source src : Source)
    (d : Nat) :
    ((w.unsubscribing affinity source).domain d).followers src =
      if affinity = some d ∧ src = source then [] else (w.domain d).followers src := by
  rw [Domain.followers, subscribers_unsubscribing]
  split <;> rfl

section Rebinding

theorem followers_unbindingItems (affinity : Option Nat) (items : List Nat) (d : Nat)
    (source : Source) : ∀ w : World,
      ((w.unbindingItems affinity items).domain d).followers source =
        if affinity = some d ∧ source ∈ items.map fun i => (w.item i).source then []
        else (w.domain d).followers source := by
  induction items with
  | nil => exact fun _ => by simp [unbindingItems]
  | cons i items ih =>
    intro w
    have h (j : Nat) : (w.unsubscribing affinity (w.item i).source).item j = w.item j := by
      cases affinity <;> rfl
    change (((w.unsubscribing affinity (w.item i).source).unbindingItems affinity items).domain
      d).followers source = _
    rw [ih, followers_unsubscribing]
    simp only [h, List.map_cons, List.mem_cons]
    grind

theorem followers_bindingItems (affinity : Option Nat) (d : Nat) (source : Source)
    (items : List Nat) : ∀ w : World, (∀ i ∈ items, (w.item i).source.owner = .drawn s) →
      ((w.bindingItems s affinity items).domain d).followers source =
        (w.domain d).followers source := by
  induction items with
  | nil => exact fun _ _ => rfl
  | cons i items ih =>
    intro w ho
    obtain ⟨hi, ho⟩ := List.forall_mem_cons.mp ho
    refine (ih (w.bindingItem s affinity i) fun j hj => ?_).trans
      (followers_subscribing affinity hi)
    have hsource : ((w.bindingItem s affinity i).item j).source = (w.item j).source := by
      rw [item_bindingItem]
      split
      · next h => rw [h]; rfl
      · rfl
    rw [hsource, ho j hj]

/-- Binding a store to another domain takes whoever follows a source of its own or of one of its
items out of the domain that it leaves, and nobody else out of any. -/
theorem followers_rebinding (hs : s < w.stores.next) (hw : w.Sound) (affinity : Option Nat)
    (d : Nat) (source : Source) :
    ((w.rebinding s affinity).domain d).followers source =
      if (w.store s).affinity = some d ∧ source ∈ w.sources s then []
      else (w.domain d).followers source := by
  have hi (a : Option Nat) (src : Source) (i : Nat) :
      (w.unsubscribing a src).item i = w.item i := by cases a <;> rfl
  have hi' (a b : Option Nat) (src : Source) (is : List Nat) (v : World) (i : Nat) :
      ((v.unbindingItems a is).subscribing b src (.store s)).item i = v.item i := by
    rw [unbindingItems_only]
    cases b <;> rfl
  refine (followers_bindingItems affinity d source _ _ fun i h => ?_).trans ?_
  · rw [hi', hi]
    exact (hw.arenas h).2
  · have hid : (w.store s).source.owner = .drawn s := hw.ids hs
    rw [followers_subscribing affinity hid, followers_unbindingItems, followers_unsubscribing]
    simp only [hi, sources, List.mem_cons]
    grind

theorem history_rebinding_eq (s : Nat) (affinity : Option Nat) (w : World) :
    ∃ n, (w.rebinding s affinity).history = .bound s affinity :: .notice n :: w.history :=
  ⟨_, congrArg (Happening.bound s affinity :: Happening.notice _ :: ·)
    (history_rebinding s affinity w)⟩

/-- Whatever belongs to a source of the store belongs to the store. -/
theorem owner_of_sources (hs : s < w.stores.next) (hw : w.Sound) (h : source ∈ w.sources s) :
    source.owner = .drawn s := by
  rcases List.mem_cons.mp h with rfl | h
  · exact hw.ids hs
  · obtain ⟨i, hi, rfl⟩ := List.mem_map.mp h
    exact (hw.arenas hi).2

theorem fanout_rebinding (hs : s < w.stores.next) (hk : w.Keeping s (w.rebinding s affinity))
    (hw : fanout.inv w) : fanout.Holds w .done (w.rebinding s affinity) := by
  obtain ⟨n, hh⟩ := history_rebinding_eq s affinity w
  refine ⟨⟨hk.sound hw.1, fun t ht => ?_⟩, hk.grows, fun {d source} _ he => ?_,
    fun {d source} _ _ => ?_⟩
  · rw [hk.stores] at ht
    rw [hh, binding]
    split
    · next h => rw [← h, store_rebinding]
    · next h => exact (hw.2 t ht).trans (by rw [hk.elsewhere t (Ne.symm h)])
  · rw [followers_rebinding hs hw.1, if_neg]
    rintro ⟨ha, hm⟩
    have hb : binding s (.notice n :: w.history) = some (some d) := ha ▸ hw.2 s hs
    have hst : Happening.stirs d source (.notice n :: w.history) (.bound s affinity) :=
      decide_eq_true ⟨owner_of_sources hs hw.1 hm, hb⟩
    have hle : stirrings d source w.history ≤ stirrings d source (.notice n :: w.history) :=
      stirrings_le d source (List.suffix_cons _ _)
    have hadd : stirrings d source (w.rebinding s affinity).history =
        stirrings d source (.notice n :: w.history) + 1 := by
      rw [hh, stirrings, occasions, if_pos hst]
    omega
  · rw [followers_rebinding hs hw.1]
    split
    · exact List.nil_sublist _
    · exact List.Sublist.refl _

end Rebinding

/-- Something is done with the table of a source, and it is noted why. -/
theorem fanout_noted {n : Notice} {w' : World} (hk : w.Keeping s w')
    (ha : (w'.store s).affinity = (w.store s).affinity)
    (hd : w'.domains = (w.unsubscribing affinity source).domains)
    (hh : w'.history = .notice n :: w.history)
    (hn : ∀ d, Happening.stirs d source w.history (.notice n)) (hw : fanout.inv w) :
    fanout.Holds w .done w' := by
  have hf (d : Nat) (src : Source) : (w'.domain d).followers src =
      if affinity = some d ∧ src = source then [] else (w.domain d).followers src := by
    rw [domain, hd]
    exact followers_unsubscribing w affinity source src d
  refine ⟨⟨hk.sound hw.1, fun t ht => ?_⟩, hk.grows, fun {d src} _ he => ?_, fun {d src} _ _ => ?_⟩
  · rw [hk.stores] at ht
    have hb : binding t w'.history = binding t w.history := by
      rw [hh]
      rfl
    rw [hb, hw.2 t ht]
    by_cases hts : t = s
    · rw [hts, ha]
    · rw [hk.elsewhere t hts]
  · rw [hf, if_neg]
    rintro ⟨-, rfl⟩
    have hadd : stirrings d src w'.history = stirrings d src w.history + 1 := by
      rw [hh, stirrings, occasions, if_pos (hn d)]
    omega
  · rw [hf]
    split
    · exact List.nil_sublist _
    · exact List.Sublist.refl _

end World

namespace Engine

open World

variable {call : Nat → Engine Unit} {w : World} {s : Nat}

theorem setAffinity_fanout {affinity : Option Nat} (hs : s < w.stores.next)
    (ha : w.Offers affinity) : (setAffinity s affinity).KeepsAt fanout w := by
  intro hw
  rw [setAffinity_apply]
  split
  · exact ⟨hw, fanout_stuck hw⟩
  split
  · exact ⟨hw, fanout.refl hw⟩
  · next hr hne => exact fanout_rebinding hs (keeping_rebinding hw.1 hs ha (by omega) hne) hw

theorem release_fanout {item : Nat} (hs : s < w.stores.next) (hi : w.Owns s item) :
    (release s item).KeepsAt fanout w := by
  intro hw
  have hk := (release_keepsAt (keeping_lawful s).minding rfl hs hi hw.1).2
  rw [release_apply] at hk ⊢
  refine fanout_noted hk (by rw [store_releasing]) rfl rfl (fun d => ?_) hw
  simp [Happening.stirs, Descriptor.source, hi.2, hw.1.ids hs]

theorem unstirred_keepsAt {f : World → World} (h : w.Unstirred (f w)) :
    (modify f).KeepsAt fanout w :=
  keepsAt_modify h.holds

/-- The store's items are some of those it had, and others made for it. -/
theorem setArena_fanout {arena : Arena Nat}
    (ha : ∀ i ∈ arena.toList, i ∈ (w.store s).arena.toList ∨ w.Owns s i) :
    (modify (World.modifyStore s fun x => { x with arena })).KeepsAt fanout w := by
  have hq := w.quiet_modifyStore s (f := fun x => { x with arena }) (fun _ => rfl) ha fun _ => .inl
  exact unstirred_keepsAt ((hq.tending_of_store (fun _ => rfl) fun _ => rfl).unstirred fun _ => rfl)

theorem modifyStore_fanout {f : Store → Store} (hf : ∀ x, (f x).id = x.id ∧
    (f x).arena = x.arena ∧ (f x).affinity = x.affinity ∧ (f x).signal = x.signal) :
    (modify (World.modifyStore s f)).Keeps fanout := by
  intro w
  have hq := w.quiet_modifyStore_of_same s fun x => ⟨(hf x).1, (hf x).2.1, (hf x).2.2.1⟩
  exact unstirred_keepsAt ((hq.tending_of_store (fun x => (hf x).2.2.2) fun x =>
    (hf x).2.2.1).unstirred fun _ => rfl)

theorem notice_fanout (n : Notice) : (notice n).Keeps fanout := fun _ =>
  unstirred_keepsAt (unstirred_mark rfl)

theorem destroy_fanout (key : Key) (hs : s < w.stores.next) :
    (destroy s key).KeepsAt fanout w := by
  intro hw
  refine keepsAt_get_bind ?_ hw
  dsimp only
  split
  · exact keeps_pure _ w
  · split
    · exact keeps_pure _ w
    · next item arena hr =>
      obtain ⟨hi, ha⟩ := Arena.mem_of_mem_remove? hr
      refine (setArena_fanout fun i hi => .inl (ha i hi)).bind fun _ v _ hv => ?_
      have hs' := Nat.lt_of_lt_of_le hs hv.2.1.stores
      exact (release_fanout hs' ((hw.1.arenas hi).mono hv.2.1)).bind fun _ v _ _ => keeps_pure _ v

theorem releases_fanout (items : List Nat) : ∀ {w : World}, s < w.stores.next →
    (∀ i ∈ items, w.Owns s i) → (items.forM (release s)).KeepsAt fanout w := by
  induction items with
  | nil => exact fun _ _ => keeps_pure () _
  | cons i items ih =>
    intro w hs ho
    refine (release_fanout hs (ho i List.mem_cons_self)).bind fun _ v _ hv => ?_
    exact ih (Nat.lt_of_lt_of_le hs hv.2.1.stores) fun j hj =>
      (ho j (List.mem_cons_of_mem i hj)).mono hv.2.1

/-- What is left of dropping a store whose items are gone. -/
theorem retire_fanout {x : Store} {name : String} {n : Nat} (hx : x.id = .drawn s) : (do
      unsubscribe x.affinity x.source
      modify (World.modifyStore s fun x => { x with dropped := true })
      notice (.storeDropped x.id name n) : Engine Unit).KeepsAt fanout w := by
  have he : (do
      unsubscribe x.affinity x.source
      modify (World.modifyStore s fun x => { x with dropped := true })
      notice (.storeDropped x.id name n) : Engine Unit) w = (.done (), { w with
        domains := (w.unsubscribing x.affinity x.source).domains
        stores := w.stores.modify s fun x => { x with dropped := true }
        history := .notice (.storeDropped x.id name n) :: w.history }) := by
    refine (bind_of_done (unsubscribe_apply _ _ _)).trans ?_
    cases x.affinity <;> rfl
  have hk : (do
      unsubscribe x.affinity x.source
      modify (World.modifyStore s fun x => { x with dropped := true })
      notice (.storeDropped x.id name n) : Engine Unit).KeepsAt (keeping s) w := by
    have c := (keeping_lawful s).toTending
    have hsrc : x.source.owner = .drawn s := hx
    refine (unsubscribe_keeps c.minding rfl _ hsrc w).bind fun _ v _ _ => ?_
    refine KeepsAt.bind ?_ fun _ z _ _ => keepsAt_modify (c.tending rfl (World.tending_notice ?_))
    · refine modifyStore_keeps c rfl (fun _ => ?_) v
      exact ⟨rfl, rfl, rfl, rfl⟩
    · simp [Notice.ofStore, hx]
  intro hw
  have hk := (hk hw.1).2
  rw [he] at hk ⊢
  refine fanout_noted hk ?_ rfl rfl (fun d => ?_) hw
  · rw [store, Heap.get_modify, if_pos rfl]
    rfl
  · simp [Happening.stirs, Store.source]

theorem dropStore_fanout (hs : s < w.stores.next) : (dropStore s).KeepsAt fanout w := by
  intro hw
  have hid := hw.1.ids hs
  refine keepsAt_get_bind ?_ hw
  refine (setArena_fanout fun i hi => ?_).bind fun _ v _ hv => ?_
  · have hi : i ∈ (w.store s).arena.drain.2.toList := hi
    rw [Arena.toList_drain] at hi
    cases hi
  · have hg := hv.2.1
    have ho : ∀ i ∈ (w.store s).arena.toList, v.Owns s i := fun i hi => (hw.1.arenas hi).mono hg
    exact (releases_fanout _ (Nat.lt_of_lt_of_le hs hg.stores) ho).bind fun _ _ _ _ =>
      retire_fanout hid

/-- A change of how a store is in use, which may be the end of it. -/
theorem thenDrop_fanout {f : Store → Store} (hs : s < w.stores.next)
    (hf : ∀ x, (f x).id = x.id ∧ (f x).arena = x.arena ∧ (f x).affinity = x.affinity ∧
      (f x).signal = x.signal) :
    (modify (World.modifyStore s f) >>= fun _ => dropIfIdle s).KeepsAt fanout w := by
  refine (modifyStore_fanout hf w).bind fun _ v _ hv => keepsAt_get_bind ?_
  dsimp only
  split
  · exact dropStore_fanout (Nat.lt_of_lt_of_le hs hv.2.1.stores)
  · exact keeps_pure () v

theorem buildStore_fanout (config : StoreConfig) {affinity : Option Nat} (ha : w.Offers affinity) :
    (buildStore config affinity).KeepsAt fanout w := by
  intro hw
  rw [buildStore_apply]
  cases config.aspects.validate with
  | error fault => exact ⟨hw, fanout.refl hw⟩
  | ok u =>
    obtain ⟨text, hh⟩ := w.history_founding config affinity
    have ho : (Source.store (.drawn w.stores.next)).owner = .drawn w.stores.next := rfl
    have hf {d : Nat} {source : Source} :
        ((w.founding config affinity).domain d).followers source = (w.domain d).followers source :=
      (w.withStore { id := .drawn w.stores.next, config, affinity }).followers_subscribing
        affinity ho
    refine ⟨⟨sound_founding hw.1 ha, fun t ht => ?_⟩, grows_founding, follows_of_same fun _ => hf⟩
    have ht : t < w.stores.next + 1 := by cases affinity <;> exact ht
    have hb : binding t (w.founding config affinity).history =
        if w.stores.next = t then some affinity else binding t w.history := by
      rw [hh]
      rfl
    rw [hb, store_founding]
    split
    · next h => rw [if_pos h.symm]
    · next h => rw [if_neg (Ne.symm h), hw.2 t (by omega)]

section Creating

variable (hw : ∀ i v, (write call i v).Keeps fanout)

include hw

theorem buildIn_fanout (id : ItemId) (name : String) (type : ValueType) {convert : Engine Value}
    (hc : convert.Keeps fanout) (hs : s < w.stores.next) {factory : Descriptor → Engine (List Nat)}
    (hf : w.Supplies fanout factory) :
    (buildIn call s id name type convert factory).KeepsAt fanout w := by
  intro hw₀
  have hid := hw₀.1.ids hs
  refine keepsAt_get_bind ((hf.keeps _ w).bind fun chain u hu hu' =>
    (hc u).bind fun value v hv hv' => ?_) hw₀
  have ha : v.Offers (w.store s).affinity := fun d hd => Nat.lt_of_lt_of_le
    (hw₀.1.storeAffinities hd) (hu'.2.1.trans hv'.2.1).domains
  have hch : v.Has chain := World.Has.mono (hf.chain hw₀ (Nat.le_refl _) hu) hv'.2.1.aspects
  have hs' := Nat.lt_of_lt_of_le hs (hu'.2.1.trans hv'.2.1).stores
  -- the item is made, and the store is subscribed to its source
  refine KeepsAt.bind (keepsAt_of_eq rfl (unstirred_of_same (sound_withItem ⟨s, hs', hid⟩ hch ha)
    (grows_withItem _) rfl rfl ⟨[_], by simp [Happening.binds], rfl⟩).holds) fun item x hx hx' => ?_
  have hi : x.Owns s item := by
    cases hx
    rw [World.Owns, World.item, Heap.get_push, if_pos rfl]
    exact ⟨Nat.lt_succ_self _, hid⟩
  have hs'' := Nat.lt_of_lt_of_le hs' hx'.2.1.stores
  have hsrc : (Source.item (w.store s).id id).owner = .drawn s := hid
  refine KeepsAt.bind (keepsAt_of_eq (subscribe_apply _ _ _ x)
    ((tending_subscribing _ hsrc hs'').unstirred fun _ => followers_subscribing _ hsrc).holds)
    fun _ y _ hy => (hc y).bind fun value z _ hz => (hw item value z).bind fun _ z' _ hz' => ?_
  replace hi := ((hi.mono hy.2.1).mono hz.2.1).mono hz'.2.1
  -- it is written, and settled in its slot
  have hq := z'.quiet_modifyItem item (f := fun i => { i with state := .live })
    (fun _ => ⟨rfl, rfl, rfl, rfl⟩) fun _ => .inl
  refine (unstirred_keepsAt ((hq.tending_of_item hi.2 fun _ => rfl).unstirred fun _ => rfl)).bind
    fun _ a _ ha => ?_
  replace hi := hi.mono ha.2.1
  refine KeepsAt.bind (setArena_fanout (w := a) fun i h => ?_) fun _ b _ _ => ?_
  · rcases Arena.mem_fill h with h | rfl
    · exact .inl h
    · exact .inr hi
  · refine (notice_fanout _ b).bind fun _ c _ _ => modifyStore_fanout (fun _ => ?_) c
    exact ⟨rfl, rfl, rfl, rfl⟩

theorem create_fanout (name : String) (value : Value) (hs : s < w.stores.next)
    {factory : Descriptor → Engine (List Nat)} (hf : w.Supplies fanout factory) :
    (create call s name value factory).KeepsAt fanout w := by
  refine keepsAt_get_bind ?_
  dsimp only
  split
  · exact keeps_pure _ w
  · split
    · exact keeps_pure _ w
    · next hr =>
      refine KeepsAt.bind (setArena_fanout fun i hi => .inl (Arena.mem_of_mem_reserve? hr i hi))
        fun _ u hu _ => ?_
      cases hu
      refine KeepsAt.bind ?_ fun _ v _ _ => keeps_pure _ v
      exact buildIn_fanout (w := w.modifyStore s _) hw _ name _ (keeps_pure value) hs
        ⟨hf.keeps, hf.chain⟩

end Creating

end Engine

end GuardedStore
