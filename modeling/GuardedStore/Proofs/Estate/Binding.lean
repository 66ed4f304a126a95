import GuardedStore.Proofs.Estate.Releasing

/-!
Building stores and binding them to another domain.

Binding a store to another domain takes the sources of all it retains out of the old one first. In
the new one the store is subscribed to none of them then, since that was not the domain it was bound
to; so it is subscribed to each just once in the end.
-/
namespace GuardedStore

namespace World

variable {s : Nat} {w : World}

def unbindingItems (affinity : Option Nat) (items : List Nat) (w : World) : World :=
  items.foldl (fun v i => v.unsubscribing affinity (v.item i).source) w

def bindingItem (s : Nat) (affinity : Option Nat) (i : Nat) (w : World) : World :=
  (w.modifyItem i fun x => { x with affinity }).subscribing affinity (w.item i).source (.store s)

def bindingItems (s : Nat) (affinity : Option Nat) (items : List Nat) (w : World) : World :=
  items.foldl (fun v i => v.bindingItem s affinity i) w

/-- The world after a store was bound to another domain. -/
def rebinding (s : Nat) (affinity : Option Nat) (w : World) : World :=
  let x := w.store s
  let v := (w.unsubscribing x.affinity x.source).unbindingItems x.affinity x.arena.toList
  let v := (v.subscribing affinity x.source (.store s)).bindingItems s affinity x.arena.toList
  { v with
    stores := v.stores.modify s fun x => { x with affinity }
    history := .bound s affinity :: .notice (.affinityChanged x.id (v.inspectAffinity x.affinity)
      (v.inspectAffinity affinity) x.arena.size) :: v.history }

/-- Only tables of domains differ. -/
theorem unbindingItems_only (affinity : Option Nat) (items : List Nat) : ∀ w : World,
    w.unbindingItems affinity items =
      { w with domains := (w.unbindingItems affinity items).domains } := by
  induction items with
  | nil => exact fun _ => rfl
  | cons i items ih =>
    intro w
    cases affinity <;> exact ih _

theorem tally_unbindingItems (affinity : Option Nat) (items : List Nat) (s d : Nat)
    (source : Source) : ∀ w : World,
      ((w.unbindingItems affinity items).domain d).tally s source =
        if affinity = some d ∧ source ∈ items.map fun i => (w.item i).source then 0
        else (w.domain d).tally s source := by
  induction items with
  | nil => exact fun _ => by simp [unbindingItems]
  | cons i items ih =>
    intro w
    have h (j : Nat) : (w.unsubscribing affinity (w.item i).source).item j = w.item j := by
      cases affinity <;> rfl
    change (((w.unsubscribing affinity (w.item i).source).unbindingItems affinity items).domain
      d).tally s source = _
    rw [ih, tally_unsubscribing]
    simp only [h, List.map_cons, List.mem_cons]
    grind

theorem item_bindingItem (s : Nat) (affinity : Option Nat) (i : Nat) (w : World) (j : Nat) :
    (w.bindingItem s affinity i).item j =
      if j = i then { w.item i with affinity } else w.item j := by
  unfold bindingItem
  cases affinity <;> exact w.items.get_modify i j _

theorem stores_bindingItems (s : Nat) (affinity : Option Nat) (items : List Nat) : ∀ w : World,
    (w.bindingItems s affinity items).stores = w.stores := by
  induction items with
  | nil => exact fun _ => rfl
  | cons i items ih => exact fun w => (ih _).trans (by cases affinity <;> rfl)

theorem item_bindingItems (s : Nat) (affinity : Option Nat) (items : List Nat) (j : Nat) :
    ∀ w : World, (w.bindingItems s affinity items).item j =
      if j ∈ items then { w.item j with affinity } else w.item j := by
  induction items with
  | nil => exact fun _ => by simp [bindingItems]
  | cons i items ih =>
    intro w
    refine (ih (w.bindingItem s affinity i)).trans ?_
    rw [item_bindingItem]
    by_cases hj : j = i
    · subst hj
      simp
    · simp [hj]

theorem tally_bindingItems (s : Nat) (affinity : Option Nat) (items : List Nat) (d : Nat)
    (source : Source) : ∀ w : World,
      ((w.bindingItems s affinity items).domain d).tally s source =
        (w.domain d).tally s source +
          if affinity = some d then (items.map fun i => (w.item i).source).count source else 0 := by
  induction items with
  | nil => exact fun _ => by simp [bindingItems]
  | cons i items ih =>
    intro w
    have hsrc (j : Nat) : ((w.bindingItem s affinity i).item j).source = (w.item j).source := by
      rw [item_bindingItem]
      split
      · next h => rw [h]; rfl
      · rfl
    have ht : ((w.bindingItem s affinity i).domain d).tally s source =
        (w.domain d).tally s source +
          if affinity = some d ∧ source = (w.item i).source then 1 else 0 :=
      tally_subscribing _ _ _ _ _ _
    change (((w.bindingItem s affinity i).bindingItems s affinity items).domain d).tally s source = _
    rw [ih, ht]
    simp only [hsrc, List.map_cons, List.count_cons]
    grind

theorem store_rebinding (s : Nat) (affinity : Option Nat) (w : World) :
    (w.rebinding s affinity).store s = { w.store s with affinity } := by
  have h (v : World) (hv : v.stores = w.stores) :
      Heap.get (v.stores.modify s fun x => { x with affinity }) s = { w.store s with affinity } := by
    rw [hv, Heap.get_modify, if_pos rfl]
    rfl
  refine h _ ?_
  refine (stores_bindingItems s affinity _ _).trans ?_
  rw [unbindingItems_only]
  cases affinity <;> cases (w.store s).affinity <;> rfl

theorem item_rebinding (s : Nat) (affinity : Option Nat) (w : World) (i : Nat) :
    (w.rebinding s affinity).item i =
      if i ∈ (w.store s).arena.toList then { w.item i with affinity } else w.item i := by
  refine (item_bindingItems s affinity _ i _).trans ?_
  rw [unbindingItems_only]
  cases affinity <;> cases (w.store s).affinity <;> rfl

theorem history_bindingItems (s : Nat) (affinity : Option Nat) (items : List Nat) :
    ∀ w : World, (w.bindingItems s affinity items).history = w.history := by
  induction items with
  | nil => exact fun _ => rfl
  | cons i items ih => exact fun w => (ih _).trans (by cases affinity <;> rfl)

theorem history_rebinding (s : Nat) (affinity : Option Nat) (w : World) :
    (w.rebinding s affinity).history.drop 2 = w.history := by
  refine (history_bindingItems s affinity _ _).trans ?_
  rw [unbindingItems_only]
  cases affinity <;> cases (w.store s).affinity <;> rfl

theorem registry_rebinding (s : Nat) (affinity : Option Nat) (w : World) (id : StoreId) :
    registry id (w.rebinding s affinity).history = registry id w.history := by
  rw [← history_rebinding s affinity w]
  rfl

theorem perished_rebinding (s : Nat) (affinity : Option Nat) (w : World) (source : Source) :
    perished source (w.rebinding s affinity).history = perished source w.history := by
  rw [← history_rebinding s affinity w]
  rfl

/-- The source of a store and those of the items in its slots. -/
def sources (w : World) (s : Nat) : List Source :=
  (w.store s).source :: (w.store s).arena.toList.map fun i => (w.item i).source

theorem tally_rebinding (s : Nat) (affinity : Option Nat) (w : World) (d : Nat)
    (source : Source) :
    ((w.rebinding s affinity).domain d).tally s source =
      (if (w.store s).affinity = some d ∧ source ∈ w.sources s then 0
        else (w.domain d).tally s source) +
        if affinity = some d then (w.sources s).count source else 0 := by
  have hi (a : Option Nat) (src : Source) (i : Nat) :
      (w.unsubscribing a src).item i = w.item i := by cases a <;> rfl
  have hi' (a b : Option Nat) (src : Source) (is : List Nat) (v : World) (i : Nat) :
      ((v.unbindingItems a is).subscribing b src (.store s)).item i = v.item i := by
    rw [unbindingItems_only]
    cases b <;> rfl
  refine (tally_bindingItems s affinity _ d source _).trans ?_
  rw [tally_subscribing, tally_unbindingItems, tally_unsubscribing]
  simp only [hi, hi', sources, List.mem_cons, List.count_cons]
  grind

theorem Tidy.covers (h : w.Tidy s) (hw : w.Sound) (hid : (w.store s).id = .drawn s)
    (source : Source) : w.Covers s source ↔ source ∈ w.sources s := by
  have hret {i : Nat} : w.Retains s i ↔ i ∈ (w.store s).arena.toList :=
    ⟨h.retained, fun hi => ⟨hw.arenas hi, by rw [h.live hi]; decide⟩⟩
  simp only [Covers, sources, hret, List.mem_cons, List.mem_map, Store.source, hid]

theorem unmoved_rebinding {affinity : Option Nat} (hk : w.Keeping s (w.rebinding s affinity)) :
    w.Unmoved s (w.rebinding s affinity) := by
  have hst := store_rebinding s affinity w
  refine ⟨by rw [hst], by rw [hst], by rw [hst], fun i => ?_, fun _ => hk.descriptor _, fun _ => ?_,
    registry_rebinding s affinity w _⟩
  · rw [Owns, Owns, hk.items, hk.descriptor]
  · rw [item_rebinding]
    split <;> rfl

theorem Tidy.nodup_sources (h : w.Tidy s) : (w.sources s).Nodup := by
  refine List.nodup_cons.mpr ⟨fun hm => ?_, List.Nodup.map_on (fun i hi j hj he => ?_) h.nodup⟩
  · obtain ⟨i, -, hi⟩ := List.mem_map.mp hm
    cases hi
  · injection he with _ he
    exact h.eq_of_id hi hj he

section Rebinding

variable {affinity : Option Nat} (hk : w.Keeping s (w.rebinding s affinity))

include hk

theorem owns_rebinding (i : Nat) : (w.rebinding s affinity).Owns s i ↔ w.Owns s i := by
  rw [Owns, Owns, hk.items, hk.descriptor]

theorem retains_rebinding (i : Nat) : (w.rebinding s affinity).Retains s i ↔ w.Retains s i := by
  have hstate : ((w.rebinding s affinity).item i).state = (w.item i).state := by
    rw [item_rebinding]
    split <;> rfl
  rw [Retains, Retains, owns_rebinding hk, hstate]

theorem source_rebinding (i : Nat) :
    ((w.rebinding s affinity).item i).source = (w.item i).source := by
  rw [Item.source, Item.source, hk.descriptor]

theorem bears_rebinding (h : w.Tidy s) (hw : w.Sound) (hid : (w.store s).id = .drawn s)
    {d : Nat} {source : Source} : (w.rebinding s affinity).Bears s d source ↔
      (w.store s).dropped = false ∧ affinity = some d ∧ source ∈ w.sources s := by
  rw [Bears, store_rebinding, covers_of_same (retains_rebinding hk) fun _ => source_rebinding hk _,
    h.covers hw hid]

omit hk in
/-- A store is subscribed to nothing where it is not bound, and to no source but its own. -/
theorem Bound.tally_eq_zero (hb : w.Bound s) (h : w.Tidy s) (hw : w.Sound)
    (hid : (w.store s).id = .drawn s) {d : Nat} {source : Source} (ho : source.owner = .drawn s)
    (hn : ¬ w.Meddled d source) (hd : (w.store s).affinity ≠ some d ∨ source ∉ w.sources s) :
    (w.domain d).tally s source = 0 := by
  refine hb.never ho hn fun h' => ?_
  rw [Bears, h.covers hw hid] at h'
  exact hd.elim (· h'.2.1) (· h'.2.2)

theorem Bound.rebinding (hb : w.Bound s) (h : w.Tidy s) (hw : w.Sound)
    (hid : (w.store s).id = .drawn s) (hdrop : (w.store s).dropped = false)
    (ha : (w.store s).affinity ≠ affinity) : (w.rebinding s affinity).Bound s := by
  have hm {d : Nat} {source : Source} (hm : ¬ (w.rebinding s affinity).Meddled d source) :
      ¬ w.Meddled d source := fun h => hm (h.mono hk.grows.history (hk.kind d))
  constructor
  case once =>
    intro d source ho hn hd
    obtain ⟨-, rfl, hsrc⟩ := (bears_rebinding hk h hw hid).mp hd
    rw [tally_rebinding, if_neg (ha ·.1), if_pos rfl,
      hb.tally_eq_zero h hw hid ho (hm hn) (.inl ha), List.count_eq_one_of_mem h.nodup_sources hsrc]
  case never =>
    intro d source ho hn hd
    have hcount : (if affinity = some d then (w.sources s).count source else 0) = 0 := by
      split
      · next h' =>
        exact List.count_eq_zero.mpr fun hsrc =>
          hd ((bears_rebinding hk h hw hid).mpr ⟨hdrop, h', hsrc⟩)
      · rfl
    rw [tally_rebinding, hcount, Nat.add_zero]
    split
    · rfl
    · next h' => exact hb.tally_eq_zero h hw hid ho (hm hn) (not_and_or.mp h')
  case items =>
    intro i hi
    rw [item_rebinding, if_pos (h.retained ((retains_rebinding hk i).mp hi)), store_rebinding]
  case told =>
    rw [store_rebinding]
    exact if_pos rfl
  case fate =>
    intro source hs
    rw [knows_of_same (owns_rebinding hk) fun _ => source_rebinding hk _] at hs
    rw [store_rebinding, covers_of_same (retains_rebinding hk) fun _ => source_rebinding hk _,
      ← hb.fate hs, perished_rebinding]

end Rebinding

/-- The world after a store was built. -/
def founding (config : StoreConfig) (affinity : Option Nat) (w : World) : World :=
  let id : StoreId := .drawn w.stores.next
  let v := (w.withStore { id, config, affinity }).subscribing affinity (.store id)
    (.store w.stores.next)
  { v with
    history := .notice (.storeCreated id config.name (v.inspectAffinity affinity)) ::
      .bound w.stores.next affinity :: v.history }

section Founding

variable {config : StoreConfig} {affinity : Option Nat}

theorem quiet_founding : (w.withStore { id := .drawn w.stores.next, config, affinity }).Quiet
    (w.founding config affinity) := by
  have hq := (w.withStore { id := .drawn w.stores.next, config, affinity }).quiet_subscribing
    affinity (.store (.drawn w.stores.next)) (x := .store w.stores.next) fun r hr => by
      cases hr
      exact Nat.lt_succ_self _
  exact (hq.trans (quiet_record rfl _)).trans (quiet_record rfl _)

theorem sound_founding (hw : w.Sound) (ha : w.Offers affinity) :
    (w.founding config affinity).Sound :=
  quiet_founding.sound (sound_withStore rfl rfl ha hw)

theorem grows_founding : w.Grows (w.founding config affinity) :=
  (grows_withStore _).trans quiet_founding.grows

theorem store_founding (t : Nat) : (w.founding config affinity).store t =
    if t = w.stores.next then { id := .drawn w.stores.next, config, affinity } else w.store t := by
  refine Eq.trans ?_ (w.store_withStore _ t)
  cases affinity <;> rfl

theorem history_founding (w : World) (c : StoreConfig) (affinity : Option Nat) : ∃ text,
    (w.founding c affinity).history =
      .notice (.storeCreated (.drawn w.stores.next) c.name text) ::
        .bound w.stores.next affinity :: w.history := by
  cases affinity <;> exact ⟨_, rfl⟩

theorem registry_founding (id : StoreId) :
    registry id (w.founding config affinity).history = registry id w.history := by
  refine (registry_cons rfl _).trans ((registry_cons rfl _).trans ?_)
  cases affinity <;> rfl

theorem spared_founding {t : Nat} (ht : t ≠ w.stores.next) :
    w.Spared t (w.founding config affinity) := by
  have hitem (i : Nat) : (w.founding config affinity).item i = w.item i := by
    cases affinity <;> rfl
  refine .of_same (fun i => ?_) (fun {i} _ => ?_) ?_ ?_ ?_ ?_
    fun {d source} ho hm => .inl ⟨?_, ?_⟩
  · rw [Owns, Owns, hitem]
    cases affinity <;> rfl
  · rw [hitem]
    exact ⟨rfl, rfl, rfl⟩
  · rw [store_founding, if_neg ht]
    exact .refl _
  · exact registry_founding _
  · obtain ⟨text, hh⟩ := w.history_founding config affinity
    have hb : (Happening.bound w.stores.next affinity).settles t = false :=
      decide_eq_false ht.symm
    rw [hh]
    exact @agree_append t [_, _] (by simpa [Happening.settles] using hb) w.history
  · cases affinity <;> rfl
  · exact fun h => hm (h.mono grows_founding.history (quiet_founding.kind d))
  · refine tally_subscribing_of_ne _ _ _ (fun he => ht ?_) t d
    rw [he] at ho
    exact (StoreId.drawn.inj ho).symm

theorem store_founding_next : (w.founding config affinity).store w.stores.next =
    { id := .drawn w.stores.next, config, affinity } :=
  (store_founding _).trans (if_pos rfl)

/-- No item was made for a store that was not there. -/
theorem not_owns_founding (hw : w.Sound) (i : Nat) :
    ¬ (w.founding config affinity).Owns w.stores.next i := by
  intro h
  have ho : w.Owns w.stores.next i := by
    rw [Owns] at h ⊢
    cases affinity <;> exact h
  obtain ⟨t, ht, ho'⟩ := hw.owners ho.1
  have := StoreId.drawn.inj (ho'.2.symm.trans ho.2)
  omega

theorem bears_founding (hw : w.Sound) {d : Nat} {source : Source} :
    (w.founding config affinity).Bears w.stores.next d source ↔
      affinity = some d ∧ source = .store (.drawn w.stores.next) := by
  rw [Bears, store_founding_next]
  constructor
  · rintro ⟨-, ha, hc⟩
    exact ⟨ha, hc.resolve_right fun h => h.elim fun i hi => not_owns_founding hw i hi.1.1⟩
  · rintro ⟨ha, hc⟩
    exact ⟨rfl, ha, .inl hc⟩

theorem tally_founding (d : Nat) (source : Source) :
    ((w.founding config affinity).domain d).tally w.stores.next source =
      (w.domain d).tally w.stores.next source +
        if affinity = some d ∧ source = .store (.drawn w.stores.next) then 1 else 0 :=
  (w.withStore { id := .drawn w.stores.next, config, affinity }).tally_subscribing affinity
    (.store (.drawn w.stores.next)) source w.stores.next d

theorem tidy_founding (hw : w.Sound) (hp : w.Proper) :
    (w.founding config affinity).Tidy w.stores.next := by
  have hst := @store_founding_next w config affinity
  have hreg : registry (.drawn w.stores.next) (w.founding config affinity).history = {} :=
    (registry_founding _).trans (hp.unissued (Nat.le_refl _))
  constructor
  case wellFormed =>
    rw [hst]
    exact Arena.wellFormed_empty
  case live =>
    intro i hi
    rw [hst] at hi
    cases hi
  case filed =>
    intro j i hi
    rw [hst] at hi
    cases Arena.lt_length_of_item hi
  case retained => exact fun {i} hi => absurd hi.1 (not_owns_founding hw i)
  case listed =>
    intro e
    rw [hreg, hst]
    simp [Arena.toList]
  case once =>
    rw [hreg]
    exact .nil
  case named =>
    intro name id
    rw [hreg, hst]
    simp
  case issues =>
    rw [hreg, hst]
    exact Arena.issues_empty
  case gone => exact fun {i} hi => absurd hi (not_owns_founding hw i)

/-- The new store is subscribed to its own source and to no other. -/
theorem bound_founding (hw : w.Sound) (hp : w.Proper) :
    (w.founding config affinity).Bound w.stores.next := by
  have hzero {d : Nat} {source : Source} (ho : source.owner = .drawn w.stores.next)
      (hm : ¬ (w.founding config affinity).Meddled d source) :
      (w.domain d).tally w.stores.next source = 0 :=
    hp.unbound (Nat.le_refl _) ho fun h => hm (h.mono grows_founding.history (quiet_founding.kind d))
  constructor
  case once =>
    intro d source ho hm h
    rw [tally_founding, hzero ho hm, if_pos ((bears_founding hw).mp h)]
  case never =>
    intro d source ho hm h
    rw [tally_founding, hzero ho hm, if_neg (mt (bears_founding hw).mpr h)]
  case items => exact fun {i} hi => absurd hi.1 (not_owns_founding hw i)
  case told =>
    rw [store_founding_next]
    exact if_pos rfl
  case fate =>
    intro source hk
    obtain ⟨text, hh⟩ := w.history_founding config affinity
    have hsrc := hk.resolve_right fun h => h.elim fun i hi => not_owns_founding hw i hi.1
    have hper : perished source (w.founding config affinity).history = false := by
      rw [hh]
      exact (hp.unfounded (Nat.le_refl _)).2 source hk.owner
    rw [hper, store_founding_next]
    simp [Covers, hsrc]

theorem inOrder_founding (hw : w.Sound) (hp : w.Proper) :
    (w.founding config affinity).InOrder w.stores.next where
  named := by
    rintro ⟨name, hn⟩
    have hn : w.names.stores.find? name = some w.stores.next := by cases affinity <;> exact hn
    exact absurd (hw.names.stores hn) (Nat.lt_irrefl _)
  used _ := by rw [store_founding_next]
  tidy _ _ := tidy_founding hw hp
  bound := bound_founding hw hp

theorem proper_founding (hw : w.Sound) (hp : w.Proper) : (w.founding config affinity).Proper where
  stores {t} ht := by
    by_cases he : t = w.stores.next
    · exact he ▸ inOrder_founding hw hp
    · have ht : t < w.stores.next + 1 := by cases affinity <;> exact ht
      exact (spared_founding he).inOrder hw (hp.stores (by omega))
  unissued {t} ht := by
    have ht : w.stores.next + 1 ≤ t := by cases affinity <;> exact ht
    rw [(spared_founding (by omega)).register, hp.unissued (by omega)]
  unused {t} ht := by
    have ht : w.stores.next + 1 ≤ t := by cases affinity <;> exact ht
    rw [store_founding, if_neg (by omega)]
    exact hp.unused (by omega)
  unbound {t d source} ht ho hm := by
    have ht : w.stores.next + 1 ≤ t := by cases affinity <;> exact ht
    rcases (spared_founding (by omega)).table ho hm with ⟨hm, htally⟩ | ⟨htally, -⟩
    · rw [htally, hp.unbound (by omega) ho hm]
    · exact htally
  single {n n' s} hn hn' := by
    have hnames : (w.founding config affinity).names = w.names := by cases affinity <;> rfl
    rw [hnames] at hn hn'
    exact hp.single hn hn'
  unfounded {t} ht := by
    have ht : w.stores.next + 1 ≤ t := by cases affinity <;> exact ht
    have ha : Agree t w.history (w.founding config affinity).history :=
      (spared_founding (by omega)).agree
    obtain ⟨hb, hf⟩ := hp.unfounded (s := t) (by omega)
    exact ⟨ha.binding.trans hb, fun source ho => (ha.fate ho).trans (hf source ho)⟩
  truthful := by
    obtain ⟨text, hh⟩ := w.history_founding config affinity
    exact hp.truthful.mono grows_founding ⟨[_, _], by simp [Happening.silent], hh⟩
  joined {d source x} hx := by
    have hx : x ∈ (((w.withStore { id := .drawn w.stores.next, config, affinity }).subscribing
      affinity (.store (.drawn w.stores.next)) (.store w.stores.next)).domain d).subscribers source :=
      hx
    rw [subscribers_subscribing] at hx
    have hold (hx : x ∈ (w.domain d).subscribers source) :
        (∃ r, x = .store r ∧ source.owner = .drawn r) ∨ (∃ r, x = .dependent r) ∧
          ∃ a, .subscribed a source ∈ (w.founding config affinity).history :=
      (hp.joined hx).imp_right fun ⟨hr, a, ha⟩ => ⟨hr, a, grows_founding.history.subset ha⟩
    split at hx
    · next h =>
      rcases List.mem_append.mp hx with hx | hx
      · exact hold hx
      · exact .inl ⟨_, List.mem_singleton.mp hx, by rw [h.2.2]; rfl⟩
    · exact hold hx

end Founding

end World

namespace Engine

open World

variable {T : Nat → Prop} {s : Nat} {affinity : Option Nat} {w : World}

theorem buildStore_apply (config : StoreConfig) (affinity : Option Nat) (w : World) :
    buildStore config affinity w =
      match config.aspects.validate with
      | .error fault => (.done (.error (.config fault)), w)
      | .ok _ => (.done (.ok w.stores.next), w.founding config affinity) := by
  unfold buildStore
  cases config.aspects.validate with
  | error fault => rfl
  | ok u => cases affinity <;> rfl

theorem buildStore_estate {config : StoreConfig} (ha : w.Offers affinity) :
    (buildStore config affinity).KeepsAt (estate T) w := by
  intro hw
  rw [buildStore_apply]
  cases config.aspects.validate with
  | error fault => exact ⟨hw, (estate T).refl hw⟩
  | ok u =>
    have hpw {w' : World} (hp : ¬ Panicked w'.history) (hg : w.Grows w') : w.Proper :=
      hw.2 fun h => hp (hg.panicked h)
    refine estate_holds (sound_founding hw.1 ha) grows_founding (fun hp => ?_) fun hp t _ => ?_
    · exact proper_founding hw.1 (hpw hp grows_founding)
    · by_cases ht : t = w.stores.next
      · obtain ⟨hsh, ho⟩ := (hpw hp grows_founding).unused (Nat.le_refl _)
        have hst : (w.founding config affinity).store t = _ := store_founding t
        rw [if_pos ht] at hst
        subst ht
        refine ⟨by rw [hst, hsh], by rw [hst, ho], fun hu => ?_, fun h => ?_⟩
        · rw [Store.inUse, hsh, ho] at hu
          cases hu
        · rw [ho] at h
          cases h
      · exact (spared_founding ht).leaves

theorem setAffinity_apply (s : Nat) (affinity : Option Nat) (w : World) :
    setAffinity s affinity w =
      if 0 < (w.store s).affinityReaders then (.stuck, w)
      else if (w.store s).affinity = affinity then (.done (), w)
      else (.done (), w.rebinding s affinity) := by
  unfold setAffinity
  refine (bind_of_done (m := Engine.get) rfl).trans ?_
  dsimp only
  split
  · rfl
  split
  · rfl
  · have hu := forM_apply (f := fun i => do unsubscribe (w.store s).affinity ((← get).item i).source)
      (g := fun i v => v.unsubscribing (w.store s).affinity (v.item i).source)
      (fun i v => unsubscribe_apply _ _ v)
    have hb := forM_apply (f := bindItem s affinity) (g := fun i v => v.bindingItem s affinity i)
      fun i v => by
        refine (bind_of_done (m := Engine.modify _) rfl).trans ?_
        refine (subscribe_apply _ _ _ _).trans ?_
        have hsrc : ((v.modifyItem i fun x => { x with affinity }).item i).source =
            (v.item i).source := by
          rw [item_modifyItem, if_pos rfl]
          rfl
        rw [hsrc]
        rfl
    refine (bind_of_done (unsubscribe_apply _ _ _)).trans ((bind_of_done (hu _ _)).trans ?_)
    refine (bind_of_done (subscribe_apply _ _ _ _)).trans ((bind_of_done (hb _ _)).trans ?_)
    rfl

theorem keeping_rebinding (hw : w.Sound) (hs : s < w.stores.next) (ha : w.Offers affinity)
    (hr : (w.store s).affinityReaders = 0) (hne : (w.store s).affinity ≠ affinity) :
    w.Keeping s (w.rebinding s affinity) := by
  have h := (setAffinity_keepsAt (keeping_lawful s).heeding rfl hs ha hw).2
  rwa [setAffinity_apply, if_neg (by omega), if_neg hne] at h

theorem setAffinity_estate (hs : w.Named s) (ho : (w.store s).owned = false)
    (ha : w.Offers affinity) : (setAffinity s affinity).KeepsAt (estate T) w := by
  intro hw
  rw [setAffinity_apply]
  split
  · exact ⟨hw, estate_stuck hw⟩
  split
  · exact ⟨hw, (estate T).refl hw⟩
  · next hr hne =>
    have hlt := hw.1.named hs
    have hk := keeping_rebinding hw.1 hlt ha (by omega) hne
    have hst := store_rebinding s affinity w
    have hu := unmoved_rebinding hk
    refine estate_keeping hk hlt hw (fun _ => ?_) fun hp hpw => ?_
    · exact ⟨by rw [hst], by rw [hst], fun _ => hu, fun h => absurd h (by simp [ho])⟩
    · have h := hpw.stores hlt
      have hd := (h.named hs).1
      refine ⟨fun _ => ?_, fun _ => ?_, fun _ _ => ?_, ?_⟩
      · rw [hst]
        exact h.named hs
      · rw [hst]
        exact hd
      · exact hu.tidy hw.1 (h.tidy hd ho)
      · exact h.bound.rebinding hk (h.tidy hd ho) hw.1 (hw.1.ids hlt) hd hne

end Engine

end GuardedStore
