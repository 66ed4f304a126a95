import GuardedStore.Proofs.Run.Factories

/-!
What stores do about their items and their binding.

What a store does stays within what is its own: the store itself, the items that bear its identity,
and the subscriptions to its own sources. A law that allows such changes to some stores is kept by
whatever these stores do.
-/
namespace GuardedStore

/-- The store that a source is, or that its item was made for. -/
def Source.owner : Source → StoreId
  | .store id | .item id _ => id

@[simp] theorem Descriptor.owner_source (d : Descriptor) : d.source.owner = d.store := rfl

@[simp] theorem Store.owner_source (s : Store) : s.source.owner = s.id := rfl

/-- Whether a notice is about the store of an identity and what it owns. -/
def Notice.ofStore (id : StoreId) : Notice → Bool
  | storeCreated store .. | storeDropped store .. | itemCreated store .. | itemDestroyed store ..
  | affinityChanged store .. => store = id
  | _ => false

/-- Whether a happening is the end of a store. -/
def Happening.drops (s : Nat) : Happening → Bool
  | .notice (.storeDropped id ..) => id = .drawn s
  | _ => false

def Happening.ofStore (s : Nat) : Happening → Bool
  | .bound t _ => t = s
  | .notice n => n.ofStore (.drawn s)
  | _ => false

namespace World

/-- A quiet change within what is a store's own, which concerns neither its signal nor a queue. -/
structure Keeping (s : Nat) (w w' : World) : Prop extends w.Quiet w' where
  signal : (w'.store s).signal = (w.store s).signal
  books : ∀ d, (w'.domain d).books = (w.domain d).books
  held : w'.held = w.held
  elsewhere : ∀ r, r ≠ s → w'.store r = w.store r
  strangers : ∀ i, (w.item i).descriptor.store ≠ .drawn s → w'.item i = w.item i
  table : ∀ d source, source.owner ≠ .drawn s →
    (w'.domain d).subscribers source = (w.domain d).subscribers source
  counts : ∀ d source, source.owner ≠ .drawn s →
    (w'.domain d).recorded source = (w.domain d).recorded source
  joined : ∀ {d source x}, x ∈ (w'.domain d).subscribers source →
    x ∈ (w.domain d).subscribers source ∨ x = .store s ∧ source.owner = .drawn s
  notes : ∃ notes, (∀ y ∈ notes, y.ofStore s) ∧ w'.history = notes ++ w.history

/-- The change leaves all bindings as they are. -/
structure Tending (s : Nat) (w w' : World) : Prop extends w.Keeping s w' where
  affinity : (w'.store s).affinity = (w.store s).affinity
  affinities : ∀ i, (w'.item i).affinity = (w.item i).affinity
  notices : ∃ notices : List Notice, (∀ n ∈ notices, n.ofStore (.drawn s)) ∧
    w'.history = notices.map .notice ++ w.history

theorem aside_of_ofStore {s : Nat} {y : Happening} (hy : y.ofStore s) : y.aside := by
  cases y <;> first | rfl | cases hy

theorem Keeping.refl (s : Nat) (w : World) : w.Keeping s w :=
  { Quiet.refl w with
    signal := rfl
    books := fun _ => rfl
    held := rfl
    elsewhere := fun _ _ => rfl
    strangers := fun _ _ => rfl
    table := fun _ _ _ => rfl
    counts := fun _ _ _ => rfl
    joined := .inl
    notes := ⟨[], by simp, rfl⟩ }

theorem Keeping.queue {s : Nat} {w w' : World} (h : w.Keeping s w') :
    ∀ d, (w'.domain d).queue = (w.domain d).queue :=
  queue_of_books h.books

theorem Keeping.trans {s : Nat} {u v w : World} (h : u.Keeping s v) (h' : v.Keeping s w) :
    u.Keeping s w :=
  { h.toQuiet.trans h'.toQuiet with
    signal := h'.signal.trans h.signal
    books := fun d => (h'.books d).trans (h.books d)
    held := h'.held.trans h.held
    elsewhere := fun r hr => (h'.elsewhere r hr).trans (h.elsewhere r hr)
    strangers := fun i hi =>
      (h'.strangers i (by rwa [h.descriptor])).trans (h.strangers i hi)
    table := fun d source ho => (h'.table d source ho).trans (h.table d source ho)
    counts := fun d source ho => (h'.counts d source ho).trans (h.counts d source ho)
    joined := fun hx => (h'.joined hx).elim h.joined .inr
    notes := by
      obtain ⟨a, ha, hh⟩ := h.notes
      obtain ⟨a', ha', hh'⟩ := h'.notes
      refine ⟨a' ++ a, fun x hx => ?_, by rw [hh', hh, List.append_assoc]⟩
      exact (List.mem_append.mp hx).elim (ha' x) (ha x) }

theorem Tending.refl (s : Nat) (w : World) : w.Tending s w :=
  { Keeping.refl s w with
    affinity := rfl
    affinities := fun _ => rfl
    notices := ⟨[], by simp, rfl⟩ }

variable {s : Nat} {w : World}

theorem keeping_record {y : Happening} (hy : y.ofStore s) :
    w.Keeping s { w with history := y :: w.history } :=
  { quiet_record (aside_of_ofStore hy) w, Keeping.refl s w with
    notes := ⟨[y], by simpa using hy, rfl⟩ }

theorem tending_notice {n : Notice} (hn : n.ofStore (.drawn s)) :
    w.Tending s { w with history := .notice n :: w.history } :=
  { keeping_record (y := .notice n) hn, Tending.refl s w with
    notices := ⟨[n], by simpa using hn, rfl⟩ }

theorem Quiet.tending_of_table {w' : World} (h : w.Quiet w') (hs : w'.stores = w.stores)
    (hi : w'.items = w.items) (hh : w'.history = w.history) (hheld : w'.held = w.held)
    (hb : ∀ d, (w'.domain d).books = (w.domain d).books)
    (ht : ∀ d source, source.owner ≠ .drawn s →
      (w'.domain d).subscribers source = (w.domain d).subscribers source ∧
        (w'.domain d).recorded source = (w.domain d).recorded source)
    (hj : ∀ {d source x}, x ∈ (w'.domain d).subscribers source →
      x ∈ (w.domain d).subscribers source ∨ x = .store s ∧ source.owner = .drawn s) :
    w.Tending s w' :=
  { h with
    signal := by rw [store, store, hs]
    books := hb
    held := hheld
    elsewhere := fun r _ => by rw [store, store, hs]
    strangers := fun i _ => by rw [item, item, hi]
    table := fun d source ho => (ht d source ho).1
    counts := fun d source ho => (ht d source ho).2
    joined := hj
    notes := ⟨[], by simp, hh⟩
    affinity := by rw [store, store, hs]
    affinities := fun i => by rw [item, item, hi]
    notices := ⟨[], by simp, hh⟩ }

theorem tending_subscribing (affinity : Option Nat) {source : Source}
    (ho : source.owner = .drawn s) (hs : s < w.stores.next) :
    w.Tending s (w.subscribing affinity source (.store s)) := by
  have hq := w.quiet_subscribing affinity source (x := .store s) fun r hr => by cases hr; exact hs
  have h : w.subscribing affinity source (.store s) = { w with
      domains := (w.subscribing affinity source (.store s)).domains } := by
    cases affinity <;> rfl
  refine hq.tending_of_table (by rw [h]) (by rw [h]) (by rw [h]) (by rw [h]) (by simp)
    (fun d src hsrc => ?_) fun {d src x} hx => ?_
  · have hne : src ≠ source := fun h => hsrc (h ▸ ho)
    rw [subscribers_subscribing, recorded_subscribing, if_neg (hne ·.2.2), if_neg (hne ·.2.2)]
    exact ⟨rfl, rfl⟩
  · rw [subscribers_subscribing] at hx
    split at hx
    · next hc =>
      rcases List.mem_append.mp hx with hx | hx
      · exact .inl hx
      · exact .inr ⟨List.mem_singleton.mp hx, hc.2.2 ▸ ho⟩
    · exact .inl hx

theorem tending_unsubscribing (affinity : Option Nat) {source : Source}
    (ho : source.owner = .drawn s) : w.Tending s (w.unsubscribing affinity source) := by
  have h : w.unsubscribing affinity source = { w with
      domains := (w.unsubscribing affinity source).domains } := by
    cases affinity <;> rfl
  refine (w.quiet_unsubscribing affinity source).tending_of_table (by rw [h]) (by rw [h])
    (by rw [h]) (by rw [h]) (by simp) (fun d src hsrc => ?_) fun {d src x} hx => ?_
  · have hne : src ≠ source := fun h => hsrc (h ▸ ho)
    rw [subscribers_unsubscribing, recorded_unsubscribing, if_neg (hne ·.2), if_neg (hne ·.2)]
    exact ⟨rfl, rfl⟩
  · rw [subscribers_unsubscribing] at hx
    split at hx
    · cases hx
    · exact .inl hx

theorem Quiet.keeping_of_store {f : Store → Store} (h : w.Quiet (w.modifyStore s f))
    (hf : ∀ x, (f x).signal = x.signal) : w.Keeping s (w.modifyStore s f) :=
  { h, Keeping.refl s w with
    signal := by rw [store_modifyStore, if_pos rfl, hf]
    elsewhere := fun r hr => by rw [store_modifyStore, if_neg hr] }

theorem Quiet.tending_of_store {f : Store → Store} (h : w.Quiet (w.modifyStore s f))
    (hf : ∀ x, (f x).signal = x.signal) (ha : ∀ x, (f x).affinity = x.affinity) :
    w.Tending s (w.modifyStore s f) :=
  { h.keeping_of_store hf, Tending.refl s w with
    affinity := by rw [store_modifyStore, if_pos rfl, ha] }

theorem Quiet.keeping_of_item {r : Nat} {f : Item → Item} (h : w.Quiet (w.modifyItem r f))
    (hr : (w.item r).descriptor.store = .drawn s) : w.Keeping s (w.modifyItem r f) :=
  { h, Keeping.refl s w with
    strangers := fun i hi => by
      rw [item_modifyItem, if_neg]
      rintro rfl
      exact hi hr }

theorem Quiet.tending_of_item {r : Nat} {f : Item → Item} (h : w.Quiet (w.modifyItem r f))
    (hr : (w.item r).descriptor.store = .drawn s) (ha : ∀ i, (f i).affinity = i.affinity) :
    w.Tending s (w.modifyItem r f) :=
  { h.keeping_of_item hr, Tending.refl s w with
    affinities := fun i => by
      rw [item_modifyItem]
      split
      · next hi => rw [ha, hi]
      · rfl }

/-- The store is in use as it was and is as present as it was, and nobody says that it is gone. -/
structure Steady (s : Nat) (w w' : World) : Prop where
  dropped : (w'.store s).dropped = (w.store s).dropped
  sharers : (w'.store s).sharers = (w.store s).sharers
  owned : (w'.store s).owned = (w.store s).owned
  replaced : (w'.store s).replaced = (w.store s).replaced
  notes : ∃ notes, (∀ y ∈ notes, y.drops s = false) ∧ w'.history = notes ++ w.history

theorem steady_of_stores {w' : World} (hs : w'.stores = w.stores)
    (hn : ∃ notes, (∀ y ∈ notes, y.drops s = false) ∧ w'.history = notes ++ w.history) :
    w.Steady s w' :=
  ⟨by rw [store, store, hs], by rw [store, store, hs], by rw [store, store, hs],
    by rw [store, store, hs], hn⟩

theorem steady_modifyStore {f : Store → Store} (hf : ∀ x, (f x).dropped = x.dropped ∧
    (f x).sharers = x.sharers ∧ (f x).owned = x.owned ∧ (f x).replaced = x.replaced) :
    w.Steady s (w.modifyStore s f) := by
  have hst : (w.modifyStore s f).store s = f (w.store s) := by rw [store_modifyStore, if_pos rfl]
  obtain ⟨h₁, h₂, h₃, h₄⟩ := hf (w.store s)
  exact ⟨hst ▸ h₁, hst ▸ h₂, hst ▸ h₃, hst ▸ h₄, [], by simp, rfl⟩

end World

/-- The law allows that stores with `T` see to their items without a change of any binding or of how
they are in use, and that it waits. -/
structure Law.Minding (L : Law) (T : Nat → Prop) : Prop where
  sound {w} : L.inv w → w.Sound
  grows {w e w'} : L.rel w e w' → w.Grows w'
  minding {w w' : World} {s} : T s → w.Tending s w' → w.Steady s w' → L.inv w →
    L.Holds w .done w'
  stuck {w} : L.inv w → L.rel w .stuck w

/-- The law allows whatever stores with `T` do about the items they have, short of a change of how
the stores are in use. -/
structure Law.Heeding (L : Law) (T : Nat → Prop) : Prop extends L.Minding T where
  heeding {w w' : World} {s} : T s → w.Keeping s w' → w.Steady s w' → L.inv w →
    L.Holds w .done w'

/-- The law allows new stores besides, and new items with `V`. -/
structure Law.Housing (L : Law) (T : Nat → Prop) (V : World → Item → Prop := fun _ _ => True) :
    Prop extends L.Heeding T where
  newStore {w : World} config {affinity} : T w.stores.next → w.Offers affinity →
    (Engine.newStore { id := .drawn w.stores.next, config, affinity }).KeepsAt L w
  newItem {w : World} {i : Item} {s} : T s → s < w.stores.next → i.descriptor.store = .drawn s →
    w.Has i.chain → w.Offers i.affinity → i.writes = 0 → V w i → (Engine.newItem i).KeepsAt L w

/-- The law allows that stores with `T` see to their items without a change of any binding, and
that it waits. -/
structure Law.Tending (L : Law) (T : Nat → Prop) : Prop where
  sound {w} : L.inv w → w.Sound
  grows {w e w'} : L.rel w e w' → w.Grows w'
  tending {w w' : World} {s} : T s → w.Tending s w' → L.inv w → L.Holds w .done w'
  stuck {w} : L.inv w → L.rel w .stuck w

/-- The law allows whatever stores with `T` do about the items they have. -/
structure Law.Keeping (L : Law) (T : Nat → Prop) : Prop extends L.Tending T where
  keeping {w w' : World} {s} : T s → w.Keeping s w' → L.inv w → L.Holds w .done w'

/-- The law allows whatever stores with `T` do, new stores and items with `V` among it. -/
structure Law.Storekeeping (L : Law) (T : Nat → Prop)
    (V : World → Item → Prop := fun _ _ => True) : Prop extends L.Keeping T where
  newStore {w : World} {s : Store} : T w.stores.next → s.id = .drawn w.stores.next →
    s.arena.toList = [] → w.Offers s.affinity → s.signal = {} → (Engine.newStore s).KeepsAt L w
  newItem {w : World} {i : Item} {s} : T s → s < w.stores.next → i.descriptor.store = .drawn s →
    w.Has i.chain → w.Offers i.affinity → i.writes = 0 → V w i → (Engine.newItem i).KeepsAt L w

theorem Law.Tending.minding {L : Law} {T : Nat → Prop} (c : L.Tending T) : L.Minding T :=
  { c with minding := fun ht h _ => c.tending ht h }

theorem Law.Keeping.heeding {L : Law} {T : Nat → Prop} (c : L.Keeping T) : L.Heeding T :=
  { c.minding with heeding := fun ht h _ => c.keeping ht h }

theorem Law.Storekeeping.housing {L : Law} {T : Nat → Prop} {V : World → Item → Prop}
    (c : L.Storekeeping T V) : L.Housing T V :=
  { c.heeding with
    newStore := fun _ _ ht ha => c.newStore ht rfl rfl ha rfl
    newItem := c.newItem }

/-- What is made into an item in this world has `V`: a value that was converted and a chain out of
the factory, in the world that they were got in. -/
def World.Builds (w : World) (V : World → Item → Prop) (type : ValueType) (convert : Engine Value)
    (factory : Descriptor → Engine (List Nat)) : Prop :=
  ∀ (d : Descriptor) chain u value v affinity, d.type = type → factory d w = (.done chain, u) →
    convert u = (.done value, v) → V v { descriptor := d, value, chain, affinity }

theorem World.builds_any (w : World) (type : ValueType) (convert : Engine Value)
    (factory : Descriptor → Engine (List Nat)) :
    w.Builds (fun _ _ => True) type convert factory :=
  fun _ _ _ _ _ _ _ _ _ => trivial

namespace Arena

variable {α : Type}

theorem mem_of_mem_remove? {a a' : Arena α} {id : ItemId} {x : α}
    (h : a.remove? id = some (x, a')) : x ∈ a.toList ∧ ∀ y ∈ a'.toList, y ∈ a.toList := by
  unfold remove? at h
  simp only [Option.bind_eq_bind, Option.bind_eq_some_iff, Option.some.injEq, Prod.mk.injEq] at h
  obtain ⟨_, hx, rfl, rfl⟩ := h
  refine ⟨mem_toList_of_get? hx, fun y hy => ?_⟩
  obtain ⟨s, hs, hy⟩ := List.mem_filterMap.mp hy
  rcases List.mem_or_eq_of_mem_set hs with hs | rfl
  · exact List.mem_filterMap.mpr ⟨s, hs, hy⟩
  · cases hy

theorem mem_of_mem_reserve? {a a' : Arena α} {id : ItemId} (h : a.reserve? = some (id, a')) :
    ∀ y ∈ a'.toList, y ∈ a.toList := by
  intro y hy
  unfold reserve? at h
  split at h
  · cases h
    exact hy
  · split at h
    · cases h
      simpa [toList] using hy
    · cases h

theorem mem_fill {a : Arena α} {id : ItemId} {x y : α} (h : y ∈ (a.fill id x).toList) :
    y ∈ a.toList ∨ y = x := by
  obtain ⟨s, hs, hy⟩ := List.mem_filterMap.mp h
  rcases List.mem_or_eq_of_mem_set hs with hs | rfl
  · exact .inl (List.mem_filterMap.mpr ⟨s, hs, hy⟩)
  · exact .inr (Option.some.inj hy).symm

end Arena

namespace Engine

variable {call : Nat → Engine Unit} {L : Law} {T : Nat → Prop} {s : Nat} {w : World}

section Minding

variable (c : L.Minding T) (ht : T s)

include c ht

theorem minding_keepsAt {f : World → World} (h : w.Tending s (f w)) (h' : w.Steady s (f w)) :
    (modify f).KeepsAt L w :=
  keepsAt_modify (c.minding ht h h')

theorem notice_keeps {n : Notice} (hn : n.ofStore (.drawn s))
    (hd : (Happening.notice n).drops s = false) : (notice n).Keeps L := fun _ =>
  minding_keepsAt c ht (World.tending_notice hn)
    (World.steady_of_stores rfl ⟨[.notice n], by simpa using hd, rfl⟩)

theorem unsubscribe_keeps (domain : Option Nat) {source : Source} (ho : source.owner = .drawn s) :
    (unsubscribe domain source).Keeps L := fun w =>
  keepsAt_of_eq (unsubscribe_apply domain source w)
    (c.minding ht (World.tending_unsubscribing domain ho)
      (World.steady_of_stores (by cases domain <;> rfl) ⟨[], by simp, by cases domain <;> rfl⟩))

theorem subscribe_keepsAt (domain : Option Nat) {source : Source} (ho : source.owner = .drawn s)
    (hs : s < w.stores.next) : (subscribe domain source (.store s)).KeepsAt L w :=
  keepsAt_of_eq (subscribe_apply domain source (.store s) w)
    (c.minding ht (World.tending_subscribing domain ho hs)
      (World.steady_of_stores (by cases domain <;> rfl) ⟨[], by simp, by cases domain <;> rfl⟩))

theorem setState_keepsAt {item : Nat} (state : ItemState)
    (hi : (w.item item).descriptor.store = .drawn s) :
    (modify (World.modifyItem item fun i => { i with state })).KeepsAt L w := by
  have hq := w.quiet_modifyItem item (f := fun i => { i with state })
    (fun _ => ⟨rfl, rfl, rfl, rfl⟩) fun _ => .inl
  exact minding_keepsAt c ht (hq.tending_of_item hi fun _ => rfl)
    (World.steady_of_stores rfl ⟨[], by simp, rfl⟩)

/-- The store's items are some of those it had, and others made for it. -/
theorem setArena_keepsAt {arena : Arena Nat}
    (ha : ∀ i ∈ arena.toList, i ∈ (w.store s).arena.toList ∨ w.Owns s i) :
    (modify (World.modifyStore s fun x => { x with arena })).KeepsAt L w := by
  have hq := w.quiet_modifyStore s (f := fun x => { x with arena }) (fun _ => rfl) ha fun _ => .inl
  exact minding_keepsAt c ht (hq.tending_of_store (fun _ => rfl) fun _ => rfl)
    (World.steady_modifyStore fun _ => ⟨rfl, rfl, rfl, rfl⟩)

/-- What a store's items are called. -/
theorem setNames_keeps (f : Table String ItemId → Table String ItemId) :
    (modify (World.modifyStore s fun x => { x with names := f x.names })).Keeps L := by
  intro w
  have hq := w.quiet_modifyStore_of_same s (f := fun x => { x with names := f x.names })
    fun _ => ⟨rfl, rfl, rfl⟩
  exact minding_keepsAt c ht (hq.tending_of_store (fun _ => rfl) fun _ => rfl)
    (World.steady_modifyStore fun _ => ⟨rfl, rfl, rfl, rfl⟩)

theorem release_keepsAt {item : Nat} (hs : s < w.stores.next) (hi : w.Owns s item) :
    (release s item).KeepsAt L w := by
  intro hw
  have hid := (c.sound hw).ids hs
  refine ((unsubscribe_keeps c ht _ ?_ w).bind fun _ u _ hu => ?_) hw
  · exact hi.2
  have hrest (v : World) (hg : w.Grows v) : (do
      modify (World.modifyItem item fun i => { i with state := .destroyed })
      notice (.itemDestroyed (w.store s).id (w.item item).descriptor.id
        (w.item item).descriptor.name)).KeepsAt L v := by
    refine (setState_keepsAt c ht _ (hi.mono hg).2).bind fun _ x _ _ => notice_keeps c ht ?_ rfl x
    simp [Notice.ofStore, hid]
  split
  · refine (setNames_keeps c ht (Table.erase · _) u).bind fun _ v _ hv => ?_
    exact hrest v ((c.grows hu.2).trans (c.grows hv.2))
  · exact hrest u (c.grows hu.2)

theorem releases_keepAt (items : List Nat) : ∀ {w : World}, s < w.stores.next →
    (∀ i ∈ items, w.Owns s i) → (items.forM (release s)).KeepsAt L w := by
  induction items with
  | nil => exact fun _ _ => keeps_pure () _
  | cons i items ih =>
    intro w hs ho
    refine (release_keepsAt c ht hs (ho i List.mem_cons_self)).bind fun _ v _ hv => ?_
    have hg := c.grows hv.2
    exact ih (Nat.lt_of_lt_of_le hs hg.stores) fun j hj =>
      (ho j (List.mem_cons_of_mem i hj)).mono hg

theorem destroy_keepsAt (key : Key) (hs : s < w.stores.next) : (destroy s key).KeepsAt L w := by
  intro hw
  refine keepsAt_get_bind ?_ hw
  dsimp only
  split
  · exact keeps_pure _ w
  · split
    · exact keeps_pure _ w
    · next item arena hr =>
      obtain ⟨hi, ha⟩ := Arena.mem_of_mem_remove? hr
      refine (setArena_keepsAt c ht fun i hi => .inl (ha i hi)).bind fun _ v _ hv => ?_
      have hg := c.grows hv.2
      have ho := ((c.sound hw).arenas hi).mono hg
      exact (release_keepsAt c ht (Nat.lt_of_lt_of_le hs hg.stores) ho).bind
        fun _ v _ _ => keeps_pure _ v

/-- An item is put into its slot and given its name. -/
theorem settle_keepsAt {item : Nat} (id : ItemId) (name : String) (type : ValueType)
    {owner : StoreId} (ho : owner = .drawn s) (hi : w.Owns s item) :
    (do
      modify (World.modifyItem item fun i => { i with state := .live })
      modify (World.modifyStore s fun s => { s with arena := s.arena.fill id item })
      notice (.itemCreated owner id name type)
      modify (World.modifyStore s fun s => { s with names := s.names.put name id })).KeepsAt L w := by
  refine (setState_keepsAt c ht .live hi.2).bind fun _ z _ hz => ?_
  replace hi := hi.mono (c.grows hz.2)
  refine KeepsAt.bind (setArena_keepsAt c ht (w := z) fun i h => ?_) fun _ z _ _ => ?_
  · rcases Arena.mem_fill h with h | rfl
    · exact .inl h
    · exact .inr hi
  · refine (notice_keeps c ht ?_ rfl z).bind fun _ z _ _ => setNames_keeps c ht (Table.put · _ _) z
    simp [Notice.ofStore, ho]

end Minding

section Tending

variable (c : L.Tending T) (ht : T s)

include c ht

/-- What a store counts, what its items are called and how it is in use. -/
theorem modifyStore_keeps {f : Store → Store}
    (hf : ∀ x, (f x).id = x.id ∧ (f x).arena = x.arena ∧ (f x).affinity = x.affinity ∧
      (f x).signal = x.signal) : (modify (World.modifyStore s f)).Keeps L := by
  intro w
  have hq := w.quiet_modifyStore_of_same s fun x => ⟨(hf x).1, (hf x).2.1, (hf x).2.2.1⟩
  exact keepsAt_modify
    (c.tending ht (hq.tending_of_store (fun x => (hf x).2.2.2) fun x => (hf x).2.2.1))

theorem dropStore_keepsAt (hs : s < w.stores.next) : (dropStore s).KeepsAt L w := by
  intro hw
  have hid := (c.sound hw).ids hs
  refine keepsAt_get_bind ?_ hw
  refine (setArena_keepsAt c.minding ht fun i hi => ?_).bind fun _ v _ hv => ?_
  · have hi : i ∈ (w.store s).arena.drain.2.toList := hi
    rw [Arena.toList_drain] at hi
    cases hi
  · have hg := c.grows hv.2
    have ho : ∀ i ∈ (w.store s).arena.toList, v.Owns s i := fun i hi =>
      ((c.sound hw).arenas hi).mono hg
    refine (releases_keepAt c.minding ht _ (Nat.lt_of_lt_of_le hs hg.stores) ho).bind fun _ x _ _ => ?_
    refine (unsubscribe_keeps c.minding ht _ ?_ x).bind fun _ y _ _ => ?_
    · exact hid
    · refine KeepsAt.bind ?_ fun _ z _ _ => keepsAt_modify (c.tending ht (World.tending_notice ?_))
      · refine modifyStore_keeps c ht (fun _ => ?_) y
        exact ⟨rfl, rfl, rfl, rfl⟩
      · simp [Notice.ofStore, hid]

theorem dropIfIdle_keepsAt (hs : s < w.stores.next) : (dropIfIdle s).KeepsAt L w := by
  refine keepsAt_get_bind ?_
  dsimp only
  split
  · exact dropStore_keepsAt c ht hs
  · exact keeps_pure () w

/-- A change of how a store is in use, which may be the end of it. -/
theorem thenDrop_keepsAt {f : Store → Store} (hs : s < w.stores.next)
    (hf : ∀ x, (f x).id = x.id ∧ (f x).arena = x.arena ∧ (f x).affinity = x.affinity ∧
      (f x).signal = x.signal) :
    (modify (World.modifyStore s f) >>= fun _ => dropIfIdle s).KeepsAt L w :=
  (modifyStore_keeps c ht hf w).bind fun _ _ _ hv =>
    dropIfIdle_keepsAt c ht (Nat.lt_of_lt_of_le hs (c.grows hv.2).stores)

theorem replace_keepsAt (hs : s < w.stores.next) : (replace s).KeepsAt L w :=
  thenDrop_keepsAt c ht hs fun _ => ⟨rfl, rfl, rfl, rfl⟩

theorem endSharing_keepsAt (hs : s < w.stores.next) : (endSharing s).KeepsAt L w :=
  thenDrop_keepsAt c ht hs fun _ => ⟨rfl, rfl, rfl, rfl⟩

theorem endOwning_keepsAt (hs : s < w.stores.next) : (endOwning s).KeepsAt L w :=
  thenDrop_keepsAt c ht hs fun _ => ⟨rfl, rfl, rfl, rfl⟩

end Tending

section Heeding

variable (c : L.Heeding T) (ht : T s)

include c ht

theorem bound_keeps (domain : Option Nat) : (record (.bound s domain)).Keeps L :=
  fun _ => keepsAt_modify (c.heeding ht (World.keeping_record (by simp [Happening.ofStore]))
    (World.steady_of_stores rfl ⟨[.bound s domain], by simp [Happening.drops], rfl⟩))

theorem bindItem_keepsAt {affinity : Option Nat} {item : Nat} (hs : s < w.stores.next)
    (hi : w.Owns s item) (ha : w.Offers affinity) : (bindItem s affinity item).KeepsAt L w := by
  have hq := w.quiet_modifyItem item (f := fun i => { i with affinity })
    (fun _ => ⟨rfl, rfl, rfl, rfl⟩) fun d hd => .inr (ha d hd)
  have hst : w.Steady s (w.modifyItem item fun i => { i with affinity }) :=
    World.steady_of_stores rfl ⟨[], by simp, rfl⟩
  refine (keepsAt_modify (c.heeding ht (hq.keeping_of_item hi.2) hst)).bind fun _ v hv _ => ?_
  refine keepsAt_get_bind ?_
  cases hv
  refine subscribe_keepsAt c.toMinding ht _ ?_ hs
  have hd := hq.descriptor item
  rw [Item.source, hd]
  exact hi.2

theorem bindItems_keepAt {affinity : Option Nat} (items : List Nat) :
    ∀ {w : World}, s < w.stores.next → (∀ i ∈ items, w.Owns s i) → w.Offers affinity →
      (items.forM (bindItem s affinity)).KeepsAt L w := by
  induction items with
  | nil => exact fun _ _ _ => keeps_pure () _
  | cons i items ih =>
    intro w hs ho ha
    refine (bindItem_keepsAt c ht hs (ho i List.mem_cons_self) ha).bind fun _ v _ hv => ?_
    have hg := c.grows hv.2
    exact ih (Nat.lt_of_lt_of_le hs hg.stores)
      (fun j hj => (ho j (List.mem_cons_of_mem i hj)).mono hg)
      fun d hd => Nat.lt_of_lt_of_le (ha d hd) hg.domains

theorem unbindItems_keepAt (affinity : Option Nat) (items : List Nat) :
    ∀ {w : World}, (∀ i ∈ items, w.Owns s i) →
      (items.forM fun i => do unsubscribe affinity ((← get).item i).source).KeepsAt L w := by
  induction items with
  | nil => exact fun _ => keeps_pure () _
  | cons i items ih =>
    intro w ho
    refine KeepsAt.bind (keepsAt_get_bind ?_) fun _ v _ hv => ?_
    · have hsrc : (w.item i).source.owner = .drawn s := (ho i List.mem_cons_self).2
      exact unsubscribe_keeps c.toMinding ht _ hsrc w
    · exact ih fun j hj => (ho j (List.mem_cons_of_mem i hj)).mono (c.grows hv.2)

theorem setAffinity_keepsAt {affinity : Option Nat} (hs : s < w.stores.next)
    (ha : w.Offers affinity) : (setAffinity s affinity).KeepsAt L w := by
  intro hw
  have hid := (c.sound hw).ids hs
  have ho (i : Nat) (hi : i ∈ (w.store s).arena.toList) : w.Owns s i := (c.sound hw).arenas hi
  have hsrc : (w.store s).source.owner = .drawn s := hid
  refine keepsAt_get_bind ?_ hw
  dsimp only
  split
  · exact keepsAt_wait_bind c.stuck
  split
  · exact keeps_pure () w
  refine (unsubscribe_keeps c.toMinding ht _ hsrc w).bind fun _ u _ hu => ?_
  have hg := c.grows hu.2
  refine (unbindItems_keepAt c ht _ _ fun i hi => (ho i hi).mono hg).bind fun _ v _ hv => ?_
  replace hg := hg.trans (c.grows hv.2)
  have hs' := Nat.lt_of_lt_of_le hs hg.stores
  refine (subscribe_keepsAt c.toMinding ht _ hsrc hs').bind fun _ x _ hx => ?_
  replace hg := hg.trans (c.grows hx.2)
  have ha' : x.Offers affinity := fun d hd => Nat.lt_of_lt_of_le (ha d hd) hg.domains
  refine (bindItems_keepAt c ht _ (Nat.lt_of_lt_of_le hs hg.stores)
    (fun i hi => (ho i hi).mono hg) ha').bind fun _ y _ hy => ?_
  replace hg := hg.trans (c.grows hy.2)
  refine keepsAt_get_bind ((notice_keeps c.toMinding ht ?_ rfl y).bind fun _ z _ hz => ?_)
  · simp [Notice.ofStore, hid]
  replace hg := hg.trans (c.grows hz.2)
  have hq := z.quiet_modifyStore s (f := fun x => { x with affinity }) (fun _ => rfl)
    (fun _ => .inl) fun d hd => .inr (Nat.lt_of_lt_of_le (ha d hd) hg.domains)
  refine (keepsAt_modify (c.heeding ht (hq.keeping_of_store fun _ => rfl)
    (World.steady_modifyStore fun _ => ⟨rfl, rfl, rfl, rfl⟩))).bind fun _ v _ _ => ?_
  exact bound_keeps c ht affinity v

end Heeding

section Housing

variable {V : World → Item → Prop} {type : ValueType} {convert : Engine Value}
  {factory : Descriptor → Engine (List Nat)} (c : L.Housing T V) (ht : T s)

include c ht

theorem buildIn_keepsAt (hw : ∀ {w i v u z}, w.Owns s i → (w.item i).descriptor.type = type →
      convert u = (.done v, z) → (write call i v).KeepsAt L w)
    (id : ItemId) (name : String) (hc : convert.Keeps L) (hs : s < w.stores.next)
    (hf : w.Supplies L factory) (hb : w.Builds V type convert factory) :
    (buildIn call s id name type convert factory).KeepsAt L w := by
  intro hw₀
  have hid := (c.sound hw₀).ids hs
  refine keepsAt_get_bind ((hf.keeps _ w).bind fun chain u hu hu' =>
    (hc u).bind fun value v hv hv' => ?_) hw₀
  have hg := c.grows hu'.2
  have hg' := c.grows hv'.2
  have ha : v.Offers (w.store s).affinity := fun d hd =>
    Nat.lt_of_lt_of_le ((c.sound hw₀).storeAffinities hd) (hg.trans hg').domains
  have hch : v.Has chain := World.Has.mono (hf.chain hw₀ (Nat.le_refl _) hu) hg'.aspects
  replace hg := hg.trans hg'
  have hs' := Nat.lt_of_lt_of_le hs hg.stores
  refine KeepsAt.bind (c.newItem ht hs' hid hch ha rfl (hb _ _ _ _ _ _ rfl hu hv)) fun item x hx hx' => ?_
  have hi : x.Owns s item ∧ (x.item item).descriptor.type = type := by
    cases hx
    rw [World.Owns, World.item, Heap.get_push, if_pos rfl]
    exact ⟨⟨Nat.lt_succ_self _, hid⟩, rfl⟩
  replace hg := hg.trans (c.grows hx'.2)
  have hs'' := Nat.lt_of_lt_of_le hs hg.stores
  refine (subscribe_keepsAt c.toMinding ht _ ?_ hs'').bind fun _ y _ hy =>
    (hc y).bind fun value z hz hz' => ?_
  · exact hid
  have hg := (c.grows hy.2).trans (c.grows hz'.2)
  replace hi : z.Owns s item ∧ (z.item item).descriptor.type = type :=
    ⟨hi.1.mono hg, by rw [hg.descriptor hi.1.1, hi.2]⟩
  refine (hw hi.1 hi.2 hz).bind fun _ y _ hy => ?_
  exact settle_keepsAt c.toMinding ht id name type hid (hi.1.mono (c.grows hy.2))

theorem createFrom_kept (hw : ∀ {w i v u z}, w.Owns s i → (w.item i).descriptor.type = type →
      convert u = (.done v, z) → (write call i v).KeepsAt L w)
    (name : String) (hc : convert.Keeps L) (hs : s < w.stores.next) (hf : w.Supplies L factory)
    (hb : ∀ f, (w.modifyStore s f).Builds V type convert factory) :
    (createFrom call s name type convert factory).KeepsAt L w := by
  refine keepsAt_get_bind ?_
  dsimp only
  split
  · exact keeps_pure _ w
  · split
    · exact keeps_pure _ w
    · next hr =>
      have ha := setArena_keepsAt c.toMinding ht (w := w) fun i hi =>
        .inl (Arena.mem_of_mem_reserve? hr i hi)
      refine KeepsAt.bind ha fun _ u hu _ => ?_
      cases hu
      refine KeepsAt.bind ?_ fun _ v _ _ => keeps_pure _ v
      exact buildIn_keepsAt c ht hw _ name hc hs ⟨hf.keeps, hf.chain⟩ (hb _)

/-- An item that holds what it is given writes values of its type only. -/
theorem create_kept (hw : ∀ {w i} v, w.Owns s i → v.type = (w.item i).descriptor.type →
      (write call i v).KeepsAt L w)
    (name : String) (value : Value) (hs : s < w.stores.next) (hf : w.Supplies L factory)
    (hb : ∀ f, (w.modifyStore s f).Builds V value.type (pure value) factory) :
    (create call s name value factory).KeepsAt L w := by
  refine createFrom_kept c ht (fun {_ _ v _ _} hi hd hv => ?_) name (keeps_pure value) hs hf hb
  cases hv
  exact hw value hi hd.symm

omit ht in
theorem buildStore_keepsAt (config : StoreConfig) {affinity : Option Nat}
    (ht : T w.stores.next) (ha : w.Offers affinity) :
    (buildStore config affinity).KeepsAt L w := by
  unfold buildStore
  split
  · exact keeps_pure _ w
  · refine keepsAt_get_bind ((c.newStore config ht ha).bind fun store v hv _ => ?_)
    have hs : store = w.stores.next ∧ store < v.stores.next := by
      cases hv
      exact ⟨rfl, Nat.lt_succ_self _⟩
    obtain ⟨rfl, hs⟩ := hs
    refine (bound_keeps c.toHeeding ht affinity v).bind fun _ x _ hx => ?_
    have hs' := Nat.lt_of_lt_of_le hs (c.grows hx.2).stores
    refine (subscribe_keepsAt c.toMinding ht _ rfl hs').bind fun _ x _ _ => ?_
    exact keepsAt_get_bind ((notice_keeps c.toMinding ht (by simp [Notice.ofStore]) rfl x).bind
      fun _ x _ _ => keeps_pure _ x)

end Housing

/-- Whatever is made of an item that the law says nothing of. -/
theorem createFrom_keepsAt (c : L.Housing T) (ht : T s)
    (hw : ∀ {w i} v, w.Owns s i → (write call i v).KeepsAt L w)
    (name : String) (type : ValueType) {convert : Engine Value} (hc : convert.Keeps L)
    {factory : Descriptor → Engine (List Nat)} (hs : s < w.stores.next)
    (hf : w.Supplies L factory) :
    (createFrom call s name type convert factory).KeepsAt L w :=
  createFrom_kept c ht (fun hi _ _ => hw _ hi) name hc hs hf fun _ => World.builds_any _ _ _ _

theorem create_keepsAt (c : L.Housing T) (ht : T s)
    (hw : ∀ {w i} v, w.Owns s i → (write call i v).KeepsAt L w)
    (name : String) (value : Value) {factory : Descriptor → Engine (List Nat)}
    (hs : s < w.stores.next) (hf : w.Supplies L factory) :
    (create call s name value factory).KeepsAt L w :=
  createFrom_keepsAt c ht hw name value.type (keeps_pure value) hs hf

end Engine

namespace Performing

variable {call : Nat → Engine Unit} {L : Law}

theorem buildStore_stored {config : StoreConfig} {affinity : Option Nat} {w v : World} {s : Nat}
    (h : Engine.buildStore config affinity w = (.done (.ok s), v)) : s < v.stores.next := by
  cases hv : config.aspects.validate with
  | error fault =>
    simp only [Engine.buildStore, hv] at h
    cases h
  | ok u =>
    simp only [Engine.buildStore, hv] at h
    cases affinity <;> cases h <;> exact Nat.lt_succ_self _

theorem rename_kept (hn : L.Renames) {f : Names → Names} {w : World}
    (hp : (f w.names).passages = w.names.passages)
    (hv : w.names.Valid w → (f w.names).Valid w)
    (hc : ∀ {x}, (f w.names).Calls x → w.names.Calls x) : (rename f).run.KeepsAt L w :=
  keepsAt_lift (Engine.keepsAt_modify (hn hp hv hc))

theorem newStore_kept (hs : ∀ {w}, L.inv w → w.Sound) (hn : L.Renames)
    (hb : ∀ {w : World} config {affinity}, w.Offers affinity →
      (Engine.buildStore config affinity).KeepsAt L w)
    (hr : ∀ {w : World} {s}, s < w.stores.next → (Engine.replace s).KeepsAt L w)
    (name : String) (plan : StorePlan) : (newStore name plan).run.Keeps L := by
  intro w hw
  refine (looks_settings plan).keepsAt_bind (fun x hx => ?_) hw
  refine keepsAt_bind (orFault_keepsAt (hb x.config (hx (hs hw).names))) fun store v hv hv' => ?_
  have hlt := buildStore_stored (eq_of_orFault hv)
  refine looks_world.keepsAt_bind fun u hu => ?_
  subst hu
  refine keepsAt_bind (rename_kept hn rfl (fun hn => ?_) id) fun _ y hy _ => ?_
  · exact { hn with
      stores := fun {name' r} hr => by
        simp only [Table.find?_put] at hr
        split at hr
        · cases hr; exact hlt
        · exact hn.stores hr }
  · refine keepsAt_bind ?_ fun _ v _ _ => keeps_pure _ v
    cases ho : u.names.stores.find? name with
    | none => exact keeps_pure _ y
    | some old =>
      cases hy
      exact keepsAt_lift (hr ((hs hv'.1).names.stores ho))

theorem dropStore_kept (hs : ∀ {w}, L.inv w → w.Sound) (hn : L.Renames)
    (hd : ∀ {w : World} {s}, s < w.stores.next → (w.store s).inUse = false →
      (Engine.dropStore s).KeepsAt L w) (name : String) : (dropStore name).run.Keeps L := by
  intro w hw
  refine (looks_storeNamed name).keepsAt_bind (fun s hs' =>
    (looks_checkUnused s).keepsAt_bind fun _ hu => ?_) hw
  refine keepsAt_bind (rename_kept hn rfl (fun hn => ?_) id) fun _ v hv _ => ?_
  · exact { hn with
      stores := fun {name' r} hr => by
        simp only [Table.find?_erase] at hr
        split at hr
        · cases hr
        · exact hn.stores hr }
  · cases hv
    exact keepsAt_lift_bind (hd ((hs hw).named hs') hu) fun _ v _ _ => keeps_pure _ v

theorem sharing_kept {α : Type} {m : Engine α} {w : World} {s : Nat}
    (hb : L.inv w → L.Holds w .done (w.share s)) (hm : m.KeepsAt L (w.share s))
    (he : ∀ o v, m (w.share s) = (o, v) → L.Holds (w.share s) o.ending v →
      (Engine.endSharing s).KeepsAt L v) :
    (Engine.modify (World.share s) >>= fun _ => Engine.ensure m (Engine.endSharing s)).KeepsAt L w :=
  Engine.keepsAt_modify_bind hb fun _ => hm.ensure fun o v hv hv' _ => he o v hv hv'

theorem owning_kept {α : Type} {s : Nat} {m : Performing α} {w : World}
    (h : (w.store s).inUse = false →
      (Engine.modify (World.own s) >>= fun _ =>
        Engine.ensure m.run (Engine.endOwning s)).KeepsAt L w) :
    (owning s m).run.KeepsAt L w :=
  (looks_checkUnused s).keepsAt_bind fun _ hu => (h hu).congr rfl

section Work

variable {T : Nat → Prop} {s : Nat} {w : World}

/-- What a call does that an item is created by, once the store belongs to it. -/
theorem creating_kept {V : World → Item → Prop} (c : L.Housing T V) (ht : T s)
    (b : Engine.Basics L)
    (hw : ∀ {w : World} {i} v, w.Owns s i → v.type = (w.item i).descriptor.type →
      (Engine.write call i v).KeepsAt L w)
    (hs : s < w.stores.next) (storeName key name : String) (type : ValueType)
    (argument : Literal) (convert : Option ArgumentType) (plan : FactoryPlan Script)
    (hb : ∀ {f v} value g, L.inv w → (factory s plan).run w = (.done (.ok f), v) →
      (v.modifyStore s g).Builds V value.type (pure value) f) :
    (do
      let factory ← factory s plan
      let value ← orUnreadable (argument.argument? type convert)
      let id ← orFault (Engine.create call s name value factory)
      let owner := ((← world).store s).id
      rename fun n => { n with keys := n.keys.put key ⟨storeName, ⟨owner, id, type⟩⟩ }
      return .created id : Performing Answer).run.KeepsAt L w := by
  intro hw'
  refine keepsAt_bind ((factory_brings b s plan).1 _) (fun f v hr hv => ?_) hw'
  have hf : v.Supplies L f := (factory_brings b s plan).2 hw' hr f rfl
  have hlt : s < v.stores.next := Nat.lt_of_lt_of_le hs (c.grows hv.2).stores
  refine (looks_orUnreadable _).keepsAt_bind fun value _ => ?_
  have hc := orFault_keepsAt (Engine.create_kept c ht hw name value hlt hf fun g => hb value g hw' hr)
  refine keepsAt_bind hc fun id u _ _ => looks_world.keepsAt_bind fun x _ => ?_
  exact keepsAt_bind (rename_keepsAt b rfl rfl (fun hn => { hn with }) .inl) fun _ v _ _ =>
    keeps_pure _ v

theorem creating_keepsAt (c : L.Housing T) (ht : T s) (b : Engine.Basics L)
    (hw : ∀ {w : World} {i} v, w.Owns s i → (Engine.write call i v).KeepsAt L w)
    (hs : s < w.stores.next) (storeName key name : String) (type : ValueType)
    (argument : Literal) (convert : Option ArgumentType) (plan : FactoryPlan Script) :
    (do
      let factory ← factory s plan
      let value ← orUnreadable (argument.argument? type convert)
      let id ← orFault (Engine.create call s name value factory)
      let owner := ((← world).store s).id
      rename fun n => { n with keys := n.keys.put key ⟨storeName, ⟨owner, id, type⟩⟩ }
      return .created id : Performing Answer).run.KeepsAt L w :=
  creating_kept c ht b (fun v hi _ => hw v hi) hs storeName key name type argument convert plan
    fun _ _ _ _ => World.builds_any _ _ _ _

/-- What a call does that an item is destroyed by, once the store belongs to it. -/
theorem destroying_keepsAt (c : L.Minding T) (ht : T s) (hs : s < w.stores.next) (key : Key) :
    (do
      orFault (Engine.destroy s key)
      return .ok : Performing Answer).run.KeepsAt L w :=
  keepsAt_bind (orFault_keepsAt (Engine.destroy_keepsAt c ht key hs)) fun _ v _ _ =>
    keeps_pure _ v

end Work

section Users

variable {T : Nat → Prop} {s : Nat} {w : World} (c : L.Tending T) (ht : T s)

include c ht

theorem shared_keepsAt {α : Type} {m : Engine α} (hs : s < w.stores.next)
    (hm : m.KeepsAt L (w.share s)) :
    (Engine.modify (World.share s) >>= fun _ => Engine.ensure m (Engine.endSharing s)).KeepsAt L w := by
  have hq := (World.quiet_share s w).tending_of_store (fun _ => rfl) fun _ => rfl
  refine sharing_kept (c.tending ht hq) hm fun o v _ hv => ?_
  exact Engine.endSharing_keepsAt c ht (Nat.lt_of_lt_of_le hs (c.grows hv.2).stores)

theorem owned_keepsAt {α : Type} {m : Engine α} (hs : s < w.stores.next)
    (hm : m.KeepsAt L (w.own s)) :
    (Engine.modify (World.own s) >>= fun _ => Engine.ensure m (Engine.endOwning s)).KeepsAt L w := by
  have hq := (World.quiet_own s w).tending_of_store (fun _ => rfl) fun _ => rfl
  refine Engine.keepsAt_modify_bind (c.tending ht hq) fun _ => ?_
  refine hm.ensure fun o v _ hv _ => ?_
  exact Engine.endOwning_keepsAt c ht (Nat.lt_of_lt_of_le hs (c.grows hv.2).stores)

end Users

section Storekeeping

variable {V : World → Item → Prop} (c : L.Storekeeping (fun _ => True) V)

include c

theorem newStore_keeps (hn : L.Renames) (name : String) (plan : StorePlan) :
    (newStore name plan).run.Keeps L :=
  newStore_kept c.sound hn (fun config => Engine.buildStore_keepsAt c.housing config trivial)
    (Engine.replace_keepsAt c.toTending trivial) name plan

theorem dropStore_keeps (hn : L.Renames) (name : String) : (dropStore name).run.Keeps L :=
  dropStore_kept c.sound hn (fun hs _ => Engine.dropStore_keepsAt c.toTending trivial hs) name

theorem create_kept (b : Engine.Basics L)
    (hw : ∀ {w : World} {i} v, i < w.items.next → v.type = (w.item i).descriptor.type →
      (Engine.write call i v).KeepsAt L w)
    (hb : ∀ {w v : World} {s plan f} value g, L.inv w →
      (factory s plan).run w = (.done (.ok f), v) →
      (v.modifyStore s g).Builds V value.type (pure value) f)
    (storeName key name : String) (type : ValueType) (argument : Literal)
    (convert : Option ArgumentType) (plan : FactoryPlan Script) :
    (create call storeName key name type argument convert plan).run.Keeps L := by
  intro w hw₀
  refine (looks_storeNamed _).keepsAt_bind (fun s hs => owning_kept fun _ => ?_) hw₀
  have hlt := (c.sound hw₀).named hs
  exact owned_keepsAt c.toTending trivial hlt
    (creating_kept (w := w.own s) c.housing trivial b (fun v hi => hw v hi.1) hlt _ _ _ _ _ _ _ hb)

theorem destroy_keeps (key : String) (store : Option String) :
    (destroy key store).run.Keeps L := by
  intro w hw
  refine (looks_named _ _ _).keepsAt_bind (fun k _ => (looks_presentedTo k store).keepsAt_bind
    fun s hs => owning_kept fun _ => ?_) hw
  have hlt := (c.sound hw).named hs
  exact owned_keepsAt c.toTending trivial hlt (destroying_keepsAt (w := w.own s) c.minding trivial hlt k.key)

end Storekeeping

theorem create_keeps (c : L.Storekeeping fun _ => True) (b : Engine.Basics L)
    (hw : ∀ {w : World} {i} v, i < w.items.next → (Engine.write call i v).KeepsAt L w)
    (storeName key name : String) (type : ValueType) (argument : Literal)
    (convert : Option ArgumentType) (plan : FactoryPlan Script) :
    (create call storeName key name type argument convert plan).run.Keeps L :=
  create_kept c b (fun v hi _ => hw v hi) (fun _ _ _ _ => World.builds_any _ _ _ _) storeName key name
    type argument convert plan

end Performing

end GuardedStore
