import GuardedStore.Proofs.Estate.Binding

/-!
Creating items.

While an item is being built it is retained, and so subscribed to, but has no slot and no name yet.
Its store belongs to the call that builds it, so whatever aspects and scripts do in the meantime
leaves the store as it was when the slot was reserved.
-/
namespace GuardedStore

namespace World

variable {s i : Nat} {w u u' : World} {e : Entry} {arena : Arena Nat}

/-- The world after an item was made and subscribed to. -/
def building (s : Nat) (i : Item) (w : World) : World :=
  (w.withItem i).subscribing i.affinity i.source (.store s)

/-- The world after an item was put into its slot and given its name. -/
def settling (s i : Nat) (owner : StoreId) (e : Entry) (w : World) : World :=
  { w with
    items := w.items.modify i fun x => { x with state := .live }
    stores := (w.stores.modify s fun x => { x with arena := x.arena.fill e.id i }).modify s
      fun x => { x with names := x.names.put e.name e.id }
    history := .notice (.itemCreated owner e.id e.name e.type) :: w.history }

/-- The store is as it was but for a slot reserved and an item that is to go there. -/
structure Raising (s i : Nat) (e : Entry) (arena : Arena Nat) (w u : World) : Prop where
  arena : (u.store s).arena = arena
  names : (u.store s).names = (w.store s).names
  owns : ∀ j, u.Owns s j ↔ w.Owns s j ∨ j = i
  new : ¬ w.Owns s i
  descriptor : ∀ {j}, w.Owns s j → (u.item j).descriptor = (w.item j).descriptor
  state : ∀ {j}, w.Owns s j → (u.item j).state = (w.item j).state
  entry : (u.item i).entry = e
  uninitialized : (u.item i).state = .uninitialized
  register : registry (.drawn s) u.history = registry (.drawn s) w.history

theorem Raising.unmoved (h : Raising s i e arena w u) (hu : u.Unmoved s u') :
    Raising s i e arena w u' where
  arena := hu.arena.trans h.arena
  names := hu.names.trans h.names
  owns j := (hu.owns j).trans (h.owns j)
  new := h.new
  descriptor hj := (hu.descriptor ((h.owns _).mpr (.inl hj))).trans (h.descriptor hj)
  state hj := (hu.state ((h.owns _).mpr (.inl hj))).trans (h.state hj)
  entry := by
    rw [← h.entry, Item.entry, Item.entry, hu.descriptor ((h.owns _).mpr (.inr rfl))]
  uninitialized := (hu.state ((h.owns _).mpr (.inr rfl))).trans h.uninitialized
  register := hu.register.trans h.register

theorem store_settling (s i : Nat) (owner : StoreId) (e : Entry) (w : World) :
    (w.settling s i owner e).store s = { w.store s with
      arena := (w.store s).arena.fill e.id i
      names := (w.store s).names.put e.name e.id } := by
  change Heap.get _ s = _
  refine (Heap.get_modify _ s s _).trans ?_
  rw [if_pos rfl, Heap.get_modify, if_pos rfl]
  rfl

theorem item_settling (s i : Nat) (owner : StoreId) (e : Entry) (w : World) (j : Nat) :
    (w.settling s i owner e).item j = if j = i then { w.item i with state := .live } else w.item j :=
  w.items.get_modify i j _

/-- The id of a slot that is vacant is not that of a live item. -/
theorem Tidy.ne_of_reserve? (ht : w.Tidy s) {id : ItemId}
    (hr : (w.store s).arena.reserve? = some (id, arena)) {e : Entry}
    (he : e ∈ (registry (.drawn s) w.history).live) : e.id ≠ id := by
  obtain ⟨j, hj, rfl⟩ := (ht.listed e).mp he
  intro hid
  have := (Arena.get?_eq_some.mp (ht.slot hj)).1
  rw [show (w.item j).descriptor.id = id from hid, (ht.wellFormed.reserves hr).vacant] at this
  cases this

/-- A name that was free stands for the new item, and all others for what they stood for. -/
theorem Tidy.named_create (ht : w.Tidy s) (hn : (w.store s).names.find? e.name = none)
    (name : String) (id : ItemId) :
    ((w.store s).names.put e.name e.id).find? name = some id ↔
      ∃ e' ∈ ((registry (.drawn s) w.history).create e).live, e'.name = name ∧ e'.id = id := by
  rw [Registry.create, Table.find?_put]
  simp only [List.mem_cons, exists_eq_or_imp]
  split
  · next hname =>
    subst hname
    constructor
    · intro h
      exact .inl ⟨rfl, Option.some.inj h⟩
    · rintro (⟨-, rfl⟩ | ⟨e', he, hname, -⟩)
      · rfl
      · have := (ht.named _ _).mpr ⟨e', he, hname, rfl⟩
        rw [hn] at this
        cases this
  · next hne =>
    rw [ht.named]
    exact ⟨.inr, fun h => h.resolve_left fun h => hne h.1.symm⟩

namespace Raising

variable (h : Raising s i e arena w u)

include h

theorem store_settling : (u.settling s i (.drawn s) e).store s = { u.store s with
    arena := arena.fill e.id i
    names := (w.store s).names.put e.name e.id } := by
  rw [World.store_settling, h.arena, h.names]

theorem registry_settling : registry (.drawn s) (u.settling s i (.drawn s) e).history =
    (registry (.drawn s) w.history).create e := by
  rw [← h.register]
  exact if_pos rfl

/-- The items that the store had are as they were. -/
theorem item_settling {j : Nat} (hj : w.Owns s j) :
    (u.settling s i (.drawn s) e).item j = u.item j := by
  rw [World.item_settling, if_neg]
  rintro rfl
  exact h.new hj

theorem entry_settling {j : Nat} (hj : w.Owns s j) :
    ((u.settling s i (.drawn s) e).item j).entry = (w.item j).entry := by
  rw [h.item_settling hj, Item.entry, Item.entry, h.descriptor hj]

theorem entry_self : ((u.settling s i (.drawn s) e).item i).entry = e := by
  rw [World.item_settling, if_pos rfl]
  exact h.entry

theorem owns_settling {j : Nat} (hj : (u.settling s i (.drawn s) e).Owns s j) :
    w.Owns s j ∨ j = i := by
  by_cases hji : j = i
  · exact .inr hji
  · refine .inl (((h.owns j).mp ?_).resolve_right hji)
    rwa [Owns, World.item_settling, if_neg hji] at hj

variable (ht : w.Tidy s) (hw : w.Sound)
  (hr : (w.store s).arena.reserve? = some (e.id, arena))

include ht hw hr

theorem filed {k : UInt32} {j : Nat} (hk : ((arena.fill e.id i).slot k).item = some j) :
    ((u.settling s i (.drawn s) e).item j).descriptor.id =
      ⟨k, ((arena.fill e.id i).slot k).generation⟩ := by
  rw [(ht.wellFormed.reserves hr).slot_fill] at hk ⊢
  split at hk
  · next he =>
    cases hk
    rw [if_pos he, he]
    exact congrArg Entry.id h.entry_self
  · next hne =>
    have hj := hw.arenas ((Arena.mem_toList ht.wellFormed.bounded).mpr ⟨k, hk⟩)
    rw [if_neg hne, h.item_settling hj, h.descriptor hj, ht.filed hk]

theorem listed (e' : Entry) : e' ∈ ((registry (.drawn s) w.history).create e).live ↔
    ∃ j ∈ (arena.fill e.id i).toList, ((u.settling s i (.drawn s) e).item j).entry = e' := by
  rw [Registry.create, List.mem_cons, ht.listed]
  simp only [ht.wellFormed.mem_fill hr]
  constructor
  · rintro (rfl | ⟨j, hj, rfl⟩)
    · exact ⟨i, .inr rfl, h.entry_self⟩
    · exact ⟨j, .inl hj, h.entry_settling (hw.arenas hj)⟩
  · rintro ⟨j, hj | rfl, rfl⟩
    · exact .inr ⟨j, hj, (h.entry_settling (hw.arenas hj)).symm⟩
    · exact .inl h.entry_self

omit hw in
/-- An item that was destroyed before is not the new one, nor has it that one's id. -/
theorem gone {j : Nat} (hj : (u.settling s i (.drawn s) e).Owns s j)
    (hx : ((u.settling s i (.drawn s) e).item j).state = .destroyed)
    (few : ((registry (.drawn s) w.history).create e).issued.length ≤ UInt32.size) :
    ((u.settling s i (.drawn s) e).item j).descriptor.id ∈
        ((registry (.drawn s) w.history).create e).issued ∧
      ∀ e' ∈ ((registry (.drawn s) w.history).create e).live,
        e'.id ≠ ((u.settling s i (.drawn s) e).item j).descriptor.id := by
  rcases h.owns_settling hj with hj | rfl
  · rw [h.item_settling hj] at hx ⊢
    rw [h.state hj] at hx
    rw [h.descriptor hj]
    obtain ⟨hpast, hnone⟩ := ht.gone hj hx (Nat.le_of_succ_le few)
    refine ⟨List.mem_cons_of_mem _ hpast, fun e' he => ?_⟩
    rcases List.mem_cons.mp he with rfl | he
    · exact fun hsame => ht.issues.unissued ht.wellFormed hr few (hsame ▸ hpast)
    · exact hnone e' he
  · rw [World.item_settling, if_pos rfl] at hx
    cases hx

/-- A store that was tidy is so again when the item is in its slot. -/
theorem tidy (hn : (w.store s).names.find? e.name = none) :
    (u.settling s i (.drawn s) e).Tidy s := by
  have hst := h.store_settling
  have hreg := h.registry_settling
  constructor
  case wellFormed =>
    rw [hst]
    exact ht.wellFormed.fill hr i
  case live =>
    intro j hj
    rw [hst, ht.wellFormed.mem_fill hr] at hj
    rcases hj with hj | rfl
    · rw [h.item_settling (hw.arenas hj), h.state (hw.arenas hj), ht.live hj]
    · rw [World.item_settling, if_pos rfl]
  case filed =>
    rw [hst]
    exact h.filed ht hw hr
  case retained =>
    rintro j ⟨hj, hs⟩
    rw [hst, ht.wellFormed.mem_fill hr]
    refine (h.owns_settling hj).imp_left fun hj => ?_
    rw [h.item_settling hj, h.state hj] at hs
    exact ht.retained ⟨hj, hs⟩
  case listed =>
    rw [hreg, hst]
    exact h.listed ht hw hr
  case once =>
    rw [hreg]
    exact List.nodup_cons.mpr ⟨fun he => ht.ne_of_reserve? hr he rfl, ht.once⟩
  case named =>
    rw [hreg, hst]
    exact ht.named_create hn
  case issues =>
    rw [hreg, hst]
    exact ht.issues.fill ht.wellFormed hr i
  case gone =>
    rw [hreg]
    exact h.gone ht hr

end Raising

section Building

variable {x : Item}

theorem item_building (s : Nat) (x : Item) (w : World) (j : Nat) :
    (w.building s x).item j = if j = w.items.next then x else w.item j := by
  refine Eq.trans ?_ (w.item_withItem x j)
  unfold building
  cases x.affinity <;> rfl

theorem store_building (s : Nat) (x : Item) (w : World) (t : Nat) :
    (w.building s x).store t = w.store t := by
  unfold building
  cases x.affinity <;> rfl

theorem owns_building (hx : x.descriptor.store = .drawn s) (t j : Nat) :
    (w.building s x).Owns t j ↔ w.Owns t j ∨ t = s ∧ j = w.items.next := by
  have hn : (w.building s x).items.next = w.items.next + 1 := by
    unfold building
    cases x.affinity <;> rfl
  rw [Owns, Owns, hn, item_building]
  by_cases hj : j = w.items.next
  · have hts : StoreId.drawn s = .drawn t ↔ t = s :=
      ⟨fun h => (StoreId.drawn.inj h).symm, fun h => h ▸ rfl⟩
    simp [hj, hx, hts]
  · simp [hj]
    omega

theorem quiet_building (hs : s < w.stores.next) : (w.withItem x).Quiet (w.building s x) :=
  (w.withItem x).quiet_subscribing _ _ fun r hr => by
    cases hr
    exact hs

theorem grows_building (hs : s < w.stores.next) : w.Grows (w.building s x) :=
  (grows_withItem x).trans (quiet_building hs).grows

theorem sound_building (hw : w.Sound) (hs : s < w.stores.next)
    (hx : x.descriptor.store = .drawn s) (hc : w.Has x.chain) (ha : w.Offers x.affinity) :
    (w.building s x).Sound :=
  (quiet_building hs).sound (sound_withItem ⟨s, hs, hx⟩ hc ha hw)

theorem history_building (s : Nat) (x : Item) (w : World) :
    (w.building s x).history = .made w.items.next x :: w.history := by
  unfold building
  cases x.affinity <;> rfl

theorem registry_building (s : Nat) (x : Item) (w : World) (id : StoreId) :
    registry id (w.building s x).history = registry id w.history := by
  rw [history_building]
  exact registry_cons rfl _

theorem agree_building (hx : x.descriptor.store = .drawn s) {t : Nat} (ht : t ≠ s) :
    Agree t w.history (w.building s x).history := by
  have hy : (Happening.made w.items.next x).settles t = false := by
    rw [Happening.settles, hx]
    exact decide_eq_false fun he => ht (StoreId.drawn.inj he).symm
  rw [history_building]
  exact agree_cons hy _

theorem spared_building (hs : s < w.stores.next) (hx : x.descriptor.store = .drawn s) {t : Nat}
    (ht : t ≠ s) : w.Spared t (w.building s x) := by
  refine .of_same (fun j => ?_) (fun {j} hj => ?_) ?_ (registry_building s x w _)
    (agree_building hx ht) ?_ fun {d source} ho hm => .inl ⟨?_, ?_⟩
  · rw [owns_building hx]
    simp [ht]
  · rw [item_building, if_neg (Nat.ne_of_lt hj.1)]
    exact ⟨rfl, rfl, rfl⟩
  · rw [store_building]
    exact .refl _
  · unfold building
    cases x.affinity <;> rfl
  · exact fun h => hm (h.mono (grows_building hs).history ((quiet_building hs).kind d))
  · refine tally_subscribing_of_ne _ _ _ (fun he => ht ?_) t d
    rw [he] at ho
    exact (StoreId.drawn.inj (ho.symm.trans hx))

theorem item_building_of_owns {t j : Nat} (hj : w.Owns t j) :
    (w.building s x).item j = w.item j := by
  rw [item_building, if_neg (Nat.ne_of_lt hj.1)]

theorem item_building_next : (w.building s x).item w.items.next = x := by
  rw [item_building, if_pos rfl]

theorem retains_building (hx : x.descriptor.store = .drawn s) (hu : x.state = .uninitialized)
    (j : Nat) : (w.building s x).Retains s j ↔ w.Retains s j ∨ j = w.items.next := by
  rw [Retains, Retains, owns_building hx, item_building]
  by_cases hj : j = w.items.next
  · have hnext : ¬ w.Owns s w.items.next := fun h => Nat.lt_irrefl _ h.1
    simp [hj, hu, hnext]
  · simp [hj]

/-- The source of the item is one that the store is to be subscribed to. -/
theorem covers_building (hx : x.descriptor.store = .drawn s) (hu : x.state = .uninitialized)
    (source : Source) : (w.building s x).Covers s source ↔ w.Covers s source ∨ source = x.source := by
  have hret := @retains_building s w x hx hu
  constructor
  · rintro (h | ⟨j, hj, rfl⟩)
    · exact .inl (.inl h)
    · rcases (hret j).mp hj with hj | rfl
      · exact .inl (.inr ⟨j, hj, by rw [item_building_of_owns hj.1]⟩)
      · exact .inr (by rw [item_building_next])
  · rintro ((h | ⟨j, hj, rfl⟩) | rfl)
    · exact .inl h
    · exact .inr ⟨j, (hret j).mpr (.inl hj), by rw [item_building_of_owns hj.1]⟩
    · exact .inr ⟨_, (hret _).mpr (.inr rfl), by rw [item_building_next]⟩

theorem tally_building (s : Nat) (x : Item) (w : World) (d : Nat) (source : Source) :
    ((w.building s x).domain d).tally s source =
      (w.domain d).tally s source + if x.affinity = some d ∧ source = x.source then 1 else 0 :=
  (w.withItem x).tally_subscribing _ _ _ s d

theorem perished_building (s : Nat) (x : Item) (w : World) (source : Source) :
    perished source (w.building s x).history =
      if x.source = source then false else perished source w.history := by
  rw [history_building]
  rfl

theorem knows_building (hx : x.descriptor.store = .drawn s) {source : Source}
    (hs : x.source ≠ source) (hk : (w.building s x).Knows s source) : w.Knows s source := by
  refine hk.imp_right fun ⟨j, hj, hjs⟩ => ?_
  rcases (owns_building hx s j).mp hj with hj | ⟨-, rfl⟩
  · exact ⟨j, hj, by rwa [item_building_of_owns hj] at hjs⟩
  · rw [item_building_next] at hjs
    exact absurd hjs hs

/-- The store is subscribed to a source that is new to it. -/
theorem Bound.building (hb : w.Bound s) (hs : s < w.stores.next)
    (hx : x.descriptor.store = .drawn s) (hu : x.state = .uninitialized)
    (ha : x.affinity = (w.store s).affinity) (hd : (w.store s).dropped = false)
    (hn : ¬ w.Covers s x.source) : (w.building s x).Bound s := by
  have hm {d : Nat} {source : Source} (hm : ¬ (w.building s x).Meddled d source) :
      ¬ w.Meddled d source :=
    fun h => hm (h.mono (grows_building hs).history ((quiet_building hs).kind d))
  have hbears {d : Nat} {source : Source} : (w.building s x).Bears s d source ↔
      x.affinity = some d ∧ (w.Covers s source ∨ source = x.source) := by
    rw [Bears, store_building, covers_building hx hu, ha, eq_true hd, true_and]
  constructor
  case once =>
    intro d source ho hm' h
    obtain ⟨hxd, hc⟩ := hbears.mp h
    rw [tally_building]
    rcases hc with hc | rfl
    · rw [hb.once ho (hm hm') ⟨hd, ha ▸ hxd, hc⟩, if_neg]
      rintro ⟨-, rfl⟩
      exact hn hc
    · rw [hb.never ho (hm hm') fun h => hn h.2.2, if_pos ⟨hxd, rfl⟩]
  case never =>
    intro d source ho hm' h
    rw [tally_building, if_neg fun hc => h (hbears.mpr ⟨hc.1, .inr hc.2⟩)]
    exact hb.never ho (hm hm') fun hbe => h (hbears.mpr ⟨ha.trans hbe.2.1, .inl hbe.2.2⟩)
  case items =>
    intro j hj
    rw [store_building]
    rcases (retains_building hx hu j).mp hj with hj | rfl
    · rw [item_building_of_owns hj.1, hb.items hj]
    · rw [item_building_next, ha]
  case told =>
    rw [store_building, history_building]
    exact hb.told
  case fate =>
    intro source hk
    rw [perished_building, store_building, covers_building hx hu]
    split
    · next h => simp [hd, h]
    · next hne => rw [hb.fate (knows_building hx hne hk), or_iff_left (Ne.symm hne)]

theorem Proper.building (hp : w.Proper) (hw : w.Sound) (hs : s < w.stores.next)
    (hx : x.descriptor.store = .drawn s) (ho : (w.building s x).InOrder s) :
    (w.building s x).Proper := by
  have hstores : (w.building s x).stores = w.stores := by
    unfold World.building
    cases x.affinity <;> rfl
  have hnames : (w.building s x).names = w.names := by
    unfold World.building
    cases x.affinity <;> rfl
  have hg : w.history <:+ (w.building s x).history := (grows_building hs).history
  refine ⟨fun {t} ht => ?_, fun {t} ht => ?_, fun {t} ht => ?_, fun {t d source} ht ho hm => ?_,
    fun hn hn' => ?_, fun {t} ht => ?_, fun {d source y} hy => ?_, ?_⟩
  · rw [hstores] at ht
    by_cases he : t = s
    · exact he ▸ ho
    · exact (spared_building hs hx he).inOrder hw (hp.stores ht)
  · rw [hstores] at ht
    rw [registry_building, hp.unissued ht]
  · rw [hstores] at ht
    rw [store_building]
    exact hp.unused ht
  · rw [hstores] at ht
    rcases (spared_building hs hx (by omega)).table ho hm with ⟨hm, h⟩ | ⟨h, -⟩
    · exact h.trans (hp.unbound ht ho hm)
    · exact h
  · rw [hnames] at hn hn'
    exact hp.single hn hn'
  · rw [hstores] at ht
    have ha := agree_building (w := w) hx (t := t) (by omega)
    obtain ⟨hb, hf⟩ := hp.unfounded ht
    exact ⟨ha.binding.trans hb, fun source ho => (ha.fate ho).trans (hf source ho)⟩
  · have hy : y ∈ (((w.withItem x).subscribing x.affinity x.source (.store s)).domain
      d).subscribers source := hy
    have hold (hy : y ∈ (w.domain d).subscribers source) :
        (∃ r, y = .store r ∧ source.owner = .drawn r) ∨ (∃ r, y = .dependent r) ∧
          ∃ a, .subscribed a source ∈ (w.building s x).history :=
      (hp.joined hy).imp_right fun ⟨hr, a, ha⟩ => ⟨hr, a, hg.subset ha⟩
    rw [subscribers_subscribing] at hy
    split at hy
    · next h =>
      rcases List.mem_append.mp hy with hy | hy
      · exact hold hy
      · exact .inl ⟨s, List.mem_singleton.mp hy, h.2.2 ▸ hx⟩
    · exact hold hy
  · exact hp.truthful.mono (grows_building hs) ⟨[_], by simp [Happening.silent],
      history_building s x w⟩

end Building

end World

namespace Engine

open World

variable (call : Nat → Engine Unit) (s : Nat) (id : ItemId) (name : String) (value : Value)
  (factory : Descriptor → Engine (List Nat)) (w : World)

/-- What an item is that is built now, in a chain that its factory made. -/
def draft (chain : List Nat) : Item :=
  { descriptor := { store := (w.store s).id, id, name, type := value.type }, value, chain
    affinity := (w.store s).affinity }

/-- How building an item ends is how its factory ends, and then how its first write does. -/
theorem createIn_apply :
    createIn call s id name value factory w =
      match factory (draft s id name value w []).descriptor w with
      | (.done chain, u) =>
        match write call u.items.next value (u.building s (draft s id name value w chain)) with
        | (.done _, v) =>
          (.done (), v.settling s u.items.next (w.store s).id ⟨id, name, value.type⟩)
        | (.panicked text, v) => (.panicked text, v)
        | (.stuck, v) => (.stuck, v)
      | (.panicked text, u) => (.panicked text, u)
      | (.stuck, u) => (.stuck, u) := by
  refine (bind_of_done (m := Engine.get) rfl).trans ?_
  change (factory (draft s id name value w []).descriptor >>= fun chain => _) w = _
  rw [bind_apply]
  rcases factory (draft s id name value w []).descriptor w with ⟨chain | _ | _, u⟩
  · have hb : subscribe (w.store s).affinity (draft s id name value w chain).source (.store s)
        (u.withItem (draft s id name value w chain)) =
          (.done (), u.building s (draft s id name value w chain)) := subscribe_apply _ _ _ _
    refine (bind_of_done (m := (pure value : Engine Value)) rfl).trans ?_
    refine (bind_of_done (v := u.withItem (draft s id name value w chain)) rfl).trans ?_
    refine (bind_of_done hb).trans ?_
    refine (bind_of_done (m := (pure value : Engine Value)) rfl).trans ?_
    rw [bind_apply]
    dsimp only
    rcases write call u.items.next value (u.building s (draft s id name value w chain)) with
      ⟨_ | _ | _, v⟩ <;> rfl
  · rfl
  · rfl

theorem createFrom_apply (type : ValueType) (convert : Engine Value) :
    createFrom call s name type convert factory w =
      if (w.store s).names.contains name then (.done (.error (.duplicateName name)), w)
      else
        match (w.store s).arena.reserve? with
        | none => (.done (.error (.storeFull (w.store s).id)), w)
        | some (id, arena) =>
          (buildIn call s id name type convert factory >>= fun _ => pure (.ok id))
            (w.modifyStore s fun x => { x with arena }) := by
  unfold createFrom
  refine (bind_of_done (m := Engine.get) rfl).trans ?_
  split
  · rfl
  · cases (w.store s).arena.reserve? with
    | none => rfl
    | some r => rfl

theorem create_apply :
    create call s name value factory w =
      if (w.store s).names.contains name then (.done (.error (.duplicateName name)), w)
      else
        match (w.store s).arena.reserve? with
        | none => (.done (.error (.storeFull (w.store s).id)), w)
        | some (id, arena) =>
          (createIn call s id name value factory >>= fun _ => pure (.ok id))
            (w.modifyStore s fun x => { x with arena }) :=
  createFrom_apply call s name factory w value.type (pure value)

end Engine

section Steps

open World

variable {T : Nat → Prop} {s i : Nat} {w : World}

/-- A store that belongs to a call has a slot reserved. -/
theorem estate_reserving (hT : T s) (hs : s < w.stores.next)
    (ho : ¬ Panicked w.history → (w.store s).owned = true) {id : ItemId} {arena : Arena Nat}
    (hr : (w.store s).arena.reserve? = some (id, arena))
    (hw : (estate T).inv w) :
    (estate T).Holds w .done (w.modifyStore s fun x => { x with arena }) := by
  have hk := (Engine.setArena_keepsAt (keeping_lawful s).minding rfl (w := w) fun i hi =>
    .inl (Arena.mem_of_mem_reserve? hr i hi)) hw.1
  have hst : (w.modifyStore s fun x => { x with arena }).store s = { w.store s with arena } := by
    rw [store_modifyStore, if_pos rfl]
  refine estate_keeping hk.2 hs hw (absurd hT) fun hp hpw => ?_
  have h := hpw.stores hs
  refine ⟨fun hn => ?_, fun hu => ?_, fun _ h' => ?_, h.bound.modifyStore fun _ => ⟨rfl, rfl⟩⟩
  · rw [hst]
    exact h.named hn
  · rw [hst] at hu ⊢
    exact h.used hu
  · rw [hst] at h'
    exact absurd (h'.symm.trans (ho hp)) (by decide)

/-- A store that belongs to a call has an item made. -/
theorem estate_building (hT : T s) (hs : s < w.stores.next) {x : Item}
    (hx : x.descriptor.store = .drawn s) (hc : w.Has x.chain) (ha : w.Offers x.affinity)
    (hu : x.state = .uninitialized)
    (h : ¬ Panicked w.history → (w.store s).owned = true ∧ ¬ w.Covers s x.source ∧
      x.affinity = (w.store s).affinity)
    (hw : (estate T).inv w) : (estate T).Holds w .done (w.building s x) := by
  refine estate_holds (sound_building hw.1 hs hx hc ha) (grows_building hs) (fun hp => ?_)
    fun _ t ht => ?_
  · have hp : ¬ Panicked w.history := fun h => hp ((grows_building hs).panicked h)
    obtain ⟨ho, hn, ha⟩ := h hp
    have hin := (hw.2 hp).stores hs
    have hdrop := hin.used (by rw [Store.inUse, ho]; rfl)
    have hst := w.store_building s x s
    refine (hw.2 hp).building hw.1 hs hx ⟨fun hn => ?_, fun _ => ?_, fun _ h' => ?_, ?_⟩
    · rw [hst]
      refine hin.named ?_
      unfold building at hn
      cases hxa : x.affinity <;> rw [hxa] at hn <;> exact hn
    · rw [hst]
      exact hdrop
    · rw [hst, ho] at h'
      cases h'
    · exact hin.bound.building hs hx hu ha hdrop hn
  · exact (spared_building hs hx fun he : t = s => ht (he ▸ hT)).leaves

/-- A store that belongs to a call has an item put into its slot. -/
theorem estate_settling (hT : T s) (hs : s < w.stores.next) (hi : w.Owns s i) (e : Entry)
    (h : ¬ Panicked w.history → (w.store s).owned = true ∧ (w.item i).state ≠ .destroyed)
    (hw : (estate T).inv w) : (estate T).Holds w .done (w.settling s i (.drawn s) e) := by
  have hk := (Engine.settle_keepsAt (keeping_lawful s).minding rfl e.id e.name e.type rfl hi)
    hw.1
  have hk : w.Keeping s (w.settling s i (.drawn s) e) := hk.2
  have hst := store_settling s i (.drawn s) e w
  refine estate_keeping hk hs hw (absurd hT) fun hp hpw => ?_
  obtain ⟨ho, hne⟩ := h hp
  have hin := hpw.stores hs
  have hret (j : Nat) : (w.settling s i (.drawn s) e).Retains s j ↔ w.Retains s j := by
    rw [Retains, Retains, Owns, Owns, hk.items, hk.descriptor, item_settling]
    split
    · next he => simp [he, hne]
    · rfl
  refine ⟨fun hn => ?_, fun hu => ?_, fun _ h' => ?_, ?_⟩
  · rw [hst]
    exact hin.named hn
  · rw [hst] at hu ⊢
    exact hin.used hu
  · rw [hst] at h'
    exact absurd (h'.symm.trans ho) (by decide)
  · refine hin.bound.of_same (by rw [hst]) (by rw [hst]) (agree_cons rfl _) (fun j => ?_)
      (fun {j} _ => ?_) hret (fun {j} _ => ?_)
      fun {d source} _ hm => .inl ⟨fun h => hm (h.mono hk.grows.history (hk.kind d)), rfl⟩
    · rw [Owns, Owns, hk.items, hk.descriptor]
    · rw [Item.source, Item.source, hk.descriptor]
    · rw [item_settling]
      split
      · next he => rw [he]
      · rfl

end Steps

namespace World

/-- A call that a store belongs to leaves it as tidy as it was, and still belonging to the call. -/
structure Minds (s : Nat) (w w' : World) : Prop where
  sharers : (w'.store s).sharers = (w.store s).sharers
  owned : (w'.store s).owned = (w.store s).owned
  tidy : w.Tidy s → w'.Tidy s

theorem Leaves.minds {s : Nat} {w w' : World} (h : w.Leaves s w') (ho : (w.store s).owned = true)
    (hw : w.Sound) : w.Minds s w' :=
  ⟨h.sharers, h.owned, (h.unmoved (by rw [Store.inUse, ho]; rfl)).tidy hw⟩

end World

/-- The store belongs to a call and is tidy. -/
def World.Lent (w : World) (s : Nat) : Prop :=
  ¬ Panicked w.history → (w.store s).owned = true ∧ w.Tidy s

/-- What a call keeps that a store belongs to. -/
def holding (s : Nat) : Law where
  inv w := estates.inv w ∧ s < w.stores.next
  rel w e w' := (estate (· = s)).rel w e w' ∧
    (e = .done → ¬ Panicked w'.history → (w.store s).owned = true → w.Minds s w')
  refl hw := ⟨(estate (· = s)).refl hw.1, fun _ _ _ => ⟨rfl, rfl, id⟩⟩
  trans := by
    rintro u v w d e hu hv ⟨h, hm⟩ hd ⟨h', hm'⟩
    refine ⟨(estate (· = s)).trans hu.1 hv.1 h hd h', fun he hp ho => ?_⟩
    obtain ⟨rfl, rfl⟩ := Ending.andThen_eq_done he
    have m := hm rfl (fun hp' => hp (h'.1.panicked hp')) ho
    have m' := hm' rfl hp (m.owned.trans ho)
    exact ⟨m'.sharers.trans m.sharers, m'.owned.trans m.owned, m'.tidy ∘ m.tidy⟩

section Holding

open World

variable {s : Nat} {w w' : World} {e : Ending}

theorem holding_of_estates (hw : estates.inv w) (hs : s < w.stores.next)
    (h : estates.Holds w e w') : (holding s).Holds w e w' := by
  refine ⟨⟨h.1, Nat.lt_of_lt_of_le hs h.2.1.stores⟩, (estates_weaken h).2, fun he hp ho => ?_⟩
  subst he
  exact (leaves_of_estates h hp s).minds ho hw.1

theorem keepsAt_holding {α : Type} {m : Engine α} (h : m.KeepsAt estates w) :
    m.KeepsAt (holding s) w :=
  fun hw => holding_of_estates hw.1 hw.2 (h hw.1)

theorem World.Lent.mono (h : w.Lent s) (hh : (holding s).Holds w .done w') : w'.Lent s := by
  intro hp
  obtain ⟨ho, ht⟩ := h fun h => hp (hh.2.1.1.panicked h)
  have hm := hh.2.2 rfl hp ho
  exact ⟨hm.owned.trans ho, hm.tidy ht⟩

theorem holding_basics (s : Nat) : Engine.Basics (holding s) where
  sound hw := hw.1.1
  grows h := h.1.1
  stuck hw := ⟨estate_stuck hw.1, nofun⟩
  idle h hw := holding_of_estates hw.1 hw.2 ((estate_basics _).idle h hw.1)
  panic text _ := keepsAt_holding ((estate_basics _).panic text _)
  newAspect ha _ := keepsAt_holding ((estate_basics _).newAspect ha _)

variable {id : ItemId} {name : String} {value : Value} {arena : Arena Nat} {chain : List Nat}
  {u : World} {x : Item}

/-- Until the item is made the store is as it was when the slot was reserved for it. -/
structure Ready (s : Nat) (id : ItemId) (arena : Arena Nat) (w u : World) : Prop where
  reserved : (w.store s).arena.reserve? = some (id, arena)
  tidy : w.Tidy s
  lent : (w.store s).owned = true
  owned : (u.store s).owned = true
  sharers : (u.store s).sharers = (w.store s).sharers
  affinity : (u.store s).affinity = (w.store s).affinity
  unmoved : (w.modifyStore s fun x => { x with arena }).Unmoved s u
  items : w.items.next ≤ u.items.next

theorem Ready.tables (h : Ready s id arena w u) :
    (u.store s).arena = arena ∧ (u.store s).names = (w.store s).names := by
  rw [h.unmoved.arena, h.unmoved.names, store_modifyStore, if_pos rfl]
  exact ⟨rfl, rfl⟩

/-- Nothing that the store retains is in the slot reserved. -/
theorem World.Tidy.vacant (ht : w.Tidy s) (hr : (w.store s).arena.reserve? = some (id, arena))
    {j : Nat} (hj : w.Retains s j) : (w.item j).descriptor.id ≠ id := by
  intro hji
  have hslot := (Arena.get?_eq_some.mp (ht.slot (ht.retained hj))).1
  rw [hji, (ht.wellFormed.reserves hr).vacant] at hslot
  cases hslot

/-- The source of an item in the slot reserved is new to the store. -/
theorem Ready.uncovered (h : Ready s id arena w u) (hx : x.descriptor.id = id) :
    ¬ u.Covers s x.source := by
  rintro (hc | ⟨j, hj, hjs⟩)
  · cases hc
  · have hj' : w.Retains s j := (h.unmoved.retains j).mp hj
    rw [Item.source, h.unmoved.descriptor hj'.1] at hjs
    injection hjs with _ he
    exact h.tidy.vacant h.reserved hj' (he.trans hx)

theorem Ready.raising (h : Ready s id arena w u) (hx : x.descriptor.store = .drawn s)
    (hu : x.state = .uninitialized) :
    Raising s u.items.next x.entry arena w (u.building s x) := by
  have hnext : ¬ w.Owns s u.items.next := fun h' => Nat.lt_irrefl _ (Nat.lt_of_lt_of_le h'.1 h.items)
  have hne {j : Nat} (hj : w.Owns s j) : j ≠ u.items.next := fun he => hnext (he ▸ hj)
  refine ⟨?_, ?_, fun j => ?_, hnext, fun {j} hj => ?_, fun {j} hj => ?_, ?_, ?_, ?_⟩
  · rw [store_building, h.tables.1]
  · rw [store_building, h.tables.2]
  · rw [owns_building hx, h.unmoved.owns, eq_self, true_and]
    rfl
  · rw [item_building, if_neg (hne hj), h.unmoved.descriptor hj]
    rfl
  · rw [item_building, if_neg (hne hj), h.unmoved.state hj]
    rfl
  · rw [item_building, if_pos rfl]
  · rw [item_building, if_pos rfl, hu]
  · rw [registry_building, h.unmoved.register]
    rfl

/-- An item that is being built can be written to. -/
theorem usable_building (hs : s < w.stores.next) (hx : x.descriptor.store = .drawn s)
    (hu : x.state = .uninitialized) (ho : ¬ Panicked w.history → (w.store s).owned = true) :
    (w.building s x).Usable w.items.next := by
  have hg : w.Grows (w.building s x) := grows_building hs
  refine ⟨s, Nat.lt_of_lt_of_le hs hg.stores, (owns_building hx s _).mpr (.inr ⟨rfl, rfl⟩),
    fun hp => ⟨?_, ?_⟩⟩
  · rw [store_building, Store.inUse, ho fun h => hp (hg.panicked h)]
    rfl
  · rw [item_building, if_pos rfl, hu]
    decide

/-- The item is in its slot and has its name, and the store still belongs to the call. -/
structure Erected (s : Nat) (e : Entry) (w v : World) : Prop where
  minds : w.Minds s v
  tidy : v.Tidy s
  register : registry (.drawn s) v.history = (registry (.drawn s) w.history).create e

/-- A store that was left alone while an item of it was written to gets the item. -/
theorem Ready.erected (h : Ready s id arena w u) (hx : x.descriptor.store = .drawn s)
    (hu : x.state = .uninitialized) (hw : w.Sound) (he : x.entry = ⟨id, name, value.type⟩)
    (hn : (w.store s).names.find? name = none) {v : World} (hl : (u.building s x).Leaves s v) :
    Erected s x.entry w (v.settling s u.items.next (.drawn s) x.entry) := by
  have hob : ((u.building s x).store s).owned = true := by rw [store_building, h.owned]
  have hra := (h.raising hx hu).unmoved (hl.unmoved (by rw [Store.inUse, hob]; rfl))
  have htidy := hra.tidy h.tidy hw (by rw [he]; exact h.reserved) (by rw [he]; exact hn)
  have hst := store_settling s u.items.next (.drawn s) x.entry v
  refine ⟨⟨?_, ?_, fun _ => htidy⟩, htidy, ?_⟩
  · rw [hst]
    exact hl.sharers.trans (by rw [store_building, h.sharers])
  · rw [hst]
    exact hl.owned.trans (hob.trans h.lent.symm)
  · rw [← hra.register]
    exact if_pos rfl

variable {factory : Descriptor → Engine (List Nat)}

/-- A slot is reserved and the factory makes a chain. -/
theorem ready_holds (hw : estates.inv w) (hs : s < w.stores.next) (ho : w.Lent s)
    (hf : w.Supplies estates factory) (hr : (w.store s).arena.reserve? = some (id, arena))
    {d : Descriptor} {o : Outcome (List Nat)}
    (hu : factory d (w.modifyStore s fun x => { x with arena }) = (o, u)) :
    (estate (· = s)).Holds w o.ending u ∧
      (o.ending = .done → ¬ Panicked u.history → Ready s id arena w u) := by
  let v := w.modifyStore s fun x => { x with arena }
  have hst : v.store s = { w.store s with arena } := by rw [store_modifyStore, if_pos rfl]
  have hv : (estate (· = s)).Holds w .done v :=
    estate_reserving (T := (· = s)) rfl hs (fun hp => (ho hp).1) hr hw
  have hfu := (hf.keeps _ v).holds hv.1 hu
  refine ⟨hv.done_trans (L := estate (· = s)) hw (estates_weaken hfu), fun he hp => ?_⟩
  rw [he] at hfu
  obtain ⟨hlent, ht⟩ := ho fun h => hp (hfu.2.1.panicked h)
  have hl := leaves_of_estates hfu hp s
  have hov : (v.store s).owned = true := by
    rw [hst]
    exact hlent
  exact ⟨hr, ht, hlent, hl.owned.trans hov, hl.sharers.trans (by rw [hst]),
    (hl.affinity hov).trans (by rw [hst]), hl.unmoved (by rw [Store.inUse, hov]; rfl),
    hfu.2.1.items⟩

/-- An item that can be built in the slot reserved. -/
structure Drafted (s : Nat) (id : ItemId) (u : World) (x : Item) : Prop where
  store : x.descriptor.store = .drawn s
  id : x.descriptor.id = id
  state : x.state = .uninitialized
  chain : u.Has x.chain
  offered : u.Offers x.affinity
  affinity : ¬ Panicked u.history → x.affinity = (u.store s).affinity

/-- With the chain that the factory made, the item can be built. -/
theorem drafted (hw : estates.inv w) (hs : s < w.stores.next) (ho : w.Lent s)
    (hf : w.Supplies estates factory) (hr : (w.store s).arena.reserve? = some (id, arena))
    (hu : factory (Engine.draft s id name value (w.modifyStore s fun x => { x with arena })
      []).descriptor (w.modifyStore s fun x => { x with arena }) = (.done chain, u))
    (h : (estate (· = s)).Holds w .done u)
    (hready : ¬ Panicked u.history → Ready s id arena w u) :
    Drafted s id u
      (Engine.draft s id name value (w.modifyStore s fun x => { x with arena }) chain) := by
  let v := w.modifyStore s fun x => { x with arena }
  have hst : v.store s = { w.store s with arena } := by rw [store_modifyStore, if_pos rfl]
  have hv : (estate (· = s)).Holds w .done v :=
    estate_reserving (T := (· = s)) rfl hs (fun hp => (ho hp).1) hr hw
  constructor
  case store =>
    change (v.store s).id = _
    rw [hst]
    exact hw.1.ids hs
  case id => rfl
  case state => rfl
  case chain => exact hf.chain hv.1 (Nat.le_refl _) hu
  case offered =>
    intro d hd
    change (v.store s).affinity = some d at hd
    rw [hst] at hd
    exact Nat.lt_of_lt_of_le (hw.1.storeAffinities hd) h.2.1.domains
  case affinity =>
    intro hp
    rw [(hready hp).affinity]
    change (v.store s).affinity = _
    rw [hst]

section Drafted

variable (hx : Drafted s id u x) (hs : s < u.stores.next)
  (hr : ¬ Panicked u.history → Ready s id arena w u)

include hx hs hr

theorem Drafted.built (hu : estates.inv u) :
    (estate (· = s)).Holds u .done (u.building s x) :=
  estate_building (T := (· = s)) rfl hs hx.store hx.chain hx.offered hx.state
    (fun hp => ⟨(hr hp).owned, (hr hp).uncovered hx.id, hx.affinity hp⟩) hu

/-- The item is put into its slot after the first value was written to it. -/
theorem Drafted.settled (hw : w.Sound) (he : x.entry = ⟨id, name, value.type⟩)
    (hn : (w.store s).names.find? name = none) {v : World}
    (hv : estates.Holds (u.building s x) .done v) :
    (estate (· = s)).Holds v .done (v.settling s u.items.next (.drawn s) x.entry) ∧
      (¬ Panicked (v.settling s u.items.next (.drawn s) x.entry).history →
        Erected s x.entry w (v.settling s u.items.next (.drawn s) x.entry)) := by
  have hg : u.Grows (u.building s x) := grows_building hs
  have hi : v.Owns s u.items.next :=
    World.Owns.mono ((owns_building hx.store s _).mpr (.inr ⟨rfl, rfl⟩)) hv.2.1
  have hready (hp : ¬ Panicked v.history) : Ready s id arena w u :=
    hr fun h => hp (hv.2.1.panicked (hg.panicked h))
  have hraised (hp : ¬ Panicked v.history) :
      (v.store s).owned = true ∧ (v.item u.items.next).state ≠ .destroyed := by
    have hl := leaves_of_estates hv hp s
    have hob : ((u.building s x).store s).owned = true := by
      rw [store_building, (hready hp).owned]
    have hra := ((hready hp).raising hx.store hx.state).unmoved
      (hl.unmoved (by rw [Store.inUse, hob]; rfl))
    exact ⟨hl.owned.trans hob, by rw [hra.uninitialized]; decide⟩
  have h := estate_settling (T := (· = s)) rfl
    (Nat.lt_of_lt_of_le hs (hg.trans hv.2.1).stores) hi x.entry hraised hv.1
  refine ⟨h, fun hp => ?_⟩
  have hp := fun h' => hp (h.2.1.panicked h')
  exact (hready hp).erected hx.store hx.state hw he hn (leaves_of_estates hv hp s)

end Drafted

variable {call : Nat → Engine Unit} (hc : ∀ r, (call r).Keeps estates)

include hc

/-- An item is built in the slot reserved for it. -/
theorem createIn_holds (hw : estates.inv w) (hs : s < w.stores.next) (ho : w.Lent s)
    (hf : w.Supplies estates factory)
    (hr : (w.store s).arena.reserve? = some (id, arena))
    (hn : (w.store s).names.contains name = false) {o : Outcome Unit} {v : World}
    (hv : Engine.createIn call s id name value factory
      (w.modifyStore s fun x => { x with arena }) = (o, v)) :
    (estate (· = s)).Holds w o.ending v ∧ (o.ending = .done → ¬ Panicked v.history →
      Erected s ⟨id, name, value.type⟩ w v) := by
  let u := w.modifyStore s fun x => { x with arena }
  have hn : (w.store s).names.find? name = none := by simpa [Table.contains] using hn
  have hw' : (estate (· = s)).inv w := hw
  rw [Engine.createIn_apply] at hv
  rcases hchain : factory (Engine.draft s id name value u []).descriptor u with ⟨chain | _ | _, u₁⟩ <;>
    rw [hchain] at hv <;> obtain ⟨h₁, hready⟩ := ready_holds hw hs ho hf hr hchain
  · let x := Engine.draft s id name value u chain
    have hs₁ := Nat.lt_of_lt_of_le hs h₁.2.1.stores
    have hx : Drafted s id u₁ x := drafted hw hs ho hf hr hchain h₁ (hready rfl)
    have h₂ := hx.built hs₁ (hready rfl) h₁.1
    have hwb := h₁.done_trans hw' h₂
    have hwrite := Engine.write_estate hc value
      (usable_building hs₁ hx.store hx.state fun hp => (hready rfl hp).owned)
    dsimp only at hv
    rcases hu₃ : Engine.write call u₁.items.next value (u₁.building s x) with ⟨_ | _ | _, u₃⟩ <;>
      rw [hu₃] at hv <;> cases hv <;> have h₃ := hwrite.holds h₂.1 hu₃
    · obtain ⟨h₄, herected⟩ := hx.settled hs₁ (hready rfl) hw.1 rfl hn h₃
      rw [show (u.store s).id = .drawn s from hx.store]
      exact ⟨(hwb.done_trans hw' (estates_weaken h₃)).done_trans hw' h₄, fun _ => herected⟩
    · exact ⟨hwb.done_trans hw' (estates_weaken h₃), fun h => by cases h⟩
    · exact ⟨hwb.done_trans hw' (estates_weaken h₃), fun h => by cases h⟩
  · cases hv
    exact ⟨h₁, fun h => by cases h⟩
  · cases hv
    exact ⟨h₁, fun h => by cases h⟩

end Holding

end GuardedStore
