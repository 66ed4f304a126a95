import GuardedStore.Proofs.Estate.Record
import GuardedStore.Proofs.Estate.Registry
import GuardedStore.Proofs.Run.Moments
import GuardedStore.Proofs.Run.Signalling
import GuardedStore.Proofs.Run.Storekeeping

/-!
Stores in order.

A store is tidy if its slots, its table of names and its items agree with its registry; it is not
while an item of it is being built. It is bound if it is subscribed, in the domain of its affinity
and nowhere else, once to its own source and once to that of every item it retains. What others do
to the subscriptions of a source can make that untrue, and then nothing is said about that source.

How an event fared that was handed out in the past hangs on where the store was bound and what it
had then, and not on what is subscribed to now.
-/
namespace GuardedStore

/-- How often a store is subscribed to a source. A domain that records does not know who subscribes,
and counts everybody. -/
def Domain.tally (d : Domain) (s : Nat) (source : Source) : Nat :=
  d.recorded source + (d.subscribers source).count (.store s)

namespace World

theorem tally_subscribing (w : World) (affinity : Option Nat) (source src : Source) (s d : Nat) :
    ((w.subscribing affinity source (.store s)).domain d).tally s src =
      (w.domain d).tally s src + if affinity = some d ∧ src = source then 1 else 0 := by
  rw [Domain.tally, Domain.tally, subscribers_subscribing, recorded_subscribing]
  by_cases hk : (w.domain d).kind = .recording <;> by_cases h : affinity = some d ∧ src = source
  · simp [hk, h]
    omega
  · simp [hk, h]
  · simp [hk, h]
    omega
  · simp [hk, h]

theorem tally_subscribing_of_ne (w : World) (affinity : Option Nat) {source src : Source}
    (x : Subscriber) (h : src ≠ source) (s d : Nat) :
    ((w.subscribing affinity source x).domain d).tally s src = (w.domain d).tally s src := by
  rw [Domain.tally, Domain.tally, subscribers_subscribing, recorded_subscribing, if_neg (h ·.2.2),
    if_neg (h ·.2.2)]

theorem tally_unsubscribing (w : World) (affinity : Option Nat) (source src : Source) (s d : Nat) :
    ((w.unsubscribing affinity source).domain d).tally s src =
      if affinity = some d ∧ src = source then 0 else (w.domain d).tally s src := by
  rw [Domain.tally, Domain.tally, subscribers_unsubscribing, recorded_unsubscribing]
  split <;> rfl

/-- Others have had a hand in the subscriptions of a source, as far as the domain can tell. -/
def Meddled (w : World) (d : Nat) (source : Source) : Prop :=
  ∃ a, .unsubscribed a source ∈ w.history ∨
    (w.domain d).kind = .recording ∧ .subscribed a source ∈ w.history

/-- An item that was made for the store and has not been destroyed. -/
def Retains (w : World) (s i : Nat) : Prop :=
  w.Owns s i ∧ (w.item i).state ≠ .destroyed

/-- The source is that of the store or of an item that it retains. -/
def Covers (w : World) (s : Nat) (source : Source) : Prop :=
  source = .store (.drawn s) ∨ ∃ i, w.Retains s i ∧ (w.item i).source = source

/-- The source is that of the store or of an item that was ever made for it. -/
def Knows (w : World) (s : Nat) (source : Source) : Prop :=
  source = .store (.drawn s) ∨ ∃ i, w.Owns s i ∧ (w.item i).source = source

/-- The store is to be subscribed to the source in the domain. -/
def Bears (w : World) (s d : Nat) (source : Source) : Prop :=
  (w.store s).dropped = false ∧ (w.store s).affinity = some d ∧ w.Covers s source

/-- The store is subscribed as it should be. -/
structure Bound (w : World) (s : Nat) : Prop where
  once : ∀ {d source}, source.owner = .drawn s → ¬ w.Meddled d source → w.Bears s d source →
    (w.domain d).tally s source = 1
  never : ∀ {d source}, source.owner = .drawn s → ¬ w.Meddled d source → ¬ w.Bears s d source →
    (w.domain d).tally s source = 0
  items : ∀ {i}, w.Retains s i → (w.item i).affinity = (w.store s).affinity
  told : binding s w.history = some (w.store s).affinity
  fate : ∀ {source}, w.Knows s source →
    (perished source w.history = false ↔ (w.store s).dropped = false ∧ w.Covers s source)

/-- Slots, names, items and registry of the store agree. -/
structure Tidy (w : World) (s : Nat) : Prop where
  wellFormed : (w.store s).arena.WellFormed
  live : ∀ {i}, i ∈ (w.store s).arena.toList → (w.item i).state = .live
  filed : ∀ {j i}, ((w.store s).arena.slot j).item = some i →
    (w.item i).descriptor.id = ⟨j, ((w.store s).arena.slot j).generation⟩
  retained : ∀ {i}, w.Retains s i → i ∈ (w.store s).arena.toList
  listed : ∀ e, e ∈ (registry (.drawn s) w.history).live ↔
    ∃ i ∈ (w.store s).arena.toList, (w.item i).entry = e
  once : (registry (.drawn s) w.history).live.Nodup
  named : ∀ name id, (w.store s).names.find? name = some id ↔
    ∃ e ∈ (registry (.drawn s) w.history).live, e.name = name ∧ e.id = id
  issues : (w.store s).arena.Issues (registry (.drawn s) w.history).issued
  gone : ∀ {i}, w.Owns s i → (w.item i).state = .destroyed →
    (registry (.drawn s) w.history).issued.length ≤ UInt32.size →
      (w.item i).descriptor.id ∈ (registry (.drawn s) w.history).issued ∧
        ∀ e ∈ (registry (.drawn s) w.history).live, e.id ≠ (w.item i).descriptor.id

structure InOrder (w : World) (s : Nat) : Prop where
  named : w.Named s → (w.store s).dropped = false ∧ (w.store s).replaced = false
  used : (w.store s).inUse → (w.store s).dropped = false
  tidy : (w.store s).dropped = false → (w.store s).owned = false → w.Tidy s
  bound : w.Bound s

/-- How an event fared that a domain handed out: a store hears of its own sources only, where it is
bound and nowhere else, there once, unless what the event comes from is no more. -/
structure Fared (w : World) (d : Nat) (e : Event) (subs : List Subscriber)
    (older : List Happening) : Prop where
  strangers : ∀ {s}, .store s ∈ subs → e.source.owner = .drawn s
  elsewhere : ∀ {s}, e.source.owner = .drawn s → (∀ a, .unsubscribed a e.source ∉ older) →
    binding s older ≠ some (some d) → .store s ∉ subs
  there : ∀ {s}, e.source.owner = .drawn s → (∀ a, .unsubscribed a e.source ∉ older) →
    binding s older = some (some d) → d < w.domains.next ∧ ((w.domain d).kind ≠ .recording →
      ∀ issuer a, issuer ≠ .outsider → .requested issuer a e ∈ older →
        subs.count (.store s) = if perished e.source older then 0 else 1)
  told : ∀ {s issuer a}, e.source.owner = .drawn s → issuer ≠ .outsider →
    .requested issuer a e ∈ older → ∃ b, binding s older = some b

/-- What items and stores requested was requested where they were bound, and what was handed out
fared as it should. -/
structure Truthful (w : World) : Prop where
  byItem : ∀ {i a e}, .requested (.item i) a e ∈ w.history →
    ∃ s, w.Owns s i ∧ e.source = (w.item i).source ∧ .bound s a ∈ w.history
  byStore : ∀ {s a e}, .requested (.store s) a e ∈ w.history →
    s < w.stores.next ∧ e.source = .store (.drawn s) ∧ .bound s a ∈ w.history
  handed : ∀ {d e subs older}, .handed d e subs :: older <:+ w.history → w.Fared d e subs older

/-- Every store is in order, and no two names lead to the same one. -/
structure Proper (w : World) : Prop where
  stores : ∀ {s}, s < w.stores.next → w.InOrder s
  unissued : ∀ {s}, w.stores.next ≤ s → registry (.drawn s) w.history = {}
  unused : ∀ {s}, w.stores.next ≤ s → (w.store s).sharers = 0 ∧ (w.store s).owned = false
  unbound : ∀ {s d source}, w.stores.next ≤ s → source.owner = .drawn s → ¬ w.Meddled d source →
    (w.domain d).tally s source = 0
  single : ∀ {n n' s}, w.names.stores.find? n = some s → w.names.stores.find? n' = some s → n = n'
  unfounded : ∀ {s}, w.stores.next ≤ s → binding s w.history = none ∧
    ∀ source, source.owner = .drawn s → perished source w.history = false
  joined : ∀ {d source x}, x ∈ (w.domain d).subscribers source →
    (∃ r, x = .store r ∧ source.owner = .drawn r) ∨
      (∃ r, x = .dependent r) ∧ ∃ a, .subscribed a source ∈ w.history
  truthful : w.Truthful

/-- Neither the items of the store nor what they are called have changed. -/
structure Unmoved (s : Nat) (w w' : World) : Prop where
  arena : (w'.store s).arena = (w.store s).arena
  names : (w'.store s).names = (w.store s).names
  dropped : (w'.store s).dropped = (w.store s).dropped
  owns : ∀ i, w'.Owns s i ↔ w.Owns s i
  descriptor : ∀ {i}, w.Owns s i → (w'.item i).descriptor = (w.item i).descriptor
  state : ∀ {i}, w.Owns s i → (w'.item i).state = (w.item i).state
  register : registry (.drawn s) w'.history = registry (.drawn s) w.history

/-- Nothing has changed that would bring the store out of order. -/
structure Spared (s : Nat) (w w' : World) : Prop extends w.Unmoved s w' where
  sharers : (w'.store s).sharers = (w.store s).sharers
  owned : (w'.store s).owned = (w.store s).owned
  replaced : (w'.store s).replaced = (w.store s).replaced
  name : w'.Named s → w.Named s
  affinity : (w'.store s).affinity = (w.store s).affinity
  affinities : ∀ {i}, w.Owns s i → (w'.item i).affinity = (w.item i).affinity
  agree : Agree s w.history w'.history
  table : ∀ {d source}, source.owner = .drawn s → ¬ w'.Meddled d source →
    ¬ w.Meddled d source ∧ (w'.domain d).tally s source = (w.domain d).tally s source ∨
      (w'.domain d).tally s source = 0 ∧ (w.store s).affinity ≠ some d

/-- As long as the store is in use, others leave its items alone, and also its binding as long as it
belongs to a call. -/
structure Leaves (s : Nat) (w w' : World) : Prop where
  sharers : (w'.store s).sharers = (w.store s).sharers
  owned : (w'.store s).owned = (w.store s).owned
  unmoved : (w.store s).inUse → w.Unmoved s w'
  affinity : (w.store s).owned = true → (w'.store s).affinity = (w.store s).affinity

section Frames

variable {s : Nat} {u v w w' : World}

theorem Meddled.mono {d : Nat} {source : Source} (h : w.Meddled d source)
    (hh : w.history <:+ w'.history) (hk : (w'.domain d).kind = (w.domain d).kind) :
    w'.Meddled d source := by
  obtain ⟨a, h⟩ := h
  exact ⟨a, h.imp (fun h => hh.subset h) fun h => ⟨hk.trans h.1, hh.subset h.2⟩⟩

theorem Unmoved.refl (s : Nat) (w : World) : w.Unmoved s w := by
  constructor <;> simp

theorem Unmoved.trans (h : u.Unmoved s v) (h' : v.Unmoved s w) : u.Unmoved s w where
  arena := h'.arena.trans h.arena
  names := h'.names.trans h.names
  dropped := h'.dropped.trans h.dropped
  owns i := (h'.owns i).trans (h.owns i)
  descriptor hi := (h'.descriptor ((h.owns _).mpr hi)).trans (h.descriptor hi)
  state hi := (h'.state ((h.owns _).mpr hi)).trans (h.state hi)
  register := h'.register.trans h.register

theorem Unmoved.retains (h : w.Unmoved s w') (i : Nat) : w'.Retains s i ↔ w.Retains s i := by
  unfold Retains
  rw [h.owns]
  refine and_congr_right fun hi => ?_
  rw [h.state hi]

theorem Leaves.refl (s : Nat) (w : World) : w.Leaves s w :=
  ⟨rfl, rfl, fun _ => .refl s w, fun _ => rfl⟩

theorem Leaves.inUse (h : w.Leaves s w') : (w'.store s).inUse = (w.store s).inUse := by
  rw [Store.inUse, Store.inUse, h.sharers, h.owned]

theorem Leaves.trans (h : u.Leaves s v) (h' : v.Leaves s w) : u.Leaves s w where
  sharers := h'.sharers.trans h.sharers
  owned := h'.owned.trans h.owned
  unmoved hu := (h.unmoved hu).trans (h'.unmoved (h.inUse.trans hu))
  affinity ho := (h'.affinity (h.owned.trans ho)).trans (h.affinity ho)

theorem Spared.leaves (h : w.Spared s w') : w.Leaves s w' :=
  ⟨h.sharers, h.owned, fun _ => h.toUnmoved, fun _ => h.affinity⟩

/-- The items of the store are as they were. -/
theorem Unmoved.tidy (h : w.Unmoved s w') (hw : w.Sound) (ht : w.Tidy s) : w'.Tidy s := by
  have ha {i : Nat} (hi : i ∈ (w.store s).arena.toList) : w.Owns s i := hw.arenas hi
  have hslot {j i} (hi : ((w.store s).arena.slot j).item = some i) : w.Owns s i :=
    ha ((Arena.mem_toList ht.wellFormed.bounded).mpr ⟨j, hi⟩)
  have he {i : Nat} (hi : w.Owns s i) : (w'.item i).entry = (w.item i).entry := by
    rw [Item.entry, Item.entry, h.descriptor hi]
  refine ⟨h.arena ▸ ht.wellFormed, fun {i} hi => ?_, fun {j i} hi => ?_, fun {i} hi => ?_,
    fun e => ?_, h.register ▸ ht.once, fun name id => ?_, ?_, fun {i} hi hd => ?_⟩
  · rw [h.arena] at hi
    rw [h.state (ha hi), ht.live hi]
  · rw [h.arena] at hi ⊢
    rw [h.descriptor (hslot hi), ht.filed hi]
  · rw [h.arena]
    exact ht.retained ((h.retains i).mp hi)
  · rw [h.register, h.arena, ht.listed]
    exact exists_congr fun i => and_congr_right fun hi => by rw [he (ha hi)]
  · rw [h.register, h.names, ht.named]
  · rw [h.register, h.arena]
    exact ht.issues
  · have ho := (h.owns i).mp hi
    rw [h.state ho] at hd
    rw [h.register, h.descriptor ho]
    exact ht.gone ho hd

theorem covers_of_same (hr : ∀ i, w'.Retains s i ↔ w.Retains s i)
    (hi : ∀ {i}, w.Retains s i → (w'.item i).source = (w.item i).source) {source : Source} :
    w'.Covers s source ↔ w.Covers s source := by
  refine or_congr_right (exists_congr fun i => ?_)
  rw [hr]
  exact and_congr_right fun h => by rw [hi h]

theorem knows_of_same (ho : ∀ i, w'.Owns s i ↔ w.Owns s i)
    (hi : ∀ {i}, w.Owns s i → (w'.item i).source = (w.item i).source) {source : Source} :
    w'.Knows s source ↔ w.Knows s source := by
  refine or_congr_right (exists_congr fun i => ?_)
  rw [ho]
  exact and_congr_right fun h => by rw [hi h]

theorem Knows.owner {source : Source} (h : w.Knows s source) : source.owner = .drawn s := by
  rcases h with rfl | ⟨i, hi, rfl⟩
  · rfl
  · exact hi.2

/-- Whether a store is bound does not hang on its slots and names. -/
theorem Bound.of_same (hb : w.Bound s) (hd : (w'.store s).dropped = (w.store s).dropped)
    (ha : (w'.store s).affinity = (w.store s).affinity)
    (hh : Agree s w.history w'.history)
    (ho : ∀ i, w'.Owns s i ↔ w.Owns s i)
    (hs : ∀ {i}, w.Owns s i → (w'.item i).source = (w.item i).source)
    (hr : ∀ i, w'.Retains s i ↔ w.Retains s i)
    (hi : ∀ {i}, w.Retains s i → (w'.item i).affinity = (w.item i).affinity)
    (ht : ∀ {d source}, source.owner = .drawn s → ¬ w'.Meddled d source →
      ¬ w.Meddled d source ∧ (w'.domain d).tally s source = (w.domain d).tally s source ∨
        (w'.domain d).tally s source = 0 ∧ (w.store s).affinity ≠ some d) : w'.Bound s := by
  have hcovers {source : Source} : w'.Covers s source ↔ w.Covers s source :=
    covers_of_same hr fun h => hs h.1
  have hbears (d : Nat) (source : Source) : w'.Bears s d source ↔ w.Bears s d source := by
    rw [Bears, Bears, hd, ha, hcovers]
  refine ⟨fun {d source} ho hm h => ?_, fun {d source} ho hm h => ?_, fun {i} h => ?_, ?_,
    fun {source} hk => ?_⟩
  · rw [hbears] at h
    rcases ht ho hm with ⟨hm, ht⟩ | ⟨-, ha⟩
    · exact ht.trans (hb.once ho hm h)
    · exact absurd h.2.1 ha
  · rw [hbears] at h
    rcases ht ho hm with ⟨hm, ht⟩ | ⟨ht, -⟩
    · exact ht.trans (hb.never ho hm h)
    · exact ht
  · rw [hr] at h
    rw [hi h, ha, hb.items h]
  · rw [hh.binding, ha, hb.told]
  · rw [knows_of_same ho hs] at hk
    rw [hh.fate hk.owner, hd, hcovers, hb.fate hk]

theorem Spared.bound (h : w.Spared s w') (hb : w.Bound s) : w'.Bound s := by
  refine hb.of_same h.dropped h.affinity h.agree h.owns (fun {i} hi => ?_) h.retains
    (fun hi => h.affinities hi.1) h.table
  rw [Item.source, Item.source, h.descriptor hi]

theorem Spared.inOrder (h : w.Spared s w') (hw : w.Sound) (hs : w.InOrder s) : w'.InOrder s where
  named hn := by
    rw [h.dropped, h.replaced]
    exact hs.named (h.name hn)
  used hu := by
    rw [h.leaves.inUse] at hu
    rw [h.dropped]
    exact hs.used hu
  tidy hd ho := h.tidy hw (hs.tidy (h.dropped ▸ hd) (h.owned ▸ ho))
  bound := h.bound hs.bound

theorem Fared.mono {d : Nat} {e : Event} {subs : List Subscriber} {older : List Happening}
    (h : w.Fared d e subs older) (hg : w.Grows w') : w'.Fared d e subs older where
  strangers := h.strangers
  elsewhere := h.elsewhere
  there ho hu hb := by
    obtain ⟨hd, hf⟩ := h.there ho hu hb
    exact ⟨Nat.lt_of_lt_of_le hd hg.domains, fun hk => hf (hg.kind hd ▸ hk)⟩
  told := h.told

/-- An event that was handed out now is all that there is to see to. -/
theorem Truthful.of_handed (h : w.Truthful) (hg : w.Grows w') {notes : List Happening}
    (hh : w'.history = notes ++ w.history)
    (hi : ∀ {i a e}, .requested (.item i) a e ∉ notes)
    (hs : ∀ {s a e}, .requested (.store s) a e ∉ notes)
    (hd : ∀ {d e subs newer older}, notes = newer ++ .handed d e subs :: older →
      w'.Fared d e subs (older ++ w.history)) : w'.Truthful where
  byItem {i a e} hm := by
    rw [hh] at hm
    obtain ⟨s, ho, hsrc, hb⟩ := h.byItem ((List.mem_append.mp hm).resolve_left hi)
    refine ⟨s, ho.mono hg, ?_, hg.history.subset hb⟩
    rw [hsrc, Item.source, Item.source, hg.descriptor ho.1]
  byStore {s a e} hm := by
    rw [hh] at hm
    obtain ⟨hlt, hsrc, hb⟩ := h.byStore ((List.mem_append.mp hm).resolve_left hs)
    exact ⟨Nat.lt_of_lt_of_le hlt hg.stores, hsrc, hg.history.subset hb⟩
  handed {d e subs older} hm := by
    obtain ⟨newer, hm⟩ := hm
    rw [hh] at hm
    rcases List.append_eq_append_iff.mp hm with ⟨k, rfl, hk⟩ | ⟨k, rfl, hk⟩
    · rcases k with _ | ⟨y, k⟩
      · exact (h.handed ⟨[], hk.symm ▸ rfl⟩).mono hg
      · cases hk
        exact hd rfl
    · exact (h.handed ⟨k, hk.symm⟩).mono hg

theorem Truthful.mono (h : w.Truthful) (hg : w.Grows w')
    (hh : ∃ notes, (∀ y ∈ notes, y.silent) ∧ w'.history = notes ++ w.history) : w'.Truthful := by
  obtain ⟨notes, hn, hh⟩ := hh
  refine h.of_handed hg hh (fun hm => ?_) (fun hm => ?_) fun {d e subs newer older} he => ?_
  · cases hn _ hm
  · cases hn _ hm
  · cases hn (.handed d e subs) (he ▸ List.mem_append_right _ List.mem_cons_self)

end Frames

end World

end GuardedStore
