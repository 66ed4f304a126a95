import GuardedStore.Proofs.Estate.Order
import GuardedStore.Proofs.Run.Making
import GuardedStore.Proofs.Run.Plain

/-!
The law of estates: as long as nothing panics, every store is in order, and a store that is in use
is left alone by those who do not use it.

Guarded accesses, deliveries and what others do to subscriptions leave every store untouched.
-/
namespace GuardedStore

namespace Domain

theorem subscribers_of_recording {d : Domain} (h : d.kind = .recording) (source : Source) :
    d.subscribers source = [] := by
  cases hm : d.mode with
  | recording => simp [subscribers, hm]
  | cooperative => simp [kind, hm] at h
  | immediate => simp [kind, hm] at h

theorem recorded_eq_zero {d : Domain} (h : d.kind ≠ .recording) (source : Source) :
    d.recorded source = 0 := by
  cases hm : d.mode with
  | recording => simp [kind, hm] at h
  | cooperative => simp [recorded, hm]
  | immediate => simp [recorded, hm]

end Domain

/-- Whether a happening tells nothing about items, bindings and events. -/
def Happening.immaterial : Happening → Bool
  | .bound .. | .made .. | .requested (.item _) .. | .requested (.store _) .. | .handed .. => false
  | .notice (.itemCreated ..) | .notice (.itemDestroyed ..) | .notice (.storeDropped ..) => false
  | _ => true

theorem Happening.registers_of_immaterial {y : Happening} (hy : y.immaterial) (id : StoreId) :
    y.registers id = false := by
  rcases y with _ | _ | _ | _ | _ | _ | _ | _ | _ | n <;> try rfl
  cases n <;> first | rfl | cases hy

theorem Happening.settles_of_immaterial {y : Happening} (hy : y.immaterial) (s : Nat) :
    y.settles s = false := by
  rcases y with _ | _ | _ | _ | _ | _ | _ | _ | _ | n | _ | _ | _ | _ | _ | _ | ⟨_ | _ | _⟩ <;>
    first | rfl | cases hy | skip
  cases n <;> first | rfl | cases hy

theorem Happening.silent_of_immaterial {y : Happening} (hy : y.immaterial) : y.silent := by
  cases y with
  | requested issuer _ _ => cases issuer <;> first | rfl | cases hy
  | handed => cases hy
  | _ => rfl

namespace World

/-- Nothing has happened to the stores but to their signals. -/
structure Untouched (w w' : World) : Prop where
  stores : w'.stores.next = w.stores.next
  names : w'.names.stores = w.names.stores
  spared : ∀ s, w.Spared s w'
  joined : ∀ {d source x}, x ∈ (w'.domain d).subscribers source →
    x ∈ (w.domain d).subscribers source ∨
      (∃ r, x = .dependent r) ∧ ∃ a, .subscribed a source ∈ w'.history
  truthful : w.Sound → w.Proper → w'.Truthful

variable {w w' : World}

theorem Untouched.proper (h : w.Untouched w') (hh : w.history <:+ w'.history) (hw : w.Sound)
    (hp : w.Proper) : w'.Proper where
  stores {s} hs := (h.spared s).inOrder hw (hp.stores (h.stores ▸ hs))
  unissued {s} hs := (h.spared s).register.trans (hp.unissued (h.stores ▸ hs))
  unused {s} hs := by
    rw [(h.spared s).sharers, (h.spared s).owned]
    exact hp.unused (h.stores ▸ hs)
  unbound {s d source} hs ho hm := by
    rcases (h.spared s).table ho hm with ⟨hm, ht⟩ | ⟨ht, -⟩
    · exact ht.trans (hp.unbound (h.stores ▸ hs) ho hm)
    · exact ht
  single hn hn' := by
    rw [h.names] at hn hn'
    exact hp.single hn hn'
  unfounded {s} hs := by
    obtain ⟨hb, hf⟩ := hp.unfounded (h.stores ▸ hs)
    exact ⟨(h.spared s).agree.binding.trans hb, fun source ho =>
      ((h.spared s).agree.fate ho).trans (hf source ho)⟩
  joined hx := by
    rcases h.joined hx with hx | hx
    · exact (hp.joined hx).imp_right fun ⟨hr, a, ha⟩ => ⟨hr, a, hh.subset ha⟩
    · exact .inr hx
  truthful := h.truthful hw hp

/-- What is fixed about an item while its store leaves it alone. -/
def SameDeed (i i' : Item) : Prop :=
  i'.descriptor = i.descriptor ∧ i'.state = i.state ∧ i'.affinity = i.affinity

theorem Unmoved.of_same {s : Nat} (ho : ∀ i, w'.Owns s i ↔ w.Owns s i)
    (hd : ∀ {i}, w.Owns s i → SameDeed (w.item i) (w'.item i))
    (hs : SameHouse (w.store s) (w'.store s))
    (hr : registry (.drawn s) w'.history = registry (.drawn s) w.history) : w.Unmoved s w' where
  arena := hs.arena
  names := hs.names
  dropped := hs.dropped
  owns := ho
  descriptor hi := (hd hi).1
  state hi := (hd hi).2.1
  register := hr

/-- The store is spared by what leaves its house and its items and does not touch what it is
subscribed to. -/
theorem Spared.of_same {s : Nat} (ho : ∀ i, w'.Owns s i ↔ w.Owns s i)
    (hd : ∀ {i}, w.Owns s i → SameDeed (w.item i) (w'.item i))
    (hs : SameHouse (w.store s) (w'.store s))
    (hr : registry (.drawn s) w'.history = registry (.drawn s) w.history)
    (ha : Agree s w.history w'.history)
    (hn : w'.names.stores = w.names.stores)
    (ht : ∀ {d source}, source.owner = .drawn s → ¬ w'.Meddled d source →
      ¬ w.Meddled d source ∧ (w'.domain d).tally s source = (w.domain d).tally s source ∨
        (w'.domain d).tally s source = 0 ∧ (w.store s).affinity ≠ some d) : w.Spared s w' :=
  { Unmoved.of_same ho hd hs hr with
    sharers := hs.sharers
    owned := hs.owned
    replaced := hs.replaced
    name := fun ⟨n, h⟩ => ⟨n, hn ▸ h⟩
    affinity := hs.affinity
    affinities := fun hi => (hd hi).2.2
    agree := ha
    table := ht }

theorem untouched_of_same (hi : w'.items.next = w.items.next)
    (hd : ∀ i, SameDeed (w.item i) (w'.item i)) (hs : w'.stores.next = w.stores.next)
    (hh : ∀ s, SameHouse (w.store s) (w'.store s)) (hn : w'.names.stores = w.names.stores)
    (ht : ∀ d, (w.domain d).SameTable (w'.domain d))
    (hy : ∃ notes, (∀ y ∈ notes, (∀ id, y.registers id = false) ∧ ∀ s, y.settles s = false) ∧
      w'.history = notes ++ w.history)
    (htr : w.Sound → w.Proper → w'.Truthful) : w.Untouched w' := by
  obtain ⟨notes, hnotes, hy⟩ := hy
  refine ⟨hs, hn, fun s => .of_same (fun i => ?_) (fun _ => hd _) (hh s) ?_ ?_ hn
    fun {d source} _ hm => .inl ?_, fun {d source x} hx => .inl ?_, htr⟩
  · rw [Owns, Owns, hi, (hd i).1]
  · rw [hy, registry_append fun y hy => (hnotes y hy).1 _]
  · rw [hy]
    exact agree_append (fun y hy => (hnotes y hy).2 s) _
  · refine ⟨fun h => hm (h.mono (hy ▸ List.suffix_append _ _) (ht d).kind), ?_⟩
    rw [Domain.tally, Domain.tally, (ht d).subscribers, (ht d).recorded]
  · rwa [(ht d).subscribers] at hx

theorem untouched_of_immaterial (hg : w.Grows w') (hi : w'.items.next = w.items.next)
    (hd : ∀ i, SameDeed (w.item i) (w'.item i)) (hs : w'.stores.next = w.stores.next)
    (hh : ∀ s, SameHouse (w.store s) (w'.store s)) (hn : w'.names.stores = w.names.stores)
    (ht : ∀ d, (w.domain d).SameTable (w'.domain d))
    (hy : ∃ notes, (∀ y ∈ notes, y.immaterial) ∧ w'.history = notes ++ w.history) :
    w.Untouched w' := by
  obtain ⟨notes, hnotes, hy⟩ := hy
  refine untouched_of_same hi hd hs hh hn ht ⟨notes, fun y hy => ⟨fun id => ?_, fun s => ?_⟩, hy⟩
    fun _ hp => hp.truthful.mono hg ⟨notes, fun y hy => ?_, hy⟩
  · exact Happening.registers_of_immaterial (hnotes y hy) id
  · exact Happening.settles_of_immaterial (hnotes y hy) s
  · exact Happening.silent_of_immaterial (hnotes y hy)

theorem Idle.untouched (h : w.Idle w') : w.Untouched w' := by
  obtain ⟨notes, hnotes, hh⟩ := h.history
  refine untouched_of_immaterial h.grows (by rw [h.items]) (fun i => ?_) (by rw [h.stores])
    (fun s => ?_) h.storeNames (fun d => ?_) ⟨notes, fun y hy => ?_, hh⟩
  · rw [item, item, h.items]
    exact ⟨rfl, rfl, rfl⟩
  · rw [store, store, h.stores]
    exact .refl _
  · rw [domain, domain, h.domains]
    exact .refl _
  · have := hnotes y hy
    cases y <;> first | rfl | cases this

theorem Guarding.untouched (h : w.Guarding w') : w.Untouched w' := by
  obtain ⟨marks, hmarks, hh⟩ := h.history
  refine untouched_of_immaterial h.grows (by rw [h.items]) (fun i => ?_) (by rw [h.stores])
    (fun s => ?_) h.storeNames (fun d => ?_) ⟨marks, fun y hy => ?_, hh⟩
  · rw [item, item, h.items]
    exact ⟨rfl, rfl, rfl⟩
  · rw [store, store, h.stores]
    exact .refl _
  · rw [domain, domain, h.domains]
    exact .refl _
  · have := hmarks y hy
    rcases y with _ | _ | _ | _ | _ | _ | _ | _ | _ | n <;> first | rfl | cases this | skip
    cases n <;> first | rfl | cases this

theorem Signalling.untouched {T : Nat → Prop} (h : w.Signalling T w') : w.Untouched w' := by
  obtain ⟨notes, hnotes, hh⟩ := h.notes
  refine untouched_of_immaterial h.grows h.items (fun i => ?_) h.stores h.house (by rw [h.names])
    (fun d => ⟨h.kind d, h.table d, h.counts d⟩) ⟨notes, fun y hy => ?_, hh⟩
  · rw [item, item, h.allItems]
    exact ⟨rfl, rfl, rfl⟩
  · have := hnotes y hy
    rcases y with _ | _ | _ | _ | _ | _ | _ | _ | _ | n <;> first | rfl | cases this | skip
    cases n <;> first | rfl | cases this

theorem untouched_mark {y : Happening} (hy : y.immaterial) : w.Untouched (w.mark y) :=
  untouched_of_immaterial (grows_mark y w) rfl (fun _ => ⟨rfl, rfl, rfl⟩) rfl
    (fun _ => .refl _) rfl (fun _ => .refl _) ⟨[y], by simpa using hy, rfl⟩

theorem untouched_sameTable {r : Nat} {f : Domain → Domain}
    (hf : ∀ d : Domain, d.SameTable (f d)) : w.Untouched (w.modifyDomain r f) := by
  refine untouched_of_immaterial (w.quiet_sameTable r hf).grows rfl (fun _ => ⟨rfl, rfl, rfl⟩) rfl
    (fun _ => .refl _) rfl (fun d => ?_) ⟨[], by simp, rfl⟩
  rw [domain_modifyDomain]
  split
  · next h =>
    rw [h]
    exact hf _
  · exact .refl _

theorem untouched_takeHold (subscribers : List Subscriber) (w : World) :
    w.Untouched (w.takeHold subscribers) :=
  untouched_of_immaterial (w.quiet_takeHold subscribers).grows rfl (fun _ => ⟨rfl, rfl, rfl⟩) rfl
    (fun _ => .refl _) rfl (fun _ => .refl _) ⟨[], by simp, rfl⟩

theorem untouched_letGo (domain : Nat) (held : List Subscriber) (w : World) :
    w.Untouched (w.letGo domain held) :=
  untouched_of_immaterial (w.quiet_letGo domain held).grows rfl (fun _ => ⟨rfl, rfl, rfl⟩) rfl
    (fun _ => .refl _) rfl (fun _ => .refl _) ⟨[_], by simp [Happening.immaterial], rfl⟩

theorem untouched_withAspect (a : Aspect Nat) : w.Untouched (w.withAspect a) :=
  untouched_of_immaterial (grows_withAspect a) rfl (fun _ => ⟨rfl, rfl, rfl⟩) rfl (fun _ => .refl _)
    rfl (fun _ => .refl _) ⟨[], by simp, rfl⟩

/-- The item's store is in use, and the item is not destroyed. -/
def Usable (w : World) (i : Nat) : Prop :=
  ∃ s < w.stores.next, w.Owns s i ∧
    (¬ Panicked w.history → (w.store s).inUse ∧ (w.item i).state ≠ .destroyed)

/-- An item requests its trigger of the domain that its store is bound to. -/
theorem untouched_issuing {item : Nat} (hi : w.Usable item) (hp : ¬ Panicked w.history)
    (a : Access) : w.Untouched (w.issuing item a) := by
  have hh := w.history_issuing item a
  refine untouched_of_same rfl (fun i => ?_) rfl (fun _ => .refl _) rfl (fun _ => .refl _)
    ⟨[_, _, _], by simp [Happening.registers, Happening.settles], hh⟩ fun hw hpw => ?_
  · rw [item_issuing]
    split
    · next h =>
      rw [h]
      exact ⟨rfl, rfl, rfl⟩
    · exact ⟨rfl, rfl, rfl⟩
  · obtain ⟨s, hs, ho, hu⟩ := hi
    have hb := (hpw.stores hs).bound
    have hg := w.grows_issuing item a
    have ha : .bound s (w.item item).affinity ∈ w.history := by
      rw [hb.items ⟨ho, (hu hp).2⟩]
      exact bound_of_binding hb.told
    -- two notes come before the request, which is the only one to be seen to
    refine ⟨fun {i b e} hm => ?_, fun {t b e} hm => ?_, fun {d e subs older} hm => ?_⟩
    · rw [hh] at hm
      simp only [List.mem_cons, Happening.requested.injEq, Issuer.item.injEq, reduceCtorEq,
        false_or] at hm
      rcases hm with ⟨rfl, rfl, rfl⟩ | hm
      · refine ⟨s, ho.mono hg, ?_, hg.history.subset ha⟩
        rw [item_issuing, if_pos rfl]
        rfl
      · obtain ⟨t, hto, hsrc, hb⟩ := hpw.truthful.byItem hm
        refine ⟨t, hto.mono hg, ?_, hg.history.subset hb⟩
        rw [hsrc, Item.source, Item.source, hg.descriptor hto.1]
    · rw [hh] at hm
      simp only [List.mem_cons, Happening.requested.injEq, reduceCtorEq, false_and, false_or] at hm
      obtain ⟨hlt, hsrc, hb⟩ := hpw.truthful.byStore hm
      exact ⟨hlt, hsrc, hg.history.subset hb⟩
    · rw [hh] at hm
      simp only [List.suffix_cons_iff, List.cons.injEq, reduceCtorEq, false_and, false_or] at hm
      exact (hpw.truthful.handed hm).mono hg

/-- A store requests its trigger of the domain that it is bound to. -/
theorem untouched_requesting {s : Nat} (hs : s < w.stores.next) (n : Nat) : w.Untouched
    (w.requesting (.store s) (w.store s).affinity ⟨(w.store s).source, n⟩) := by
  refine untouched_of_same rfl (fun _ => ⟨rfl, rfl, rfl⟩) rfl (fun _ => .refl _) rfl
    (fun _ => .refl _) ⟨[_], by simp [Happening.registers, Happening.settles], rfl⟩ fun hw hpw => ?_
  have hg : w.Grows (w.requesting (.store s) (w.store s).affinity ⟨(w.store s).source, n⟩) :=
    (quiet_record rfl w).grows
  refine ⟨fun {i b e} hm => ?_, fun {t b e} hm => ?_, fun {d e subs older} hm => ?_⟩
  · obtain ⟨t, hto, hsrc, hb⟩ := hpw.truthful.byItem
      ((List.mem_cons.mp hm).resolve_left fun h => by cases h)
    exact ⟨t, hto, hsrc, hg.history.subset hb⟩
  · rcases List.mem_cons.mp hm with hm | hm
    · cases hm
      refine ⟨hs, by rw [Store.source, hw.ids hs], ?_⟩
      exact hg.history.subset (bound_of_binding (hpw.stores hs).bound.told)
    · obtain ⟨hlt, hsrc, hb⟩ := hpw.truthful.byStore hm
      exact ⟨hlt, hsrc, hg.history.subset hb⟩
  · have hm : .handed d e subs :: older <:+ .requested _ _ _ :: w.history := hm
    rcases List.suffix_cons_iff.mp hm with hm | hm
    · cases hm
    · exact (hpw.truthful.handed hm).mono hg

/-- What did not come from an outsider came from a source of the store, which was bound then. -/
theorem Truthful.knows (h : w.Truthful) {issuer : Issuer} {a : Option Nat} {e : Event} {s : Nat}
    (hi : issuer ≠ .outsider) (hm : .requested issuer a e ∈ w.history)
    (ho : e.source.owner = .drawn s) : w.Knows s e.source ∧ ∃ b, .bound s b ∈ w.history := by
  cases issuer with
  | outsider => exact absurd rfl hi
  | item i =>
    obtain ⟨t, hto, hsrc, hb⟩ := h.byItem hm
    rw [hsrc] at ho ⊢
    cases hto.2.symm.trans ho
    exact ⟨.inr ⟨i, hto, rfl⟩, a, hb⟩
  | store t =>
    obtain ⟨-, hsrc, hb⟩ := h.byStore hm
    rw [hsrc] at ho ⊢
    cases ho
    exact ⟨.inl rfl, a, hb⟩

/-- Whom an event is handed to is whoever is subscribed now. -/
theorem Proper.fared (hp : w.Proper) (hw : w.Sound) (d : Nat) (e : Event) :
    w.Fared d e (w.liveSubscribers d e.source) w.history := by
  have hsub {s : Nat} (hm : .store s ∈ w.liveSubscribers d e.source) :
      .store s ∈ (w.domain d).subscribers e.source := (List.mem_filter.mp hm).1
  have hmeddled (hu : ∀ a, .unsubscribed a e.source ∉ w.history)
      (hk : (w.domain d).kind ≠ .recording) : ¬ w.Meddled d e.source :=
    fun ⟨a, hm⟩ => hm.elim (hu a) fun hm => hk hm.1
  have hcount {s : Nat} (hk : (w.domain d).kind ≠ .recording) :
      (w.domain d).tally s e.source = ((w.domain d).subscribers e.source).count (.store s) := by
    rw [Domain.tally, Domain.recorded_eq_zero hk, Nat.zero_add]
  have hnone {s : Nat} (hk : (w.domain d).kind ≠ .recording)
      (hz : (w.domain d).tally s e.source = 0) : .store s ∉ w.liveSubscribers d e.source :=
    fun hm => List.count_eq_zero.mp ((hcount hk).symm.trans hz) (hsub hm)
  refine ⟨fun {s} hm => ?_, fun {s} ho hu hb hm => ?_, fun {s} ho hu hb => ?_,
    fun {s issuer a} ho hi hm => ?_⟩
  · rcases hp.joined (hsub hm) with ⟨r, hr, ho⟩ | ⟨⟨r, hr⟩, -⟩
    · cases hr
      exact ho
    · cases hr
  · have hk : (w.domain d).kind ≠ .recording := by
      intro hk
      have := hsub hm
      rw [Domain.subscribers_of_recording hk] at this
      cases this
    refine hnone hk ?_ hm
    rcases Nat.lt_or_ge s w.stores.next with hs | hs
    · refine (hp.stores hs).bound.never ho (hmeddled hu hk) fun hbe => hb ?_
      rw [(hp.stores hs).bound.told, hbe.2.1]
    · exact hp.unbound hs ho (hmeddled hu hk)
  · have hs : s < w.stores.next := by
      by_contra hs
      rw [(hp.unfounded (Nat.le_of_not_lt hs)).1] at hb
      cases hb
    have hbound := (hp.stores hs).bound
    have ha : (w.store s).affinity = some d := Option.some.inj (hbound.told.symm.trans hb)
    refine ⟨hw.storeAffinities ha, fun hk issuer a hi hm => ?_⟩
    have hfate := hbound.fate (hp.truthful.knows hi hm ho).1
    by_cases hbe : w.Bears s d e.source
    · have halive : w.alive (.store s) = true := by simp [alive, hbe.1]
      rw [hfate.mpr ⟨hbe.1, hbe.2.2⟩, liveSubscribers, List.count_filter halive, ← hcount hk,
        hbound.once ho (hmeddled hu hk) hbe]
      rfl
    · have hper : perished e.source w.history = true := by
        rw [← Bool.not_eq_false, hfate]
        exact fun h => hbe ⟨h.1, ha, h.2⟩
      rw [hper, List.count_eq_zero.mpr (hnone hk (hbound.never ho (hmeddled hu hk) hbe))]
      rfl
  · obtain ⟨-, b, hb⟩ := hp.truthful.knows hi hm ho
    exact binding_of_bound hb

theorem untouched_handing (d : Nat) (e : Event) : w.Untouched (w.handing d e) := by
  refine untouched_of_same rfl (fun _ => ⟨rfl, rfl, rfl⟩) rfl (fun _ => .refl _) rfl
    (fun _ => .refl _) ⟨[_], by simp [Happening.registers, Happening.settles], rfl⟩ fun hw hpw => ?_
  have hg : w.Grows (w.handing d e) := (quiet_record rfl w).grows
  have hn : (w.handing d e).history =
      [.handed d e (w.liveSubscribers d e.source)] ++ w.history := rfl
  refine hpw.truthful.of_handed hg hn (by simp) (by simp) fun {d e subs newer older} he => ?_
  cases newer with
  | nil =>
    cases he
    exact (hpw.fared hw d e).mono hg
  | cons y newer => simp at he

end World

/-- The law allows whatever leaves stores and items untouched, and waiting. -/
structure Law.Lenient (L : Law) : Prop where
  sound {w} : L.inv w → w.Sound
  grows {w e w'} : L.rel w e w' → w.Grows w'
  stuck {w} : L.inv w → L.rel w .stuck w
  untouched {w w' : World} : w.Untouched w' → w'.items = w.items → w'.Sound → w.Grows w' →
    L.inv w → L.Holds w .done w'

namespace Law.Lenient

variable {L : Law} (l : L.Lenient) {w w' : World}

include l

theorem quiet (h : w.Untouched w') (hi : w'.items = w.items) (hq : w.Quiet w') (hw : L.inv w) :
    L.Holds w .done w' :=
  l.untouched h hi (hq.sound (l.sound hw)) hq.grows hw

theorem note {y : Happening} (hy : y.immaterial) (hw : L.inv w) : L.Holds w .done (w.mark y) :=
  l.untouched (World.untouched_mark hy) rfl (World.sound_mark y (l.sound hw)) (World.grows_mark y w)
    hw

theorem delivering : L.Delivering where
  signalling h := l.quiet h.untouched h.allItems h.toQuiet
  stuck := l.stuck
  table {w r _f} h := l.quiet (World.untouched_sameTable h) rfl (w.quiet_sameTable r h)
  taken _ _ := l.note rfl
  handing {w d} e _ := l.quiet (World.untouched_handing d e) rfl (w.quiet_record rfl)
  takeHold {w} subs := l.quiet (w.untouched_takeHold subs) rfl (w.quiet_takeHold subs)
  letGo {w d} held _ := l.quiet (w.untouched_letGo d held) rfl (w.quiet_letGo d held)
  outside _ _ := l.note rfl
  byStore {w _s} n hs := l.quiet (World.untouched_requesting hs n) rfl (w.quiet_record rfl)

theorem plain : L.Plain where
  sound := l.sound
  grows := l.grows
  guarding h hw := l.untouched h.untouched h.items (h.sound (l.sound hw)) h.grows hw
  stuck := l.stuck

theorem basics (panic : ∀ text, (Engine.panic text).Keeps L) : Engine.Basics L where
  sound := l.sound
  grows := l.grows
  stuck := l.stuck
  idle h hw := l.untouched h.untouched h.items (h.sound (l.sound hw)) h.grows hw
  panic := panic
  newAspect {a} _ w hw := l.untouched (w.untouched_withAspect a) rfl
    (World.sound_withAspect a (l.sound hw)) (World.grows_withAspect a) hw

end Law.Lenient

/-- Stores are kept in order, and those in use are left alone, except for some. -/
def estate (T : Nat → Prop) : Law where
  inv w := w.Sound ∧ (¬ Panicked w.history → w.Proper)
  rel w e w' := w.Grows w' ∧ (e = .panicked → Panicked w'.history) ∧
    (e = .done → ¬ Panicked w'.history → ∀ s, ¬ T s → w.Leaves s w')
  refl _ := ⟨.refl _, nofun, fun _ _ _ _ => .refl _ _⟩
  trans := by
    rintro u v w d e - - ⟨hg, hp, hl⟩ - ⟨hg', hp', hl'⟩
    refine ⟨hg.trans hg', fun h => ?_, fun h hn s ht => ?_⟩
    · exact (Ending.andThen_eq_panicked h).elim (fun h => hg'.panicked (hp h)) hp'
    · obtain ⟨hd, he⟩ := Ending.andThen_eq_done h
      exact (hl hd (fun h => hn (hg'.panicked h)) s ht).trans (hl' he hn s ht)

/-- Whatever is done, every store in use is left alone. -/
abbrev estates : Law :=
  estate fun _ => False

variable {T : Nat → Prop}

theorem estate_holds {w w' : World} (hw' : w'.Sound) (hg : w.Grows w')
    (hp : ¬ Panicked w'.history → w'.Proper)
    (hl : ¬ Panicked w'.history → ∀ s, ¬ T s → w.Leaves s w') :
    (estate T).Holds w .done w' :=
  ⟨⟨hw', hp⟩, hg, nofun, fun _ => hl⟩

theorem estate_untouched {w w' : World} (h : w.Untouched w') (hw' : w'.Sound) (hg : w.Grows w')
    (hw : (estate T).inv w) : (estate T).Holds w .done w' :=
  estate_holds hw' hg (fun hp => h.proper hg.history hw.1 (hw.2 fun h => hp (hg.panicked h)))
    fun _ s _ => (h.spared s).leaves

theorem estate_stuck {w : World} (_ : (estate T).inv w) : (estate T).rel w .stuck w :=
  ⟨.refl _, nofun, nofun⟩

theorem estate_panic (text : String) : (Engine.panic text).Keeps (estate T) := by
  intro w hw
  unfold Engine.panic
  split
  · exact ⟨hw, (estate T).refl hw⟩
  · have hp : Panicked (w.raise text).history := ⟨text, List.mem_cons_self⟩
    exact ⟨⟨World.sound_raise text hw.1, fun h => absurd hp h⟩, World.grows_raise text,
      fun _ => hp, nofun⟩

theorem estate_lenient (T : Nat → Prop) : (estate T).Lenient where
  sound hw := hw.1
  grows h := h.1
  stuck := estate_stuck
  untouched h _ := estate_untouched h

theorem estate_basics (T : Nat → Prop) : Engine.Basics (estate T) :=
  (estate_lenient T).basics estate_panic

/-- With fewer exceptions more is said. -/
theorem estate_weaken {U : Nat → Prop} (h : ∀ s, T s → U s) {w w' : World} {e : Ending}
    (hl : (estate T).Holds w e w') : (estate U).Holds w e w' :=
  ⟨hl.1, hl.2.1, hl.2.2.1, fun he hp s hu => hl.2.2.2 he hp s fun ht => hu (h s ht)⟩

theorem estates_weaken {w w' : World} {e : Ending} (h : estates.Holds w e w') :
    (estate T).Holds w e w' :=
  estate_weaken (fun _ => False.elim) h

/-- What the others leave alone. -/
theorem leaves_of_estates {w w' : World} (h : estates.Holds w .done w')
    (hp : ¬ Panicked w'.history) (s : Nat) : w.Leaves s w' :=
  h.2.2.2 rfl hp s id

/-- As long as its store is in use an item stays usable. -/
theorem World.Usable.mono {w w' : World} {i : Nat} (hu : w.Usable i)
    (h : estates.Holds w .done w') : w'.Usable i := by
  obtain ⟨s, hs, ho, hu⟩ := hu
  have hg := h.2.1
  refine ⟨s, Nat.lt_of_lt_of_le hs hg.stores, ho.mono hg, fun hp => ?_⟩
  obtain ⟨hin, hd⟩ := hu fun hp' => hp (hg.panicked hp')
  have hl := leaves_of_estates h hp s
  exact ⟨hl.inUse.trans hin, (hl.unmoved hin).state ho ▸ hd⟩

namespace Engine

variable {call : Nat → Engine Unit}

/-- A write requests its trigger where the store is bound that the item is of. -/
theorem write_estate (hc : ∀ r, (call r).Keeps estates) {item : Nat} (value : Value) {w : World}
    (hu : w.Usable item) : (write call item value).KeepsAt estates w := by
  intro hw
  refine write_keepsAt (estate_lenient _).plain hc value (fun pass v _ hv => ?_) hw
  have hu := hu.mono hv
  refine storeValue_keepsAt (fun hv => ?_) (forward_keeps (estate_lenient _).delivering hc _ _ _)
  have hg := World.grows_issuing (w := v) item pass.access
  have hs := World.sound_issuing item pass.access hv.1
  by_cases hp : Panicked v.history
  · have hp := hg.panicked hp
    exact estate_holds hs hg (absurd hp) (absurd hp)
  · exact estate_untouched (World.untouched_issuing hu hp pass.access) hs hg hv

end Engine

end GuardedStore
