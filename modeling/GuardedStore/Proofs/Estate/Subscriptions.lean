import GuardedStore.Proofs.Estate.Admitted

/-!
Who is subscribed to what.

Between steps a store is subscribed to its own source and to the sources of its live items, to each
once and in the domain of its affinity alone. What a store does about its items and its affinity
never concerns the sources of another store.
-/
namespace GuardedStore

/-- Whether somebody other than a store has a hand in who is subscribed to the source. -/
def Happening.disturbs (source : Source) : Happening → Bool
  | .subscribed _ src | .unsubscribed _ src => src = source
  | _ => false

/-- How often a store is subscribed to a source. A domain that records does not know who subscribes,
so there it is how often anybody subscribed to the source, if it is the store's. -/
def Domain.subscriptions (d : Domain) (s : Nat) (source : Source) : Nat :=
  (d.subscribers source).count (.store s) +
    if source.owner = .drawn s then d.recorded source else 0

namespace World

variable {s t : Nat} {w w' : World} {source : Source}

/-- Nobody but the stores has had a hand in who is subscribed to the source. -/
def Undisturbed (w : World) (source : Source) : Prop :=
  ∀ y ∈ w.history, y.disturbs source = false

theorem Undisturbed.not_subscribed (h : w.Undisturbed source) (a : Option Nat) :
    .subscribed a source ∉ w.history :=
  fun hm => of_decide_eq_false (h _ hm) rfl

theorem Undisturbed.not_meddled (h : w.Undisturbed source) (d : Nat) : ¬ w.Meddled d source := by
  rintro ⟨a, hm | hm⟩
  · exact of_decide_eq_false (h _ hm) rfl
  · exact h.not_subscribed a hm.2

/-- A store that belongs to no call is subscribed as its affinity and its items tell. -/
theorem Proper.subscriptions (hp : w.Proper) (hw : w.Sound) (hs : s < w.stores.next)
    (ho : (w.store s).owned = false) (hu : w.Undisturbed source) (d : Nat) :
    (w.domain d).subscriptions s source =
      if (w.store s).dropped = false ∧ (w.store s).affinity = some d ∧ source ∈ w.sources s
      then 1 else 0 := by
  have hin := hp.stores hs
  have hid := hw.ids hs
  have hcov (hd : (w.store s).dropped = false) : w.Covers s source ↔ source ∈ w.sources s :=
    (hin.tidy hd ho).covers hw hid source
  by_cases hown : source.owner = .drawn s
  · have hbears : w.Bears s d source ↔ (w.store s).dropped = false ∧
        (w.store s).affinity = some d ∧ source ∈ w.sources s :=
      and_congr_right fun hd => and_congr_right fun _ => hcov hd
    have he : (w.domain d).subscriptions s source = (w.domain d).tally s source := by
      rw [Domain.subscriptions, if_pos hown, Domain.tally, Nat.add_comm]
    rw [he]
    split
    · next h => exact hin.bound.once hown (hu.not_meddled d) (hbears.mpr h)
    · next h => exact hin.bound.never hown (hu.not_meddled d) (h ∘ hbears.mp)
  · have hnone : ((w.domain d).subscribers source).count (.store s) = 0 := by
      refine List.count_eq_zero.mpr fun hm => ?_
      rcases hp.joined hm with ⟨r, hr, ho⟩ | ⟨-, a, ha⟩
      · cases hr
        exact hown ho
      · exact hu.not_subscribed a ha
    have hnot : ¬ ((w.store s).dropped = false ∧ (w.store s).affinity = some d ∧
        source ∈ w.sources s) := by
      rintro ⟨hd, -, hm⟩
      rcases (hcov hd).mpr hm with rfl | ⟨i, hi, rfl⟩
      · exact hown rfl
      · exact hown hi.1.2
    rw [Domain.subscriptions, if_neg hown, if_neg hnot, hnone]

/-- The items of a store that belongs to no call have its affinity. -/
theorem Proper.affinities (hp : w.Proper) (hw : w.Sound) (hs : s < w.stores.next)
    (ho : (w.store s).owned = false) (hd : (w.store s).dropped = false) :
    ∀ i ∈ w.itemsOf s, i.state = .live ∧ i.affinity = (w.store s).affinity := by
  have hin := hp.stores hs
  rintro _ hm
  obtain ⟨i, hi, rfl⟩ := List.mem_map.mp hm
  have hl := (hin.tidy hd ho).live hi
  exact ⟨hl, hin.bound.items ⟨hw.arenas hi, by rw [hl]; decide⟩⟩

/-- Nobody is subscribed to the sources of a store that was dropped. -/
theorem Proper.forgotten (hp : w.Proper) (hs : s < w.stores.next)
    (hd : (w.store s).dropped = true) (ho : source.owner = .drawn s) (hu : w.Undisturbed source)
    (d : Nat) : (w.domain d).subscribers source = [] ∧ (w.domain d).recorded source = 0 := by
  have hzero : (w.domain d).tally s source = 0 := by
    refine (hp.stores hs).bound.never ho (hu.not_meddled d) fun h => ?_
    have := h.1
    rw [hd] at this
    cases this
  rw [Domain.tally, Nat.add_eq_zero_iff, List.count_eq_zero] at hzero
  refine ⟨List.eq_nil_iff_forall_not_mem.mpr fun x hx => ?_, hzero.1⟩
  rcases hp.joined hx with ⟨r, rfl, hr⟩ | ⟨-, a, ha⟩
  · cases ho.symm.trans hr
    exact hzero.2 hx
  · exact hu.not_subscribed a ha

/-- Who is subscribed to the sources of the store is as it was. -/
structure SameSubscriptions (t : Nat) (w w' : World) : Prop where
  subscribers : ∀ {d source}, d < w.domains.next → source.owner = .drawn t →
    (w'.domain d).subscribers source = (w.domain d).subscribers source
  recorded : ∀ {d source}, d < w.domains.next → source.owner = .drawn t →
    (w'.domain d).recorded source = (w.domain d).recorded source

theorem sameSubscriptions_of_domains (h : w'.domains = w.domains) : w.SameSubscriptions t w' := by
  constructor <;> simp [domain, h]

theorem sameSubscriptions_of_table {T : Nat → Prop} (h : w.Signalling T w') :
    w.SameSubscriptions t w' :=
  ⟨fun _ _ => h.table _ _, fun _ _ => h.counts _ _⟩

theorem Keeping.sameSubscriptions (h : w.Keeping s w') (hs : s ≠ t) :
    w.SameSubscriptions t w' := by
  have hne {source : Source} (ho : source.owner = .drawn t) : source.owner ≠ .drawn s := by
    rw [ho]
    exact fun he => hs (StoreId.drawn.inj he).symm
  exact ⟨fun _ ho => h.table _ _ (hne ho), fun _ ho => h.counts _ _ (hne ho)⟩

end World

/-- Nobody but the store itself does anything about who is subscribed to its sources. -/
def sparing (t : Nat) : Law where
  inv := World.Sound
  rel w _ w' := w.Grows w' ∧ w.SameSubscriptions t w'
  refl _ := ⟨.refl _, World.sameSubscriptions_of_domains rfl⟩
  trans := by
    rintro u v w d e - - ⟨hg, h⟩ - ⟨hg', h'⟩
    have hlt {d : Nat} (hd : d < u.domains.next) : d < v.domains.next :=
      Nat.lt_of_lt_of_le hd hg.domains
    exact ⟨hg.trans hg', fun hd ho => (h'.subscribers (hlt hd) ho).trans (h.subscribers hd ho),
      fun hd ho => (h'.recorded (hlt hd) ho).trans (h.recorded hd ho)⟩

section Sparing

open World

variable {t : Nat}

theorem sparing_quiet {w w' : World} (h : w.Quiet w') (hs : w.SameSubscriptions t w')
    (hw : w.Sound) : (sparing t).Holds w .done w' :=
  ⟨h.sound hw, h.grows, hs⟩

theorem sparing_storekeeping (t : Nat) : (sparing t).Storekeeping (· ≠ t) where
  sound := id
  grows h := h.1
  tending hs h hw := sparing_quiet h.toQuiet (h.sameSubscriptions hs) hw
  keeping hs h hw := sparing_quiet h.toQuiet (h.sameSubscriptions hs) hw
  stuck _ := ⟨.refl _, sameSubscriptions_of_domains rfl⟩
  newStore {_ s} _ hid ha hd _ hw :=
    ⟨sound_withStore hid ha hd hw, grows_withStore s, sameSubscriptions_of_domains rfl⟩
  newItem {_ i s} _ hs hi hc ha _ _ hw :=
    ⟨sound_withItem ⟨s, hs, hi⟩ hc ha hw, grows_withItem i, sameSubscriptions_of_domains rfl⟩

theorem sparing_delivering (t : Nat) : (sparing t).Delivering where
  signalling h := sparing_quiet h.toQuiet (sameSubscriptions_of_table h)
  stuck _ := ⟨.refl _, sameSubscriptions_of_domains rfl⟩
  table {w r f} h := by
    have hd (d : Nat) : (w.domain d).SameTable ((w.modifyDomain r f).domain d) := by
      rw [domain_modifyDomain]
      split
      · next e =>
        rw [e]
        exact h _
      · exact .refl _
    exact sparing_quiet (w.quiet_sameTable r h)
      ⟨fun _ _ => (hd _).subscribers _, fun _ _ => (hd _).recorded _⟩
  taken _ _ := sparing_quiet (quiet_record rfl _) (sameSubscriptions_of_domains rfl)
  handing _ _ := sparing_quiet (quiet_record rfl _) (sameSubscriptions_of_domains rfl)
  takeHold subs := sparing_quiet (quiet_takeHold subs _) (sameSubscriptions_of_domains rfl)
  letGo held _ := sparing_quiet (quiet_letGo _ held _) (sameSubscriptions_of_domains rfl)
  outside _ _ := sparing_quiet (quiet_record rfl _) (sameSubscriptions_of_domains rfl)
  byStore _ _ := sparing_quiet (quiet_record rfl _) (sameSubscriptions_of_domains rfl)

theorem sparing_plain (t : Nat) : (sparing t).Plain where
  sound := id
  grows h := h.1
  guarding h hw := ⟨h.sound hw, h.grows, sameSubscriptions_of_domains h.domains⟩
  stuck _ := ⟨.refl _, sameSubscriptions_of_domains rfl⟩

variable {call : Nat → Engine Unit} (hc : ∀ r, (call r).Keeps (sparing t))

include hc

theorem Engine.write_sparing (item : Nat) (value : Value) :
    (write call item value).Keeps (sparing t) := by
  intro w
  refine write_keepsAt (sparing_plain t) hc value fun pass v _ _ => ?_
  refine storeValue_keepsAt (fun hv => ?_) (forward_keeps (sparing_delivering t) hc _ _ _)
  exact ⟨sound_issuing item _ hv, grows_issuing item _, sameSubscriptions_of_domains rfl⟩

theorem Engine.create_sparing {s : Nat} (hs : s ≠ t) {w : World} (hlt : s < w.stores.next)
    (name : String) (value : Value) {factory : Descriptor → Engine (List Nat)}
    (hf : w.Supplies (sparing t) factory) :
    (create call s name value factory).KeepsAt (sparing t) w :=
  create_keepsAt (sparing_storekeeping t).housing hs (fun v _ => write_sparing hc _ v _) name value hlt hf

end Sparing

namespace World

/-- Whatever other stores do, who is subscribed to the sources of this one stays as it is, unless it
is changed by what is called meanwhile. -/
structure KeptApart (t : Nat) (w : World) : Prop where
  buildStore : ∀ config {affinity}, w.Offers affinity →
    w.SameSubscriptions t (Engine.buildStore config affinity w).2
  create : ∀ {call : Nat → Engine Unit} {s factory} name value, (∀ r, (call r).Keeps (sparing t)) →
    w.Supplies (sparing t) factory → s ≠ t → s < w.stores.next →
      w.SameSubscriptions t (Engine.create call s name value factory w).2
  destroy : ∀ {s} key, s ≠ t → s < w.stores.next →
    w.SameSubscriptions t (Engine.destroy s key w).2
  setAffinity : ∀ {s affinity}, s ≠ t → s < w.stores.next → w.Offers affinity →
    w.SameSubscriptions t (Engine.setAffinity s affinity w).2
  dropStore : ∀ {s}, s ≠ t → s < w.stores.next →
    w.SameSubscriptions t (Engine.dropStore s w).2

theorem Sound.keptApart {t : Nat} {w : World} (hw : w.Sound) (ht : t < w.stores.next) :
    w.KeptApart t where
  buildStore config _ ha :=
    (Engine.buildStore_keepsAt (sparing_storekeeping t).housing config (Nat.ne_of_gt ht) ha hw).2.2
  create name value hc hf hs hlt := (Engine.create_sparing hc hs hlt name value hf hw).2.2
  destroy key hs hlt :=
    (Engine.destroy_keepsAt (sparing_storekeeping t).minding hs key hlt hw).2.2
  setAffinity hs hlt ha :=
    (Engine.setAffinity_keepsAt (sparing_storekeeping t).heeding hs hlt ha hw).2.2
  dropStore hs hlt := (Engine.dropStore_keepsAt (sparing_storekeeping t).toTending hs hlt hw).2.2

end World

namespace Scenario

/-- Between the steps of a run that nothing panics in, every store is subscribed where it is bound,
once to its own source and once to that of each live item, and nowhere else; its items are bound as
it is; nobody is subscribed to anything of a store that was dropped; and at no moment does what
another store does concern its sources. -/
theorem subscribed_as_bound {depth : Nat} {steps : List Step} {w : World}
    (h : settled depth {} steps = some w) (hp : ¬ Panicked w.history) :
    (∀ s < w.stores.next, ∀ d source, w.Undisturbed source →
      (w.domain d).subscriptions s source =
        if (w.store s).dropped = false ∧ (w.store s).affinity = some d ∧ source ∈ w.sources s
        then 1 else 0) ∧
    (∀ s < w.stores.next, (w.store s).dropped = false → ∀ i ∈ w.itemsOf s,
      i.state = .live ∧ i.affinity = (w.store s).affinity) ∧
    (∀ s < w.stores.next, (w.store s).dropped = true → ∀ d source, source.owner = .drawn s →
      w.Undisturbed source →
        (w.domain d).subscribers source = [] ∧ (w.domain d).recorded source = 0) ∧
    ∀ halt, let v := reached halt depth {} steps; ∀ t < v.stores.next, v.KeptApart t := by
  obtain ⟨hw, hidle⟩ := settled_estates h
  have hown (s : Nat) : (w.store s).owned = false := by
    have := hidle hp s
    simp only [Store.inUse, Bool.or_eq_false_iff] at this
    exact this.1
  refine ⟨fun s hs d source hu => ?_, fun s hs hd => ?_, fun s hs hd d source ho hu => ?_,
    fun halt t ht => ?_⟩
  · exact (hw.2 hp).subscriptions hw.1 hs (hown s) hu d
  · exact (hw.2 hp).affinities hw.1 hs (hown s) hd
  · exact (hw.2 hp).forgotten hs hd ho hu d
  · exact (reached_estates halt depth steps).1.keptApart ht

/-- A store with an item is bound to another domain while the item is written, and a second store
comes and goes. -/
def rebound : List Step :=
  [.domain "a" "a" .cooperative,
    .domain "b" "b" .recording,
    .store "s" (.builder [.affinity (some "a")]),
    .store "t" (.builder [.affinity (some "a")]),
    .create "s" "k" "n" .int64 (.int 0) none (.custom false false (.links [.fresh (.probe {
      name := "p"
      script := fun h => if h = .beforeWrite then
        some (Script.window 1 (some 1) [.setAffinity "s" (some "b")]) else none })])),
    .write "k" none (.int 1),
    .dropStore "t"]

theorem rebound_subscribed :
    let w := reached (fun _ => false) maxDepth {} rebound
    let source := Source.item (.drawn 0) ⟨0, 0⟩
    (settled maxDepth {} rebound = some w ∧ ¬ Panicked w.history ∧ w.Undisturbed source) ∧
      (w.domain 0).subscriptions 0 source = 0 ∧ (w.domain 1).subscriptions 0 source = 1 ∧
      (w.domain 0).subscribers (.store (.drawn 1)) = [] ∧ w.KeptApart 0 := by
  have hs : settled maxDepth {} rebound = some (reached (fun _ => false) maxDepth {} rebound) :=
    settled_eq_some (by decide +kernel)
  have hp : ¬ Panicked (reached (fun _ => false) maxDepth {} rebound).history := by
    decide +kernel
  have hu : (reached (fun _ => false) maxDepth {} rebound).Undisturbed
      (.item (.drawn 0) ⟨0, 0⟩) := by
    unfold World.Undisturbed
    decide +kernel
  have hu' : (reached (fun _ => false) maxDepth {} rebound).Undisturbed (.store (.drawn 1)) := by
    unfold World.Undisturbed
    decide +kernel
  obtain ⟨hsub, -, hdropped, hapart⟩ := subscribed_as_bound hs hp
  refine ⟨⟨hs, hp, hu⟩, (hsub 0 (by decide +kernel) 0 _ hu).trans ?_,
    (hsub 0 (by decide +kernel) 1 _ hu).trans ?_,
    (hdropped 1 (by decide +kernel) (by decide +kernel) 0 _ rfl hu').1,
    hapart (fun _ => false) 0 (by decide +kernel)⟩ <;> decide +kernel

end Scenario

end GuardedStore
