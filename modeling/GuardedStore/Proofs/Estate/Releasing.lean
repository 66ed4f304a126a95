import GuardedStore.Proofs.Estate.Law

/-!
Destroying items and dropping stores.

What a store does by itself spares all others, so it is enough to see that the store itself is in
order afterwards. Letting go of an item takes its source out of the domain that the store is bound
to; since the items that a store retains have different sources, no other subscription is lost.
-/
namespace GuardedStore

/-- The changes that are within a store's own. -/
def keeping (s : Nat) : Law where
  inv := World.Sound
  rel w _ w' := w.Keeping s w'
  refl _ := .refl s _
  trans _ _ h _ h' := h.trans h'

theorem keeping_lawful (s : Nat) : (keeping s).Keeping (· = s) where
  sound := id
  grows h := h.grows
  tending := by
    rintro w w' _ rfl h hw
    exact ⟨h.sound hw, h.toKeeping⟩
  keeping := by
    rintro w w' _ rfl h hw
    exact ⟨h.sound hw, h⟩
  stuck _ := .refl s _

theorem Engine.forM_apply {γ : Type} {f : γ → Engine Unit} {g : γ → World → World}
    (h : ∀ c w, f c w = (.done (), g c w)) (cs : List γ) (w : World) :
    cs.forM f w = (.done (), cs.foldl (fun w c => g c w) w) := by
  induction cs generalizing w with
  | nil => rfl
  | cons c cs ih =>
    show (f c >>= fun _ => cs.forM f) w = _
    rw [Engine.bind_apply, h]
    exact ih _

theorem Happening.registers_of_ofStore {s t : Nat} {y : Happening} (hy : y.ofStore s)
    (ht : t ≠ s) : y.registers (.drawn t) = false := by
  have hne {id : StoreId} (h : decide (id = .drawn s)) : decide (id = .drawn t) = false := by
    rw [of_decide_eq_true h]
    simpa using Ne.symm ht
  rcases y with _ | _ | _ | _ | _ | _ | _ | _ | _ | n <;> try rfl
  cases n <;> first | rfl | exact hne hy

theorem Happening.settles_of_ofStore {s t : Nat} {y : Happening} (hy : y.ofStore s) (ht : t ≠ s) :
    y.settles t = false := by
  have hne {id : StoreId} (h : decide (id = .drawn s)) : decide (id = .drawn t) = false := by
    rw [of_decide_eq_true h]
    simpa using Ne.symm ht
  cases y with
  | bound r a =>
    have hr : r = s := of_decide_eq_true hy
    exact decide_eq_false (hr ▸ Ne.symm ht)
  | notice n => cases n <;> first | rfl | exact hne hy
  | made => cases hy
  | _ => rfl

theorem Happening.silent_of_ofStore {s : Nat} {y : Happening} (hy : y.ofStore s) : y.silent := by
  cases y <;> first | rfl | cases hy

namespace World

variable {s i : Nat} {w w' : World}

theorem Keeping.spared (h : w.Keeping s w') {t : Nat} (ht : t ≠ s) : w.Spared t w' := by
  have hid {t : Nat} {source : Source} (ht : t ≠ s) (ho : source.owner = .drawn t) :
      source.owner ≠ .drawn s := by
    rw [ho]
    exact fun he => ht (StoreId.drawn.inj he)
  obtain ⟨notes, hnotes, hh⟩ := h.notes
  refine .of_same (fun i => ?_) (fun {i} hi => ?_) ?_ ?_ ?_ (by rw [h.names])
    fun {d source} ho hm => .inl ⟨?_, ?_⟩
  · rw [Owns, Owns, h.items, h.descriptor]
  · rw [h.strangers i (hi.2 ▸ fun he => ht (StoreId.drawn.inj he))]
    exact ⟨rfl, rfl, rfl⟩
  · rw [h.elsewhere t ht]
    exact .refl _
  · rw [hh, registry_append fun y hy => Happening.registers_of_ofStore (hnotes y hy) ht]
  · rw [hh]
    exact agree_append (fun y hy => Happening.settles_of_ofStore (hnotes y hy) ht) _
  · exact fun hm' => hm (hm'.mono h.grows.history (h.kind d))
  · rw [Domain.tally, Domain.tally, h.table d source (hid ht ho), h.counts d source (hid ht ho)]

theorem Keeping.proper (h : w.Keeping s w') (hs : s < w.stores.next) (hw : w.Sound)
    (hp : w.Proper) (ho : w'.InOrder s) : w'.Proper where
  stores {t} ht := by
    rw [h.stores] at ht
    by_cases hts : t = s
    · exact hts ▸ ho
    · exact (h.spared hts).inOrder hw (hp.stores ht)
  unissued {t} ht := by
    rw [h.stores] at ht
    have hts : t ≠ s := by omega
    rw [(h.spared hts).register, hp.unissued ht]
  unused {t} ht := by
    rw [h.stores] at ht
    have hts : t ≠ s := by omega
    rw [(h.spared hts).sharers, (h.spared hts).owned]
    exact hp.unused ht
  unbound {t d source} ht ho hm := by
    rw [h.stores] at ht
    have hts : t ≠ s := by omega
    rcases (h.spared hts).table ho hm with ⟨hm, htally⟩ | ⟨htally, -⟩
    · rw [htally, hp.unbound ht ho hm]
    · exact htally
  single hn hn' := by
    rw [h.names] at hn hn'
    exact hp.single hn hn'
  unfounded {t} ht := by
    rw [h.stores] at ht
    have hts : t ≠ s := by omega
    have ha := (h.spared hts).agree
    obtain ⟨hb, hf⟩ := hp.unfounded ht
    exact ⟨ha.binding.trans hb, fun source ho => (ha.fate ho).trans (hf source ho)⟩
  joined hx := by
    rcases h.joined hx with hx | ⟨rfl, ho⟩
    · exact (hp.joined hx).imp_right fun ⟨hr, a, ha⟩ => ⟨hr, a, h.grows.history.subset ha⟩
    · exact .inl ⟨s, rfl, ho⟩
  truthful := by
    obtain ⟨notes, hnotes, hh⟩ := h.notes
    exact hp.truthful.mono h.grows
      ⟨notes, fun y hy => Happening.silent_of_ofStore (hnotes y hy), hh⟩

end World

/-- A store that does something about what is its own keeps the law if it is in order afterwards. -/
theorem estate_keeping {T : Nat → Prop} {s : Nat} {w w' : World} (h : w.Keeping s w')
    (hs : s < w.stores.next) (hw : (estate T).inv w) (hl : ¬ T s → w.Leaves s w')
    (ho : ¬ Panicked w.history → w.Proper → w'.InOrder s) : (estate T).Holds w .done w' := by
  refine estate_holds (h.sound hw.1) h.grows (fun hp => ?_) fun _ t ht => ?_
  · have hp := fun h' => hp (h.grows.panicked h')
    exact h.proper hs hw.1 (hw.2 hp) (ho hp (hw.2 hp))
  · by_cases he : t = s
    · exact he ▸ hl (he ▸ ht)
    · exact (h.spared he).leaves

namespace World

variable {s i : Nat} {w : World}

/-- The world after an item that is no longer in its slot was let go. -/
def releasing (s i : Nat) (w : World) : World :=
  let d := (w.item i).descriptor
  { w with
    domains := (w.unsubscribing (w.store s).affinity d.source).domains
    stores :=
      if (w.store s).names.find? d.name = some d.id then
        w.stores.modify s fun x => { x with names := x.names.erase d.name }
      else w.stores
    items := w.items.modify i fun x => { x with state := .destroyed }
    history := .notice (.itemDestroyed (w.store s).id d.id d.name) :: w.history }

theorem store_releasing (s i : Nat) (w : World) :
    (w.releasing s i).store s = { w.store s with
      names :=
        if (w.store s).names.find? (w.item i).descriptor.name = some (w.item i).descriptor.id then
          (w.store s).names.erase (w.item i).descriptor.name
        else (w.store s).names } := by
  unfold releasing store
  dsimp only
  split
  · rw [Heap.get_modify, if_pos rfl]
  · rfl

theorem item_releasing (s i : Nat) (w : World) (j : Nat) :
    (w.releasing s i).item j = if j = i then { w.item i with state := .destroyed } else w.item j :=
  w.items.get_modify i j _

end World

theorem Engine.release_apply (s i : Nat) (w : World) :
    Engine.release s i w = (.done (), w.releasing s i) := by
  unfold Engine.release World.releasing
  simp only [Engine.bind_apply, Engine.get, Engine.unsubscribe_apply, Engine.notice, Engine.record]
  split <;> cases (w.store s).affinity <;> rfl

namespace World

variable {s i : Nat} {w : World}

/-- No two items that the store retains have the same id. -/
def Distinct (w : World) (s : Nat) : Prop :=
  ∀ {i j}, w.Retains s i → w.Retains s j → (w.item i).descriptor.id = (w.item j).descriptor.id →
    i = j

theorem Tidy.slot (h : w.Tidy s) {i : Nat} (hi : i ∈ (w.store s).arena.toList) :
    (w.store s).arena.get? (w.item i).descriptor.id = some i := by
  obtain ⟨j, hj⟩ := (Arena.mem_toList h.wellFormed.bounded).mp hi
  rw [h.filed hj]
  exact Arena.get?_eq_some.mpr ⟨hj, rfl⟩

theorem Tidy.eq_of_id (h : w.Tidy s) {i j : Nat} (hi : i ∈ (w.store s).arena.toList)
    (hj : j ∈ (w.store s).arena.toList)
    (hij : (w.item i).descriptor.id = (w.item j).descriptor.id) : i = j := by
  have := h.slot hi
  rw [hij, h.slot hj] at this
  exact (Option.some.inj this).symm

theorem Tidy.distinct (h : w.Tidy s) : w.Distinct s :=
  fun hi hj hij => h.eq_of_id (h.retained hi) (h.retained hj) hij

theorem owns_releasing (s i t j : Nat) : (w.releasing s i).Owns t j ↔ w.Owns t j := by
  rw [Owns, Owns, item_releasing]
  change j < w.items.next ∧ _ ↔ _
  split
  · next h => rw [h]
  · rfl

theorem retains_releasing (s i t j : Nat) :
    (w.releasing s i).Retains t j ↔ w.Retains t j ∧ j ≠ i := by
  rw [Retains, Retains, owns_releasing, item_releasing]
  split
  · next h => simp [h]
  · next h => simp [h]

theorem meddled_releasing {d : Nat} {source : Source} (s i : Nat) :
    (w.releasing s i).Meddled d source ↔ w.Meddled d source := by
  have hk : ((w.releasing s i).domain d).kind = (w.domain d).kind :=
    (w.quiet_unsubscribing _ _).kind d
  unfold Meddled
  rw [hk]
  change (∃ a, _ ∈ _ :: w.history ∨ _ ∧ _ ∈ _ :: w.history) ↔ _
  simp

theorem tally_releasing (s i : Nat) (d : Nat) (source : Source) :
    ((w.releasing s i).domain d).tally s source =
      if (w.store s).affinity = some d ∧ source = (w.item i).source then 0
      else (w.domain d).tally s source :=
  w.tally_unsubscribing _ _ _ s d

/-- Only the source of the item is no longer that of one retained. -/
theorem covers_releasing {source : Source} (hw : w.Distinct s) (hi : w.Retains s i) :
    (w.releasing s i).Covers s source ↔ w.Covers s source ∧ source ≠ (w.item i).source := by
  have hsrc {j : Nat} (hj : j ≠ i) : ((w.releasing s i).item j).source = (w.item j).source := by
    rw [item_releasing, if_neg hj]
  simp only [Covers, retains_releasing]
  constructor
  · rintro (rfl | ⟨j, ⟨hj, hji⟩, rfl⟩)
    · exact ⟨.inl rfl, nofun⟩
    · rw [hsrc hji]
      refine ⟨.inr ⟨j, hj, rfl⟩, fun he => hji (hw hj hi ?_)⟩
      injection he
  · rintro ⟨rfl | ⟨j, hj, rfl⟩, hne⟩
    · exact .inl rfl
    · have hji : j ≠ i := fun h => hne (h ▸ rfl)
      exact .inr ⟨j, ⟨hj, hji⟩, hsrc hji⟩

theorem bears_releasing {d : Nat} {source : Source} (hw : w.Distinct s) (hi : w.Retains s i) :
    (w.releasing s i).Bears s d source ↔ w.Bears s d source ∧ source ≠ (w.item i).source := by
  rw [Bears, Bears, store_releasing, covers_releasing hw hi, and_assoc, and_assoc]

theorem knows_releasing {source : Source} :
    (w.releasing s i).Knows s source ↔ w.Knows s source :=
  knows_of_same (owns_releasing s i s) fun {j} _ => by
    rw [item_releasing]
    split
    · next h => rw [h]; rfl
    · rfl

theorem perished_releasing {source : Source} (hid : (w.store s).id = .drawn s)
    (hi : w.Owns s i) : perished source (w.releasing s i).history =
      if source = (w.item i).source then true else perished source w.history := by
  rw [Item.source, Descriptor.source, hi.2, ← hid]
  rfl

/-- The store remains bound to the sources of what it retains. -/
theorem Bound.releasing (hb : w.Bound s) (hid : (w.store s).id = .drawn s) (hw : w.Distinct s)
    (hi : w.Retains s i) : (w.releasing s i).Bound s := by
  constructor
  case once =>
    intro d source ho hm h
    rw [bears_releasing hw hi] at h
    rw [tally_releasing, if_neg (h.2 ·.2)]
    exact hb.once ho (hm ∘ (meddled_releasing s i).mpr) h.1
  case never =>
    intro d source ho hm h
    rw [bears_releasing hw hi] at h
    rw [tally_releasing]
    split
    · rfl
    · next hne =>
      exact hb.never ho (hm ∘ (meddled_releasing s i).mpr) fun hd =>
        h ⟨hd, fun he => hne ⟨hd.2.1, he⟩⟩
  case items =>
    intro j hj
    rw [retains_releasing] at hj
    rw [item_releasing, if_neg hj.2, hb.items hj.1, store_releasing]
  case told =>
    rw [store_releasing]
    exact hb.told
  case fate =>
    intro source hk
    rw [perished_releasing hid hi.1, covers_releasing hw hi, store_releasing, ← and_assoc,
      ← hb.fate (knows_releasing.mp hk)]
    split
    · next h => simp [h]
    · next h => simp [h]

theorem Distinct.releasing (hw : w.Distinct s) (i : Nat) : (w.releasing s i).Distinct s := by
  intro j k hj hk he
  rw [retains_releasing] at hj hk
  rw [item_releasing, item_releasing, if_neg hj.2, if_neg hk.2] at he
  exact hw hj.1 hk.1 he

/-- Only slots, names and how the store is in use have changed. -/
theorem Bound.modifyStore (hb : w.Bound s) {f : Store → Store}
    (hf : ∀ x, (f x).dropped = x.dropped ∧ (f x).affinity = x.affinity) :
    (w.modifyStore s f).Bound s := by
  have hst : (w.modifyStore s f).store s = f (w.store s) := by rw [store_modifyStore, if_pos rfl]
  refine hb.of_same ?_ ?_ (.refl _ _) (fun _ => .rfl) (fun _ => rfl) (fun _ => .rfl)
    (fun _ => rfl) fun _ hm => .inl ⟨hm, rfl⟩
  · rw [hst, (hf _).1]
  · rw [hst, (hf _).2]

/-- An item was destroyed, and its slot is vacant. -/
def destroying (s i : Nat) (arena : Arena Nat) (w : World) : World :=
  (w.modifyStore s fun x => { x with arena }).releasing s i

theorem store_destroying (s i : Nat) (arena : Arena Nat) (w : World) :
    (w.destroying s i arena).store s = { w.store s with
      arena
      names :=
        if (w.store s).names.find? (w.item i).descriptor.name = some (w.item i).descriptor.id then
          (w.store s).names.erase (w.item i).descriptor.name
        else (w.store s).names } := by
  have hst : (w.modifyStore s fun x => { x with arena }).store s = { w.store s with arena } := by
    rw [store_modifyStore, if_pos rfl]
  rw [destroying, store_releasing, hst]
  rfl

theorem item_destroying (s i : Nat) (arena : Arena Nat) (w : World) (j : Nat) :
    (w.destroying s i arena).item j =
      if j = i then { w.item i with state := .destroyed } else w.item j :=
  w.items.get_modify i j _

theorem registry_destroying (hid : (w.store s).id = .drawn s) (i : Nat) (arena : Arena Nat) :
    registry (.drawn s) (w.destroying s i arena).history =
      (registry (.drawn s) w.history).destroy (w.item i).descriptor.id := by
  have hst : ((w.modifyStore s fun x => { x with arena }).store s).id = .drawn s := by
    rw [store_modifyStore, if_pos rfl]
    exact hid
  change registry _ (.notice (.itemDestroyed ((w.modifyStore s _).store s).id _ _) :: _) = _
  rw [hst, registry, if_pos rfl]
  rfl

namespace Tidy

variable {id : ItemId} {arena : Arena Nat} (h : w.Tidy s)
  (hr : (w.store s).arena.remove? id = some (i, arena))

include h hr

theorem id_of_remove? : (w.item i).descriptor.id = id := by
  have hrem := Arena.removes_of_remove? hr
  rw [h.filed hrem.item, hrem.generation]

/-- An item that is removed was in no other slot. -/
theorem mem_removed {j : Nat} : j ∈ arena.toList ↔ j ∈ (w.store s).arena.toList ∧ j ≠ i := by
  have hrem := Arena.removes_of_remove? hr
  rw [Arena.mem_toList (h.wellFormed.remove hr).bounded, Arena.mem_toList h.wellFormed.bounded]
  constructor
  · rintro ⟨k, hk⟩
    rw [hrem.slot] at hk
    split at hk
    · cases hk
    · next hne =>
      refine ⟨⟨k, hk⟩, ?_⟩
      rintro rfl
      have hd := h.filed hk
      rw [h.id_of_remove? hr] at hd
      exact hne (congrArg ItemId.index hd).symm
  · rintro ⟨⟨k, hk⟩, hne⟩
    refine ⟨k, ?_⟩
    rw [hrem.slot, if_neg, hk]
    rintro rfl
    exact hne (Option.some.inj (hk.symm.trans hrem.item))

theorem filed_destroying {k : UInt32} {j : Nat} (hk : (arena.slot k).item = some j) :
    ((w.destroying s i arena).item j).descriptor.id = ⟨k, (arena.slot k).generation⟩ := by
  have hm := (Arena.mem_toList (h.wellFormed.remove hr).bounded).mpr ⟨k, hk⟩
  rw [item_destroying, if_neg ((h.mem_removed hr).mp hm).2]
  rw [(Arena.removes_of_remove? hr).slot] at hk ⊢
  split at hk
  · cases hk
  · next hne => rw [if_neg hne, h.filed hk]

/-- The name of an item leads to it. -/
theorem find?_name : (w.store s).names.find? (w.item i).descriptor.name = some id :=
  (h.named _ _).mpr ⟨(w.item i).entry, (h.listed _).mpr ⟨i, (Arena.mem_of_mem_remove? hr).1, rfl⟩,
    rfl, h.id_of_remove? hr⟩

variable (hid : (w.store s).id = .drawn s)

include hid

theorem live_destroying (e : Entry) :
    e ∈ (registry (.drawn s) (w.destroying s i arena).history).live ↔
      e ∈ (registry (.drawn s) w.history).live ∧ e.id ≠ id := by
  rw [registry_destroying hid, Registry.destroy, h.id_of_remove? hr, List.mem_filter,
    decide_eq_true_eq]

theorem listed_destroying (e : Entry) :
    e ∈ (registry (.drawn s) (w.destroying s i arena).history).live ↔
      ∃ j ∈ arena.toList, ((w.destroying s i arena).item j).entry = e := by
  have hd := h.id_of_remove? hr
  rw [h.live_destroying hr hid, h.listed]
  simp only [h.mem_removed hr]
  constructor
  · rintro ⟨⟨j, hj, rfl⟩, hne⟩
    have hji : j ≠ i := fun he => hne (he ▸ hd)
    exact ⟨j, ⟨hj, hji⟩, by rw [item_destroying, if_neg hji]⟩
  · rintro ⟨j, ⟨hj, hji⟩, rfl⟩
    rw [item_destroying, if_neg hji]
    have hi := (Arena.mem_of_mem_remove? hr).1
    exact ⟨⟨j, hj, rfl⟩, fun he => hji (h.eq_of_id hj hi (he.trans hd.symm))⟩

/-- A name that is given back is that of no item that is left. -/
theorem named_destroying (name : String) (id' : ItemId) :
    ((w.store s).names.erase (w.item i).descriptor.name).find? name = some id' ↔
      ∃ e ∈ (registry (.drawn s) (w.destroying s i arena).history).live,
        e.name = name ∧ e.id = id' := by
  rw [Table.find?_erase]
  simp only [h.live_destroying hr hid]
  split
  · next hname =>
    refine ⟨(fun h => by cases h), ?_⟩
    rintro ⟨e, ⟨he, hne⟩, hen, rfl⟩
    have hfound := (h.named _ _).mpr ⟨e, he, hen, rfl⟩
    rw [hname, h.find?_name hr] at hfound
    exact absurd (Option.some.inj hfound).symm hne
  · next hne =>
    rw [h.named]
    refine exists_congr fun e => and_congr_left fun hen => ?_
    refine ⟨fun he => ⟨he, fun hsame => hne ?_⟩, And.left⟩
    obtain ⟨j, hj, rfl⟩ := (h.listed e).mp he
    have hi := (Arena.mem_of_mem_remove? hr).1
    rw [← hen.1, ← h.eq_of_id hj hi (hsame.trans (h.id_of_remove? hr).symm)]
    rfl

theorem gone_destroying {j : Nat} (hj : (w.destroying s i arena).Owns s j)
    (hx : ((w.destroying s i arena).item j).state = .destroyed)
    (few : (registry (.drawn s) (w.destroying s i arena).history).issued.length ≤ UInt32.size) :
    ((w.destroying s i arena).item j).descriptor.id ∈
        (registry (.drawn s) (w.destroying s i arena).history).issued ∧
      ∀ e ∈ (registry (.drawn s) (w.destroying s i arena).history).live,
        e.id ≠ ((w.destroying s i arena).item j).descriptor.id := by
  have hlive := h.live_destroying hr hid
  by_cases hji : j = i
  · have hd := h.id_of_remove? hr
    have hdj : ((w.destroying s i arena).item j).descriptor.id = id := by
      rw [item_destroying, if_pos hji]
      exact hd
    rw [hdj]
    refine ⟨?_, fun e he => ((hlive e).mp he).2⟩
    have hi := (Arena.mem_of_mem_remove? hr).1
    rw [registry_destroying hid]
    exact hd ▸ issued_of_live ((h.listed _).mpr ⟨i, hi, rfl⟩)
  · rw [World.destroying, owns_releasing] at hj
    rw [item_destroying, if_neg hji] at hx ⊢
    rw [registry_destroying hid] at hlive few ⊢
    obtain ⟨hpast, hnone⟩ := h.gone (i := j) hj hx few
    exact ⟨hpast, fun e he => hnone e ((hlive e).mp he).1⟩

/-- A store that was tidy is so again when an item of its is destroyed. -/
theorem destroying : (w.destroying s i arena).Tidy s := by
  have hst := store_destroying s i arena w
  rw [h.id_of_remove? hr, if_pos (h.find?_name hr)] at hst
  constructor
  case wellFormed =>
    rw [hst]
    exact h.wellFormed.remove hr
  case live =>
    intro j hj
    rw [hst, h.mem_removed hr] at hj
    rw [item_destroying, if_neg hj.2, h.live hj.1]
  case filed =>
    rw [hst]
    exact h.filed_destroying hr
  case retained =>
    intro j hj
    rw [World.destroying, retains_releasing] at hj
    rw [hst]
    exact (h.mem_removed hr).mpr ⟨h.retained hj.1, hj.2⟩
  case listed =>
    rw [hst]
    exact h.listed_destroying hr hid
  case once =>
    rw [registry_destroying hid]
    exact h.once.filter _
  case named =>
    rw [hst]
    exact h.named_destroying hr hid
  case issues =>
    rw [hst, registry_destroying hid]
    exact h.issues.remove hr
  case gone => exact h.gone_destroying hr hid

end Tidy

theorem InOrder.destroying (h : w.InOrder s) (hid : (w.store s).id = .drawn s)
    (hdrop : (w.store s).dropped = false) (ht : w.Tidy s) (hw : w.Sound) {id : ItemId}
    {arena : Arena Nat} (hr : (w.store s).arena.remove? id = some (i, arena)) :
    (w.destroying s i arena).InOrder s := by
  have hst := store_destroying s i arena w
  have hnames : (w.destroying s i arena).names = w.names := rfl
  have hi := (Arena.mem_of_mem_remove? hr).1
  have hret : w.Retains s i := ⟨hw.arenas hi, by rw [ht.live hi]; decide⟩
  refine ⟨fun hn => ?_, fun _ => ?_, fun _ _ => ht.destroying hr hid, ?_⟩
  · rw [hst]
    exact h.named (by rwa [Named, hnames] at hn)
  · rw [hst]
    exact hdrop
  · have hid' : ((w.modifyStore s fun x => { x with arena }).store s).id = .drawn s := by
      rw [store_modifyStore, if_pos rfl]
      exact hid
    exact (h.bound.modifyStore (f := fun x => { x with arena }) fun _ => ⟨rfl, rfl⟩).releasing
      hid' ht.distinct hret

theorem Tidy.pairwise (h : w.Tidy s) :
    ((w.store s).arena.toList.map fun i => (w.item i).descriptor.id.index).Pairwise (· < ·) :=
  Arena.pairwise_index_lt h.wellFormed.bounded fun hi => by rw [h.filed hi]

theorem Tidy.nodup (h : w.Tidy s) : (w.store s).arena.toList.Nodup :=
  List.Pairwise.of_map _ (fun i j hij he => by rw [he] at hij; exact UInt32.lt_irrefl _ hij)
    h.pairwise

/-- Items are let go one after the other. -/
theorem Bound.releasing_all (items : List Nat) : ∀ {w : World}, w.Bound s →
    (w.store s).id = .drawn s → w.Distinct s → items.Nodup → (∀ i ∈ items, w.Retains s i) →
      let v := items.foldl (fun v i => v.releasing s i) w
      v.Bound s ∧ (∀ j, v.Retains s j ↔ w.Retains s j ∧ j ∉ items) ∧
        ∃ names, v.store s = { w.store s with names } := by
  induction items with
  | nil => exact fun hb _ _ _ _ => ⟨hb, by simp, _, rfl⟩
  | cons i items ih =>
    intro w hb hid hd hn hr
    obtain ⟨hi, hn⟩ := List.nodup_cons.mp hn
    have hri := hr i List.mem_cons_self
    have hid' : ((w.releasing s i).store s).id = .drawn s := by rw [store_releasing, hid]
    obtain ⟨hb', hr', names, hst⟩ := ih (hb.releasing hid hd hri) hid' (hd.releasing i) hn
      fun j hj => (retains_releasing s i s j).mpr
        ⟨hr j (List.mem_cons_of_mem i hj), fun he => hi (he ▸ hj)⟩
    refine ⟨hb', fun j => ?_, names, ?_⟩
    · rw [List.foldl_cons, hr', retains_releasing, List.mem_cons, not_or, and_assoc]
    · rw [List.foldl_cons, hst, store_releasing]

/-- The store's slots are empty, and its items were let go. -/
def emptying (s : Nat) (w : World) : World :=
  (w.store s).arena.toList.foldl (fun v i => v.releasing s i)
    (w.modifyStore s fun x => { x with arena := (w.store s).arena.drain.2 })

/-- A store without items is no more. -/
def retiring (s : Nat) (n : Notice) (w : World) : World :=
  { w with
    domains := (w.unsubscribing (w.store s).affinity (w.store s).source).domains
    stores := w.stores.modify s fun x => { x with dropped := true }
    history := .notice n :: w.history }

theorem store_retiring (s : Nat) (n : Notice) (w : World) :
    (w.retiring s n).store s = { w.store s with dropped := true } :=
  (w.stores.get_modify s s _).trans (if_pos rfl)

theorem Bound.retiring (hb : w.Bound s) (hid : (w.store s).id = .drawn s)
    (hn : ∀ i, ¬ w.Retains s i) (name : String) (n : Nat) :
    (w.retiring s (.storeDropped (.drawn s) name n)).Bound s := by
  have hst := store_retiring s (.storeDropped (.drawn s) name n) w
  have hg : w.history <:+ (w.retiring s (.storeDropped (.drawn s) name n)).history :=
    List.suffix_cons _ _
  have hm {d : Nat} {source : Source} (h : w.Meddled d source) :
      (w.retiring s (.storeDropped (.drawn s) name n)).Meddled d source :=
    h.mono hg ((w.quiet_unsubscribing _ _).kind d)
  refine ⟨fun _ _ h => ?_, fun {d source} ho hm' _ => ?_, fun hi => absurd hi (hn _), ?_,
    fun {source} hk => ?_⟩
  · have := h.1
    rw [hst] at this
    cases this
  · have htally := w.tally_unsubscribing (w.store s).affinity (w.store s).source source s d
    change ((w.unsubscribing (w.store s).affinity (w.store s).source).domain d).tally s source = 0
    rw [htally]
    split
    · rfl
    · next hne =>
      refine hb.never ho (hm' ∘ hm) ?_
      rintro ⟨-, ha, rfl | ⟨i, hi, -⟩⟩
      · exact hne ⟨ha, by rw [Store.source, hid]⟩
      · exact hn i hi
  · rw [hst]
    exact hb.told
  · have hper : perished source (w.retiring s (.storeDropped (.drawn s) name n)).history = true :=
      if_pos hk.owner
    rw [hper, hst]
    simp

/-- A store was dropped. -/
def dropping (s : Nat) (w : World) : World :=
  (w.emptying s).retiring s
    (.storeDropped (w.store s).id (w.store s).config.name (w.store s).arena.toList.length)

theorem Tidy.dropping (ht : w.Tidy s) (hb : w.Bound s) (hw : w.Sound)
    (hid : (w.store s).id = .drawn s) :
    (w.dropping s).Bound s ∧ ∃ arena names,
      (w.dropping s).store s = { w.store s with arena, names, dropped := true } := by
  have hret : ∀ i ∈ (w.store s).arena.toList, w.Retains s i := fun i hi =>
    ⟨hw.arenas hi, by rw [ht.live hi]; decide⟩
  have hb' : (w.modifyStore s fun x => { x with arena := (w.store s).arena.drain.2 }).Bound s :=
    hb.modifyStore fun _ => ⟨rfl, rfl⟩
  have hid' : ((w.modifyStore s fun x =>
      { x with arena := (w.store s).arena.drain.2 }).store s).id = .drawn s := by
    rw [store_modifyStore, if_pos rfl]
    exact hid
  obtain ⟨hv, hr, names, hst⟩ := hb'.releasing_all _ hid' ht.distinct ht.nodup hret
  rw [store_modifyStore, if_pos rfl] at hst
  have hnone (j : Nat) : ¬ (w.emptying s).Retains s j := fun hj =>
    ((hr j).mp hj).2 (ht.retained ((hr j).mp hj).1)
  have hv' := Bound.retiring hv (by rw [hst]; exact hid) hnone (w.store s).config.name
    (w.store s).arena.toList.length
  rw [← hid] at hv'
  refine ⟨hv', (w.store s).arena.drain.2, names, ?_⟩
  exact (store_retiring s _ _).trans (by rw [emptying, hst])

/-- A store that nobody uses any more is dropped. -/
theorem InOrder.dropping (h : w.InOrder s) (hw : w.Sound) (hid : (w.store s).id = .drawn s)
    (hn : ¬ w.Named s) (hd : (w.store s).dropped = false) (hu : (w.store s).inUse = false) :
    (w.dropping s).InOrder s := by
  have ho : (w.store s).owned = false := by
    simp only [Store.inUse, Bool.or_eq_false_iff] at hu
    exact hu.1
  obtain ⟨hb, arena, names, hst⟩ := (h.tidy hd ho).dropping h.bound hw hid
  have hnames : ∀ (items : List Nat) (v : World),
      (items.foldl (fun v i => v.releasing s i) v).names = v.names := by
    intro items
    induction items with
    | nil => exact fun _ => rfl
    | cons i items ih => exact fun v => ih _
  refine ⟨fun hn' => absurd hn' ?_, fun hu' => ?_, fun hd' => ?_, hb⟩
  · have he : (w.dropping s).names = w.names := hnames _ _
    rwa [Named, he]
  · rw [hst] at hu'
    exact absurd (hu'.symm.trans hu) (by decide)
  · rw [hst] at hd'
    cases hd'

end World

namespace Engine

open World

variable {T : Nat → Prop} {s : Nat} {w : World}

theorem destroy_apply (s : Nat) (key : Key) (w : World) :
    destroy s key w =
      if key.store ≠ (w.store s).id then
        (.done (.error (.foreignItem key.id key.store (w.store s).id)), w)
      else
        match (w.store s).arena.remove? key.id with
        | none => (.done (.error (.staleItem key.id)), w)
        | some (i, arena) => (.done (.ok ()), w.destroying s i arena) := by
  unfold destroy
  simp only [bind_apply, get]
  split
  · rfl
  · cases (w.store s).arena.remove? key.id with
    | none => rfl
    | some r =>
      change (modify _ >>= fun _ => release s r.1 >>= fun _ => pure _) w = _
      rw [bind_apply]
      change (release s r.1 >>= fun _ => pure _) _ = _
      rw [bind_apply, release_apply]
      rfl

theorem dropStore_apply (s : Nat) (w : World) : dropStore s w = (.done (), w.dropping s) := by
  have hsame : ∀ (items : List Nat) (v : World),
      let x := (items.foldl (fun v i => v.releasing s i) v).store s
      x.affinity = (v.store s).affinity ∧ x.source = (v.store s).source := by
    intro items
    induction items with
    | nil => exact fun _ => ⟨rfl, rfl⟩
    | cons i items ih =>
      intro v
      obtain ⟨ha, hs⟩ := ih (v.releasing s i)
      rw [store_releasing] at ha hs
      exact ⟨ha, hs⟩
  have he : ((w.emptying s).store s).affinity = (w.store s).affinity ∧
      ((w.emptying s).store s).source = (w.store s).source := by
    have := hsame (w.store s).arena.toList
      (w.modifyStore s fun x => { x with arena := (w.store s).arena.drain.2 })
    rw [store_modifyStore, if_pos rfl] at this
    exact this
  have hr := forM_apply (release_apply s) (w.store s).arena.toList
    (w.modifyStore s fun x => { x with arena := (w.store s).arena.drain.2 })
  unfold dropStore dropping retiring
  rw [he.1, he.2]
  refine (bind_of_done (m := Engine.get) rfl).trans ((bind_of_done rfl).trans ?_)
  refine (bind_of_done hr).trans ((bind_of_done (unsubscribe_apply _ _ _)).trans ?_)
  change (_, _) = (_, _)
  cases (w.store s).affinity <;> rfl

theorem keeping_destroy (hw : w.Sound) (hs : s < w.stores.next) (key : Key) :
    w.Keeping s (destroy s key w).2 :=
  (destroy_keepsAt (keeping_lawful s).minding rfl key hs hw).2

theorem keeping_dropStore (hw : w.Sound) (hs : s < w.stores.next) : w.Keeping s (w.dropping s) := by
  have h := (dropStore_keepsAt (keeping_lawful s).toTending rfl hs hw).2
  rwa [dropStore_apply] at h

theorem dropStore_estate (hT : T s) (hs : s < w.stores.next)
    (hn : ¬ Panicked w.history → ¬ w.Named s ∧ (w.store s).dropped = false)
    (hu : (w.store s).inUse = false) : (dropStore s).KeepsAt (estate T) w := by
  intro hw
  rw [dropStore_apply]
  refine estate_keeping (keeping_dropStore hw.1 hs) hs hw (absurd hT) fun hp hpw => ?_
  obtain ⟨hn, hd⟩ := hn hp
  exact (hpw.stores hs).dropping hw.1 (hw.1.ids hs) hn hd hu

theorem dropIfIdle_estate (hT : T s) (hs : s < w.stores.next)
    (hd : ¬ Panicked w.history → (w.store s).dropped = false) :
    (dropIfIdle s).KeepsAt (estate T) w := by
  intro hw
  refine keepsAt_get_bind ?_ hw
  dsimp only
  split
  · next h =>
    simp only [Bool.and_eq_true, Bool.not_eq_true'] at h
    refine dropStore_estate hT hs (fun hp => ⟨fun hn => ?_, hd hp⟩) h.2
    have := (((hw.2 hp).stores hs).named hn).2
    rw [h.1] at this
    cases this
  · exact keeps_pure () w

end Engine

end GuardedStore
