import GuardedStore.Proofs.Estate.Unfinished

/-!
Creations that give a key.

The store has one item more: it is live, it is bound where the store is, and the store is subscribed
to it. What the argument was converted to is in its cell whatever became of the first write, of which
the count and the triggers tell. The factory was asked once. All other items of the store are as they
were.
-/
namespace GuardedStore

namespace World

variable {s i : Nat} {u v w : World} {x : Item} {e : Entry} {arena : Arena Nat}

/-- A store that belongs to a call has one more item, in the slot that was reserved for it and under
a name that was free. The item is live and bound as the store is, and the triggers for the writes to
it were requested. -/
structure Created (s i : Nat) (e : Entry) (arena : Arena Nat) (w v : World) : Prop extends
    w.Adds s (some (v.item i).source) v where
  free : (w.store s).names.contains e.name = false
  names : (v.store s).names = (w.store s).names.put e.name e.id
  slot : (w.store s).arena.reserve? = some (e.id, arena)
  filled : (v.store s).arena = arena.fill e.id i
  size : (v.store s).arena.size = (w.store s).arena.size + 1
  owns : ∀ j, v.Owns s j ↔ w.Owns s j ∨ j = i
  new : ¬ w.Owns s i
  others : ∀ {j}, w.Owns s j → v.item j = w.item j
  descriptor : (v.item i).descriptor = { store := .drawn s, id := e.id, name := e.name, type := e.type }
  live : (v.item i).state = .live
  rebound : (v.store s).affinity = (w.store s).affinity
  affinity : (v.item i).affinity = (v.store s).affinity
  requests : requestedBy i v.history =
    (List.range' 1 (v.item i).writes).map fun n => ⟨(v.item i).source, n⟩

/-- Reserved and filled, the slot is as if the item had been put into it at once. -/
theorem Created.inserted (h : w.Created s i e arena v) :
    (w.store s).arena.insert? (fun _ => i) = some (e.id, (v.store s).arena) := by
  rw [Arena.insert?, h.slot, h.filled, Option.map_some]

/-- An item was written to once since, and the value was stored if all its aspects admitted the
write, and was not stored if one of them refused it. -/
def OfferedOnce (w v : World) (i : Nat) : Prop :=
  ∃ a, w.tickets < a.ticket ∧ a.descriptor = (v.item i).descriptor ∧
    .began (v.item i).chain .write a ∈ v.history ∧
      ((v.item i).writes = 1 ∧ (v.item i).value = a.value ∧
          ((v.item i).chain.map (.admitted · .write a true)).reverse.Sublist v.history ∨
        (v.item i).writes = 0 ∧ ∃ x ∈ (v.item i).chain, .admitted x .write a false ∈ v.history)

theorem OfferedOnce.settling {owner : StoreId} (h : w.OfferedOnce v i) :
    w.OfferedOnce (v.settling s i owner e) i := by
  obtain ⟨a, ht, hd, hb, h⟩ := h
  have hh : v.history <:+ (v.settling s i owner e).history := List.suffix_cons _ _
  have hi : (v.settling s i owner e).item i = { v.item i with state := .live } := by
    rw [item_settling, if_pos rfl]
  rw [OfferedOnce, hi]
  refine ⟨a, ht, hd, hh.subset hb, ?_⟩
  rcases h with ⟨hone, hvalue, hall⟩ | ⟨hnone, x, hx, hr⟩
  · exact .inl ⟨hone, hvalue, hall.trans hh.sublist⟩
  · exact .inr ⟨hnone, x, hx, hh.subset hr⟩

/-- What was begun is finished when the item is in its slot and has its name. -/
theorem Begun.created {u : World} (h : u.Begun s i x v)
    (hu : u = w.modifyStore s fun y => { y with arena })
    (hx : x.descriptor = { store := .drawn s, id := e.id, name := e.name, type := e.type })
    (ha : x.affinity = (w.store s).affinity)
    (hn : (w.store s).names.contains e.name = false)
    (hr : (w.store s).arena.reserve? = some (e.id, arena))
    (hl : (v.settling s i (.drawn s) e).InStep) :
    w.Created s i e arena (v.settling s i (.drawn s) e) := by
  subst hu
  have hst : (w.modifyStore s fun y => { y with arena }).store s = { w.store s with arena } := by
    rw [store_modifyStore, if_pos rfl]
  have hv := store_settling s i (.drawn s) e v
  rw [h.arena, h.names, hst] at hv
  have hi : (v.settling s i (.drawn s) e).item i = { v.item i with state := .live } := by
    rw [item_settling, if_pos rfl]
  have hkind : (v.item i).descriptor = x.descriptor ∧ (v.item i).affinity = x.affinity := by
    rcases h.item with h | ⟨_, h⟩ <;> rw [h] <;> exact ⟨rfl, rfl⟩
  have howns (j : Nat) : (v.settling s i (.drawn s) e).Owns s j ↔ v.Owns s j := by
    refine and_congr_right fun _ => ?_
    rw [item_settling]
    split
    · next he => rw [he]
    · rfl
  have hsource : ((v.settling s i (.drawn s) e).item i).source = x.source := by
    rw [hi]
    exact congrArg Descriptor.source hkind.1
  have hhist : v.history <:+ (v.settling s i (.drawn s) e).history := List.suffix_cons _ _
  have hm {d : Nat} {source : Source} (hm : ¬ (v.settling s i (.drawn s) e).Meddled d source) :
      ¬ v.Meddled d source := fun h => hm (h.mono hhist rfl)
  have hadds := h.toAdds.of_reserving
  exact {
    bound := fun hd ho hmd => by
      rw [hsource]
      exact hadds.bound hd ho (hm hmd)
    elsewhere := fun hd ho hmd => hadds.elsewhere hd ho (hm hmd)
    free := hn
    names := by rw [hv]
    slot := hr
    filled := by rw [hv]
    size := by
      rw [hv]
      exact congrArg (· + 1) (Arena.size_of_reserve? hr)
    owns := fun j => (howns j).trans (h.owns j)
    new := h.new
    others := fun {j} hj => by
      have hne : j ≠ i := by
        rintro rfl
        exact h.new hj
      rw [item_settling, if_neg hne]
      exact h.items hj
    descriptor := by rw [hi, ← hx, ← hkind.1]
    live := by rw [hi]
    rebound := by
      rw [hv]
      exact h.affinity.trans (by rw [hst])
    affinity := by
      rw [hi, hv]
      exact hkind.2.trans (ha.trans (h.affinity.trans (by rw [hst])).symm)
    requests := (hl.tallies ((howns i).mpr ((h.owns i).mpr (.inr rfl))).1).requests }

/-- Of a store that was in order exactly one key more leads to an item, and where the store is bound
it is subscribed to the item once. -/
theorem Created.in_order (h : w.Created s i e arena v) (ht : w.Tidy s) (hb : w.Bound s)
    (hw : w.Sound) (hg : w.Grows v) :
    (∀ id, (v.store s).arena.get? id = if id = e.id then some i else (w.store s).arena.get? id) ∧
      (w.store s).arena.get? e.id = none ∧
      ∀ d, (v.store s).affinity = some d → ¬ v.Meddled d (v.item i).source →
        (v.domain d).tally s (v.item i).source = 1 := by
  have hres := ht.wellFormed.reserves h.slot
  have howner : (v.item i).source.owner = .drawn s := congrArg Descriptor.store h.descriptor
  refine ⟨fun id => ?_, ?_, fun d hd hm => ?_⟩
  · rw [h.filled, ht.wellFormed.get?_fill h.slot]
  · simp [Arena.get?, hres.vacant]
  · rw [h.rebound] at hd
    have hm' : ¬ w.Meddled d (v.item i).source :=
      fun hw' => hm (hw'.mono hg.history (hg.kind (hw.storeAffinities hd)))
    have hn : ¬ w.Covers s (v.item i).source := by
      rintro (hc | ⟨j, hj, hjs⟩)
      · cases hc
      · injection hjs with _ he
        exact ht.vacant h.slot hj (he.trans (congrArg Descriptor.id h.descriptor))
    rw [h.bound hd howner hm, if_pos rfl, hb.never howner hm' fun hbe => hn hbe.2.2]

end World

namespace Engine

open World

variable {call : Nat → Engine Unit} {s : Nat} {id : ItemId} {name : String} {type : ValueType}
  {convert : Engine Value} {factory : Descriptor → Engine (List Nat)} {u v w : World}

theorem createFrom_done
    (h : createFrom call s name type convert factory w = (.done (.ok id), v)) :
    (w.store s).names.contains name = false ∧ ∃ arena,
      (w.store s).arena.reserve? = some (id, arena) ∧
        buildIn call s id name type convert factory
          (w.modifyStore s fun x => { x with arena }) = (.done (), v) := by
  rw [createFrom_apply] at h
  split at h
  · cases h
  · next hn =>
    split at h
    · cases h
    · next id' arena hr =>
      obtain ⟨_, u, hb, h⟩ := done_of_bind h
      cases h
      exact ⟨by simpa using hn, arena, hr, hb⟩

/-- An item that was built was written to once before it got its slot and its name. -/
theorem buildIn_done {d : Descriptor} (hd : d = { store := (w.store s).id, id, name, type })
    (h : buildIn call s id name type convert factory w = (.done (), v)) :
    ∃ chain value u z, preparing convert factory d w = (.done (chain, value), u) ∧
      (convert >>= write call u.items.next) (u.building s
        { descriptor := d, value, chain, affinity := (w.store s).affinity }) = (.done (), z) ∧
        v = z.settling s u.items.next d.store ⟨id, name, type⟩ := by
  rw [buildIn_apply hd] at h
  obtain ⟨⟨chain, value⟩, u, hp, h⟩ := done_of_bind h
  replace h : ((convert >>= write call u.items.next) >>= fun _ => modify _) (u.building s _) = _ := h
  obtain ⟨_, z, hz, h⟩ := done_of_bind h
  cases h
  subst hd
  exact ⟨chain, value, u, z, hp, hz, rfl⟩

/-- Where there is a slot and the name is free, the factory is asked first and never again. -/
theorem createFrom_asks {arena : Arena Nat} {d : Descriptor}
    (hd : d = { store := (w.store s).id, id, name, type })
    (hn : (w.store s).names.contains name = false)
    (hr : (w.store s).arena.reserve? = some (id, arena)) :
    ∃ rest, ∀ factory, createFrom call s name type convert factory w =
      (factory d >>= rest) (w.modifyStore s fun x => { x with arena }) := by
  have hst : (w.modifyStore s fun x => { x with arena }).store s = { w.store s with arena } := by
    rw [store_modifyStore, if_pos rfl]
  refine ⟨fun chain => convert >>= fun value => erecting call s convert
    { descriptor := d, value, chain, affinity := (w.store s).affinity } >>= fun _ =>
      pure (.ok id), fun factory => ?_⟩
  rw [createFrom_apply, hn, hr, if_neg (by simp)]
  dsimp only
  rw [bind_apply, buildIn_apply (hd.trans (by rw [hst])), ← bind_apply, hst]
  simp only [preparing, bind_assoc, pure_bind]

section Sheltered

variable (hc : ∀ r, (call r).Keeps (sheltering s)) (ho : (w.store s).owned = true)

include hc ho

/-- A write to an item of a store that belongs to a call has been decided on by its aspects. -/
theorem write_decided {i : Nat} {value : Value} (hw : (sheltering s).inv w) (hi : w.Owns s i)
    (h : write call i value w = (.done (), v)) :
    ∃ a, w.tickets < a.ticket ∧ a.descriptor = (w.item i).descriptor ∧ a.value = value ∧
      .began (w.item i).chain .write a ∈ v.history ∧
        (v.item i = (w.item i).store value ∧
            ((w.item i).chain.map (.admitted · .write a true)).reverse.Sublist v.history ∨
          v.item i = w.item i ∧ ∃ x ∈ (w.item i).chain, .admitted x .write a false ∈ v.history) := by
  have p := (shelter_lenient (· ≠ s) s).plain
  have hissue {u : World} (a : Access) (hu : (sheltering s).inv u) :
      (sheltering s).inv (u.issuing i a) :=
    ⟨sound_issuing i a hu.1, hu.2⟩
  rcases write_parts p (shelter_lenient _ s).delivering hc hissue hw h with
    ⟨hne, -⟩ | ⟨pass, u, he, hu, hv⟩
  · exact absurd rfl hne
  have hticket : w.tickets < pass.access.ticket := by simp [access_of_enter he]
  obtain ⟨hbegan, hd, hvalue⟩ := began_of_enter p hc hw he
  rcases hv with ⟨hp, hv⟩ | ⟨hp, hv⟩
  · obtain ⟨asked, hasked, hall⟩ := asked_of_enter p hc hw he (Option.isNone_iff_eq_none.mp hp)
    obtain ⟨-, -, hitem⟩ := stored_sheltered ho hi hu hv (by simp)
    have hh : u.history <:+ v.history := (grows_issuing i pass.access).history.trans hv.2.1.history
    rw [hvalue] at hitem
    refine ⟨_, hticket, hd, hvalue, hh.subset hbegan, .inl ⟨hitem, ?_⟩⟩
    exact (hasked ▸ hall.trans (List.sublist_append_left ..)).trans hh.sublist
  · obtain ⟨x, hx⟩ := Option.isSome_iff_exists.mp (Option.isNone_eq_false_iff.mp hp)
    obtain ⟨hm, hrefused⟩ := refused_of_enter p hc hw he hx
    have hse := (shelters_of_sheltering (hu.done_trans hw hv) (by simp)).kept ho
    have hh := hv.2.1.history
    exact ⟨_, hticket, hd, hvalue, hh.subset hbegan,
      .inr ⟨hse.items hi, x, hm, hh.subset hrefused⟩⟩

end Sheltered

section Finished

variable (hv : Client call convert) (hc : ∀ r, (call r).Keeps (sheltering s))
  (ho : (w.store s).owned = true) (hw : (sheltering s).inv w) (hf : Makes call w factory)

include hv hc ho hw hf

/-- What is built is an item that was written to once, and holds what the argument was converted to
then or before. -/
theorem buildIn_settled {d : Descriptor} (hd : d = { store := .drawn s, id, name, type })
    (h : buildIn call s id name type convert factory w = (.done (), v)) :
    ∃ i z x, v = z.settling s i d.store x.entry ∧ w.Begun s i x z ∧ w.OfferedOnce z i ∧
      x.descriptor = d ∧ x.affinity = (w.store s).affinity ∧
        (∃ y, factory d w = (.done x.chain, y)) ∧
          ∃ y y', convert y = (.done (z.item i).value, y') := by
  have hid := hw.1.ids hw.2
  obtain ⟨chain, value, u, z, hp, hz, rfl⟩ := buildIn_done (hd.trans (by rw [hid])) h
  have hds : d.store = .drawn s := congrArg Descriptor.store hd
  let x : Item := { descriptor := d, value, chain, affinity := (w.store s).affinity }
  have hx : x.entry = ⟨id, name, type⟩ := by
    subst hd
    rfl
  have hb := building_sheltered hv hc ho hw hf hds hp rfl hz (by simp)
  obtain ⟨hinv, hob, hown⟩ := building_writable hv hc ho hw hf hds hp rfl
  -- the argument is converted once more before the write
  obtain ⟨value', y, hy, hwrite⟩ := done_of_bind hz
  have hxy := (hv.keeps (shelter_basics _ s) hc _).holds hinv hy
  have hse := shelters_of_sheltering hxy (by simp)
  have hitem : y.item u.items.next = x := by
    rw [(hse.kept hob).items hown, item_building, if_pos rfl]
  obtain ⟨a, ht, hda, hva, hbegan, hdecided⟩ := write_decided hc
    ((hse.owned (inUse_of_owned hob)).trans hob) hxy.1 (((hse.kept hob).owns _).mpr hown) hwrite
  rw [hitem] at hda hbegan hdecided
  obtain ⟨chain', y₁, hy₁, hr⟩ := done_of_bind (m := factory d) hp
  obtain ⟨value₁, y₂, hy₂, hr⟩ := done_of_bind hr
  cases hr
  have ht : w.tickets < a.ticket := by
    have hwu := (preparing_keeps hv (shelter_basics _ s) hc hf d w).holds hw hp
    have hwy := (hwu.2.1.trans (grows_building (x := x) hwu.1.2)).trans hxy.2.1
    exact Nat.lt_of_le_of_lt hwy.tickets ht
  refine ⟨u.items.next, z, x, by rw [hx], hb, ⟨a, ht, ?_⟩, rfl, rfl, ⟨y₁, hy₁⟩, ?_⟩
  · rcases hdecided with ⟨hi, hall⟩ | ⟨hi, hsome⟩
    · rw [hi]
      exact ⟨hda, hbegan, .inl ⟨rfl, hva.symm, hall⟩⟩
    · rw [hi]
      exact ⟨hda, hbegan, .inr ⟨rfl, hsome⟩⟩
  · rcases hdecided with ⟨hi, -⟩ | ⟨hi, -⟩
    · rw [hi]
      exact ⟨_, _, hy⟩
    · rw [hi]
      exact ⟨_, _, hy₂⟩

theorem createFrom_finished (hl : v.InStep)
    (h : createFrom call s name type convert factory w = (.done (.ok id), v)) :
    ∃ i arena, w.Created s i ⟨id, name, type⟩ arena v ∧ w.OfferedOnce v i ∧
      (∃ y z, convert y = (.done (v.item i).value, z)) ∧
      (∃ y, factory (v.item i).descriptor (w.modifyStore s fun x => { x with arena }) =
          (.done (v.item i).chain, y)) ∧
        ∃ rest, ∀ factory, createFrom call s name type convert factory w =
          (factory (v.item i).descriptor >>= rest) (w.modifyStore s fun x => { x with arena }) := by
  obtain ⟨hn, arena, hr, hb⟩ := createFrom_done h
  have hst : (w.modifyStore s fun x => { x with arena }).store s = { w.store s with arena } := by
    rw [store_modifyStore, if_pos rfl]
  have hou : ((w.modifyStore s fun x => { x with arena }).store s).owned = true := by rw [hst, ho]
  obtain ⟨i, z, x, rfl, hbegun, honce, hd, ha, ⟨y, hy⟩, y₁, y₂, hconv⟩ :=
    buildIn_settled hv hc hou (inv_reserving hr hw) ⟨hf.client, hf.chain⟩ rfl hb
  have hx : x.entry = ⟨id, name, type⟩ := by rw [Item.entry, hd]
  rw [hst] at ha
  rw [hx] at hl ⊢
  have hcreated := hbegun.created rfl hd ha hn hr hl
  have hzi : (z.settling s i (.drawn s) ⟨id, name, type⟩).item i = { z.item i with state := .live } := by
    rw [item_settling, if_pos rfl]
  have hchain : (z.item i).chain = x.chain := by
    rcases hbegun.item with h | ⟨_, h⟩ <;> rw [h]
    rfl
  refine ⟨i, arena, hcreated, ?_, ⟨y₁, y₂, ?_⟩, ⟨y, ?_⟩, ?_⟩
  · exact honce.settling
  · rw [hconv, hzi]
  · rw [hcreated.descriptor, hy, hzi, hchain]
  · rw [hcreated.descriptor]
    exact createFrom_asks (by rw [hw.1.ids hw.2]) hn hr

end Finished

end Engine

namespace Scenario

open Engine World

/-- A creation that gives a key has added one item to its store, and asked the factory for its chain
once. The item is in the slot that the key names, it has the name, it is live and bound as the store
is, it was offered one write, and it holds what the argument was converted to. All other items of the
store are as they were. Where nothing panicked before, no other key leads to anything else than it
did, and the store is subscribed to the item once, where it is bound. -/
theorem finished_creation (halt during : World → Bool) (depth nested : Nat) (steps : List Step)
    {s : Nat} {name : String} {type : ValueType} {convert : Engine Value}
    {factory : Descriptor → Engine (List Nat)} {id : ItemId} {u v w : World}
    (hu : reached halt depth {} steps = u) (hw : u.own s = w) (hs : s < u.stores.next)
    (hv : Client (callUntil during nested) convert) (hf : Makes (callUntil during nested) w factory)
    (h : createFrom (callUntil during nested) s name type convert factory w = (.done (.ok id), v)) :
    ∃ i arena, w.Created s i ⟨id, name, type⟩ arena v ∧ w.OfferedOnce v i ∧
      (∃ y z, convert y = (.done (v.item i).value, z)) ∧
      (∃ y, factory (v.item i).descriptor (w.modifyStore s fun x => { x with arena }) =
        (.done (v.item i).chain, y)) ∧
      (∃ rest, ∀ other, createFrom (callUntil during nested) s name type convert other w =
        (other (v.item i).descriptor >>= rest) (w.modifyStore s fun x => { x with arena })) ∧
      (¬ Panicked u.history → (u.store s).dropped = false → (u.store s).owned = false →
        (∀ id', (v.store s).arena.get? id' =
          if id' = id then some i else (u.store s).arena.get? id') ∧
        (u.store s).arena.get? id = none ∧
        ∀ d, (v.store s).affinity = some d → ¬ v.Meddled d (v.item i).source →
          (v.domain d).tally s (v.item i).source = 1) := by
  have hr := reached_inStep halt depth steps
  have he := reached_estates halt depth steps
  rw [hu] at hr he
  have hin : w.InStep := hw ▸ ((World.quiet_own s u).unwritten hr.sound).inStep hr
  have hst : w.store s = { u.store s with owned := true } := by
    rw [← hw, own, store_modifyStore, if_pos rfl]
  have hsw : s < w.stores.next := hw ▸ hs
  have hcl := callUntil_keeps (fun _ hc => ledger_admits hc) during nested
  have hl := createFrom_keepsAt ledger_calm.storekeeping.housing trivial
    (fun v hi => write_ledger hcl v hi.1) name type
    (hv.keeps (ledger_admits hcl).toBasics hcl) hsw
    (hf.supplies (ledger_admits hcl).toBasics hcl)
  have hlv := hl.holds hin h
  have hcs := callUntil_keeps (L := sheltering s)
    (fun _ hc => Performing.sheltering_admits hc) during nested
  obtain ⟨i, arena, hcreated, honce, hconv, hchain, hasks⟩ :=
    createFrom_finished hv hcs (by rw [hst]) ⟨hin.sound, hsw⟩ hf hlv.1 h
  refine ⟨i, arena, hcreated, honce, hconv, hchain, hasks, fun hp hd ho => ?_⟩
  have horder := (he.2 hp).stores hs
  have htidy : w.Tidy s := hw ▸ ((usage_own true).unmoved s u).tidy he.1 (horder.tidy hd ho)
  have hbound : w.Bound s := hw ▸ horder.bound.modifyStore fun _ => ⟨rfl, rfl⟩
  have hsame : (u.store s).arena = (w.store s).arena := by rw [hst]
  rw [hsame]
  exact hcreated.in_order htidy hbound hin.sound hlv.2

/-- A store with a slot that was used before, and an aspect that writes to an item of another store
when it is asked, and refuses. -/
def stocked : List Step :=
  [.domain "d" "d" .cooperative,
    .store "s" (.builder [.affinity (some "d")]),
    .store "t" .standard,
    .create "s" "k" "n" .int64 (.int 0) none .none,
    .destroy "k" none,
    .create "t" "l" "m" .int64 (.int 0) none .none,
    .aspect "p" (.probe {
      name := "p"
      writes := [false]
      script := fun h => if h = .beforeWrite then
        some (Script.window 0 none [.write "l" none (.int 5)]) else none })]

/-- A creation in that store, with a chain of that aspect. -/
def supply : Outcome (Except Fault ItemId) × World :=
  createFrom (callUntil (fun _ => false) maxDepth) 0 "n" .int64 (pure (.int64 7))
    (fun _ => pure [0]) ((reached (fun _ => false) maxDepth {} stocked).own 0)

theorem supply_finished :
    let u := reached (fun _ => false) maxDepth {} stocked
    let w := u.own 0
    supply.1 = .done (.ok ⟨0, 1⟩) ∧ ¬ Panicked u.history ∧
      ∃ i arena, w.Created 0 i ⟨⟨0, 1⟩, "n", .int64⟩ arena supply.2 ∧ w.OfferedOnce supply.2 i ∧
        (supply.2.item i).value = .int64 7 ∧ (supply.2.item i).writes = 0 ∧
          (supply.2.domain 0).tally 0 (supply.2.item i).source = 1 := by
  intro u w
  have hf : Makes (callUntil (fun _ => false) maxDepth) w fun _ => pure [0] := by
    refine ⟨fun _ => .pure [0], ?_⟩
    rintro d v chain v' - hn ⟨⟩ a ha
    obtain rfl := List.mem_singleton.mp ha
    exact Nat.lt_of_lt_of_le (by decide +kernel) hn
  have ho : supply.1 = .done (.ok ⟨0, 1⟩) := by decide +kernel
  have hp : ¬ Panicked u.history := by decide +kernel
  have hs : supply = (.done (.ok ⟨0, 1⟩), supply.2) := by rw [← ho]
  obtain ⟨i, arena, hc, honce, ⟨y, z, hvalue⟩, -, -, horder⟩ := finished_creation (fun _ => false)
    (fun _ => false) maxDepth maxDepth stocked rfl rfl (by decide +kernel) (.pure _) hf hs
  obtain ⟨hget, -, hone⟩ := horder hp (by decide +kernel) (by decide +kernel)
  obtain rfl : i = 2 := by
    have hslot : (supply.2.store 0).arena.get? ⟨0, 1⟩ = some 2 := by decide +kernel
    simpa using (hget ⟨0, 1⟩).symm.trans hslot
  have hpure : ∀ b, (pure (.int64 7) : Engine Value) y = (.done b, z) → b = .int64 7 := by
    rintro _ ⟨⟩
    rfl
  have hu : supply.2.Undisturbed (supply.2.item 2).source := by
    unfold World.Undisturbed
    decide +kernel
  exact ⟨ho, hp, 2, arena, hc, honce, hpure _ hvalue, by decide +kernel,
    hone 0 (by decide +kernel) (hu.not_meddled 0)⟩

end Scenario

end GuardedStore
