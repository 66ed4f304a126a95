import GuardedStore.Proofs.Estate.Shelter
import GuardedStore.Proofs.Estate.Subscriptions
import GuardedStore.Proofs.Ledger.Writes

/-!
Creations that come to nothing.

A creation that gives a fault has done nothing. One that is cut short by a panic, whoever raised it,
has taken a slot out of its store for good. If there was an item to go into the slot, the store
stays subscribed to its source, and a trigger was requested for it if its first value was stored.
Nothing else is left: the name is free, and the store has the items that it had.
-/
namespace GuardedStore

namespace Engine

variable {call : Nat → Engine Unit} {L : Law} {s : Nat} {u v w : World}

/-- What clients do when they are called: they run scripts, make aspects, look around, and panic. -/
inductive Client (call : Nat → Engine Unit) : {α : Type} → Engine α → Prop where
  | pure {α : Type} (a : α) : Client call (pure a : Engine α)
  | bind {α β : Type} {m : Engine α} {f : α → Engine β} :
      Client call m → (∀ a, Client call (f a)) → Client call (m >>= f)
  | look : Client call get
  | script (r : Nat) : Client call (call r)
  | routine (script : Script) : Client call (newRoutine script)
  | aspect {a : Aspect Nat} : a.Fresh → Client call (newAspect a)
  | note {y : Happening} : y.inTrace → Client call (record y)
  | panic (text : String) : Client call (panic text)
  | wait {α : Type} : Client call (wait : Engine α)

theorem Client.keeps (h : Basics L) (hc : ∀ r, (call r).Keeps L) {α : Type} {m : Engine α}
    (hm : Client call m) : m.Keeps L := by
  induction hm with
  | pure a => exact keeps_pure a
  | bind _ _ ih ih' => exact ih.bind ih'
  | look => exact fun w hw => ⟨hw, L.refl hw⟩
  | script r => exact hc r
  | routine script => exact Performing.newRoutine_keeps h script
  | aspect ha => exact h.newAspect ha
  | note hy => exact Performing.idle_keeps h fun w => World.idle_record hy w
  | panic text => exact h.panic text
  | wait => exact fun w hw => ⟨hw, h.stuck hw⟩

/-- A factory that is a client and makes chains of aspects that are there. -/
structure Makes (call : Nat → Engine Unit) (w : World) (factory : Descriptor → Engine (List Nat)) :
    Prop where
  client : ∀ d, Client call (factory d)
  chain : ∀ {d v chain v'}, v.Sound → w.aspects.next ≤ v.aspects.next →
    factory d v = (.done chain, v') → v'.Has chain

theorem Makes.supplies {factory : Descriptor → Engine (List Nat)} (hf : Makes call w factory)
    (h : Basics L) (hc : ∀ r, (call r).Keeps L) : w.Supplies L factory :=
  ⟨fun d => (hf.client d).keeps h hc, fun hv => hf.chain (h.sound hv)⟩

/-- A write has not come to a decision, or else its pass has been entered, and its value was stored
if it is permitted. -/
theorem write_parts (p : L.Plain) (c : L.Delivering) (hc : ∀ r, (call r).Keeps L) {i : Nat}
    (hi : ∀ {u} a, L.inv u → L.inv (u.issuing i a)) {value : Value} {o : Outcome Unit}
    (hw : L.inv w) (h : write call i value w = (o, v)) :
    (o.ending ≠ .done ∧ L.Holds w o.ending v) ∨ ∃ pass u,
      enter call (w.item i).chain .write { descriptor := (w.item i).descriptor, value } w =
          (.done pass, u) ∧ L.Holds w .done u ∧
        (pass.permitted = true ∧ L.Holds (u.issuing i pass.access) o.ending v ∨
          pass.permitted = false ∧ L.Holds u o.ending v) := by
  have hk := enter_keeps p hc (w.item i).chain .write
    { descriptor := (w.item i).descriptor, value } w
  replace h : (enter call (w.item i).chain .write
      { descriptor := (w.item i).descriptor, value } >>= fun pass => ensure _ _) w = (o, v) := h
  rw [bind_apply] at h
  rcases he : enter call (w.item i).chain .write
      { descriptor := (w.item i).descriptor, value } w with ⟨pass | _ | _, u⟩ <;> rw [he] at h <;>
    have hu := hk.holds hw he
  · refine .inr ⟨pass, u, rfl, hu, ?_⟩
    dsimp only at h
    split at h
    · next hp =>
      have hf := forward_keeps c hc ((u.issuing i pass.access).item i).affinity
        ⟨((u.issuing i pass.access).item i).source, ((u.issuing i pass.access).item i).writes⟩
      have hrest := (hf.bind fun _ => keeps_pure ()).ensure (leave_keeps p hc pass)
      exact .inl ⟨hp, (hrest (u.issuing i pass.access)).holds (hi _ hu.1) h⟩
    · next hp =>
      refine .inr ⟨by simpa using hp, KeepsAt.holds ?_ hu.1 h⟩
      exact Keeps.ensure (keeps_get_bind fun _ => ((mark_keeps p rfl).bind fun _ =>
        mark_keeps p rfl) _) (leave_keeps p hc pass) u
  · cases h
    exact .inl ⟨by simp, hu⟩
  · cases h
    exact .inl ⟨by simp, hu⟩

variable {id : ItemId} {name : String} {type : ValueType} {convert : Engine Value}
  {factory : Descriptor → Engine (List Nat)}

/-- What comes before there is an item. -/
def preparing (convert : Engine Value) (factory : Descriptor → Engine (List Nat)) (d : Descriptor) :
    Engine (List Nat × Value) := do
  let chain ← factory d
  let value ← convert
  return (chain, value)

/-- What comes when the item is known: it is made and subscribed to, written to, and gets its slot
and its name. -/
def erecting (call : Nat → Engine Unit) (s : Nat) (convert : Engine Value) (x : Item) :
    Engine Unit := do
  let i := (← get).items.next
  modify (World.building s x)
  convert >>= write call i
  modify (World.settling s i x.descriptor.store x.entry)

/-- Building an item ends as what comes before it does, and then as its first write does. -/
theorem buildIn_apply {d : Descriptor} (hd : d = { store := (w.store s).id, id, name, type }) :
    buildIn call s id name type convert factory w =
      (preparing convert factory d >>= fun p => erecting call s convert
        { descriptor := d, value := p.2, chain := p.1, affinity := (w.store s).affinity }) w := by
  subst hd
  refine (bind_of_done (m := Engine.get) rfl).trans ?_
  simp only [preparing, bind_assoc, pure_bind]
  refine congrFun (congrArg (factory _ >>= ·) (funext fun chain => congrArg (convert >>= ·)
    (funext fun value => funext fun u => ?_))) w
  let x : Item := { descriptor := { store := (w.store s).id, id, name, type }, value, chain
                    affinity := (w.store s).affinity }
  have hb : subscribe (w.store s).affinity x.source (.store s) (u.withItem x) =
      (.done (), u.building s x) := subscribe_apply _ _ _ _
  change (subscribe (w.store s).affinity x.source (.store s) >>= fun _ => _) (u.withItem x) =
    ((convert >>= write call u.items.next) >>= fun _ => _) (u.building s x)
  rw [bind_of_done hb, bind_assoc]
  exact congrFun (congrArg (convert >>= ·) (funext fun value' =>
    congrArg (write call u.items.next value' >>= ·) (funext fun _ => rfl))) (u.building s x)

/-- Building an item panics before there is one, or else while its first write is made. -/
theorem buildIn_panicked {text : String} {d : Descriptor}
    (hd : d = { store := (w.store s).id, id, name, type })
    (h : buildIn call s id name type convert factory w = (.panicked text, v)) :
    preparing convert factory d w = (.panicked text, v) ∨ ∃ chain value u,
      preparing convert factory d w = (.done (chain, value), u) ∧
        (convert >>= write call u.items.next) (u.building s
          { descriptor := d, value, chain, affinity := (w.store s).affinity }) =
            (.panicked text, v) := by
  rw [buildIn_apply hd] at h
  rcases panicked_of_bind h with h | ⟨⟨chain, value⟩, u, hp, h⟩
  · exact .inl h
  · replace h : ((convert >>= write call u.items.next) >>= fun _ => modify _) (u.building s _) = _ :=
      h
    rcases panicked_of_bind h with h | ⟨_, _, _, h⟩
    · exact .inr ⟨chain, value, u, hp, h⟩
    · cases h

theorem createFrom_fault {fault : Fault}
    (h : createFrom call s name type convert factory w = (.done (.error fault), v)) : v = w := by
  rw [createFrom_apply] at h
  split at h
  · cases h
    rfl
  · split at h
    · cases h
      rfl
    · obtain ⟨_, _, _, h⟩ := done_of_bind h
      cases h

theorem createFrom_panicked {text : String}
    (h : createFrom call s name type convert factory w = (.panicked text, v)) :
    (w.store s).names.contains name = false ∧ ∃ id arena,
      (w.store s).arena.reserve? = some (id, arena) ∧
        buildIn call s id name type convert factory
          (w.modifyStore s fun x => { x with arena }) = (.panicked text, v) := by
  rw [createFrom_apply] at h
  split at h
  · cases h
  · next hn =>
    refine ⟨by simpa using hn, ?_⟩
    split at h
    · cases h
    · next id arena hr =>
      refine ⟨id, arena, hr, ?_⟩
      rcases panicked_of_bind h with h | ⟨_, _, _, h⟩
      · exact h
      · cases h

end Engine

namespace World

variable {s i : Nat} {u v w : World} {x : Item}

/-- A store that belongs to a call is short of a slot, whose name is free, and all else of it is as
it was. -/
structure Curtailed (s : Nat) (name : String) (id : ItemId) (w v : World) : Prop where
  free : (w.store s).names.contains name = false
  slot : (w.store s).arena.reserve? = some (id, (v.store s).arena)
  names : (v.store s).names = (w.store s).names
  affinity : (v.store s).affinity = (w.store s).affinity
  items : ∀ {j}, w.Owns s j → v.item j = w.item j

/-- Where it is bound the store is subscribed to `added` once more than it was, if that is a source,
and to nothing else. -/
structure Adds (s : Nat) (added : Option Source) (w v : World) : Prop where
  bound : ∀ {d source}, (w.store s).affinity = some d → source.owner = .drawn s →
    ¬ v.Meddled d source → (v.domain d).tally s source =
      (w.domain d).tally s source + if added = some source then 1 else 0
  elsewhere : ∀ {d source}, (w.store s).affinity ≠ some d → source.owner = .drawn s →
    ¬ v.Meddled d source → (v.domain d).tally s source ≤ (w.domain d).tally s source

/-- No item was made for the store. -/
structure Barren (s : Nat) (w v : World) : Prop extends w.Adds s none v where
  owns : ∀ j, v.Owns s j ↔ w.Owns s j

/-- An item was made for the store, and written to at most once. The store is subscribed to it, and
the trigger for the write was requested. -/
structure Orphaned (s i : Nat) (x : Item) (w v : World) : Prop extends
    w.Adds s (some x.source) v where
  owns : ∀ j, v.Owns s j ↔ w.Owns s j ∨ j = i
  new : ¬ w.Owns s i
  item : v.item i = x ∨ ∃ value, v.item i = x.store value
  requests : requestedBy i v.history =
    (List.range' 1 (v.item i).writes).map fun n => ⟨x.source, n⟩

theorem Walled.adds (h : w.Walled s v) : w.Adds s none v where
  bound ha ho hm := by
    rcases h.table ho hm with ⟨-, he⟩ | ⟨-, hn⟩
    · simp [he]
    · exact absurd ha hn
  elsewhere _ ho hm := by
    rcases h.table ho hm with ⟨-, he⟩ | ⟨he, -⟩
    · exact Nat.le_of_eq he
    · exact he ▸ Nat.zero_le _

/-- Building an item subscribes its store to it. -/
theorem Walled.adds_building (h : w.Walled s u) (hs : s < u.stores.next)
    (ha : x.affinity = (w.store s).affinity) (h' : (u.building s x).Walled s v) :
    w.Adds s (some x.source) v := by
  have hb (d : Nat) (source : Source) : ((u.building s x).domain d).tally s source =
      (u.domain d).tally s source + if x.affinity = some d ∧ source = x.source then 1 else 0 :=
    tally_subscribing (u.withItem x) x.affinity x.source source s d
  have hmeddled {d source} (hm : ¬ (u.building s x).Meddled d source) : ¬ u.Meddled d source :=
    fun hu => hm (hu.mono (grows_building hs).history ((quiet_building hs).kind d))
  have haff : ((u.building s x).store s).affinity = (w.store s).affinity := by
    rw [store_building, h.affinity]
  refine ⟨fun {d source} hd ho hm => ?_, fun {d source} hd ho hm => ?_⟩
  · rcases h'.table ho hm with ⟨hm, he⟩ | ⟨-, hn⟩
    · rw [he, hb, h.adds.bound hd ho (hmeddled hm), ha]
      simp [hd, eq_comm]
    · exact absurd (haff.trans hd) hn
  · rcases h'.table ho hm with ⟨hm, he⟩ | ⟨he, -⟩
    · rw [he, hb, if_neg fun hc => hd (ha.symm.trans hc.1)]
      exact h.adds.elsewhere hd ho (hmeddled hm)
    · exact he ▸ Nat.zero_le _

theorem Adds.of_reserving {arena : Arena Nat} {added : Option Source}
    (h : (w.modifyStore s fun x => { x with arena }).Adds s added v) : w.Adds s added v := by
  have ha : ((w.modifyStore s fun x => { x with arena }).store s).affinity =
      (w.store s).affinity := by rw [store_modifyStore, if_pos rfl]
  exact ⟨fun hd => h.bound (ha.trans hd), fun hd => h.elsewhere (ha ▸ hd)⟩

/-- The store has its slots and names, and the items that it had are as they were. -/
structure Intact (s : Nat) (w v : World) : Prop where
  arena : (v.store s).arena = (w.store s).arena
  names : (v.store s).names = (w.store s).names
  affinity : (v.store s).affinity = (w.store s).affinity
  items : ∀ {j}, w.Owns s j → v.item j = w.item j

theorem Sealed.intact (h : w.Sealed s v) : w.Intact s v :=
  ⟨h.arena, h.names, h.affinity, h.items⟩

/-- After building an item nothing is done to the store and to the items it had. -/
theorem Sealed.intact_building (h : w.Sealed s u) (h' : (u.building s x).Walled s v)
    (hx : x.descriptor.store = .drawn s)
    (hi : ∀ {j}, (u.building s x).Owns s j → j ≠ u.items.next →
      v.item j = (u.building s x).item j) : w.Intact s v where
  arena := h'.arena.trans (by rw [store_building, h.arena])
  names := h'.names.trans (by rw [store_building, h.names])
  affinity := h'.affinity.trans (by rw [store_building, h.affinity])
  items hj := by
    have hu := (h.owns _).mpr hj
    have hne := Nat.ne_of_lt hu.1
    rw [hi ((owns_building hx s _).mpr (.inl hu)) hne, item_building, if_neg hne, h.items hj]

/-- An item was made for the store and written to at most once. The store is subscribed to it, and
is otherwise as it was. -/
structure Begun (s i : Nat) (x : Item) (w v : World) : Prop extends
    w.Intact s v, w.Adds s (some x.source) v where
  owns : ∀ j, v.Owns s j ↔ w.Owns s j ∨ j = i
  new : ¬ w.Owns s i
  item : v.item i = x ∨ ∃ value, v.item i = x.store value

theorem Begun.source (h : w.Begun s i x v) : (v.item i).source = x.source := by
  rcases h.item with h | ⟨_, h⟩
  · rw [h]
  · rw [h]
    rfl

theorem Begun.requests (h : w.Begun s i x v) (hl : v.InStep) : requestedBy i v.history =
    (List.range' 1 (v.item i).writes).map fun n => ⟨x.source, n⟩ := by
  rw [(hl.tallies ((h.owns i).mpr (.inr rfl)).1).requests, h.source]

end World

namespace Engine

open World

variable {call : Nat → Engine Unit} {s : Nat} {u v w : World}

/-- Storing a value in an item of the store is all that happens to the store. -/
theorem stored_sheltered {i : Nat} {a : Access} {e : Ending} (ho : (w.store s).owned = true)
    (hi : w.Owns s i) (hu : (sheltering s).Holds w .done u)
    (hv : (sheltering s).Holds (u.issuing i a) e v) (hne : e ≠ .stuck) : w.Walled s v ∧
      (∀ {j}, w.Owns s j → j ≠ i → v.item j = w.item j) ∧
        v.item i = (w.item i).store a.value := by
  have hsu := shelters_of_sheltering hu (by decide)
  have hu' := hsu.kept ho
  have hou : (u.store s).owned = true := (hsu.owned (inUse_of_owned ho)).trans ho
  have hv' := (shelters_of_sheltering hv hne).kept hou
  have hown {j : Nat} (hj : w.Owns s j) : (u.issuing i a).Owns s j :=
    ((walled_issuing s i a u).owns j).mpr ((hu'.owns j).mpr hj)
  refine ⟨(hu'.toWalled.trans (walled_issuing s i a u)).trans hv'.toWalled, fun {j} hj hji => ?_, ?_⟩
  · rw [hv'.items (hown hj), item_issuing, if_neg hji, hu'.items hj]
  · rw [hv'.items (hown hi), item_issuing, if_pos rfl, hu'.items hi]

theorem inv_reserving {id : ItemId} {arena : Arena Nat}
    (hr : (w.store s).arena.reserve? = some (id, arena)) (hw : (sheltering s).inv w) :
    (sheltering s).inv (w.modifyStore s fun x => { x with arena }) :=
  have ha := setArena_keepsAt (shelter_storekeeping (fun _ => True) s).minding trivial (w := w)
    fun i hi => .inl (Arena.mem_of_mem_reserve? hr i hi)
  (ha hw).1

section Sheltered

variable (hc : ∀ r, (call r).Keeps (sheltering s)) (ho : (w.store s).owned = true)

include hc ho

/-- Whoever owns the store may write to an item of it, and then nothing else happens to the
store. -/
theorem write_sheltered {i : Nat} {value : Value} {o : Outcome Unit}
    (hw : (sheltering s).inv w) (hi : w.Owns s i) (h : write call i value w = (o, v))
    (hne : o.ending ≠ .stuck) : w.Walled s v ∧
      (∀ {j}, w.Owns s j → j ≠ i → v.item j = w.item j) ∧
        (v.item i = w.item i ∨ v.item i = (w.item i).store value) := by
  have hissue {u : World} (a : Access) (hu : (sheltering s).inv u) :
      (sheltering s).inv (u.issuing i a) :=
    ⟨sound_issuing i a hu.1, hu.2⟩
  have hkept (h : (sheltering s).Holds w o.ending v) : w.Walled s v ∧
      (∀ {j}, w.Owns s j → j ≠ i → v.item j = w.item j) ∧ v.item i = w.item i := by
    have hse := (shelters_of_sheltering h hne).kept ho
    exact ⟨hse.toWalled, fun hj _ => hse.items hj, hse.items hi⟩
  rcases write_parts (shelter_lenient _ s).plain (shelter_lenient _ s).delivering hc hissue hw
    h with ⟨-, hv⟩ | ⟨pass, u, he, hu, ⟨-, hv⟩ | ⟨-, hv⟩⟩
  · obtain ⟨hwall, hothers, hitem⟩ := hkept hv
    exact ⟨hwall, hothers, .inl hitem⟩
  · obtain ⟨hwall, hothers, hitem⟩ := stored_sheltered ho hi hu hv hne
    rw [value_of_enter he] at hitem
    exact ⟨hwall, hothers, .inr hitem⟩
  · obtain ⟨hwall, hothers, hitem⟩ := hkept (hu.done_trans hw hv)
    exact ⟨hwall, hothers, .inl hitem⟩

variable {convert : Engine Value} (hv : Client call convert)

include hv

/-- What its argument is converted to for the write is written to the item. -/
theorem filling_sheltered {i : Nat} {o : Outcome Unit} (hw : (sheltering s).inv w)
    (hi : w.Owns s i) (h : (convert >>= write call i) w = (o, v)) (hne : o.ending ≠ .stuck) :
    w.Walled s v ∧ (∀ {j}, w.Owns s j → j ≠ i → v.item j = w.item j) ∧
      (v.item i = w.item i ∨ ∃ value, v.item i = (w.item i).store value) := by
  have hk := hv.keeps (shelter_basics _ s) hc w
  rw [bind_apply] at h
  rcases hu : convert w with ⟨value | _ | _, u⟩ <;> rw [hu] at h <;> have hwu := hk.holds hw hu
  · have hsu := shelters_of_sheltering hwu (by simp)
    have hse := hsu.kept ho
    have hou : (u.store s).owned = true := (hsu.owned (inUse_of_owned ho)).trans ho
    obtain ⟨hwall, hothers, hitem⟩ := write_sheltered hc hou hwu.1 ((hse.owns i).mpr hi) h hne
    refine ⟨hse.toWalled.trans hwall, fun hj hji => ?_, ?_⟩
    · rw [hothers ((hse.owns _).mpr hj) hji, hse.items hj]
    · rw [← hse.items hi]
      exact hitem.imp_right fun h => ⟨value, h⟩
  · cases h
    have hse := (shelters_of_sheltering hwu (by simp)).kept ho
    exact ⟨hse.toWalled, fun hj _ => hse.items hj, .inl (hse.items hi)⟩
  · cases h
    exact absurd rfl hne

end Sheltered

section Unfinished

variable {id : ItemId} {name : String} {type : ValueType} {convert : Engine Value}
  {factory : Descriptor → Engine (List Nat)} (hv : Client call convert)

include hv

theorem preparing_keeps {L : Law} (hb : Basics L) (hc : ∀ r, (call r).Keeps L)
    (hf : Makes call u factory) (d : Descriptor) : (preparing convert factory d).Keeps L :=
  ((hf.client d).keeps hb hc).bind fun _ => (hv.keeps hb hc).bind fun _ => keeps_pure _

variable (hc : ∀ r, (call r).Keeps (sheltering s)) (ho : (w.store s).owned = true)
  (hw : (sheltering s).inv w) (hf : Makes call w factory)

include hc ho hw hf

/-- An item that was made for the store can be written to by the call that the store belongs to. -/
theorem building_writable {d : Descriptor} {chain : List Nat} {value : Value} {x : Item}
    (hd : d.store = .drawn s) (hp : preparing convert factory d w = (.done (chain, value), u))
    (hx : x = { descriptor := d, value, chain, affinity := (w.store s).affinity }) :
    (sheltering s).inv (u.building s x) ∧ ((u.building s x).store s).owned = true ∧
      (u.building s x).Owns s u.items.next := by
  subst hx
  have hwu := (preparing_keeps hv (shelter_basics _ s) hc hf d w).holds hw hp
  have hsu := shelters_of_sheltering hwu (by simp)
  refine ⟨⟨sound_building hwu.1.1 hwu.1.2 hd ?_ fun d' hd' => ?_, ?_⟩, ?_,
    (owns_building hd s _).mpr (.inr ⟨rfl, rfl⟩)⟩
  · obtain ⟨chain', y, hy, hr⟩ := done_of_bind (m := factory d) hp
    obtain ⟨value', z, hz, hr⟩ := done_of_bind hr
    cases hr
    have hwy := ((hf.client d).keeps (shelter_basics _ s) hc w).holds hw hy
    have hyu := (hv.keeps (shelter_basics _ s) hc y).holds hwy.1 hz
    exact (hf.chain hw.1 (Nat.le_refl _) hy).mono hyu.2.1.aspects
  · exact Nat.lt_of_lt_of_le (hw.1.storeAffinities hd') hwu.2.1.domains
  · exact Nat.lt_of_lt_of_le hwu.1.2 (grows_building hwu.1.2).stores
  · rw [store_building, hsu.owned (inUse_of_owned ho), ho]

/-- However the first write to a new item ends, it is all that happens to the store. -/
theorem building_sheltered {d : Descriptor} {chain : List Nat} {value : Value} {x : Item}
    {o : Outcome Unit} (hd : d.store = .drawn s)
    (hp : preparing convert factory d w = (.done (chain, value), u))
    (hx : x = { descriptor := d, value, chain, affinity := (w.store s).affinity })
    (h : (convert >>= write call u.items.next) (u.building s x) = (o, v))
    (hne : o.ending ≠ .stuck) : w.Begun s u.items.next x v := by
  have hwu := (preparing_keeps hv (shelter_basics _ s) hc hf d w).holds hw hp
  have hse := (shelters_of_sheltering hwu (by simp)).kept ho
  obtain ⟨hb, hob, hown⟩ := building_writable hv hc ho hw hf hd hp hx
  obtain ⟨hwall, hothers, hitem⟩ := filling_sheltered hc hob hv hb hown h hne
  rw [item_building, if_pos rfl] at hitem
  subst hx
  exact {
    toIntact := hse.intact_building hwall hd hothers
    toAdds := hse.toWalled.adds_building hwu.1.2 rfl hwall
    owns := fun j => by rw [hwall.owns, owns_building hd, hse.owns, and_iff_right rfl]
    new := fun hi => absurd ((hse.owns _).mpr hi).1 (Nat.lt_irrefl _)
    item := hitem }

theorem buildIn_sheltered {text : String} {d : Descriptor}
    (hd : d = { store := .drawn s, id, name, type }) (hl : v.InStep)
    (h : buildIn call s id name type convert factory w = (.panicked text, v)) :
    w.Intact s v ∧
      (preparing convert factory d w = (.panicked text, v) ∧ w.Barren s v ∨
        ∃ chain value u, preparing convert factory d w = (.done (chain, value), u) ∧
          w.Orphaned s u.items.next
            { descriptor := d, value, chain, affinity := (w.store s).affinity } v) := by
  have hid := hw.1.ids hw.2
  rcases buildIn_panicked (hd.trans (by rw [hid])) h with hp | ⟨chain, value, u, hp, h⟩
  · have hk := preparing_keeps hv (shelter_basics _ s) hc hf d w
    have hse := (shelters_of_sheltering (hk.holds hw hp) (by simp)).kept ho
    exact ⟨hse.intact, .inl ⟨hp, hse.toWalled.adds, hse.owns⟩⟩
  · have hb := building_sheltered hv hc ho hw hf (congrArg Descriptor.store hd) hp rfl h (by simp)
    exact ⟨hb.toIntact, .inr ⟨chain, value, u, hp, {
      toAdds := hb.toAdds
      owns := hb.owns
      new := hb.new
      item := hb.item
      requests := hb.requests hl }⟩⟩

theorem createFrom_sheltered {text : String} (hl : v.InStep)
    (h : createFrom call s name type convert factory w = (.panicked text, v)) :
    ∃ id u d, u = w.modifyStore s (fun x => { x with arena := (v.store s).arena }) ∧
      d = { store := .drawn s, id, name, type } ∧ w.Curtailed s name id v ∧
        (preparing convert factory d u = (.panicked text, v) ∧ w.Barren s v ∨
          ∃ chain value z, preparing convert factory d u = (.done (chain, value), z) ∧
            w.Orphaned s z.items.next
              { descriptor := d, value, chain, affinity := (w.store s).affinity } v) := by
  obtain ⟨hn, id, arena, hr, h⟩ := createFrom_panicked h
  let u := w.modifyStore s fun x => { x with arena }
  have hst : u.store s = { w.store s with arena } := by rw [store_modifyStore, if_pos rfl]
  have hu : (sheltering s).inv u := inv_reserving hr hw
  have hou : (u.store s).owned = true := by rw [hst, ho]
  obtain ⟨hin, hrest⟩ := buildIn_sheltered hv hc hou hu ⟨hf.client, hf.chain⟩ rfl hl h
  have harena : (v.store s).arena = arena := hin.arena.trans (by rw [hst])
  refine ⟨id, u, _, by rw [harena], rfl, ?_, ?_⟩
  · exact {
      free := hn
      slot := by rw [harena, hr]
      names := hin.names.trans (by rw [hst])
      affinity := hin.affinity.trans (by rw [hst])
      items := fun hj => hin.items hj }
  · rw [hst] at hrest
    refine hrest.imp (fun ⟨hp, hb⟩ => ⟨hp, hb.toAdds.of_reserving, hb.owns⟩)
      fun ⟨chain, value, z, hz, hb⟩ => ⟨chain, value, z, hz, ?_⟩
    exact { hb with toAdds := hb.toAdds.of_reserving }

end Unfinished

end Engine

namespace Scenario

open Engine World

/-- A creation that gives a fault leaves everything as it was. One that ends in a panic leaves its
store short of a slot. If it got as far as an item, it also leaves a subscription to it, and a
request for a trigger if the item was written to. -/
theorem unfinished_creation (opens opens' halt halt' : World → Bool) (depth depth' : Nat)
    (steps : List Step) {s : Nat} {name : String} {type : ValueType} {convert : Engine Value}
    {factory : Descriptor → Engine (List Nat)} {o : Outcome (Except Fault ItemId)} {w v : World}
    (hw : (reachedOpen opens halt depth {} steps).own s = w) (hs : s < w.stores.next)
    (hv : Client (callOpenUntil opens' halt' depth') convert)
    (hf : Makes (callOpenUntil opens' halt' depth') w factory)
    (h : createFrom (callOpenUntil opens' halt' depth') s name type convert factory w = (o, v)) :
    (∀ fault, o = .done (.error fault) → v = w) ∧
      ∀ text, o = .panicked text → ∃ id u d,
        u = w.modifyStore s (fun x => { x with arena := (v.store s).arena }) ∧
        d = { store := .drawn s, id, name, type } ∧ w.Curtailed s name id v ∧
          (preparing convert factory d u = (.panicked text, v) ∧ w.Barren s v ∨
            ∃ chain value z, preparing convert factory d u = (.done (chain, value), z) ∧
              w.Orphaned s z.items.next
                { descriptor := d, value, chain, affinity := (w.store s).affinity } v) := by
  refine ⟨fun fault ho => createFrom_fault (ho ▸ h), fun text ho => ?_⟩
  subst ho
  have hin : w.InStep := by
    have hr := reachedOpen_inStep opens halt depth steps
    exact hw ▸ ((World.quiet_own s _).unwritten hr.sound).inStep hr
  have hown : (w.store s).owned = true := by
    rw [← hw, own, store_modifyStore, if_pos rfl]
  have hcl := callOpenUntil_keeps_ledger opens' halt' depth'
  have hl := createFrom_keepsAt ledger_calm.storekeeping.housing trivial
    (fun v hi => write_ledger hcl v hi.1) name type
    (hv.keeps (ledger_admits hcl).toBasics hcl) hs
    (hf.supplies (ledger_admits hcl).toBasics hcl)
  have hcs := callOpenUntil_keeps (L := sheltering s)
    (fun _ hc => Performing.sheltering_admits hc) opens' (shelter_lenient _ s).delivering.opens
    halt' depth'
  exact createFrom_sheltered hv hcs hown ⟨hin.sound, hs⟩ hf (hl.holds hin h).1 h

/-- A store that is bound to a domain, and an aspect that panics when it is told of a write. -/
def fragile : List Step :=
  [.domain "d" "d" .cooperative,
    .store "s" (.builder [.affinity (some "d")]),
    .aspect "p" (.probe {
      name := "p"
      script := fun h => if h = .afterWrite then
        some (Script.window 0 none [.panic "boom"]) else none })]

/-- A creation in that store, with a chain of that aspect. -/
def wreck : Outcome (Except Fault ItemId) × World :=
  createFrom (callOpenUntil (fun _ => true) (fun _ => false) maxDepth) 0 "n" .int64
    (pure (.int64 0)) (fun _ => pure [0])
    ((reachedOpen (fun _ => true) (fun _ => false) maxDepth {} fragile).own 0)

theorem wreck_unfinished :
    let w := (reachedOpen (fun _ => true) (fun _ => false) maxDepth {} fragile).own 0
    let source := Source.item (.drawn 0) ⟨0, 0⟩
    wreck.1 = .panicked "boom" ∧ w.Curtailed 0 "n" ⟨0, 0⟩ wreck.2 ∧
      (wreck.2.item 0).writes = 1 ∧ requestedBy 0 wreck.2.history = [⟨source, 1⟩] ∧
      (wreck.2.domain 0).tally 0 source = 1 := by
  intro w source
  have hf : Makes (callOpenUntil (fun _ => true) (fun _ => false) maxDepth) w
      fun _ => pure [0] := by
    refine ⟨fun _ => .pure [0], ?_⟩
    rintro d v chain v' - hn ⟨⟩ a ha
    obtain rfl := List.mem_singleton.mp ha
    exact Nat.lt_of_lt_of_le (by decide +kernel) hn
  have ho : wreck.1 = .panicked "boom" := by decide +kernel
  obtain ⟨id, u, d, rfl, rfl, hc, h⟩ := (unfinished_creation (fun _ => true) (fun _ => true)
    (fun _ => false) (fun _ => false) maxDepth maxDepth fragile rfl (by decide +kernel) (.pure _) hf
    (Prod.eta wreck).symm).2 _ ho
  have hid : id = ⟨0, 0⟩ := by
    have := congrArg (Option.map Prod.fst) hc.slot
    refine Option.some.inj (this.symm.trans ?_)
    decide +kernel
  subst hid
  have hone : (wreck.2.item 0).writes = 1 := by decide +kernel
  rcases h with ⟨h, -⟩ | ⟨chain, value, z, h, hb⟩
  · cases h
  · cases h
    have hi : (w.modifyStore 0 fun x => { x with arena := (wreck.2.store 0).arena }).items.next =
        0 := by decide +kernel
    rw [hi] at hb
    refine ⟨ho, hc, hone, ?_, ?_⟩
    · rw [hb.requests, hone]
      rfl
    · have hu : wreck.2.Undisturbed source := by
        unfold World.Undisturbed
        decide +kernel
      refine (hb.bound (d := 0) (by decide +kernel) rfl (hu.not_meddled 0)).trans ?_
      decide +kernel

/-- The panic of the last write has cost the store a slot, and leaves an event of an item that is
not there in the queue of its domain, along with a subscription to it. -/
theorem wreck_left :
    let w := (reachedOpen (fun _ => true) (fun _ => false) maxDepth {} fragile).own 0
    let source := Source.item (.drawn 0) ⟨0, 0⟩
    wreck.1 = .panicked "boom" ∧
      (w.store 0).arena.reserve?.map Prod.fst = some ⟨0, 0⟩ ∧
      (wreck.2.store 0).arena.reserve?.map Prod.fst = some ⟨1, 0⟩ ∧
      (wreck.2.store 0).arena.toList = [] ∧
      (w.domain 0).subscribers source = [] ∧
      (wreck.2.domain 0).subscribers source = [.store 0] ∧
      (w.domain 0).queue = [] ∧ (wreck.2.domain 0).queue = [⟨source, 1⟩] := by
  decide +kernel

end Scenario

end GuardedStore
