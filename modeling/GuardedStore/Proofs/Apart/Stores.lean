import GuardedStore.Proofs.Apart.Delivery

/-!
Guarded accesses to items of the side, and what is done with its stores.

Whatever is done with a store of the side and the items in it comes out the same in both worlds, and
no other store has a part in it.
-/
namespace GuardedStore

variable {c : Side} {lone : Bool} {t : Twins}

theorem Item.Twin.source {i' i : Item} (h : i'.Twin t c i) : i'.source = i.source := by
  unfold Item.source
  rw [h.descriptor]

theorem Store.Twin.source {s' s : Store} (h : s'.Twin t s) : s'.source = s.source := by
  unfold Store.source
  rw [h.id]

theorem World.Alike.fires_store {u' u : World} (h : u'.Alike c lone t u) {n : Nat}
    (hn : c.stores n) : c.fires (u.store n).source := by
  unfold Store.source
  rw [h.ids hn]
  exact hn

/-- A factory that makes chains of twins from what it is given. -/
def Engine.Chains (c : Side) (lone : Bool) (t : Twins)
    (factory' factory : Descriptor → Engine (List Nat)) : Prop :=
  ∀ d, Tracks c lone t (factory' d) (factory d) fun s => List.Forall₂ s.aspects

namespace Engine

variable {call : Nat → Engine Unit} (follows : Follows c lone call)

section Accesses

variable {i j : Nat} (hij : t.items i j)

include follows hij

theorem tracks_storeValue {a' a : Access} (hv : a'.value = a.value) :
    Tracks c lone t (storeValue call i a') (storeValue call j a) Twins.Any := by
  refine Tracks.seq (tracks_modifyItem hij fun s x' x _ hx => ?_) fun _ _ => ?_
  · rw [hv]
    exact { hx with value := rfl, writes := congrArg (· + 1) hx.writes }
  refine Tracks.seq (tracks_record (fun _ => rfl) fun _ => rfl) fun _ _ =>
    tracks_get_bind fun s u' u hs hu => Tracks.seq tracks_notice fun _ _ => ?_
  have hx := hu.items (hs.1 hij)
  rw [hx.source, hx.writes, hx.affinity]
  exact (tracks_trigger follows _ hx.fires).seq fun _ _ => tracks_unit

theorem tracks_write (value : Value) :
    Tracks c lone t (write call i value) (write call j value) Twins.Any := by
  refine tracks_get_bind fun s u' u hs hu => ?_
  have hx := hu.items (hs.1 hij)
  dsimp only
  rw [hx.descriptor]
  refine Tracks.bind (tracks_enter follows hx.chain .write rfl rfl) fun r p' p hr hp => ?_
  have hij := hr.1 (hs.1 hij)
  refine Tracks.ensure ?_ (fun _ _ => trivial) (tracks_leave follows hp)
  rw [hp.permitted]
  split
  · exact tracks_storeValue follows hij hp.access.value
  · exact tracks_get_bind fun q v' v _ _ => Tracks.seq tracks_notice fun _ _ =>
      tracks_record (fun _ => rfl) fun _ => rfl

omit hij in
/-- A read that was admitted is over, and hands out what it found. -/
theorem tracks_returned {p' p : Pass} (hp : p'.Twin t p) {y' y : Happening} (hy' : y'.Mute)
    (hy : y.Mute) (r : Except Fault Value) :
    Tracks c lone t (do leave call p'; record y'; return r) (do leave call p; record y; return r)
      Twins.Same :=
  (tracks_leave follows hp).seq fun _ _ => (tracks_record hy' hy).seq fun _ _ =>
    tracks_pure fun _ _ => rfl

omit hij in
/-- A read that was refused is over. -/
theorem tracks_refused {p' p : Pass} (hp : p'.Twin t p) {n' n : Notice} {y' y : Happening}
    (hy' : y'.Mute) (hy : y.Mute) (r : Except Fault Value) :
    Tracks c lone t (do leave call p'; notice n'; record y'; return r)
      (do leave call p; notice n; record y; return r) Twins.Same :=
  (tracks_leave follows hp).seq fun _ _ => tracks_notice.seq fun _ _ =>
    (tracks_record hy' hy).seq fun _ _ => tracks_pure fun _ _ => rfl

theorem tracks_readWithin (retries : Nat) :
    Tracks c lone t (readWithin call i retries) (readWithin call j retries) Twins.Same := by
  induction retries generalizing t i j with
  | zero =>
    unfold readWithin
    refine tracks_get_bind fun s u' u hs hu => ?_
    have hx := hu.items (hs.1 hij)
    dsimp only
    rw [hx.descriptor, hx.value]
    refine Tracks.bind (tracks_enter follows hx.chain .read rfl rfl) fun r p' p hr hp => ?_
    refine tracks_get_bind fun q v' v hq hv => ?_
    have hp := hp.mono hq
    rw [hv.vetoedBy hp]
    split
    · exact tracks_refused follows hp (fun _ => rfl) (fun _ => rfl) _
    · exact tracks_returned follows hp (fun _ => rfl) (fun _ => rfl) _
  | succ retries ih =>
    unfold readWithin
    refine tracks_get_bind fun s u' u hs hu => ?_
    have hx := hu.items (hs.1 hij)
    dsimp only
    rw [hx.descriptor, hx.value]
    refine Tracks.bind (tracks_enter follows hx.chain .read rfl rfl) fun r p' p hr hp => ?_
    refine tracks_get_bind fun q v' v hq hv => ?_
    have hp := hp.mono hq
    have hij := hq.1 (hr.1 (hs.1 hij))
    rw [hv.vetoedBy hp, (hv.items hij).writes, hx.writes]
    split
    · exact tracks_refused follows hp (fun _ => rfl) (fun _ => rfl) _
    · split
      · refine Tracks.seq tracks_notice fun _ _ =>
          Tracks.seq (tracks_record (fun _ => rfl) fun _ => rfl) fun _ _ => ?_
        exact (tracks_leave follows hp).seq fun _ _ => ih hij
      · exact tracks_returned follows hp (fun _ => rfl) (fun _ => rfl) _

theorem tracks_read : Tracks c lone t (read call i) (read call j) Twins.Same :=
  tracks_readWithin follows hij _

end Accesses

section Storekeeping

variable {n : Nat} (hn : c.stores n)

include hn

theorem tracks_release {i j : Nat} (hij : t.items i j) :
    Tracks c lone t (release n i) (release n j) Twins.Any := by
  refine tracks_get_bind fun s u' u hs hu => ?_
  have hij := hs.1 hij
  have hx := hu.items hij
  have hst := hu.stores hn
  dsimp only
  rw [hx.descriptor, hst.affinity, hst.names]
  refine (tracks_unsubscribe _ hx.fires).seq fun _ _ => ?_
  have last : Tracks c lone s
      (do modify (World.modifyItem i fun i => { i with state := .destroyed })
          notice (.itemDestroyed (u'.store n).id (u.item j).descriptor.id
            (u.item j).descriptor.name))
      (do modify (World.modifyItem j fun i => { i with state := .destroyed })
          notice (.itemDestroyed (u.store n).id (u.item j).descriptor.id
            (u.item j).descriptor.name))
      Twins.Any :=
    Tracks.seq (tracks_modifyItem hij fun _ _ _ _ hx => { hx with state := rfl }) fun _ _ =>
      tracks_notice
  split
  · exact Tracks.seq (tracks_modifyStore hn (fun _ _ _ _ hx =>
      { hx with names := congrArg (Table.erase · _) hx.names }) fun _ => rfl) fun _ _ => last
  · exact last

theorem tracks_destroy (key : Key) :
    Tracks c lone t (destroy n key) (destroy n key) Twins.Same := by
  refine tracks_get_bind fun s u' u hs hu => ?_
  have hst := hu.stores hn
  dsimp only
  rw [hst.id]
  split
  · exact tracks_pure fun _ _ => rfl
  obtain ⟨h', h⟩ | ⟨⟨i, a'⟩, ⟨j, a⟩, h', h, hij, ha⟩ := rel_cases (hst.arena.remove? key.id)
  · rw [h', h]
    exact tracks_pure fun _ _ => rfl
  · rw [h', h]
    refine Tracks.seq (tracks_modifyStore hn (fun r _ _ hr hx => { hx with arena := ha.mono hr })
      fun _ => rfl) fun _ _ => ?_
    exact (tracks_release hn hij).seq fun _ _ => tracks_pure fun _ _ => rfl

theorem tracks_dropStore : Tracks c lone t (dropStore n) (dropStore n) Twins.Any := by
  refine tracks_get_bind fun s u' u hs hu => ?_
  have hst := hu.stores hn
  obtain ⟨items, arena⟩ := hst.arena.drain
  dsimp only
  rw [hst.affinity, hst.source]
  refine Tracks.seq (tracks_modifyStore hn (fun r _ _ hr hx => { hx with arena := arena.mono hr })
    fun _ => rfl) fun _ _ => ?_
  refine Tracks.seq (tracks_forM (fun _ _ hij => tracks_release hn hij) items) fun _ _ => ?_
  refine (tracks_unsubscribe _ (hu.fires_store hn)).seq fun _ _ => ?_
  exact Tracks.seq (tracks_modifyStore hn (fun _ _ _ _ hx => { hx with dropped := rfl }) fun _ => rfl)
    fun _ _ => tracks_notice

theorem tracks_dropIfIdle : Tracks c lone t (dropIfIdle n) (dropIfIdle n) Twins.Any := by
  refine tracks_get_bind fun s u' u hs hu => ?_
  have hst := hu.stores hn
  dsimp only
  unfold Store.inUse
  rw [hst.replaced, hst.owned, hst.sharers]
  split
  · exact tracks_dropStore hn
  · exact tracks_unit

theorem tracks_endSharing : Tracks c lone t (endSharing n) (endSharing n) Twins.Any :=
  Tracks.seq (tracks_modifyStore hn (fun _ _ _ _ hx =>
    { hx with sharers := congrArg (· - 1) hx.sharers }) fun _ => rfl) fun _ _ => tracks_dropIfIdle hn

theorem tracks_endOwning : Tracks c lone t (endOwning n) (endOwning n) Twins.Any :=
  Tracks.seq (tracks_modifyStore hn (fun _ _ _ _ hx => { hx with owned := rfl }) fun _ => rfl)
    fun _ _ => tracks_dropIfIdle hn

theorem tracks_bindItem (affinity : Option Nat) {i j : Nat} (hij : t.items i j) :
    Tracks c lone t (bindItem n affinity i) (bindItem n affinity j) Twins.Any := by
  refine Tracks.seq (tracks_modifyItem hij fun _ _ _ _ hx => { hx with affinity := rfl })
    fun _ _ => ?_
  refine tracks_get_bind fun s u' u hs hu => ?_
  have hx := hu.items (hs.1 hij)
  rw [hx.source]
  exact tracks_subscribe affinity hx.fires hn

theorem tracks_setAffinity (affinity : Option Nat) :
    Tracks c lone t (setAffinity n affinity) (setAffinity n affinity) Twins.Any := by
  refine tracks_get_bind fun s u' u hs hu => ?_
  have hst := hu.stores hn
  dsimp only
  rw [hst.affinityReaders, hst.affinity, hst.source]
  split
  · exact tracks_wait_bind
  split
  · exact tracks_unit
  refine (tracks_unsubscribe _ (hu.fires_store hn)).seq fun _ _ => ?_
  refine Tracks.seq (tracks_forM (fun i j hij => ?_) hst.arena.toList) fun _ _ => ?_
  · refine tracks_get_bind fun r v' v hr hv => ?_
    have hx := hv.items (hr.1 hij)
    rw [hx.source]
    exact tracks_unsubscribe _ hx.fires
  refine (tracks_subscribe affinity (hu.fires_store hn) hn).seq fun _ _ => ?_
  refine Tracks.seq (tracks_forM (fun _ _ hij => tracks_bindItem hn affinity hij) hst.arena.toList)
    fun _ _ => tracks_get_bind fun r v' v hr hv => Tracks.seq tracks_notice fun _ _ => ?_
  refine Tracks.seq (tracks_modifyStore hn (fun _ _ _ _ hx => { hx with affinity := rfl })
    fun _ => rfl) fun _ _ => tracks_record (fun _ => rfl) fun _ => rfl

theorem tracks_onExecute {k' k : ModelHook} (hk : k'.Twin t k) :
    Tracks c lone t (onExecute n k') (onExecute n k) Twins.Any := by
  refine tracks_get_bind fun s u' u hs hu => ?_
  rw [(hu.stores hn).signal.running]
  dsimp only
  split
  · exact tracks_wait_bind
  refine Tracks.seq (tracks_modifySignal hn fun r _ _ hr hx => { hx with
    hooks := List.rel_append hx.hooks (.cons (hk.mono (Twins.le_trans hs hr)) .nil) }) fun _ _ => ?_
  exact tracks_record (fun _ => rfl) fun _ => rfl

include follows

theorem tracks_triggerStore :
    Tracks c lone t (triggerStore call n) (triggerStore call n) Twins.Same := by
  refine Tracks.seq (tracks_modifyStore hn (fun _ _ _ _ hx => { hx with
    triggers := congrArg (· + 1) hx.triggers
    affinityReaders := congrArg (· + 1) hx.affinityReaders }) fun _ => rfl) fun _ _ => ?_
  refine tracks_get_bind fun s u' u hs hu => ?_
  have hst := hu.stores hn
  dsimp only
  rw [hst.affinity, hst.source, hst.triggers]
  refine Tracks.ensure (tracks_trigger follows _ (hu.fires_store hn)) (fun _ h => h) ?_
  exact tracks_modifyStore hn (fun _ _ _ _ hx =>
    { hx with affinityReaders := congrArg (· - 1) hx.affinityReaders }) fun _ => rfl

/-- An item is built at twin addresses. -/
theorem tracks_buildIn (id : ItemId) (name : String) (value : Value)
    {factory' factory : Descriptor → Engine (List Nat)} (hf : Chains c lone t factory' factory) :
    Tracks c lone t (buildIn call n id name value.type (pure value) factory')
      (buildIn call n id name value.type (pure value) factory) Twins.Any := by
  refine tracks_get_bind fun s u' u hs hu => ?_
  have hst := hu.stores hn
  dsimp only
  rw [hst.id, hu.ids hn, hst.affinity]
  refine Tracks.bind ((hf _).mono hs) fun r chain' chain hr hchain => ?_
  have converted {x : Twins} : Tracks c lone x (pure value) (pure value)
      fun _ v' v => value = v' ∧ value = v := tracks_pure fun _ _ => ⟨rfl, rfl⟩
  refine Tracks.bind converted ?_
  rintro r' _ _ hr' ⟨rfl, rfl⟩
  have hfires : c.fires (.item (.drawn n) id) := hn
  refine Tracks.bind (tracks_newItem ⟨rfl, rfl, chain_mono hr' hchain, rfl, rfl, rfl, hfires⟩)
    fun q i j hq hij => ?_
  refine (tracks_subscribe _ hfires hn).seq fun _ _ => ?_
  refine Tracks.bind converted ?_
  rintro q' _ _ hq' ⟨rfl, rfl⟩
  replace hij := hq'.1 hij
  refine Tracks.seq (tracks_write follows hij value) fun _ _ => ?_
  refine Tracks.seq (tracks_modifyItem hij fun _ _ _ _ hx => { hx with state := rfl }) fun _ _ => ?_
  refine Tracks.seq (tracks_modifyStore hn (fun _ _ _ hx hst =>
    { hst with arena := hst.arena.fill (hx.1 hij) id }) fun _ => rfl) fun _ _ => ?_
  exact Tracks.seq tracks_notice fun _ _ => tracks_modifyStore hn (fun _ _ _ _ hx =>
    { hx with names := congrArg (Table.put · _ _) hx.names }) fun _ => rfl

theorem tracks_create (name : String) (value : Value)
    {factory' factory : Descriptor → Engine (List Nat)} (hf : Chains c lone t factory' factory) :
    Tracks c lone t (create call n name value factory') (create call n name value factory)
      Twins.Same := by
  refine tracks_get_bind fun s u' u hs hu => ?_
  have hst := hu.stores hn
  dsimp only
  rw [hst.names, hst.id]
  split
  · exact tracks_pure fun _ _ => rfl
  obtain ⟨h', h⟩ | ⟨⟨id', a'⟩, ⟨id, a⟩, h', h, hid, ha⟩ := rel_cases hst.arena.reserve?
  · rw [h', h]
    exact tracks_pure fun _ _ => rfl
  · rw [h', h]
    dsimp only at hid ⊢
    subst hid
    refine Tracks.seq (tracks_modifyStore hn (fun r _ _ hr hx => { hx with arena := ha.mono hr })
      fun _ => rfl) fun _ _ => ?_
    exact (tracks_buildIn follows hn id' name value fun d => (hf d).mono hs).seq fun _ _ =>
      tracks_pure fun _ _ => rfl

end Storekeeping

end Engine

end GuardedStore
