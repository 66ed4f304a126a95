import GuardedStore.Proofs.Estate.Admitted

/-!
A store refines a finite map.

Whatever was done before, what can be asked of a store is what its registry says, and each call that
creates or destroys an item is answered as a registry answers it and changes the registry as
answered. The slots, the vacant indices and the table of names are nowhere seen from outside.
-/
namespace GuardedStore

/-- A call of somebody to whom a store belongs. -/
inductive Call where
  | create (name : String) (value : Value) (plan : FactoryPlan Script)
  | destroy (key : Key)

namespace Registry

/-- A live item has the name. -/
def Has (r : Registry) (name : String) : Prop :=
  ∃ e ∈ r.live, e.name = name

/-- A live item has the id. -/
def Lists (r : Registry) (id : ItemId) : Prop :=
  ∃ e ∈ r.live, e.id = id

/-- How the registry of the store `owner` answers a call, and what it is like afterwards. -/
inductive Serves (owner : StoreId) :
    Registry → Call → Except Fault (Option ItemId) → Registry → Prop where
  | duplicate {r name value plan} : r.Has name →
    Serves owner r (.create name value plan) (.error (.duplicateName name)) r
  | created {r name value plan id} : ¬ r.Has name → id ∉ r.issued →
    Serves owner r (.create name value plan) (.ok (some id)) (r.create ⟨id, name, value.type⟩)
  | foreign {r key} : key.store ≠ owner →
    Serves owner r (.destroy key) (.error (.foreignItem key.id key.store owner)) r
  | stale {r key} : key.store = owner → ¬ r.Lists key.id →
    Serves owner r (.destroy key) (.error (.staleItem key.id)) r
  | destroyed {r key} : key.store = owner → r.Lists key.id →
    Serves owner r (.destroy key) (.ok none) (r.destroy key.id)

/-- Calls with their answers, one after the other. -/
inductive Runs (owner : StoreId) :
    Registry → List (Call × Except Fault (Option ItemId)) → Registry → Prop where
  | nil r : Runs owner r [] r
  | cons {r r' r'' c a calls} : Serves owner r c a r' → Runs owner r' calls r'' →
    Runs owner r ((c, a) :: calls) r''

theorem Serves.issued_le {owner : StoreId} {r r' : Registry} {c : Call}
    {a : Except Fault (Option ItemId)} (h : Serves owner r c a r') :
    r.issued.length ≤ r'.issued.length := by
  cases h <;> first | exact Nat.le_refl _ | exact Nat.le_succ _

theorem Runs.issued_le {owner : StoreId} {r r' : Registry}
    {calls : List (Call × Except Fault (Option ItemId))} (h : Runs owner r calls r') :
    r.issued.length ≤ r'.issued.length := by
  induction h with
  | nil r => exact Nat.le_refl _
  | cons h _ ih => exact Nat.le_trans h.issued_le ih

end Registry

namespace World

variable {s : Nat} {w : World}

/-- All that can be asked of the store is as the registry says: its items in the order of their
indices, each once, how many they are, which ids and which names are those of live items, and which
key is found under a name. -/
structure Displays (w : World) (s : Nat) (r : Registry) : Prop where
  listed : ((w.itemsOf s).map Item.entry).Perm r.live
  sorted : ((w.itemsOf s).map fun i => i.descriptor.id.index).Pairwise (· < ·)
  size : (w.store s).arena.size = r.live.length
  contains : ∀ id, (w.store s).arena.contains id = true ↔ r.Lists id
  state : ∀ id, w.stateOf s id = .live ↔ r.Lists id
  named : ∀ name, (w.store s).names.contains name = true ↔ r.Has name
  found : ∀ type name key, w.find? s type name = some key ↔
    ∃ e ∈ r.live, e.name = name ∧ e.type = type ∧ key = ⟨(w.store s).id, e.id, type⟩

theorem Tidy.contains (h : w.Tidy s) (id : ItemId) :
    (w.store s).arena.contains id = true ↔ (registry (.drawn s) w.history).Lists id := by
  rw [Arena.contains, Option.isSome_iff_exists]
  constructor
  · rintro ⟨i, hi⟩
    obtain ⟨hslot, hg⟩ := Arena.get?_eq_some.mp hi
    have hm : i ∈ (w.store s).arena.toList :=
      (Arena.mem_toList h.wellFormed.bounded).mpr ⟨_, hslot⟩
    exact ⟨_, (h.listed _).mpr ⟨i, hm, rfl⟩, (h.filed hslot).trans (by rw [hg])⟩
  · rintro ⟨e, he, rfl⟩
    obtain ⟨i, hi, rfl⟩ := (h.listed e).mp he
    exact ⟨i, h.slot hi⟩

theorem Tidy.has (h : w.Tidy s) (name : String) :
    (w.store s).names.contains name = true ↔ (registry (.drawn s) w.history).Has name := by
  rw [Table.contains, Option.isSome_iff_exists]
  constructor
  · rintro ⟨id, hid⟩
    obtain ⟨e, he, hn, -⟩ := (h.named _ _).mp hid
    exact ⟨e, he, hn⟩
  · rintro ⟨e, he, hn⟩
    exact ⟨e.id, (h.named _ _).mpr ⟨e, he, hn, rfl⟩⟩

theorem Tidy.found (h : w.Tidy s) (type : ValueType) (name : String) (key : Key) :
    w.find? s type name = some key ↔ ∃ e ∈ (registry (.drawn s) w.history).live,
      e.name = name ∧ e.type = type ∧ key = ⟨(w.store s).id, e.id, type⟩ := by
  have hf : w.find? s type name = some key ↔ ∃ id, (w.store s).names.find? name = some id ∧
      ∃ i, (w.store s).arena.get? id = some i ∧ (w.item i).descriptor.type = type ∧
        key = ⟨(w.store s).id, id, type⟩ := by
    simp only [World.find?, Option.bind_eq_bind, Option.bind_eq_some_iff, guard]
    refine exists_congr fun id => and_congr_right fun _ => exists_congr fun i =>
      and_congr_right fun _ => ?_
    split <;> simp_all [eq_comm]
  rw [hf]
  constructor
  · rintro ⟨id, hid, i, hi, ht, rfl⟩
    obtain ⟨e, he, hn, rfl⟩ := (h.named _ _).mp hid
    obtain ⟨j, hj, rfl⟩ := (h.listed e).mp he
    cases (h.slot hj).symm.trans hi
    exact ⟨_, he, hn, ht, rfl⟩
  · rintro ⟨e, he, hn, ht, rfl⟩
    obtain ⟨i, hi, rfl⟩ := (h.listed e).mp he
    exact ⟨_, (h.named _ _).mpr ⟨_, he, hn, rfl⟩, i, h.slot hi, ht, rfl⟩

theorem Tidy.displays (h : w.Tidy s) : w.Displays s (registry (.drawn s) w.history) := by
  have hsorted : ((w.itemsOf s).map fun i => i.descriptor.id.index).Pairwise (· < ·) := by
    rw [itemsOf, List.map_map]
    exact h.pairwise
  have hnodup : ((w.itemsOf s).map Item.entry).Nodup := by
    refine List.Pairwise.map _ (fun i j hij he => ?_) (List.pairwise_map.mp hsorted)
    exact UInt32.lt_irrefl _ (congrArg (fun e : Entry => e.id.index) he ▸ hij)
  have hperm : ((w.itemsOf s).map Item.entry).Perm (registry (.drawn s) w.history).live := by
    refine (List.perm_ext_iff_of_nodup hnodup h.once).mpr fun e => ?_
    rw [h.listed, itemsOf, List.map_map, List.mem_map]
    rfl
  refine ⟨hperm, hsorted, ?_, h.contains, fun id => ?_, h.has, h.found⟩
  · rw [h.wellFormed.size, ← hperm.length_eq, List.length_map, itemsOf, List.length_map]
  · rw [stateOf, ← h.contains]
    split <;> simp_all

/-- What the next call does, whatever it is: it is refused and changes nothing if a live item has
the name, and otherwise an item is built under an id never issued before; a live item that is
destroyed leaves all others as they are, and nothing else can be destroyed. -/
structure Obeys (call : Nat → Engine Unit) (s : Nat) (w : World) (r : Registry) : Prop where
  duplicate : ∀ name value factory, r.Has name ↔
    Engine.create call s name value factory w = (.done (.error (.duplicateName name)), w)
  fresh : ∀ name value factory, ¬ r.Has name → ∃ id arena, id ∉ r.issued ∧
    Engine.create call s name value factory w =
      (Engine.createIn call s id name value factory >>= fun _ => pure (.ok id))
        (w.modifyStore s fun x => { x with arena })
  foreign : ∀ key, key.store ≠ (w.store s).id → Engine.destroy s key w =
    (.done (.error (.foreignItem key.id key.store (w.store s).id)), w)
  stale : ∀ key, key.store = (w.store s).id → ¬ r.Lists key.id →
    Engine.destroy s key w = (.done (.error (.staleItem key.id)), w)
  destroyed : ∀ key, key.store = (w.store s).id → r.Lists key.id → ∃ i v,
    Engine.destroy s key w = (.done (.ok ()), v) ∧ (w.item i).descriptor.id = key.id ∧
      v.item i = { w.item i with state := .destroyed } ∧ (∀ j, j ≠ i → v.item j = w.item j) ∧
        registry (.drawn s) v.history = r.destroy key.id

theorem Tidy.destroy (h : w.Tidy s) (hid : (w.store s).id = .drawn s) {key : Key}
    (hk : key.store = (w.store s).id) (hl : (registry (.drawn s) w.history).Lists key.id) :
    ∃ i arena, (w.store s).arena.remove? key.id = some (i, arena) ∧
      Engine.destroy s key w = (.done (.ok ()), w.destroying s i arena) ∧
        (w.item i).descriptor.id = key.id ∧
          registry (.drawn s) (w.destroying s i arena).history =
            (registry (.drawn s) w.history).destroy key.id := by
  have hc := (h.contains key.id).mpr hl
  cases hr : (w.store s).arena.remove? key.id with
  | none =>
    rw [Arena.contains, Arena.remove?_eq_none.mp hr] at hc
    cases hc
  | some r =>
    obtain ⟨i, arena⟩ := r
    have hrem := Arena.removes_of_remove? hr
    have hd : (w.item i).descriptor.id = key.id := by rw [h.filed hrem.item, hrem.generation]
    refine ⟨i, arena, rfl, ?_, hd, by rw [registry_destroying hid, hd]⟩
    rw [Engine.destroy_apply, if_neg (not_not_intro hk), hr]

theorem Tidy.stale (h : w.Tidy s) {key : Key} (hk : key.store = (w.store s).id)
    (hl : ¬ (registry (.drawn s) w.history).Lists key.id) :
    Engine.destroy s key w = (.done (.error (.staleItem key.id)), w) := by
  have hc := mt (h.contains key.id).mp hl
  have hr : (w.store s).arena.remove? key.id = none := by
    refine Arena.remove?_eq_none.mpr (Option.not_isSome_iff_eq_none.mp hc)
  rw [Engine.destroy_apply, if_neg (not_not_intro hk), hr]

/-- As long as there are ids left an item can be built if its name is free. -/
theorem Tidy.fresh (h : w.Tidy s)
    (hn : (registry (.drawn s) w.history).issued.length < UInt32.size)
    (call : Nat → Engine Unit) (name : String) (value : Value)
    (factory : Descriptor → Engine (List Nat))
    (hf : ¬ (registry (.drawn s) w.history).Has name) :
    ∃ id arena, (w.store s).arena.reserve? = some (id, arena) ∧
      id ∉ (registry (.drawn s) w.history).issued ∧
        Engine.create call s name value factory w =
          (Engine.createIn call s id name value factory >>= fun _ => pure (.ok id))
            (w.modifyStore s fun x => { x with arena }) := by
  obtain ⟨id, arena, hr, hid⟩ := h.issues.fresh h.wellFormed hn
  refine ⟨id, arena, hr, hid, ?_⟩
  rw [Engine.create_apply, if_neg (mt (h.has name).mp hf), hr]

theorem Tidy.obeys (h : w.Tidy s) (hid : (w.store s).id = .drawn s)
    (hn : (registry (.drawn s) w.history).issued.length < UInt32.size)
    (call : Nat → Engine Unit) : w.Obeys call s (registry (.drawn s) w.history) where
  duplicate name value factory := by
    refine ⟨fun hd => by rw [Engine.create_apply, if_pos ((h.has name).mpr hd)], fun hc => ?_⟩
    by_contra hd
    obtain ⟨id, arena, -, -, he⟩ := h.fresh hn call name value factory hd
    rw [he, Engine.bind_apply] at hc
    rcases hb : Engine.createIn call s id name value factory
      (w.modifyStore s fun x => { x with arena }) with ⟨_ | _ | _, v⟩ <;> rw [hb] at hc <;> cases hc
  fresh name value factory hd := by
    obtain ⟨id, arena, -, hi, he⟩ := h.fresh hn call name value factory hd
    exact ⟨id, arena, hi, he⟩
  foreign key hk := by rw [Engine.destroy_apply, if_pos hk]
  stale key := h.stale
  destroyed key hk hl := by
    obtain ⟨i, arena, -, he, hi, hr⟩ := h.destroy hid hk hl
    refine ⟨i, _, he, hi, ?_, fun j hj => ?_, hr⟩
    · rw [item_destroying, if_pos rfl]
    · rw [item_destroying, if_neg hj]

end World

/-- Calls of somebody to whom the store belongs, from one world to another, and what they were
answered. -/
inductive Served (call : Nat → Engine Unit) (s : Nat) :
    World → List (Call × Except Fault (Option ItemId)) → World → Prop where
  | nil w : Served call s w [] w
  | create {w u v x name value plan factory answer calls} :
    (Performing.factory s plan).run w = (.done (.ok factory), u) →
    Engine.create call s name value factory u = (.done answer, v) → Served call s v calls x →
      Served call s w ((.create name value plan, answer.map some) :: calls) x
  | destroy {w v x key answer calls} :
    Engine.destroy s key w = (.done answer, v) → Served call s v calls x →
      Served call s w ((.destroy key, answer.map fun _ => none) :: calls) x

section Serving

open World

variable {call : Nat → Engine Unit} {s : Nat} {w v : World}

theorem serves_create (hc : ∀ r, (call r).Keeps estates) (hw : (holding s).inv w) (hl : w.Lent s)
    {name : String} {value : Value} {plan : FactoryPlan Script}
    {factory : Descriptor → Engine (List Nat)} (hf : w.Supplies estates factory)
    {answer : Except Fault ItemId}
    (hv : Engine.create call s name value factory w = (.done answer, v))
    (hp : ¬ Panicked v.history)
    (hn : (registry (.drawn s) v.history).issued.length < UInt32.size) :
    Registry.Serves (.drawn s) (registry (.drawn s) w.history) (.create name value plan)
      (answer.map some) (registry (.drawn s) v.history) := by
  have hg := ((Engine.create_holding hc name value hf hl).holds hw hv).2.1.1
  obtain ⟨-, ht⟩ := hl fun h => hp (hg.panicked h)
  rw [Engine.create_apply] at hv
  split at hv
  · next hd =>
    cases hv
    exact .duplicate ((ht.has name).mp hd)
  · next hd =>
    cases hr : (w.store s).arena.reserve? with
    | none =>
      rw [hr] at hv
      cases hv
      obtain ⟨id, arena, hr', -⟩ := ht.issues.fresh ht.wellFormed hn
      cases hr.symm.trans hr'
    | some r =>
      obtain ⟨id, arena⟩ := r
      rw [hr] at hv
      dsimp only at hv
      rw [Engine.bind_apply] at hv
      rcases hb : Engine.createIn call s id name value factory
        (w.modifyStore s fun x => { x with arena }) with ⟨_ | _ | _, x⟩ <;> rw [hb] at hv <;> cases hv
      have hreg := ((createIn_holds hc hw.1 hw.2 hl hf hr (by simpa using hd) hb).2 rfl hp).register
      rw [hreg] at hn ⊢
      obtain ⟨id', arena', hr', hfresh⟩ :=
        ht.issues.fresh ht.wellFormed (Nat.lt_of_succ_lt hn)
      cases hr.symm.trans hr'
      exact .created (mt (ht.has name).mpr hd) hfresh

theorem serves_destroy (hw : (holding s).inv w) (hl : w.Lent s) {key : Key}
    {answer : Except Fault Unit} (hv : Engine.destroy s key w = (.done answer, v))
    (hp : ¬ Panicked v.history) :
    Registry.Serves (.drawn s) (registry (.drawn s) w.history) (.destroy key)
      (answer.map fun _ => none) (registry (.drawn s) v.history) := by
  have hg := ((Engine.destroy_holding key hl).holds hw hv).2.1.1
  obtain ⟨-, ht⟩ := hl fun h => hp (hg.panicked h)
  have hid := hw.1.1.ids hw.2
  by_cases hk : key.store = (w.store s).id
  · by_cases hlive : (registry (.drawn s) w.history).Lists key.id
    · obtain ⟨i, arena, -, he, -, hr⟩ := ht.destroy hid hk hlive
      cases he.symm.trans hv
      rw [hr]
      exact .destroyed (hk.trans hid) hlive
    · cases (ht.stale hk hlive).symm.trans hv
      exact .stale (hk.trans hid) hlive
  · rw [Engine.destroy_apply, if_pos hk] at hv
    cases hv
    rw [hid] at hk ⊢
    exact .foreign hk

/-- By induction on the calls, each of which leaves the store to the next one as it must be. -/
theorem Served.refines (hc : ∀ r, (call r).Keeps estates)
    {calls : List (Call × Except Fault (Option ItemId))} (h : Served call s w calls v)
    (hw : (holding s).inv w) (hl : w.Lent s) : (holding s).Holds w .done v ∧
      (¬ Panicked v.history → (registry (.drawn s) v.history).issued.length < UInt32.size →
        Registry.Runs (.drawn s) (registry (.drawn s) w.history) calls
          (registry (.drawn s) v.history)) := by
  induction h with
  | nil w => exact ⟨⟨hw, (holding s).refl hw⟩, fun _ _ => .nil _⟩
  | @create w u v x name value plan factory answer calls hf hcr _ ih =>
    have hbr := Performing.factory_brings (estate_basics fun _ => False) s plan
    have hu := (hbr.1 w).holds hw.1 hf
    have hwu := (keepsAt_holding (hbr.1 w)).holds hw hf
    have hsup : u.Supplies estates factory := hbr.2 hw.1 hf factory rfl
    have hlu := hl.mono hwu
    have huv := (Engine.create_holding hc name value hsup hlu).holds hwu.1 hcr
    obtain ⟨hvx, hruns⟩ := ih huv.1 (hlu.mono huv)
    refine ⟨(hwu.done_trans hw huv).done_trans hw hvx, fun hp hn => ?_⟩
    have hruns := hruns hp hn
    have hpv : ¬ Panicked v.history := fun h => hp (hvx.2.1.1.panicked h)
    have hpu : ¬ Panicked u.history := fun h => hpv (huv.2.1.1.panicked h)
    have ho := (hl fun h => hpu (hu.2.1.panicked h)).1
    have hreg := ((leaves_of_estates hu hpu s).unmoved (by rw [Store.inUse, ho]; rfl)).register
    refine .cons ?_ hruns
    rw [← hreg]
    exact serves_create hc hwu.1 hlu hsup hcr hpv (Nat.lt_of_le_of_lt hruns.issued_le hn)
  | @destroy w v x key answer calls hd _ ih =>
    have hwv := (Engine.destroy_holding key hl).holds hw hd
    obtain ⟨hvx, hruns⟩ := ih hwv.1 (hl.mono hwv)
    refine ⟨hwv.done_trans hw hvx, fun hp hn => .cons ?_ (hruns hp hn)⟩
    exact serves_destroy hw hl hd fun h => hp (hvx.2.1.1.panicked h)

end Serving

namespace Scenario

open World

/-- At every moment of a run that nothing panics in, a store that was not dropped shows what its
registry says, and whoever it is given to finds it to answer any calls as its registry does, as long
as fewer ids were issued than there are generations of a slot. -/
theorem store_refines_registry {halt : World → Bool} {depth : Nat} {steps : List Step} {w : World}
    (hw : reached halt depth {} steps = w) (hp : ¬ Panicked w.history) {s : Nat}
    (hs : s < w.stores.next) (hd : (w.store s).dropped = false) :
    ((w.store s).owned = false → w.Displays s (registry (.drawn s) w.history)) ∧
    ((w.store s).inUse = false → ∀ halt' depth' calls v,
      Served (callUntil halt' depth') s (w.own s) calls v → ¬ Panicked v.history →
      (registry (.drawn s) v.history).issued.length < UInt32.size →
        Registry.Runs (.drawn s) (registry (.drawn s) w.history) calls
          (registry (.drawn s) v.history) ∧
        v.Displays s (registry (.drawn s) v.history) ∧
        v.Obeys (callUntil halt' depth') s (registry (.drawn s) v.history)) := by
  subst hw
  have hinv := reached_estates halt depth steps
  generalize reached halt depth {} steps = w at *
  have hin := (hinv.2 hp).stores hs
  refine ⟨fun ho => (hin.tidy hd ho).displays, fun hu halt' depth' calls v hserved hpv hn => ?_⟩
  have ho : (w.store s).owned = false := by
    simp only [Store.inUse, Bool.or_eq_false_iff] at hu
    exact hu.1
  have hown : (estate (· = s)).Holds w .done (w.own s) :=
    (usage_own true).holds rfl hs (fun _ _ => rfl) (fun _ => ⟨hd, fun h => by cases h⟩) hinv
  have hm := (usage_own true).unmoved s w
  have hl : (w.own s).Lent s := fun _ => by
    refine ⟨?_, hm.tidy hinv.1 (hin.tidy hd ho)⟩
    rw [World.own, store_modifyStore, if_pos rfl]
  have hc := callUntil_keeps (fun _ hc => Performing.estate_admits hc) halt' depth'
  obtain ⟨hv, hruns⟩ := hserved.refines hc ⟨hown.1, hs⟩ hl
  have ht := (hl.mono hv hpv).2
  exact ⟨hruns hpv hn, ht.displays, ht.obeys (hv.1.1.1.ids hv.1.2) hn _⟩

/-- Two items are created, and the first one is destroyed. -/
def reissued : List Step :=
  [.store "s" .standard,
    .create "s" "k" "n" .int64 (.int 0) none .none,
    .create "s" "l" "m" .int64 (.int 0) none .none,
    .destroy "k" none]

/-- The store, lent to somebody who creates one more item of that name. -/
def reissuing : Outcome (Except Fault ItemId) × World :=
  Engine.create (callUntil (fun _ => false) maxDepth) 0 "n" (.int64 1) (fun _ => pure [])
    ((reached (fun _ => false) maxDepth {} reissued).own 0)

/-- The name of the first item is free again, and the next item of that name has its slot, but not
its id. -/
theorem reissued_served :
    (¬ Panicked (reached (fun _ => false) maxDepth {} reissued).history ∧
      ¬ Panicked reissuing.2.history) ∧
    Served (callUntil (fun _ => false) maxDepth) 0
      ((reached (fun _ => false) maxDepth {} reissued).own 0)
      [(.create "n" (.int64 1) .none, .ok (some ⟨0, 1⟩))] reissuing.2 ∧
    (reached (fun _ => false) maxDepth {} reissued).Displays 0
      ⟨[⟨⟨1, 0⟩, "m", .int64⟩], [⟨1, 0⟩, ⟨0, 0⟩]⟩ ∧
    reissuing.2.Displays 0
      ⟨[⟨⟨0, 1⟩, "n", .int64⟩, ⟨⟨1, 0⟩, "m", .int64⟩], [⟨0, 1⟩, ⟨1, 0⟩, ⟨0, 0⟩]⟩ := by
  have hp : ¬ Panicked (reached (fun _ => false) maxDepth {} reissued).history := by
    decide +kernel
  have hpv : ¬ Panicked reissuing.2.history := by decide +kernel
  have hcreated : reissuing.1 = .done (.ok ⟨0, 1⟩) := by decide +kernel
  have hcreate : reissuing = (.done (.ok ⟨0, 1⟩), reissuing.2) := by rw [← hcreated]
  have hfactory (u : World) : (Performing.factory 0 .none).run u =
      (.done (.ok fun _ => pure []), u) := rfl
  have hserved : Served (callUntil (fun _ => false) maxDepth) 0
      ((reached (fun _ => false) maxDepth {} reissued).own 0)
      [(.create "n" (.int64 1) .none, .ok (some ⟨0, 1⟩))] reissuing.2 :=
    .create (hfactory _) hcreate (.nil _)
  obtain ⟨hdisplays, hcalls⟩ := store_refines_registry
    (w := reached (fun _ => false) maxDepth {} reissued) (s := 0) rfl hp (by decide +kernel)
    (by decide +kernel)
  have hw : registry (.drawn 0) (reached (fun _ => false) maxDepth {} reissued).history =
      ⟨[⟨⟨1, 0⟩, "m", .int64⟩], [⟨1, 0⟩, ⟨0, 0⟩]⟩ := by decide +kernel
  have hv : registry (.drawn 0) reissuing.2.history =
      ⟨[⟨⟨0, 1⟩, "n", .int64⟩, ⟨⟨1, 0⟩, "m", .int64⟩], [⟨0, 1⟩, ⟨1, 0⟩, ⟨0, 0⟩]⟩ := by
    decide +kernel
  refine ⟨⟨hp, hpv⟩, hserved, ?_, ?_⟩
  · rw [← hw]
    exact hdisplays (by decide +kernel)
  · rw [← hv]
    exact (hcalls (by decide +kernel) _ _ _ _ hserved hpv (by decide +kernel)).2.1

end Scenario

end GuardedStore
