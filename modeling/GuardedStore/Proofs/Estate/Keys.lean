import GuardedStore.Proofs.Estate.Refinement

/-!
What a key stands for, ever after it was issued.

A creation is noticed when its item is in its slot, and the key it hands out names the store, the id
and the type of that notice; `find?` hands out keys of that kind again. Whatever happens later to the
slot and to the name of the item, the key leads to the item that was made then, or it is stale.
-/
namespace GuardedStore

/-- The creation that a key was issued by, of an item called `name`. -/
def Key.issue (key : Key) (name : String) : Happening :=
  .notice (.itemCreated key.store key.id name key.type)

def Key.entry (key : Key) (name : String) : Entry :=
  ⟨key.id, name, key.type⟩

/-- The item of the key was destroyed in the course of a history. -/
def Destroyed (key : Key) (h : List Happening) : Prop :=
  ∃ name, .notice (.itemDestroyed key.store key.id name) ∈ h

section History

variable {key : Key} {name : String}

theorem registers_iff {s : StoreId} {y : Happening} : y.registers s = true ↔
    (∃ id name type, y = .notice (.itemCreated s id name type)) ∨
      ∃ id name, y = .notice (.itemDestroyed s id name) := by
  constructor
  · intro concerned
    rcases y with _ | _ | _ | _ | _ | _ | _ | _ | _ | n <;> try cases concerned
    cases n <;> try cases concerned
    · obtain rfl := of_decide_eq_true concerned
      exact .inl ⟨_, _, _, rfl⟩
    · obtain rfl := of_decide_eq_true concerned
      exact .inr ⟨_, _, rfl⟩
  · rintro (⟨id, name, type, rfl⟩ | ⟨id, name, rfl⟩)
    · exact decide_eq_true rfl
    · exact decide_eq_true rfl

theorem destroyed_cons {y : Happening} {h : List Happening} : Destroyed key (y :: h) ↔
    (∃ name, y = .notice (.itemDestroyed key.store key.id name)) ∨ Destroyed key h := by
  simp only [Destroyed, List.mem_cons, exists_or, eq_comm]

theorem mem_issued_append {newer older : List Happening} :
    key.id ∈ (registry key.store (newer ++ key.issue name :: older)).issued := by
  induction newer with
  | nil =>
    have created : registry key.store (key.issue name :: older) =
        (registry key.store older).create (key.entry name) := if_pos rfl
    rw [List.nil_append, created]
    exact List.mem_cons_self
  | cons y newer ih =>
    rw [List.cons_append]
    by_cases concerned : y.registers key.store = true
    · obtain ⟨id, n, type, rfl⟩ | ⟨id, n, rfl⟩ := registers_iff.mp concerned
      · rw [registry, if_pos rfl]
        exact List.mem_cons_of_mem _ ih
      · rw [registry, if_pos rfl]
        exact ih
    · rw [registry_cons (Bool.not_eq_true _ ▸ concerned)]
      exact ih

/-- As long as no id was issued twice, the live item of a key's id is the one that the key was issued
for, and there is one until that item is destroyed. -/
theorem live_since {newer older : List Happening}
    (distinct : (registry key.store (newer ++ key.issue name :: older)).issued.Nodup) (e : Entry) :
    e ∈ (registry key.store (newer ++ key.issue name :: older)).live ∧ e.id = key.id ↔
      ¬ Destroyed key newer ∧ e = key.entry name := by
  induction newer with
  | nil =>
    have created : registry key.store (key.issue name :: older) =
        (registry key.store older).create (key.entry name) := if_pos rfl
    have undestroyed : ¬ Destroyed key [] := by
      rintro ⟨n, mem⟩
      cases mem
    rw [List.nil_append, created] at distinct ⊢
    simp only [undestroyed, not_false_eq_true, true_and]
    constructor
    · rintro ⟨mem, same⟩
      rcases List.mem_cons.mp mem with rfl | mem
      · rfl
      · have before := issued_of_live mem
        rw [same] at before
        exact absurd before (List.nodup_cons.mp distinct).1
    · rintro rfl
      exact ⟨List.mem_cons_self, rfl⟩
  | cons y newer ih =>
    rw [List.cons_append] at distinct ⊢
    by_cases concerned : y.registers key.store = true
    · obtain ⟨id, n, type, rfl⟩ | ⟨id, n, rfl⟩ := registers_iff.mp concerned
      · -- a later creation has another id
        rw [registry, if_pos rfl] at distinct ⊢
        obtain ⟨new, distinct⟩ := List.nodup_cons.mp distinct
        have other : id ≠ key.id := fun same => new (same ▸ mem_issued_append)
        have since : Destroyed key (.notice (.itemCreated key.store id n type) :: newer) ↔
            Destroyed key newer := by simp [destroyed_cons]
        rw [since, ← ih distinct]
        constructor
        · rintro ⟨mem, same⟩
          rcases List.mem_cons.mp mem with rfl | mem
          · exact absurd same other
          · exact ⟨mem, same⟩
        · rintro ⟨mem, same⟩
          exact ⟨List.mem_cons_of_mem _ mem, same⟩
      · rw [registry, if_pos rfl] at distinct ⊢
        have since : Destroyed key (.notice (.itemDestroyed key.store id n) :: newer) ↔
            id = key.id ∨ Destroyed key newer := by simp [destroyed_cons]
        rw [since, not_or, and_assoc, ← ih distinct, Registry.destroy, List.mem_filter]
        constructor
        · rintro ⟨⟨mem, kept⟩, same⟩
          exact ⟨fun gone => of_decide_eq_true kept (same.trans gone.symm), mem, same⟩
        · rintro ⟨kept, mem, same⟩
          exact ⟨⟨mem, decide_eq_true fun gone => kept (gone.symm.trans same)⟩, same⟩
    · have since : Destroyed key (y :: newer) ↔ Destroyed key newer := by
        rw [destroyed_cons]
        refine or_iff_right ?_
        rintro ⟨n, rfl⟩
        exact concerned (registers_iff.mpr (.inr ⟨_, _, rfl⟩))
      rw [registry_cons (Bool.not_eq_true _ ▸ concerned)] at distinct ⊢
      rw [ih distinct, since]

/-- What is live was created. -/
theorem issue_of_live {s : StoreId} {h : List Happening} {e : Entry}
    (live : e ∈ (registry s h).live) : Key.issue ⟨s, e.id, e.type⟩ e.name ∈ h := by
  induction h with
  | nil => cases live
  | cons y h ih =>
    by_cases concerned : y.registers s = true
    · obtain ⟨id, n, type, rfl⟩ | ⟨id, n, rfl⟩ := registers_iff.mp concerned
      · rw [registry, if_pos rfl] at live
        rcases List.mem_cons.mp live with rfl | live
        · exact List.mem_cons_self
        · exact List.mem_cons_of_mem _ (ih live)
      · rw [registry, if_pos rfl] at live
        exact List.mem_cons_of_mem _ (ih (List.mem_filter.mp live).1)
    · rw [registry_cons (Bool.not_eq_true _ ▸ concerned)] at live
      exact List.mem_cons_of_mem _ (ih live)

end History

namespace World

variable {w : World} {s : Nat} {key : Key} {name : String} {newer older : List Happening}

/-- How a store answers a key that it issued for an item called `name`, given what happened since.
The item has the key's type, so whoever takes it for an item of that type is right. -/
structure Resolves (w : World) (s : Nat) (key : Key) (name : String) (newer : List Happening) :
    Prop where
  stale : Destroyed key newer → (w.store s).arena.get? key.id = none ∧
    w.locate s key = .error (.staleItem key.id) ∧
      Engine.destroy s key w = (.done (.error (.staleItem key.id)), w)
  item : ¬ Destroyed key newer → ∃ i, (w.store s).arena.get? key.id = some i ∧
    w.locate s key = .ok i ∧
      (w.item i).descriptor = ⟨key.store, key.id, name, key.type⟩ ∧ (w.item i).state = .live ∧
        (∀ j < w.items.next, (w.item j).descriptor.store = key.store →
          (w.item j).descriptor.id = key.id → j = i) ∧
            ∃ v, Engine.destroy s key w = (.done (.ok ()), v)

theorem Tidy.resolves (tidy : w.Tidy s) (sound : w.Sound) (id : (w.store s).id = .drawn s)
    (few : (registry (.drawn s) w.history).issued.length < UInt32.size)
    (own : key.store = .drawn s) (history : w.history = newer ++ key.issue name :: older) :
    w.Resolves s key name newer := by
  have mine : key.store = (w.store s).id := own.trans id.symm
  have since (e : Entry) : e ∈ (registry (.drawn s) w.history).live ∧ e.id = key.id ↔
      ¬ Destroyed key newer ∧ e = key.entry name := by
    have distinct := tidy.issues.distinct (Nat.le_of_lt few)
    rw [history, ← own] at distinct ⊢
    exact live_since distinct e
  constructor
  · intro destroyed
    have unlisted : ¬ (registry (.drawn s) w.history).Lists key.id := by
      rintro ⟨e, live, same⟩
      exact ((since e).mp ⟨live, same⟩).1 destroyed
    have vacant : (w.store s).arena.get? key.id = none := by
      have none := mt (tidy.contains key.id).mp unlisted
      exact Option.not_isSome_iff_eq_none.mp none
    refine ⟨vacant, ?_, tidy.stale mine unlisted⟩
    simp [locate, mine, vacant]
  · intro undestroyed
    obtain ⟨live, -⟩ := (since (key.entry name)).mpr ⟨undestroyed, rfl⟩
    obtain ⟨i, filed, entry⟩ := (tidy.listed _).mp live
    have same : (w.item i).descriptor.id = key.id := congrArg Entry.id entry
    have called : (w.item i).descriptor.name = name := congrArg Entry.name entry
    have type : (w.item i).descriptor.type = key.type := congrArg Entry.type entry
    have slot := tidy.slot filed
    rw [same] at slot
    have owns := sound.arenas filed
    have only : ∀ j < w.items.next, (w.item j).descriptor.store = key.store →
        (w.item j).descriptor.id = key.id → j = i := by
      intro j made ofStore ofId
      have mineToo : w.Owns s j := ⟨made, ofStore.trans own⟩
      by_cases gone : (w.item j).state = .destroyed
      · obtain ⟨-, none⟩ := tidy.gone mineToo gone (Nat.le_of_lt few)
        exact absurd ofId.symm (none _ live)
      · exact tidy.eq_of_id (tidy.retained ⟨mineToo, gone⟩) filed (ofId.trans same.symm)
    obtain ⟨_, _, -, destroyed, -⟩ := tidy.destroy id mine ⟨_, live, rfl⟩
    refine ⟨i, slot, ?_, ?_, tidy.live filed, only, _, destroyed⟩
    · simp [locate, mine, slot, type]
    · have store : (w.item i).descriptor.store = key.store := owns.2.trans own.symm
      rw [← store, ← same, ← called, ← type]

end World

namespace Engine

variable {call : Nat → Engine Unit} {s : Nat} {w v : World}

/-- A destruction that is refused changes nothing. -/
theorem destroy_error {key : Key} {fault : Fault}
    (refused : destroy s key w = (.done (.error fault), v)) : v = w := by
  rw [destroy_apply] at refused
  split at refused
  · cases refused
    rfl
  · split at refused
    · cases refused
      rfl
    · cases refused

variable {name : String} {type : ValueType} {convert : Engine Value}
  {factory : Descriptor → Engine (List Nat)} {id : ItemId}

/-- An item that was built is noticed when it is in its slot. -/
theorem buildIn_issue (built : buildIn call s id name type convert factory w = (.done (), v)) :
    Key.issue ⟨(w.store s).id, id, type⟩ name ∈ v.history := by
  replace built : (factory ⟨(w.store s).id, id, name, type⟩ >>= fun chain => _) w = _ := built
  -- up to the notice, every step is only known to have come to its end
  obtain ⟨chain, _, -, built⟩ := done_of_bind built
  obtain ⟨value, _, -, built⟩ := done_of_bind built
  obtain ⟨item, _, -, built⟩ := done_of_bind built
  obtain ⟨_, _, -, built⟩ := done_of_bind built
  obtain ⟨value, _, -, built⟩ := done_of_bind built
  obtain ⟨_, _, -, built⟩ := done_of_bind built
  obtain ⟨_, _, -, built⟩ := done_of_bind built
  obtain ⟨_, _, -, built⟩ := done_of_bind built
  obtain ⟨_, u, noticed, named⟩ := done_of_bind built
  cases noticed
  cases named
  exact List.mem_cons_self

theorem createFrom_issue
    (created : createFrom call s name type convert factory w = (.done (.ok id), v)) :
    Key.issue ⟨(w.store s).id, id, type⟩ name ∈ v.history := by
  rw [createFrom_apply] at created
  split at created
  · cases created
  · split at created
    · cases created
    · next id' arena _ =>
      obtain ⟨_, u, built, answered⟩ := done_of_bind created
      cases answered
      have issued := buildIn_issue built
      rwa [World.store_modifyStore, if_pos rfl] at issued

end Engine

namespace Scenario

open World

/-- Where nothing panicked, every key leads to what it was issued for or to the right fault: it is
foreign to all stores but one; there it is stale when its item was destroyed, and until then leads to
that item, whose type is the key's. A destruction that fails changes nothing at all.

Creations and `find?` hand out keys of creations that have been noticed. -/
theorem keys_resolve {halt : World → Bool} {depth : Nat} {steps : List Step} {w : World}
    (hw : reached halt depth {} steps = w) (hp : ¬ Panicked w.history) :
    (∀ s < w.stores.next, ∀ t < w.stores.next, (w.store s).id = (w.store t).id → s = t) ∧
    (∀ s < w.stores.next, ∀ key, key.store ≠ (w.store s).id →
      w.locate s key = .error (.foreignItem key.id key.store (w.store s).id) ∧
        Engine.destroy s key w =
          (.done (.error (.foreignItem key.id key.store (w.store s).id)), w)) ∧
    (∀ s < w.stores.next, (w.store s).dropped = false → (w.store s).owned = false →
      (registry (w.store s).id w.history).issued.length < UInt32.size →
        (∀ type name key, w.find? s type name = some key → key.store = (w.store s).id ∧
          key.type = type ∧ key.issue name ∈ w.history) ∧
        ∀ key name newer older, key.store = (w.store s).id →
          w.history = newer ++ key.issue name :: older → w.Resolves s key name newer) ∧
    (∀ call s name type convert factory id u v,
      Engine.createFrom call s name type convert factory u = (.done (.ok id), v) →
        Key.issue ⟨(u.store s).id, id, type⟩ name ∈ v.history) ∧
    ∀ s key fault u v, Engine.destroy s key u = (.done (.error fault), v) → v = u := by
  subst hw
  have hinv := reached_estates halt depth steps
  generalize reached halt depth {} steps = w at *
  refine ⟨?_, ?_, ?_, ?_, ?_⟩
  · intro s hs t ht same
    rw [hinv.1.ids hs, hinv.1.ids ht] at same
    exact StoreId.drawn.inj same
  · intro s _ key foreign
    exact ⟨by simp [locate, foreign], by rw [Engine.destroy_apply, if_pos foreign]⟩
  · intro s hs present unowned few
    have tidy := ((hinv.2 hp).stores hs).tidy present unowned
    have id := hinv.1.ids hs
    refine ⟨?_, ?_⟩
    · intro type name key found
      obtain ⟨e, live, called, typed, rfl⟩ := (tidy.found type name key).mp found
      refine ⟨rfl, rfl, ?_⟩
      rw [id, ← called, ← typed]
      exact issue_of_live live
    · intro key name newer older own history
      rw [id] at few
      exact tidy.resolves hinv.1 id few (own.trans id) history
  · intro call s name type convert factory id u v created
    exact Engine.createFrom_issue created
  · intro s key fault u v refused
    exact Engine.destroy_error refused

/-- An item is destroyed, and the next one gets its slot and its name; there is another store. -/
def reused : List Step :=
  [.store "s" .standard,
    .store "t" .standard,
    .create "s" "k" "n" .int64 (.int 0) none .none,
    .destroy "k" none,
    .create "s" "l" "n" .int64 (.int 1) none .none]

def firstKey : Key := ⟨.drawn 0, ⟨0, 0⟩, .int64⟩

def secondKey : Key := ⟨.drawn 0, ⟨0, 1⟩, .int64⟩

theorem reused_keys_resolve :
    let w := reached (fun _ => false) maxDepth {} reused
    (¬ Panicked w.history ∧ (w.store 0).dropped = false ∧ (w.store 0).owned = false ∧
      (registry (w.store 0).id w.history).issued.length < UInt32.size) ∧
    w.locate 0 firstKey = .error (.staleItem ⟨0, 0⟩) ∧
    (∃ i, w.locate 0 secondKey = .ok i ∧
      (w.item i).descriptor = ⟨.drawn 0, ⟨0, 1⟩, "n", .int64⟩) ∧
    w.locate 1 secondKey = .error (.foreignItem ⟨0, 1⟩ (.drawn 0) (.drawn 1)) := by
  intro w
  have calm : ¬ Panicked w.history := by decide +kernel
  have present : (w.store 0).dropped = false := by decide +kernel
  have unowned : (w.store 0).owned = false := by decide +kernel
  have few : (registry (w.store 0).id w.history).issued.length < UInt32.size := by decide +kernel
  obtain ⟨-, foreign, resolve, -⟩ := keys_resolve (w := w) rfl calm
  obtain ⟨-, resolves⟩ := resolve 0 (by decide +kernel) present unowned few
  have first : ∃ newer older, w.history = newer ++ firstKey.issue "n" :: older ∧
      .notice (.itemDestroyed (.drawn 0) ⟨0, 0⟩ "n") ∈ newer := by
    let n := w.history.idxOf (firstKey.issue "n")
    exact ⟨w.history.take n, w.history.drop (n + 1), by decide +kernel, by decide +kernel⟩
  have second : ∃ newer older, w.history = newer ++ secondKey.issue "n" :: older ∧
      ∀ y ∈ newer, y.registers (.drawn 0) = false := by
    let n := w.history.idxOf (secondKey.issue "n")
    exact ⟨w.history.take n, w.history.drop (n + 1), by decide +kernel, by decide +kernel⟩
  obtain ⟨newer, older, history, destroyed⟩ := first
  obtain ⟨newer', older', history', quiet⟩ := second
  have undestroyed : ¬ Destroyed secondKey newer' := by
    rintro ⟨name, mem⟩
    have other : decide (StoreId.drawn 0 = .drawn 0) = false := quiet _ mem
    exact absurd other (by decide)
  have own : secondKey.store = (w.store 0).id := by decide +kernel
  have stale := (resolves firstKey "n" newer older own history).stale ⟨"n", destroyed⟩
  obtain ⟨i, -, located, descriptor, -⟩ :=
    (resolves secondKey "n" newer' older' own history').item undestroyed
  have elsewhere := foreign 1 (by decide +kernel) secondKey (by decide +kernel)
  refine ⟨⟨calm, present, unowned, few⟩, stale.2.1, ⟨i, located, descriptor⟩, ?_⟩
  rw [elsewhere.1]
  decide +kernel

end Scenario

end GuardedStore
