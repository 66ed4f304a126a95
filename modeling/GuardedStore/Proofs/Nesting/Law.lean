import GuardedStore.Proofs.Run.Admits

/-!
The locks that stores take while they call out.

A store lets nobody bind it to another domain while a trigger is being raised through its affinity,
and lets nobody near its hooks while it runs them. Whoever calls out with such a lock taken gives it
back when the call is over, so that calls from within one another leave the locks as they found
them. A call waits for ever where it needs a lock that a call around it has taken.
-/
namespace GuardedStore

/-- How many calls are raising a trigger through the affinity, and whether the hooks are being run.
-/
def Store.locks (s : Store) : Nat × Bool :=
  (s.affinityReaders, s.signal.running)

/-- Nobody has taken a lock of the store. -/
def Store.Free (s : Store) : Prop :=
  s.locks = (0, false)

namespace World

variable {u v w : World}

/-- A store is executed in the course of an execution of its own. -/
def Reenters (w : World) : Prop :=
  ∃ s triggers hooks older,
    w.history = .executing s triggers hooks :: older ∧ (w.store s).signal.running = true

/-- An aspect keeps whom it does not admit waiting without end. -/
def Bars (w : World) : Prop :=
  ∃ x l, w.aspect x = .lock l ∧ l.patience = .unlimited ∧ l.isLocked = true

/-- All locks are as they were, and those of stores made meanwhile are free. -/
structure Returns (w v : World) : Prop where
  stores : w.stores.next ≤ v.stores.next
  locks : ∀ s, (v.store s).locks = (w.store s).locks ∨ w.stores.next ≤ s ∧ (v.store s).Free

theorem returns_of_stores (h : v.stores = w.stores) : w.Returns v :=
  ⟨Nat.le_of_eq (by rw [h]), fun s => .inl (by rw [store, store, h])⟩

theorem Returns.refl (w : World) : w.Returns w :=
  returns_of_stores rfl

theorem Returns.trans (h : u.Returns v) (h' : v.Returns w) : u.Returns w := by
  refine ⟨Nat.le_trans h.stores h'.stores, fun s => ?_⟩
  rcases h'.locks s with hw | ⟨hs, hw⟩
  · rcases h.locks s with hv | ⟨hs, hv⟩
    · exact .inl (hw.trans hv)
    · exact .inr ⟨hs, hw.trans hv⟩
  · exact .inr ⟨Nat.le_trans h.stores hs, hw⟩

theorem returns_modifyStore {s : Nat} {f : Store → Store}
    (hf : (f (w.store s)).locks = (w.store s).locks) : w.Returns (w.modifyStore s f) := by
  refine ⟨Nat.le_refl _, fun t => .inl ?_⟩
  rw [store_modifyStore]
  split
  · next h => rw [hf, h]
  · rfl

/-- Hooks that were not being run are not being run. -/
theorem Returns.running (h : w.Returns v) {s : Nat} (hs : (w.store s).signal.running = false) :
    (v.store s).signal.running = false := by
  rcases h.locks s with hv | ⟨-, hv⟩
  · exact (congrArg Prod.snd hv).trans hs
  · exact congrArg Prod.snd hv

/-- Where all locks were free they are all free again. -/
theorem Returns.free (h : w.Returns v) (hw : ∀ s, (w.store s).Free) (s : Nat) : (v.store s).Free :=
  (h.locks s).elim (·.trans (hw s)) (·.2)

end World

/-- Locks are given back, and only a store that is executed by its own hooks, or an aspect, keeps
anybody waiting. -/
def nesting : Law where
  inv _ := True
  rel w e v :=
    match e with
    | .stuck => v.Reenters ∨ v.Bars
    | _ => w.Returns v
  refl {w} _ := .refl w
  trans {u v w d e} _ _ h hd h' := by
    have huv : u.Returns v := by cases d <;> first | exact h | exact absurd rfl hd
    cases d <;> cases e <;> first | exact huv.trans h' | exact h' | exact absurd rfl hd

namespace Engine

variable {α : Type} {w : World}

/-- What has nothing to do with stores, and does not wait. -/
theorem aside_nests {m : Engine α} {o : Outcome α} {v : World} (h : m w = (o, v))
    (ho : o.ending ≠ .stuck) (hv : v.stores = w.stores) : m.KeepsAt nesting w := by
  refine keepsAt_of_eq h fun _ => ⟨trivial, ?_⟩
  cases o with
  | done a => exact World.returns_of_stores hv
  | panicked text => exact World.returns_of_stores hv
  | stuck => exact absurd rfl ho

theorem change_nests {f : World → World} (hf : ∀ w, (f w).stores = w.stores) :
    (modify f).Keeps nesting :=
  fun w => aside_nests rfl nofun (hf w)

theorem record_nests (h : Happening) : (record h).Keeps nesting :=
  change_nests fun _ => rfl

theorem notice_nests (n : Notice) : (notice n).Keeps nesting :=
  record_nests _

theorem report_nests (h : Happening) : (report h).Keeps nesting := by
  intro w
  by_cases hm : w.muted
  · exact (keeps_pure () w).congr (if_pos hm)
  · exact (record_nests h w).congr (if_neg hm)

theorem panic_nests (text : String) : (panic text).Keeps nesting := by
  intro w
  by_cases hu : w.unwinding
  · exact (keeps_pure () w).congr (if_pos hu)
  · exact aside_nests (if_neg hu) nofun rfl

/-- A store is changed, but not in its locks. -/
theorem modifyStore_nests (s : Nat) {f : Store → Store} (hf : ∀ x, (f x).locks = x.locks) :
    (modify (World.modifyStore s f)).Keeps nesting :=
  fun _ => keepsAt_modify fun _ => ⟨trivial, World.returns_modifyStore (hf _)⟩

theorem modifySignal_nests (s : Nat) {f : Signal → Signal}
    (hf : ∀ x, (f x).running = x.running) :
    (modify (World.modifySignal s f)).Keeps nesting :=
  modifyStore_nests s fun x => by rw [Store.locks, hf, Store.locks]

/-- A lock of a store is taken, given back in the end, and held by whatever is called meanwhile. -/
theorem holding_nests {m : Engine α} (hm : m.Keeps nesting) (s : Nat) (take give : Store → Store)
    (hgive : ∀ x, x.locks = (take (w.store s)).locks → (give x).locks = (w.store s).locks)
    (hfree : ∀ x, x.Free → (give x).Free) :
    (modify (World.modifyStore s take) >>= fun _ =>
      ensure m (modify (World.modifyStore s give))).KeepsAt nesting w := by
  have hreturn {v : World} (hv : (w.modifyStore s take).Returns v) :
      w.Returns (v.modifyStore s give) := by
    refine ⟨hv.stores, fun t => ?_⟩
    have ht := hv.locks t
    rw [World.store_modifyStore] at ht ⊢
    by_cases hts : t = s
    · subst hts
      rw [if_pos rfl] at ht ⊢
      exact ht.imp (hgive _) fun h => ⟨h.1, hfree _ h.2⟩
    · rwa [if_neg hts] at ht ⊢
  have he := ensure_apply (m := m) (c := modify (World.modifyStore s give)) (fun _ => rfl)
    (w.modifyStore s take)
  have hv := hm (w.modifyStore s take) trivial
  rcases hr : m (w.modifyStore s take) with ⟨a | text | _, v⟩ <;> rw [hr] at he hv
  · exact keepsAt_of_eq he fun _ => ⟨trivial, hreturn hv.2⟩
  · exact keepsAt_of_eq he fun _ => ⟨trivial, hreturn hv.2⟩
  · exact keepsAt_of_eq he fun _ => hv

end Engine

end GuardedStore
