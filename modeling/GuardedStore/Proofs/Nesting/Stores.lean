import GuardedStore.Proofs.Nesting.Accesses

/-!
Locks while stores are built, changed and dropped.

Binding a store needs its affinity, which a trigger of the store has taken while it is being raised;
registering a hook needs the list of hooks, which an execution has taken.
-/
namespace GuardedStore.Engine

variable {call : Nat → Engine Unit} {w : World}

theorem newStore_nests {s : Store} (hs : s.Free) : (newStore s).Keeps nesting := by
  intro w
  have he : newStore s w = (.done w.stores.next, w.withStore s) := rfl
  refine keepsAt_of_eq he fun _ => ⟨trivial, Nat.le_succ _, fun t => ?_⟩
  rw [World.store_withStore]
  split
  · next ht => exact .inr ⟨Nat.le_of_eq ht.symm, hs⟩
  · exact .inl rfl

theorem buildStore_nests (config : StoreConfig) (affinity : Option Nat) :
    (buildStore config affinity).Keeps nesting := by
  unfold buildStore
  split
  · exact keeps_pure _
  · refine keeps_get_bind fun w => (newStore_nests (by rfl)).bind (fun s => ?_) w
    refine (record_nests _).bind fun _ => (subscribe_nests affinity _ _).bind fun _ =>
      keeps_get_bind fun w => ?_
    exact (notice_nests _).bind (fun _ => keeps_pure _) w

theorem release_nests (store item : Nat) : (release store item).Keeps nesting := by
  refine keeps_get_bind fun w => (unsubscribe_nests _ _).bind (fun _ => ?_) w
  have hrest : (do
      modify (World.modifyItem item fun i => { i with state := .destroyed })
      notice (.itemDestroyed (w.store store).id (w.item item).descriptor.id
        (w.item item).descriptor.name)).Keeps nesting :=
    Keeps.bind (change_nests fun _ => rfl) fun _ => notice_nests _
  split
  · exact (modifyStore_nests store fun _ => by rfl).bind fun _ => hrest
  · exact hrest

theorem destroy_nests (store : Nat) (key : Key) : (destroy store key).Keeps nesting := by
  refine keeps_get_bind fun w => ?_
  dsimp only
  split
  · exact keeps_pure _ w
  · split
    · exact keeps_pure _ w
    · refine Keeps.bind (modifyStore_nests store fun _ => by rfl) (fun _ => ?_) w
      exact (release_nests store _).bind fun _ => keeps_pure _

theorem dropStore_nests (store : Nat) : (dropStore store).Keeps nesting := by
  refine keeps_get_bind fun w =>
    Keeps.bind (modifyStore_nests store fun _ => by rfl) (fun _ => ?_) w
  refine (keeps_forM fun item _ => release_nests store item).bind fun _ =>
    (unsubscribe_nests _ _).bind fun _ => ?_
  exact Keeps.bind (modifyStore_nests store fun _ => rfl) fun _ => notice_nests _

theorem dropIfIdle_nests (store : Nat) : (dropIfIdle store).Keeps nesting := by
  refine keeps_get_bind fun w => ?_
  dsimp only
  split
  · exact dropStore_nests store w
  · exact keeps_pure () w

theorem replace_nests (store : Nat) : (replace store).Keeps nesting :=
  Keeps.bind (modifyStore_nests store fun _ => rfl) fun _ => dropIfIdle_nests store

theorem endSharing_nests (store : Nat) : (endSharing store).Keeps nesting :=
  Keeps.bind (modifyStore_nests store fun _ => rfl) fun _ => dropIfIdle_nests store

theorem endOwning_nests (store : Nat) : (endOwning store).Keeps nesting :=
  Keeps.bind (modifyStore_nests store fun _ => rfl) fun _ => dropIfIdle_nests store

theorem bindItem_nests (store : Nat) (affinity : Option Nat) (item : Nat) :
    (bindItem store affinity item).Keeps nesting :=
  Keeps.bind (change_nests fun _ => rfl) fun _ =>
    keeps_get_bind fun w => subscribe_nests affinity _ _ w

/-- A store is bound if its affinity can be had. -/
theorem setAffinity_nests {store : Nat} (h : (w.store store).affinityReaders = 0)
    (affinity : Option Nat) : (setAffinity store affinity).KeepsAt nesting w := by
  refine keepsAt_get_bind ?_
  dsimp only
  rw [if_neg (by omega)]
  split
  · exact keeps_pure () w
  · refine Keeps.bind (unsubscribe_nests _ _) (fun _ => ?_) w
    have hun (item : Nat) : (do
        unsubscribe (w.store store).affinity ((← get).item item).source).Keeps nesting :=
      keeps_get_bind fun w => unsubscribe_nests _ _ w
    refine (keeps_forM fun item _ => hun item).bind fun _ =>
      (subscribe_nests affinity _ _).bind fun _ => ?_
    refine (keeps_forM fun item _ => bindItem_nests store affinity item).bind fun _ =>
      keeps_get_bind fun w => Keeps.bind (notice_nests _) (fun _ => ?_) w
    exact Keeps.bind (modifyStore_nests store fun _ => rfl) fun _ => record_nests _

/-- A hook is registered if the list of hooks can be had. -/
theorem onExecute_nests {store : Nat} (h : (w.store store).signal.running = false)
    (hook : ModelHook) : (onExecute store hook).KeepsAt nesting w := by
  refine keepsAt_get_bind ?_
  rw [if_neg (by simp [h])]
  exact Keeps.bind (modifySignal_nests store fun _ => by rfl) (fun _ => record_nests _) w

variable (hc : ∀ r, (call r).Keeps nesting)

include hc

theorem buildIn_nests (store : Nat) (id : ItemId) (name : String) (type : ValueType)
    {convert : Engine Value} (hconvert : convert.Keeps nesting)
    {factory : Descriptor → Engine (List Nat)} (hfactory : ∀ d, (factory d).Keeps nesting) :
    (buildIn call store id name type convert factory).Keeps nesting := by
  refine keeps_get_bind fun w => (hfactory _).bind (fun chain => hconvert.bind fun value => ?_) w
  have hitem (i : Item) : (newItem i).Keeps nesting := fun _ => aside_nests rfl nofun rfl
  refine (hitem _).bind fun item => (subscribe_nests _ _ _).bind fun _ =>
    hconvert.bind fun value => (write_nests hc item value).bind fun _ => ?_
  refine Keeps.bind (change_nests fun _ => rfl) fun _ =>
    Keeps.bind (modifyStore_nests store fun _ => rfl) fun _ => ?_
  exact (notice_nests _).bind fun _ => modifyStore_nests store fun _ => rfl

theorem create_nests (store : Nat) (name : String) (value : Value)
    {factory : Descriptor → Engine (List Nat)} (hfactory : ∀ d, (factory d).Keeps nesting) :
    (create call store name value factory).Keeps nesting := by
  refine keeps_get_bind fun w => ?_
  dsimp only
  split
  · exact keeps_pure _ w
  · split
    · exact keeps_pure _ w
    · refine Keeps.bind (modifyStore_nests store fun _ => by rfl) (fun _ => ?_) w
      exact (buildIn_nests hc store _ name _ (keeps_pure value) hfactory).bind fun _ =>
        keeps_pure _

end GuardedStore.Engine
