import GuardedStore.Proofs.Tape.Accesses

/-!
Stores on tape.

Building, binding and dropping stores and making items in them are the same on tape: a recorder is
subscribed to whatever the cooperative domain is subscribed to.
-/
namespace GuardedStore.Engine

open World

variable {call : Nat → Engine Unit}

theorem indifferent_release (store item : Nat) : (release store item).Indifferent := by
  refine indifferent_get_bind (fun _ => rfl) fun w => (indifferent_unsubscribe _ _).bind fun _ => ?_
  have hd : (do
      modify (World.modifyItem item fun i => { i with state := .destroyed })
      notice (.itemDestroyed (w.store store).id (w.item item).descriptor.id
        (w.item item).descriptor.name)).Indifferent :=
    (indifferent_modifyItem _ _).bind fun _ => indifferent_record (by rfl)
  split
  · exact (indifferent_modifyStore _ _).bind fun _ => hd
  · exact hd

theorem indifferent_destroy (store : Nat) (key : Key) : (destroy store key).Indifferent := by
  refine indifferent_get_bind (fun _ => rfl) fun w => ?_
  dsimp only
  split
  · exact indifferent_pure _
  split
  · exact indifferent_pure _
  · exact (indifferent_modifyStore _ _).bind fun _ => (indifferent_release _ _).bind fun _ =>
      indifferent_pure _

theorem indifferent_dropStore (store : Nat) : (dropStore store).Indifferent :=
  indifferent_get_bind (fun _ => by rfl) fun _ => (indifferent_modifyStore _ _).bind fun _ =>
    (indifferent_forM (indifferent_release store) _).bind fun _ =>
      (indifferent_unsubscribe _ _).bind fun _ => (indifferent_modifyStore _ _).bind fun _ =>
        indifferent_record (by rfl)

theorem indifferent_dropIfIdle (store : Nat) : (dropIfIdle store).Indifferent := by
  refine indifferent_get_bind (fun _ => rfl) fun w => ?_
  dsimp only
  split
  · exact indifferent_dropStore store
  · exact indifferent_pure ()

theorem indifferent_replace (store : Nat) : (replace store).Indifferent :=
  (indifferent_modifyStore _ _).bind fun _ => indifferent_dropIfIdle store

theorem indifferent_endSharing (store : Nat) : (endSharing store).Indifferent :=
  (indifferent_modifyStore _ _).bind fun _ => indifferent_dropIfIdle store

theorem indifferent_endOwning (store : Nat) : (endOwning store).Indifferent :=
  (indifferent_modifyStore _ _).bind fun _ => indifferent_dropIfIdle store

theorem indifferent_buildStore (config : StoreConfig) (affinity : Option Nat) :
    (buildStore config affinity).Indifferent := by
  unfold buildStore
  split
  · exact indifferent_pure _
  · exact indifferent_get_bind (fun _ => rfl) fun _ => (indifferent_newStore _).bind fun _ =>
      (indifferent_record (by rfl)).bind fun _ => (indifferent_subscribe _ _ _).bind fun _ =>
        indifferent_get_bind (fun w => by rw [w.inspectAffinity_taped]) fun _ =>
          (indifferent_record (by rfl)).bind fun _ => indifferent_pure _

theorem indifferent_bindItem (store : Nat) (affinity : Option Nat) (item : Nat) :
    (bindItem store affinity item).Indifferent :=
  (indifferent_modifyItem _ _).bind fun _ => indifferent_get_bind (fun _ => by rfl) fun _ =>
    indifferent_subscribe _ _ _

theorem indifferent_setAffinity (store : Nat) (affinity : Option Nat) :
    (setAffinity store affinity).Indifferent := by
  refine indifferent_get_bind (fun _ => rfl) fun w => ?_
  have rebind : (do
      let s := w.store store
      if s.affinity = affinity then return
      let items := s.arena.toList
      unsubscribe s.affinity s.source
      items.forM fun item => do unsubscribe s.affinity ((← get).item item).source
      subscribe affinity s.source (.store store)
      items.forM (bindItem store affinity)
      let w ← get
      notice (.affinityChanged s.id (w.inspectAffinity s.affinity) (w.inspectAffinity affinity)
        s.arena.size)
      modify (World.modifyStore store fun s => { s with affinity })
      record (.bound store affinity) : Engine Unit).Indifferent := by
    dsimp only
    split
    · exact indifferent_pure ()
    refine (indifferent_unsubscribe _ _).bind fun _ => Indifferent.bind
      (indifferent_forM (fun item => ?_) _) fun _ => (indifferent_subscribe _ _ _).bind fun _ =>
        (indifferent_forM (indifferent_bindItem store affinity) _).bind fun _ => ?_
    · exact indifferent_get_bind (fun _ => rfl) fun _ => indifferent_unsubscribe _ _
    · refine indifferent_get_bind (fun w => ?_) fun _ => (indifferent_record (by rfl)).bind fun _ =>
        (indifferent_modifyStore _ _).bind fun _ => indifferent_record (by rfl)
      simp only [w.inspectAffinity_taped]
  dsimp only
  split
  · exact indifferent_wait.bind fun _ => rebind
  · exact rebind

theorem indifferent_onExecute (store : Nat) (hook : ModelHook) :
    (onExecute store hook).Indifferent := by
  have register : (do
      modify (World.modifySignal store fun s => { s with hooks := s.hooks ++ [hook] })
      record (.registered store hook) : Engine Unit).Indifferent :=
    (indifferent_modifySignal _ _).bind fun _ => indifferent_record (by rfl)
  refine indifferent_get_bind (fun _ => rfl) fun w => ?_
  split
  · exact indifferent_wait.bind fun _ => register
  · exact register

variable (hc : ∀ r, (call r).Indifferent)

include hc

theorem indifferent_triggerStore (store : Nat) : (triggerStore call store).Indifferent :=
  (indifferent_modifyStore _ _).bind fun _ => indifferent_get_bind (fun _ => by rfl) fun _ =>
    (indifferent_trigger hc _ _ _).ensure (indifferent_modifyStore _ _)

theorem indifferent_create {factory : Descriptor → Engine (List Nat)}
    (hf : ∀ d, (factory d).Indifferent) (store : Nat) (name : String) (value : Value) :
    (create call store name value factory).Indifferent := by
  have build (id : ItemId) : (createIn call store id name value factory).Indifferent :=
    indifferent_get_bind (fun _ => by rfl) fun _ => (hf _).bind fun _ =>
      (indifferent_pure value).bind fun _ => (indifferent_newItem _).bind fun item =>
        (indifferent_subscribe _ _ _).bind fun _ => (indifferent_pure value).bind fun value =>
          (indifferent_write hc item value).bind fun _ => (indifferent_modifyItem _ _).bind fun _ =>
            (indifferent_modifyStore _ _).bind fun _ => (indifferent_record (by rfl)).bind fun _ =>
              indifferent_modifyStore _ _
  refine indifferent_get_bind (fun _ => rfl) fun w => ?_
  dsimp only
  split
  · exact indifferent_pure _
  cases (w.store store).arena.reserve? with
  | none => exact indifferent_pure _
  | some r =>
    exact (indifferent_modifyStore _ _).bind fun _ => (build r.1).bind fun _ => indifferent_pure _

end GuardedStore.Engine
