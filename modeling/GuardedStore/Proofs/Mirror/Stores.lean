import GuardedStore.Proofs.Mirror.Delivery
import GuardedStore.Scenario.Naming

/-!
Stores and what is in them, with and without guards.

An item is made with a chain of its own, or without one. What becomes of it then, and of its store,
does not depend on its chain.
-/
namespace GuardedStore

namespace Engine

open World

variable {call : Nat → Engine Unit} {w : World}

theorem blind_newStore (s : Store) : (newStore s).Blind :=
  fun w hw => ⟨_, _, { w with stores := w.stores.push s }, rfl, rfl, .done rfl, hw.of_same rfl⟩

theorem blind_newDependent (d : Dependent) : (newDependent d).Blind :=
  fun w hw => ⟨_, _, { w with dependents := w.dependents.push d }, rfl, rfl, .done rfl, hw.of_same rfl⟩

theorem blind_newDomain {d : Domain} (hd : d.kind ≠ .immediate) : (newDomain d).Blind := by
  refine fun w hw => ⟨_, _, { w with domains := w.domains.push d }, rfl, rfl, .done rfl, ?_⟩
  exact { hw with
    domains := fun r => by
      show ((w.domains.push d).get r).kind ≠ _
      rw [Heap.get_push]
      split
      · exact hd
      · exact hw.domains r }

/-- A script that is handed out, and the bare script. -/
theorem newRoutine_mirrors {f : Script} (hf : ∀ n, ∀ s ∈ f n, s.Ordinary) :
    (newRoutine f).Mirrors Eq (newRoutine f.bare) := by
  refine fun w hw => ⟨_, _, { w with routines := w.routines.push ⟨f, 0⟩ }, rfl, ?_, .done rfl, ?_⟩
  · unfold newRoutine World.bare
    rw [Heap.map_push]
    rfl
  · exact { hw with
      scripts := fun r => by
        show ∀ n, ∀ s ∈ ((w.routines.push ⟨f, 0⟩).get r).script n, _
        rw [Heap.get_push]
        split
        · exact hf
        · exact hw.scripts r }

/-- An item with a chain of its own, and one without a chain. -/
theorem newItem_mirrors {i : Item} (hi : i.chain.Nodup) :
    (newItem i).Mirrors Eq (newItem i.bare) := by
  refine fun w hw => ⟨_, _, ({ w with items := w.items.push i } : World).mark (.made w.items.next i),
    rfl, ?_, .done rfl, ?_⟩
  · simp only [newItem, World.bare, World.mark, Heap.map_push]
    rfl
  · have hv : ({ w with items := w.items.push i } : World).Tame :=
      { hw with
        chains := fun r => by
          show ((w.items.push i).get r).chain.Nodup
          rw [Heap.get_push]
          split
          · exact hi
          · exact hw.chains r }
    exact { hv.mark rfl with free := hw.free }

/-- New aspects are free and stand at addresses of their own. -/
theorem newAspects_unseen {as : List (Aspect Nat)} (ha : ∀ a ∈ as, a.HeldBy none) : ∀ {w : World},
    w.Resting → ∃ v, as.mapM newAspect w = (.done (List.range' w.aspects.next as.length), v) ∧
      w.Unseen v ∧ v.Resting := by
  induction as with
  | nil => exact fun {w} hw => ⟨w, rfl, .refl w, hw⟩
  | cons a as ih =>
    intro w hw
    let u : World := { w with aspects := w.aspects.push a }
    have hu : u.Resting :=
      { hw with
        free := fun r => by
          show ((w.aspects.push a).get r).HeldBy none
          rw [Heap.get_push]
          split
          · exact ha a List.mem_cons_self
          · exact hw.free r }
    obtain ⟨v, hv, huv, hr⟩ := ih (fun b hb => ha b (List.mem_cons_of_mem a hb)) hu
    have hwu : w.Unseen u := ⟨_, [], by simp, rfl⟩
    have hn : newAspect a w = (.done w.aspects.next, u) := rfl
    refine ⟨v, ?_, hwu.trans huv, hr⟩
    rw [List.mapM_cons]
    exact (bind_of_done hn).trans (bind_of_done hv)

/-- A factory that gives each item a chain of its own, and one that gives none. -/
def Supplies (factory factory' : Descriptor → Engine (List Nat)) : Prop :=
  ∀ d, (factory d).Mirrors (fun chain chain' => chain.Nodup ∧ chain' = []) (factory' d)

theorem supplies_configured (c : AspectConfig) :
    Supplies (fun _ => Performing.configured c) fun _ => pure [] := by
  intro d w hw
  have ha : ∀ a ∈ (c.aspects : List (Aspect Nat)), a.HeldBy none := by
    intro a ha
    unfold AspectConfig.aspects at ha
    split at ha <;> split at ha <;> simp at ha
    · rcases ha with rfl | rfl <;> simp [Aspect.HeldBy]
    · subst ha; trivial
    · subst ha; rfl
  obtain ⟨v, hv, hu, hr⟩ := newAspects_unseen ha hw
  exact ⟨_, .done [], v, hv, by rw [hu.bare]; rfl, .done ⟨List.nodup_range', rfl⟩, hr⟩

theorem supplies_none : Supplies (fun _ => pure []) fun _ => pure [] :=
  fun _ => mirrorsAt_pure ⟨List.nodup_nil, rfl⟩

theorem buildIn_mirrors {factory factory' : Descriptor → Engine (List Nat)}
    (hf : Supplies factory factory') (store : Nat) (id : ItemId) (name : String) (type : ValueType)
    {convert : Engine Value} (hconvert : convert.Blind) :
    (buildIn call store id name type convert factory).Mirrors Eq
      (buildIn call store id name type convert factory') := by
  intro w
  refine mirrorsAt_get_bind (MirrorsAt.bind (hf _ w) ?_)
  rintro chain _ v ⟨hn, rfl⟩
  refine (hconvert v).mirrors_bind fun value u => ?_
  refine MirrorsAt.bind (newItem_mirrors hn u) ?_
  rintro item _ u rfl
  refine BlindAt.bind (blind_subscribe _ _ _ u) fun _ => hconvert.bind fun value =>
    (blind_write item value).bind fun _ => ?_
  refine Blind.bind ?_ fun _ => (blind_modifyStore _ _).bind fun _ => (blind_record (by rfl)).bind fun _ =>
    blind_modifyStore _ _
  exact (steady_modifyItem fun _ => ⟨by rfl, by rfl⟩).blind

theorem create_mirrors {factory factory' : Descriptor → Engine (List Nat)}
    (hf : Supplies factory factory') (store : Nat) (name : String) (value : Value) :
    (create call store name value factory).Mirrors Eq (create call store name value factory') := by
  intro w
  refine mirrorsAt_get_bind ?_
  show MirrorsAt (if (w.store store).names.contains name then _ else _) Eq
    (if (w.store store).names.contains name then _ else _) w
  by_cases hn : (w.store store).names.contains name
  · rw [if_pos hn, if_pos hn]
    exact blind_pure _ w
  rw [if_neg hn, if_neg hn, store_bare]
  cases (w.store store).arena.reserve? with
  | none => exact blind_pure _ w
  | some r =>
    refine BlindAt.mirrors_bind (blind_modifyStore _ _ w) fun _ v => ?_
    refine MirrorsAt.bind (buildIn_mirrors hf store r.1 name value.type (blind_pure value) v) ?_
    rintro _ _ u -
    exact blind_pure _ u

theorem blind_release (store item : Nat) : (release store item).Blind := by
  refine fun w => blindAt_get_bind ?_ ?_
  · rw [item_bare]
    rfl
  refine (blind_unsubscribe _ _).bind (fun _ => ?_) w
  have hd : (do
      modify (World.modifyItem item fun i => { i with state := .destroyed })
      notice (.itemDestroyed (w.store store).id (w.item item).descriptor.id
        (w.item item).descriptor.name)).Blind :=
    (steady_modifyItem fun _ => ⟨by rfl, by rfl⟩).blind.bind fun _ => blind_record (by rfl)
  split
  · exact (blind_modifyStore _ _).bind fun _ => hd
  · exact hd

theorem blind_destroy (store : Nat) (key : Key) : (destroy store key).Blind := by
  refine fun w => blindAt_get_bind rfl ?_
  dsimp only
  split
  · exact blind_pure _ w
  split
  · exact blind_pure _ w
  · exact (blind_modifyStore _ _).bind (fun _ => (blind_release _ _).bind fun _ => blind_pure _) w

theorem blind_dropStore (store : Nat) : (dropStore store).Blind := by
  refine fun w => blindAt_get_bind rfl ?_
  exact (blind_modifyStore _ _).bind (fun _ => Blind.bind
    (blind_forM fun item _ => blind_release store item) fun _ => (blind_unsubscribe _ _).bind
      fun _ => (blind_modifyStore _ _).bind fun _ => blind_record (by rfl)) w

theorem blind_dropIfIdle (store : Nat) : (dropIfIdle store).Blind := by
  refine fun w => blindAt_get_bind rfl ?_
  dsimp only
  split
  · exact blind_dropStore store w
  · exact blind_pure () w

theorem blind_replace (store : Nat) : (replace store).Blind :=
  (blind_modifyStore _ _).bind fun _ => blind_dropIfIdle store

theorem blind_endSharing (store : Nat) : (endSharing store).Blind :=
  (blind_modifyStore _ _).bind fun _ => blind_dropIfIdle store

theorem blind_endOwning (store : Nat) : (endOwning store).Blind :=
  (blind_modifyStore _ _).bind fun _ => blind_dropIfIdle store

theorem blind_buildStore (config : StoreConfig) (affinity : Option Nat) :
    (buildStore config affinity).Blind := by
  unfold buildStore
  split
  · exact blind_pure _
  · refine fun w => blindAt_get_bind rfl ?_
    exact (blind_newStore _).bind (fun store => (blind_record (by rfl)).bind fun _ =>
      (blind_subscribe _ _ _).bind fun _ v => blindAt_get_bind rfl
        ((blind_record (by rfl)).bind (fun _ => blind_pure _) v)) w

theorem blind_bindItem (store : Nat) (affinity : Option Nat) (item : Nat) :
    (bindItem store affinity item).Blind := by
  refine (steady_modifyItem fun _ => ⟨by rfl, by rfl⟩).blind.bind fun _ w =>
    blindAt_get_bind ?_ (blind_subscribe _ _ _ w)
  rw [item_bare]
  rfl

theorem blind_setAffinity (store : Nat) (affinity : Option Nat) :
    (setAffinity store affinity).Blind := by
  refine fun w => blindAt_get_bind rfl ?_
  have hs : (do
      let s := w.store store
      if s.affinity = affinity then return
      let items := s.arena.toList
      unsubscribe s.affinity s.source
      items.forM fun item => do unsubscribe s.affinity ((← get).item item).source
      subscribe affinity s.source (.store store)
      items.forM (bindItem store affinity)
      let w ← get
      notice (.affinityChanged s.id (w.inspectAffinity s.affinity) (w.inspectAffinity affinity)
        s.arena.size)
      modify (World.modifyStore store fun s => { s with affinity })
      record (.bound store affinity) : Engine Unit).Blind := by
    dsimp only
    split
    · exact blind_pure ()
    refine (blind_unsubscribe _ _).bind fun _ => Blind.bind (blind_forM fun item _ v => ?_) fun _ =>
      (blind_subscribe _ _ _).bind fun _ => Blind.bind
        (blind_forM fun item _ => blind_bindItem store affinity item) fun _ v => ?_
    · refine blindAt_get_bind ?_ (blind_unsubscribe _ _ v)
      rw [item_bare]
      rfl
    · exact blindAt_get_bind rfl <| (blind_record (by rfl)).bind (fun _ => (blind_modifyStore _ _).bind
        fun _ => blind_record (by rfl)) v
  dsimp only
  split
  · exact blind_wait.bind (fun _ => hs) w
  · exact hs w

theorem blind_triggerStore (store : Nat) : (triggerStore call store).Blind := by
  refine (blind_modifyStore _ _).bind fun _ w => blindAt_get_bind rfl ?_
  exact ((steady_trigger _ _ _).blind w).ensure (blind_modifyStore _ _)

theorem blind_onExecute (store : Nat) (hook : ModelHook) : (onExecute store hook).Blind := by
  have hr : (do
      modify (World.modifySignal store fun s => { s with hooks := s.hooks ++ [hook] })
      record (.registered store hook) : Engine Unit).Blind :=
    (blind_modifySignal _ _).bind fun _ => blind_record (by rfl)
  refine fun w => blindAt_get_bind rfl ?_
  split
  · exact blind_wait.bind (fun _ => hr) w
  · exact hr w

end Engine

end GuardedStore
