import GuardedStore.Proofs.Rounds.Runs
import GuardedStore.Proofs.Run.Moments

/-!
Every step keeps the dockets of all domains, so they are in order when a run has come to rest.
-/
namespace GuardedStore

variable {d : Nat} {strict : Prop}

namespace Engine

variable {call : Nat → Engine Unit} (hc : ∀ r, (call r).Keeps (docket d strict)) {w : World}

include hc

theorem storeValue_docket (item : Nat) (a : Access) :
    (storeValue call item a).Keeps (docket d strict) := by
  intro w
  have hstored : (do
      modify (World.modifyItem item fun i => i.store a.value)
      record (.stored item a) : Engine Unit).KeepsAt (docket d strict) w := by
    refine keepsAt_of_eq rfl fun hw => World.OffDocket.holds (World.offDocket_of_same
      { World.grows_storing item a.value with history := ⟨[.stored item a], rfl⟩ } ?_ rfl
      ⟨[.stored item a], by simp [Happening.ofDomain], rfl⟩) hw
    have hs := World.sound_storing item a.value hw.1
    exact { hs with names := hs.names.mono (Nat.le_refl _) (Nat.le_refl _) (Nat.le_refl _) }
  have hrest : (do
      let i := (← get).item item
      notice (.writeStored i.descriptor i.writes)
      let _ ← trigger call (.item item) i.affinity ⟨i.source, i.writes⟩ : Engine Unit).Keeps
        (docket d strict) := by
    refine keeps_get_bind fun v => ?_
    refine KeepsAt.bind (m := notice _)
      (keepsAt_modify fun hv => (World.offDocket_mark rfl hv.1).holds hv) fun _ x hx hvx => ?_
    refine (trigger_docket hc _ (fun r hr => ?_) _).bind fun _ y _ _ => keeps_pure () y
    cases hx
    exact hvx.1.1.itemAffinities hr
  exact (hstored.bind fun _ v _ _ => hrest v).congr rfl

theorem write_docket (item : Nat) (value : Value) :
    (write call item value).Keeps (docket d strict) :=
  fun _ => write_keepsAt (docket_plain d strict) hc value fun _ v _ _ =>
    storeValue_docket hc item _ v

theorem triggerStore_docket {s : Nat} :
    (triggerStore call s).KeepsAt (docket d strict) w := by
  have hf (f : Store → Store) (h : ∀ x, World.SameHouse x (f x)) :
      (modify (World.modifyStore s f)).Keeps (docket d strict) := fun w =>
    signalling_keepsAt (docket_handing d strict).toSignalling
      (w.signalling_modifyStore trivial h)
  refine (hf _ (fun _ => ?_) w).bind fun _ v _ h =>
    keepsAt_get_bind (KeepsAt.ensure ?_ fun _ u _ _ _ => hf _ (fun _ => ?_) u)
  · exact ⟨rfl, rfl, rfl, rfl, rfl, rfl, rfl, rfl⟩
  · exact trigger_docket hc _ (fun r hr => h.1.1.storeAffinities hr) _
  · exact ⟨rfl, rfl, rfl, rfl, rfl, rfl, rfl, rfl⟩

end Engine

/-- The law of the docket admits the operations of the engine. -/
theorem docket_admits {call : Nat → Engine Unit} (hc : ∀ r, (call r).Keeps (docket d True)) :
    Engine.Admits call (docket d True) fun w i => i < w.items.next where
  toBasics := docket_basics d True
  newDomain hm w hw := ((World.offDocket_withDomain hm hw).holds hw :)
  clear r w hw := ((w.quiet_sameTable r Domain.sameTable_clear).offDocket hw.1
    (World.books_modifyDomain Domain.books_clear _) ⟨[], by simp, rfl⟩).holds hw
  runPending {w r} hk hd := by
    by_cases hr : r = d
    · subst hr
      exact Engine.runPending_docket hc hd hk
    · exact Engine.runPending_other hc hr w
  trigger event hd := Engine.trigger_docket hc _ hd event
  subscribe {w domain} source x _ :=
    Engine.keepsAt_modify_bind
      (fun hw => (World.offDocket_mark rfl hw.1).holds hw) fun _ =>
      Engine.keepsAt_of_eq (Engine.subscribe_apply ..) fun hv =>
        ((World.quiet_subscribing _ domain source (x := .dependent x) (by simp)).offDocket hv.1
          (World.books_subscribing _ domain source _ d) ⟨[], by simp, by cases domain <;> rfl⟩).holds hv
  unsubscribe {w domain} source _ :=
    Engine.keepsAt_modify_bind
      (fun hw => (World.offDocket_mark rfl hw.1).holds hw) fun _ =>
      Engine.keepsAt_of_eq (Engine.unsubscribe_apply ..) fun hv =>
        ((World.quiet_unsubscribing _ domain source).offDocket hv.1
          (World.books_unsubscribing _ domain source d) ⟨[], by simp, by cases domain <;> rfl⟩).holds hv
  prompt event _ :=
    Engine.prompt_keeps (docket_handing d True).toSignalling hc trivial event _
  onExecute hook _ := Engine.onExecute_keeps (docket_handing d True).toSignalling trivial hook _
  executeStore _ _ := Engine.executeStore_keeps (docket_handing d True).toSignalling hc trivial _
  triggerStore _ := Engine.triggerStore_docket hc
  setAffinity {w s affinity} hs _ ha := fun hw =>
    Engine.setAffinity_keepsAt (docket_storekeeping d True).heeding trivial (hw.1.named hs) ha hw
  newStore := Performing.newStore_keeps (docket_storekeeping d True) (docket_renames d True)
  dropStore := Performing.dropStore_keeps (docket_storekeeping d True) (docket_renames d True)
  sharing hs _ hm hw :=
    Performing.shared_keepsAt (docket_storekeeping d True).toTending trivial (hw.1.named hs) hm hw
  usable {w s i} hw _ _ hi := ((World.quiet_share s w).sound hw.1 |>.arenas hi).1
  still_usable hi _ hw := Nat.lt_of_lt_of_le hi hw.2.1.items
  write v _ _ := Engine.write_docket hc _ v _
  read _ := Engine.readWithin_keeps (docket_plain d True) hc
    (fun _ _ _ _ => Engine.keepsAt_modify fun hw => (World.offDocket_mark rfl hw.1).holds hw) _ _ _
  create := Performing.create_keeps (docket_storekeeping d True) (docket_basics d True)
    fun v _ => Engine.write_docket hc _ v _
  destroy := Performing.destroy_keeps (docket_storekeeping d True)
  enter := Performing.enter_plain (docket_plain d True) hc
  exit := Performing.exit_plain (docket_plain d True) hc
  chainWait := Performing.chainWait_plain (docket_plain d True) hc fun muted =>
    Engine.bookkeeping_keeps (docket_handing d True).toSignalling fun w =>
      ⟨w.modelDepth, w.triggerDepth, muted, rfl⟩
  ask _ _ _ _ := Engine.visit_ask_keeps (docket_plain d True) hc _ _ _ _
  tell _ _ _ _ _ := Engine.visit_tell_keeps (docket_plain d True) hc _ _ _ _ _

end GuardedStore
