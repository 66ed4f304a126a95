import GuardedStore.Proofs.Custody.Stores
import GuardedStore.Proofs.Run.Moments

/-!
Every step keeps custody, so a store that was dropped is within reach only of the deliveries that
held it then.
-/
namespace GuardedStore

open World

variable {s : Nat} {w : World}

/-- The law of custody admits the operations of the engine. -/
theorem custody_admits {call : Nat → Engine Unit} (hc : ∀ r, (call r).Keeps (custody s True)) :
    Engine.Admits call (custody s True) fun w i => i < w.items.next where
  toBasics := custody_basics s True
  newDomain hm w hw := (spares_of_stores (grows_withDomain _) rfl rfl rfl ⟨[], by simp, rfl⟩).holds
    (sound_withDomain hm hw.1) hw
  clear _ := Engine.modifyDomain_custody Domain.sameTable_clear
  runPending _ _ := Engine.runPending_custody hc
  trigger event _ := Engine.trigger_custody hc _ _ event _
  subscribe {w domain} source x _ := (Engine.record_custody rfl rfl w).bind fun _ v _ _ =>
    Engine.keepsAt_of_eq (Engine.subscribe_apply ..) fun hv =>
      have hq := v.quiet_subscribing domain source (x := .dependent x) nofun
      (spares_of_stores hq.grows (by cases domain <;> rfl) (by cases domain <;> rfl) (by rw [hq.names])
        ⟨[], by simp, by cases domain <;> rfl⟩).holds (hq.sound hv.1) hv
  unsubscribe {w domain} source _ := (Engine.record_custody rfl rfl w).bind fun _ v _ _ =>
    Engine.keepsAt_of_eq (Engine.unsubscribe_apply ..) fun hv =>
      have hq := v.quiet_unsubscribing domain source
      (spares_of_stores hq.grows (by cases domain <;> rfl) (by cases domain <;> rfl) (by rw [hq.names])
        ⟨[], by simp, by cases domain <;> rfl⟩).holds (hq.sound hv.1) hv
  prompt event _ := Engine.prompt_custody hc _ event _
  onExecute hook _ := Engine.onExecute_custody _ hook _
  executeStore _ hu := Engine.executeStore_custody hc fun ht => .inr (ht ▸ hu)
  triggerStore _ := Engine.triggerStore_custody hc _ _
  setAffinity {w t affinity} hs _ ha := fun hw =>
    Engine.setAffinity_keepsAt (custody_housing s True).toHeeding trivial (hw.1.named hs) ha hw
  newStore := Performing.newStore_custody
  dropStore := Performing.dropStore_custody
  sharing hs _ := Performing.shared_custody hs
  usable {w t i} hw _ _ hi := ((World.quiet_share t w).sound hw.1 |>.arenas hi).1
  still_usable hi _ hw := Nat.lt_of_lt_of_le hi hw.2.1.items
  write v _ _ := Engine.write_custody hc _ v _
  read _ := Engine.readWithin_keeps (custody_plain s True) hc
    (fun _ _ _ => Engine.record_custody rfl rfl) _ _ _
  create storeName key name type argument convert plan := by
    intro w hw
    refine (Performing.looks_storeNamed _).keepsAt_bind (fun t ht =>
      Performing.owning_kept fun hu => Performing.owned_custody ht hu ?_) hw
    exact Performing.creating_keepsAt (w := w.own t) (custody_housing s True) trivial
      (custody_basics s True) (fun v _ => Engine.write_custody hc _ v _) (hw.1.named ht) _ _ _ _ _ _ _
  destroy key store := by
    intro w hw
    refine (Performing.looks_named _ _ _).keepsAt_bind (fun k _ =>
      (Performing.looks_presentedTo k store).keepsAt_bind fun t ht =>
        Performing.owning_kept fun hu => Performing.owned_custody ht hu ?_) hw
    exact Performing.destroying_keepsAt (w := w.own t) (custody_housing s True).toMinding trivial
      (hw.1.named ht) k.key
  enter := Performing.enter_plain (custody_plain s True) hc
  exit := Performing.exit_plain (custody_plain s True) hc
  chainWait := Performing.chainWait_plain (custody_plain s True) hc fun muted =>
    Engine.bookkeeping_keeps (custody_signalling s True) fun w =>
      ⟨w.modelDepth, w.triggerDepth, muted, rfl⟩
  ask _ _ _ _ := Engine.visit_ask_keeps (custody_plain s True) hc _ _ _ _
  tell _ _ _ _ _ := Engine.visit_tell_keeps (custody_plain s True) hc _ _ _ _ _

end GuardedStore
