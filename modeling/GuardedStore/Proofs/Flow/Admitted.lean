import GuardedStore.Proofs.Flow.Requests
import GuardedStore.Proofs.Run.Calm
import GuardedStore.Proofs.Run.Moments

/-!
Every step keeps the flow, so it is in order at every moment of a run.
-/
namespace GuardedStore

variable {s : Nat}

namespace World

variable {w : World}

/-- The flow is no concern of the value that an item holds. -/
theorem aloof_storing (item : Nat) (a : Access) (hw : w.Sound) :
    w.Aloof s { w.storing item a.value with history := .stored item a :: w.history } :=
  have hs := sound_storing item a.value hw
  aloof_of_same { grows_storing item a.value with history := ⟨[_], rfl⟩ }
    { hs with names := hs.names.mono (Nat.le_refl _) (Nat.le_refl _) (Nat.le_refl _) } rfl rfl
    ⟨[.stored item a], by simp [Happening.concerns], rfl⟩

/-- Nor of who is subscribed to what. -/
theorem aloof_subscribing (domain : Option Nat) (source : Source) (d : Nat) (hw : w.Sound) :
    w.Aloof s (w.subscribing domain source (.dependent d)) :=
  (w.quiet_subscribing domain source (by simp)).aloof hw (by cases domain <;> rfl)
    (queue_of_books (w.books_subscribing domain source _)) ⟨[], by simp, by cases domain <;> rfl⟩

theorem aloof_unsubscribing (domain : Option Nat) (source : Source) (hw : w.Sound) :
    w.Aloof s (w.unsubscribing domain source) :=
  (w.quiet_unsubscribing domain source).aloof hw (by cases domain <;> rfl)
    (queue_of_books (w.books_unsubscribing domain source)) ⟨[], by simp, by cases domain <;> rfl⟩

end World

namespace Engine

variable {call : Nat → Engine Unit} (hc : ∀ r, (call r).Keeps (flow s)) {w : World}

include hc

theorem storeValue_flow (item : Nat) (a : Access) : (storeValue call item a).Keeps (flow s) := by
  intro w
  have hstored : (do
      modify (World.modifyItem item fun i => i.store a.value)
      record (.stored item a) : Engine Unit).KeepsAt (flow s) w :=
    keepsAt_of_eq rfl fun hw => (World.aloof_storing item a (World.Counted.sound hw)).holds hw
  have hrest : (do
      let i := (← get).item item
      notice (.writeStored i.descriptor i.writes)
      let _ ← trigger call (.item item) i.affinity ⟨i.source, i.writes⟩ : Engine Unit).Keeps
        (flow s) := by
    refine keeps_get_bind fun v => ?_
    refine KeepsAt.bind (m := notice _) (fun hv => ?_) fun _ x hx hvx => ?_
    · exact (World.aloof_record rfl (World.Counted.sound hv)).holds hv
    · refine (trigger_flow hc _ (fun d hd => ?_) _).bind fun _ y _ _ => keeps_pure () y
      cases hx
      exact (World.Counted.sound hvx.1).itemAffinities hd
  exact (hstored.bind fun _ v _ _ => hrest v).congr rfl

theorem write_flow (item : Nat) (value : Value) : (write call item value).Keeps (flow s) :=
  fun _ => write_keepsAt (flow_plain s) hc value fun _ v _ _ => storeValue_flow hc item _ v

end Engine

/-- The law of the flow admits the operations of the engine. -/
theorem flow_admits {call : Nat → Engine Unit} (hc : ∀ r, (call r).Keeps (flow s)) :
    Engine.Admits call (flow s) fun w i => i < w.items.next where
  toBasics := flow_basics s
  newDomain hm _ hw := (World.aloof_withDomain hm hw).holds hw
  clear r _ hw := (World.aloof_table Domain.sameTable_clear
    (fun d => by rw [← d.clear.queue_books, d.books_clear, d.queue_books])
    (World.Counted.sound hw)).holds hw
  runPending hk hd := Engine.runPending_flow hc hd hk
  trigger event hd := Engine.trigger_flow hc _ hd event
  subscribe source d _ :=
    Engine.keepsAt_modify_bind (fun hw => (World.aloof_record rfl hw.sound).holds hw) fun _ =>
      Engine.keepsAt_of_eq (Engine.subscribe_apply ..) fun hv =>
        (World.aloof_subscribing _ source d (World.Counted.sound hv)).holds hv
  unsubscribe source _ :=
    Engine.keepsAt_modify_bind (fun hw => (World.aloof_record rfl hw.sound).holds hw) fun _ =>
      Engine.keepsAt_of_eq (Engine.unsubscribe_apply ..) fun hv =>
        (World.aloof_unsubscribing _ source (World.Counted.sound hv)).holds hv
  prompt event hs := Engine.prompt_flow hc hs event
  onExecute hook hs := Engine.onExecute_flow hs hook
  executeStore hs _ := Engine.executeStore_flow hc hs
  triggerStore _ := Engine.triggerStore_flow hc
  setAffinity {w s affinity} hs _ ha := fun hw =>
    Engine.setAffinity_keepsAt (flow_storekeeping _).heeding trivial (hw.sound.named hs) ha hw
  newStore := Performing.newStore_keeps (flow_storekeeping s) (flow_renames s)
  dropStore := Performing.dropStore_keeps (flow_storekeeping s) (flow_renames s)
  sharing hs _ hm hw :=
    Performing.shared_keepsAt (flow_storekeeping s).toTending trivial (hw.sound.named hs) hm hw
  usable {w s i} hw _ _ hi := ((World.quiet_share s w).sound hw.sound |>.arenas hi).1
  still_usable hi _ hw := Nat.lt_of_lt_of_le hi hw.2.1.grows.items
  write v _ _ := Engine.write_flow hc _ v _
  read _ := Engine.readWithin_keeps (flow_plain s) hc
    (fun _ _ _ _ => Engine.keepsAt_modify fun hw =>
      (World.aloof_of_same (World.grows_mark _ _) (World.sound_mark _ hw.sound) rfl rfl
        ⟨[_], by simp [Happening.concerns], rfl⟩).holds hw) _ _ _
  create := Performing.create_keeps (flow_storekeeping s) (flow_basics s)
    fun v _ => Engine.write_flow hc _ v _
  destroy := Performing.destroy_keeps (flow_storekeeping s)
  enter := Performing.enter_plain (flow_plain s) hc
  exit := Performing.exit_plain (flow_plain s) hc
  chainWait := Performing.chainWait_plain (flow_plain s) hc fun muted =>
    Engine.bookkeeping_keeps (flow_signalling s) fun w =>
      ⟨w.modelDepth, w.triggerDepth, muted, rfl⟩
  ask _ _ _ _ := Engine.visit_ask_keeps (flow_plain s) hc _ _ _ _
  tell _ _ _ _ _ := Engine.visit_tell_keeps (flow_plain s) hc _ _ _ _ _

namespace World

theorem counted_empty (s : Nat) : Counted s {} where
  sound := sound_empty
  pending := rfl
  triggered := ⟨nofun, nofun⟩
  hooks := rfl
  groups := rfl
  listed _ _ _ h := nomatch List.suffix_nil.mp h
  positive h := nomatch h
  queue _ _ := rfl
  unmade _ := ⟨rfl, rfl, fun _ => ⟨rfl, rfl⟩⟩
  unbuilt _ := rfl
  asked _ _ _ _ h := nomatch List.suffix_nil.mp h

theorem aloof_unwinding (unwinding : Bool) {w : World} (hw : w.Sound) :
    w.Aloof s { w with unwinding } :=
  aloof_of_same { Grows.refl w with } (sound_unwinding unwinding hw) rfl rfl ⟨[], by simp, rfl⟩

end World

namespace Scenario

/-- The signals and the queues are what the history says, at every moment. -/
theorem reached_counted (s : Nat) (halt : World → Bool) (depth : Nat) (steps : List Step) :
    (reached halt depth {} steps).Counted s :=
  reached_inv (fun _ hc => flow_admits hc)
    (fun _ hw => (World.aloof_unwinding false (World.Counted.sound hw)).counted hw) halt depth steps
    (World.counted_empty s)

/-- Between the steps of a run that nothing panics in, all accounts of the flow are settled. -/
theorem settled_flow (s : Nat) {depth : Nat} {steps : List Step} {w : World}
    (h : settled depth {} steps = some w) (hp : ¬ Panicked w.history) :
    w.Counted s ∧ World.Balanced s (fun _ => 0) (fun _ _ => 0) {} w w.history ∧ w.Served s := by
  have hrun : w.Counted s ∧ (¬ Panicked w.history → (flow s).rel {} .done w) := by
    refine (settled_inv (P := fun w => w.Counted s ∧
        (¬ Panicked w.history → (flow s).rel {} .done w)) (fun _ hc => flow_admits hc)
      (fun _ hw => (World.aloof_unwinding false (World.Counted.sound hw)).counted hw)
      (fun w hP => ?_) (fun {u e v} hu hP hv he => ⟨hv.1, fun hp => ?_⟩) (World.counted_empty s)
      ⟨World.counted_empty s, fun _ => (flow s).refl (World.counted_empty s)⟩ h).2
    · have hv := (World.aloof_unwinding (s := s) false hP.1.sound).holds hP.1
      exact ⟨hv.1, fun hp =>
        (flow s).trans (World.counted_empty s) hP.1 (hP.2 hp) (by simp) hv.2⟩
    · have hP' := hP.2 fun hp' => hp (hv.2.1.grows.panicked hp')
      cases e with
      | done => exact (flow s).trans (World.counted_empty s) hu hP' (by simp) hv.2
      | panicked =>
        obtain ⟨newer, text, hh, hm⟩ := hv.2.1.raised rfl
        exact absurd ⟨text, hh ▸ List.mem_append_left _ hm⟩ hp
      | stuck => exact absurd rfl he
  obtain ⟨hf, hs⟩ := hrun.2 hp
  obtain ⟨newer, hn⟩ := hf.done rfl
  obtain rfl : newer = w.history := (List.append_nil newer).symm.trans hn.history.symm
  exact ⟨hrun.1, hn, fun e he => (hs rfl e he).resolve_left nofun⟩

end Scenario

end GuardedStore
