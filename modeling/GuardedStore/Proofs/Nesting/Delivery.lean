import GuardedStore.Proofs.Flow.Execution
import GuardedStore.Proofs.Nesting.Law

/-!
Locks while triggers are raised and delivered.

Whatever a delivery calls, it calls with nothing taken but the hooks of a store that it executes; a
trigger of a store is raised with the store's affinity taken.
-/
namespace GuardedStore.Engine

variable {call : Nat → Engine Unit} {w : World}

theorem modifyDomain_nests (domain : Nat) (f : Domain → Domain) :
    (modifyDomain domain f).Keeps nesting :=
  change_nests fun _ => rfl

theorem subscribe_nests (domain : Option Nat) (source : Source) (subscriber : Subscriber) :
    (subscribe domain source subscriber).Keeps nesting := by
  cases domain with
  | none => exact keeps_pure ()
  | some d => exact modifyDomain_nests d _

theorem unsubscribe_nests (domain : Option Nat) (source : Source) :
    (unsubscribe domain source).Keeps nesting := by
  cases domain with
  | none => exact keeps_pure ()
  | some d => exact modifyDomain_nests d _

theorem hold_nests (subscribers : List Subscriber) : (hold subscribers).Keeps nesting :=
  change_nests fun _ => rfl

theorem releasing_nests {α : Type} (domain : Nat) {m : Engine α} (hm : m.Keeps nesting) :
    (releasing domain m).Keeps nesting := by
  refine keeps_get_bind fun w => hm.ensure ?_ w
  exact Keeps.bind (change_nests fun _ => rfl) fun _ => record_nests _

section Calls

variable (hc : ∀ r, (call r).Keeps nesting)

include hc

theorem notify_nests (subscriber : Subscriber) (event : Event) :
    (notify call subscriber event).Keeps nesting := by
  cases subscriber with
  | store s => exact (record_nests _).bind fun _ => modifySignal_nests s fun _ => rfl
  | dependent d =>
    exact keeps_get_bind fun w => ((report_nests _).bind fun _ => callAny_keeps hc _) w

theorem prompt_nests (store : Nat) (event : Event) : (prompt call store event).Keeps nesting :=
  (record_nests _).bind fun _ => notify_nests hc _ event

theorem runHook_nests (store triggers : Nat) (hook : ModelHook) :
    (runHook call store triggers hook).Keeps nesting := by
  have hd (n : Nat) : (modify fun w => { w with modelDepth := n }).Keeps nesting :=
    change_nests fun _ => rfl
  refine (record_nests _).bind fun _ => (report_nests _).bind fun _ => keeps_get_bind fun w => ?_
  exact (hd _).bind (fun _ => (callAny_keeps hc _).ensure (hd _)) w

/-- Hooks are run with their list taken. -/
theorem runHooks_nests (store triggers : Nat) (hooks : List ModelHook)
    (hr : (w.store store).signal.running = false) :
    (modify (World.modifySignal store (Signal.setRunning true)) >>= fun _ =>
      ensure (hooks.forM (runHook call store triggers))
        (modify (World.modifySignal store (Signal.setRunning false)))).KeepsAt nesting w := by
  refine holding_nests (keeps_forM fun hook _ => runHook_nests hc store triggers hook) store _ _
    (fun x hx => ?_) fun x hx => ?_
  · have hreaders : x.affinityReaders = (w.store store).affinityReaders := congrArg Prod.fst hx
    exact Prod.ext hreaders hr.symm
  · have hreaders : x.affinityReaders = 0 := congrArg Prod.fst hx
    exact Prod.ext hreaders rfl

/-- An execution that finds the list of hooks taken waits for ever. -/
theorem executeStore_nests (store : Nat) : (executeStore call store).Keeps nesting := by
  intro w
  have he := executeStore_apply call store w
  have hsignal := congrArg Signal.running (w.signal_executing (s := store))
  by_cases ht : (w.store store).signal.triggered = true
  · rw [if_neg (by simp [ht])] at he
    by_cases hr : (w.store store).signal.running = true
    · rw [if_pos hr] at he
      exact keepsAt_of_eq he fun _ => ⟨trivial, .inl ⟨store, _, _, _, rfl, hsignal.trans hr⟩⟩
    · rw [if_neg hr] at he
      rw [Bool.not_eq_true] at hr
      have hx : w.Returns (w.executing store) :=
        (World.returns_modifyStore (f := fun s => { s with signal := s.signal.emptied }) rfl).trans
          (World.returns_of_stores rfl)
      have hrest := (runHooks_nests hc store (w.store store).signal.pending
        (w.store store).signal.hooks (hsignal.trans hr)).bind fun _ v _ _ =>
          Keeps.bind (modifySignal_nests store (f := Signal.count) fun _ => rfl) (fun _ =>
            (notice_nests (.storeExecuted (w.store store).id (w.store store).signal.pending
              (w.store store).signal.hooks.length)).bind fun _ => keeps_pure true) v
      intro _
      rw [he]
      exact Law.Holds.done_trans trivial ⟨trivial, hx⟩ (hrest trivial)
  · rw [if_pos (by simp [ht])] at he
    exact aside_nests he nofun rfl

theorem execute_nests (subscriber : Subscriber) : (execute call subscriber).Keeps nesting := by
  cases subscriber with
  | store s => exact (executeStore_nests hc s).bind fun _ => keeps_pure ()
  | dependent d =>
    exact keeps_get_bind fun w => ((report_nests _).bind fun _ => callAny_keeps hc _) w

theorem deliverAtOnce_nests (event : Event) (subscribers : List Subscriber) :
    (deliverAtOnce call event subscribers).Keeps nesting :=
  keeps_forM fun s _ => (notify_nests hc s event).bind fun _ => execute_nests hc s

theorem deliver_nests (domain : Nat) (label : String) (i : Immediate) (event : Event) :
    (deliver call domain label i event).Keeps nesting := by
  refine keeps_get_bind fun w => ?_
  split
  · exact report_nests _ w
  · refine Keeps.bind (report_nests _) (fun _ => (modifyDomain_nests domain _).bind fun _ => ?_) w
    refine (releasing_nests domain ?_).ensure (modifyDomain_nests domain _)
    refine (callAny_keeps hc _).bind fun _ => keeps_get_bind fun w => ?_
    exact Keeps.bind (record_nests _) (fun _ => (hold_nests _).bind fun _ =>
      deliverAtOnce_nests hc event _) w

theorem forward_nests (domain : Option Nat) (event : Event) :
    (forward call domain event).Keeps nesting := by
  cases domain with
  | none => exact (notice_nests _).bind fun _ => keeps_pure false
  | some r =>
    refine keeps_get_bind fun w => ?_
    dsimp only
    split
    · exact (modifyDomain_nests r _).bind (fun _ => keeps_pure true) w
    · refine Keeps.bind (notice_nests _) (fun _ => ?_) w
      exact (modifyDomain_nests r _).bind fun _ => keeps_pure true
    · exact (deliver_nests hc r _ _ event).bind (fun _ => keeps_pure true) w

theorem trigger_nests (issuer : Issuer) (domain : Option Nat) (event : Event) :
    (trigger call issuer domain event).Keeps nesting :=
  (record_nests _).bind fun _ => forward_nests hc domain event

theorem notifyAll_nests (event : Event) (subscribers : List Subscriber) :
    ∀ p, (notifyAll call event p subscribers).Keeps nesting := by
  induction subscribers with
  | nil => exact fun p => keeps_pure p
  | cons s subscribers ih => exact fun p => (notify_nests hc s event).bind fun _ => ih _

theorem deliverAll_nests (domain : Nat) (events : List Event) :
    ∀ p, (deliverAll call domain p events).Keeps nesting := by
  induction events with
  | nil => exact fun p => keeps_pure p
  | cons e events ih =>
    refine fun p => keeps_get_bind fun w => Keeps.bind (record_nests _) (fun _ => ?_) w
    exact (hold_nests _).bind fun _ => (notifyAll_nests hc e _ p).bind fun p => ih p

theorem runPending_nests (domain : Nat) : (runPending call domain).Keeps nesting := by
  refine keeps_get_bind fun w => Keeps.bind (modifyDomain_nests domain _) (fun _ =>
    (record_nests _).bind fun _ => ?_) w
  split
  · exact keeps_pure _
  · refine (releasing_nests domain ?_).bind fun stats => (modifyDomain_nests domain _).bind
      fun _ => (notice_nests _).bind fun _ => keeps_pure stats
    refine (deliverAll_nests hc domain _ _).bind fun p => ?_
    exact (keeps_forM fun s _ => execute_nests hc s).bind fun _ => keeps_pure _

/-- A trigger of a store is raised with the store's affinity taken. -/
theorem triggerStore_nests (store : Nat) : (triggerStore call store).Keeps nesting := by
  intro w
  have hm : (get >>= fun v => trigger call (.store store) (v.store store).affinity
      ⟨(v.store store).source, (v.store store).triggers⟩).Keeps nesting :=
    keeps_get_bind fun v => trigger_nests hc (.store store) _ _ v
  refine (holding_nests hm store
    (fun s => { s with triggers := s.triggers + 1, affinityReaders := s.affinityReaders + 1 })
    (fun s => { s with affinityReaders := s.affinityReaders - 1 })
    (fun x hx => ?_) fun x hx => ?_).congr rfl
  · have hreaders : x.affinityReaders = (w.store store).affinityReaders + 1 :=
      congrArg Prod.fst hx
    have hrunning : x.signal.running = (w.store store).signal.running := congrArg Prod.snd hx
    exact Prod.ext (by simp [Store.locks, hreaders]) hrunning
  · have hreaders : x.affinityReaders = 0 := congrArg Prod.fst hx
    have hrunning : x.signal.running = false := congrArg Prod.snd hx
    exact Prod.ext (by simp [Store.locks, hreaders]) hrunning

end Calls

end GuardedStore.Engine
