import GuardedStore.Proofs.Mirror.Accesses

/-!
Deliveries, with and without guards.

Who is subscribed, who is held and what waits in a queue is the same without guards, so whoever is
woken by a delivery is woken without guards as well, in the same order.
-/
namespace GuardedStore.Engine

open World

variable {call : Nat → Engine Unit} {w : World}

theorem blind_modifyStore (r : Nat) (f : Store → Store) : (modify (World.modifyStore r f)).Blind :=
  (blind_modify fun _ => ⟨by rfl, by rfl⟩)

theorem blind_modifySignal (r : Nat) (f : Signal → Signal) :
    (modify (World.modifySignal r f)).Blind :=
  (blind_modify fun _ => ⟨by rfl, by rfl⟩)

theorem blind_subscribe (domain : Option Nat) (source : Source) (x : Subscriber) :
    (subscribe domain source x).Blind := by
  cases domain with
  | none => exact blind_pure ()
  | some r => exact (steady_modifyDomain r fun d => d.kind_subscribe source x).blind

theorem blind_unsubscribe (domain : Option Nat) (source : Source) :
    (unsubscribe domain source).Blind := by
  cases domain with
  | none => exact blind_pure ()
  | some r => exact (steady_modifyDomain r fun d => d.kind_unsubscribe source).blind

section Calls

variable (hc : ∀ r, (call r).Blind)

include hc

theorem blind_callAny (routine : Option Nat) : (callAny call routine).Blind := by
  cases routine with
  | none => exact blind_pure ()
  | some r =>
    refine fun w => blindAt_get_bind rfl ?_
    split
    · exact blind_pure () w
    · exact hc r w

theorem blind_notify (x : Subscriber) (event : Event) : (notify call x event).Blind := by
  cases x with
  | store s =>
    exact (blind_record (by rfl)).bind fun _ => blind_modifySignal s _
  | dependent d =>
    refine fun w => blindAt_get_bind rfl ?_
    exact (blind_report (by rfl)).bind (fun _ => blind_callAny hc _) w

theorem blind_prompt (store : Nat) (event : Event) : (prompt call store event).Blind :=
  (blind_record (by rfl)).bind fun _ => blind_notify hc _ event

theorem blind_runHook (store triggers : Nat) (hook : ModelHook) :
    (runHook call store triggers hook).Blind := by
  refine (blind_record (by rfl)).bind fun _ => (blind_report (by rfl)).bind
    fun _ w => blindAt_get_bind rfl ?_
  refine (blind_modify fun _ => ⟨by rfl, by rfl⟩).bind (fun _ v => ?_) w
  exact (blind_callAny hc hook.script v).ensure (blind_modify fun _ => ⟨by rfl, by rfl⟩)

theorem blind_executeStore (store : Nat) : (executeStore call store).Blind := by
  refine fun w => blindAt_get_bind rfl ?_
  dsimp only
  split
  · exact blind_pure false w
  refine (blind_modifySignal store _).bind (fun _ => (blind_record (by rfl)).bind fun _ v => ?_) w
  have hr : (do
      modify (World.modifySignal store fun s => { s with running := true })
      ensure ((w.store store).signal.hooks.forM
          (runHook call store (w.store store).signal.pending))
        (modify (World.modifySignal store fun s => { s with running := false }))
      modify (World.modifySignal store fun s => { s with executions := s.executions + 1 })
      notice (.storeExecuted (w.store store).id (w.store store).signal.pending
        (w.store store).signal.hooks.length)
      return true : Engine Bool).Blind := by
    refine (blind_modifySignal store _).bind fun _ => Blind.bind (fun u => BlindAt.ensure ?_ ?_)
      fun _ => (blind_modifySignal store _).bind fun _ => (blind_record (by rfl)).bind
        fun _ => blind_pure true
    · exact blind_forM (fun hook _ => blind_runHook hc store _ hook) u
    · exact blind_modifySignal store _
  split
  · exact blind_wait.bind (fun _ => hr) v
  · exact hr v

theorem blind_execute (x : Subscriber) : (execute call x).Blind := by
  cases x with
  | store s => exact (blind_executeStore hc s).bind fun _ => blind_pure ()
  | dependent d =>
    refine fun w => blindAt_get_bind rfl ?_
    exact (blind_report (by rfl)).bind (fun _ => blind_callAny hc _) w

end Calls

theorem BlindAt.releasing {α : Type} {m : Engine α} (hm : m.Blind) (domain : Nat) :
    (releasing domain m).Blind := by
  refine fun w => blindAt_get_bind rfl ?_
  exact (hm w).ensure ((blind_modify fun _ => ⟨by rfl, by rfl⟩).bind fun _ => blind_record (by rfl))

section Calls

variable (hc : ∀ r, (call r).Blind)

include hc

theorem blind_notifyAll (event : Event) (subscribers : List Subscriber) :
    ∀ p, (notifyAll call event p subscribers).Blind := by
  induction subscribers with
  | nil => exact blind_pure
  | cons x xs ih => exact fun p => (blind_notify hc x event).bind fun _ => ih _

theorem blind_deliverAll (domain : Nat) (events : List Event) :
    ∀ p, (deliverAll call domain p events).Blind := by
  induction events with
  | nil => exact blind_pure
  | cons event events ih =>
    refine fun p w => blindAt_get_bind rfl ?_
    exact (blind_record (by rfl)).bind (fun _ => (blind_modify fun _ => ⟨by rfl, by rfl⟩).bind fun _ =>
      (blind_notifyAll hc event _ p).bind ih) w

theorem blind_runPending (domain : Nat) : (runPending call domain).Blind := by
  refine fun w => blindAt_get_bind rfl ?_
  dsimp only
  refine (steady_modifyDomain domain fun d => d.sameTable_emptyQueue.kind).blind.bind
    (fun _ => (blind_record (by rfl)).bind fun _ v => ?_) w
  split
  · exact blind_pure _ v
  refine (BlindAt.releasing ?_ domain).bind (fun stats => ?_) v
  · exact (blind_deliverAll hc domain _ _).bind fun p =>
      (blind_forM fun x _ => blind_execute hc x).bind fun _ => blind_pure _
  · exact (steady_modifyDomain domain fun d => (d.sameTable_countRun stats).kind).blind.bind
      fun _ => (blind_record (by rfl)).bind fun _ => blind_pure stats

end Calls

end GuardedStore.Engine
