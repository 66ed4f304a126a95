import GuardedStore.Proofs.Tape.Law
import GuardedStore.World.Stores

/-!
Guards, deliveries and guarded accesses on tape.

What is asked of aspects and what is done by those who are woken is the same on tape. A trigger is
queued in the one case and recorded in the other, and answered for in the same way.
-/
namespace GuardedStore.Engine

open World

variable {call : Nat → Engine Unit}

theorem indifferent_newItem (i : Item) : (newItem i).Indifferent :=
  fun w => tapedAt_of_eq (v := { w.mark (.made w.items.next i) with items := w.items.push i }) rfl
    rfl (World.Deferring.of_same rfl rfl)

theorem indifferent_newAspect (a : Aspect Nat) : (newAspect a).Indifferent :=
  fun _ hw => ⟨rfl, hw.of_same rfl rfl⟩

theorem indifferent_newDependent (d : Dependent) : (newDependent d).Indifferent :=
  fun _ hw => ⟨rfl, hw.of_same rfl rfl⟩

theorem indifferent_newStore (s : Store) : (newStore s).Indifferent :=
  fun _ hw => ⟨rfl, hw.of_same rfl rfl⟩

theorem indifferent_newTicket : newTicket.Indifferent :=
  fun _ hw => ⟨rfl, hw.of_same rfl rfl⟩

/-- In place of a cooperative domain a recording one is made. -/
theorem newDomain_taped (d : Domain) : (newDomain d).Taped (newDomain d.taped) := by
  intro w hw
  have hd (r : Nat) : (w.domains.push d).get r = if r = w.domains.next then d else w.domain r :=
    Heap.get_push ..
  refine ⟨?_, ⟨⟨hw.scripts, fun {r} h => ?_⟩, fun {r} h => ?_⟩⟩
  · unfold newDomain taped
    rw [Heap.map_push]
    rfl
  · show ((w.domains.push d).get r).kind ≠ .immediate
    rw [hd, if_neg (Nat.ne_of_gt h)]
    exact hw.vacant (Nat.le_of_succ_le h)
  · show ((w.domains.push d).get r).kind = .immediate
    rw [hd, if_neg fun hr => hw.vacant (Nat.le_of_eq hr.symm) h, h]

theorem newRoutine_taped {script : Script} (hs : script.Deferring) :
    (newRoutine script).Taped (newRoutine script.taped) := by
  intro w hw
  refine ⟨?_, ⟨⟨fun r => ?_, hw.vacant⟩, id⟩⟩
  · unfold newRoutine taped
    rw [Heap.map_push]
    rfl
  · show ((w.routines.push ⟨script, 0⟩).get r).script.Deferring
    rw [Heap.get_push]
    split
    · exact hs
    · exact hw.scripts r

theorem indifferent_modifyStore (r : Nat) (f : Store → Store) :
    (modify (World.modifyStore r f)).Indifferent :=
  indifferent_modify fun _ => ⟨by rfl, by rfl, by rfl⟩

theorem indifferent_modifySignal (r : Nat) (f : Signal → Signal) :
    (modify (World.modifySignal r f)).Indifferent :=
  indifferent_modifyStore r _

theorem indifferent_modifyItem (r : Nat) (f : Item → Item) :
    (modify (World.modifyItem r f)).Indifferent :=
  indifferent_modify fun _ => ⟨by rfl, by rfl, by rfl⟩

theorem indifferent_setAspect (r : Nat) (a : Aspect Nat) : (setAspect r a).Indifferent :=
  indifferent_modify fun _ => ⟨by rfl, by rfl, by rfl⟩

theorem indifferent_modifyDomain (r : Nat) {f : Domain → Domain}
    (hf : ∀ d, (f d).taped = f d.taped) (hk : ∀ d, (f d).kind = d.kind) :
    (modifyDomain r f).Indifferent :=
  fun w hw => ⟨congrArg _ (w.taped_modifyDomain r hf).symm, hw.modifyDomain hk⟩

theorem indifferent_subscribe (domain : Option Nat) (source : Source) (s : Subscriber) :
    (subscribe domain source s).Indifferent := by
  cases domain with
  | none => exact indifferent_pure ()
  | some d => exact indifferent_modifyDomain d (fun d => d.taped_subscribe source s) fun d =>
      d.kind_subscribe source s

theorem indifferent_unsubscribe (domain : Option Nat) (source : Source) :
    (unsubscribe domain source).Indifferent := by
  cases domain with
  | none => exact indifferent_pure ()
  | some d => exact indifferent_modifyDomain d (fun d => d.taped_unsubscribe source) fun d =>
      d.kind_unsubscribe source

theorem indifferent_hold (subscribers : List Subscriber) : (hold subscribers).Indifferent :=
  indifferent_modify fun _ => ⟨by rfl, by rfl, by rfl⟩

theorem IndifferentAt.releasing {α : Type} {w : World} {m : Engine α} (hm : m.IndifferentAt w)
    (domain : Nat) : (releasing domain m).IndifferentAt w :=
  tapedAt_get_bind <| TapedAt.ensure hm <|
    (indifferent_modify fun _ => ⟨by rfl, by rfl, by rfl⟩).bind fun _ => indifferent_record (by rfl)

variable (hc : ∀ r, (call r).Indifferent)

include hc

theorem indifferent_callAny (routine : Option Nat) : (callAny call routine).Indifferent := by
  cases routine with
  | none => exact indifferent_pure ()
  | some r =>
    refine indifferent_get_bind (fun _ => rfl) fun w => ?_
    split
    · exact indifferent_pure ()
    · exact hc r

theorem indifferent_probeHook (p : Probe Nat) (hook : Hook) (permitted : Option Bool)
    (access : Access) : (probeHook call p hook permitted access).Indifferent := by
  unfold probeHook
  split
  · exact indifferent_callAny hc _
  · exact (indifferent_report (by rfl)).bind fun _ => indifferent_callAny hc _

theorem indifferent_answer (x : Nat) (phase : Phase) (access : Access) :
    (answer call x phase access).Indifferent := by
  refine indifferent_get_bind (fun _ => rfl) fun w => ?_
  split
  · exact indifferent_pure true
  · exact indifferent_pure true
  · split
    · exact (indifferent_setAspect _ _).bind fun _ => indifferent_pure _
    · exact (indifferent_setAspect _ _).bind fun _ => (indifferent_record (by rfl)).bind fun _ =>
        indifferent_pure _
    · exact indifferent_wait
  · split
    · exact indifferent_pure true
    · exact (indifferent_setAspect _ _).bind fun _ => (indifferent_record (by rfl)).bind fun _ =>
        indifferent_pure _
    · exact (indifferent_setAspect _ _).bind fun _ => (indifferent_record (by rfl)).bind fun _ =>
        indifferent_pure _
  · exact (indifferent_setAspect _ _).bind fun _ => (indifferent_probeHook hc _ _ _ _).bind fun _ =>
      indifferent_pure _

theorem indifferent_ask (x : Nat) (phase : Phase) (access : Access) :
    (ask call x phase access).Indifferent :=
  (indifferent_answer hc _ _ _).bind fun _ => (indifferent_record (by rfl)).bind fun _ => indifferent_pure _

theorem indifferent_settle (x : Nat) (phase : Phase) (access : Access) (permitted : Bool) :
    (settle call x phase access permitted).Indifferent := by
  refine indifferent_get_bind (fun _ => rfl) fun w => ?_
  split
  · exact (indifferent_setAspect _ _).bind fun _ => indifferent_record (by rfl)
  · split
    · exact indifferent_setAspect _ _
    · exact indifferent_record (by rfl)
  · exact indifferent_pure ()
  · exact indifferent_pure ()
  · exact indifferent_probeHook hc _ _ _ _

theorem indifferent_tell (x : Nat) (phase : Phase) (access : Access) (permitted : Bool) :
    (tell call x phase access permitted).Indifferent :=
  (indifferent_record (by rfl)).bind fun _ => indifferent_settle hc _ _ _ _

theorem indifferent_tellAll (p : Pass) (xs : List Nat) : (tellAll call p xs).Indifferent := by
  induction xs with
  | nil => exact indifferent_pure ()
  | cons x xs ih => exact (indifferent_tell hc _ _ _ _).bind fun _ => ih

theorem indifferent_leave (p : Pass) : (leave call p).Indifferent :=
  ((indifferent_tellAll hc p _).onUnwind (indifferent_record (by rfl))).bind fun _ =>
    indifferent_record (by rfl)

theorem indifferent_proceed (xs : List Nat) : ∀ p : Pass, (proceed call p xs).Indifferent := by
  induction xs with
  | nil => exact indifferent_pure
  | cons x xs ih =>
    intro p
    refine ((indifferent_ask hc _ _ _).onUnwind ?_).bind fun b => ?_
    · exact (indifferent_record (by rfl)).bind fun _ => indifferent_leave hc p
    · cases b with
      | true => exact ih _
      | false => exact indifferent_pure _

theorem indifferent_enter (chain : List Nat) (phase : Phase) (access : Access) :
    (enter call chain phase access).Indifferent :=
  indifferent_newTicket.bind fun _ => (indifferent_record (by rfl)).bind fun _ =>
    indifferent_proceed hc chain _

theorem indifferent_notify (s : Subscriber) (event : Event) : (notify call s event).Indifferent := by
  cases s with
  | store s => exact (indifferent_record (by rfl)).bind fun _ => indifferent_modifySignal s _
  | dependent d =>
    exact indifferent_get_bind (fun _ => rfl) fun _ => (indifferent_report (by rfl)).bind fun _ =>
      indifferent_callAny hc _

theorem indifferent_prompt (store : Nat) (event : Event) : (prompt call store event).Indifferent :=
  (indifferent_record (by rfl)).bind fun _ => indifferent_notify hc _ _

theorem indifferent_runHook (store triggers : Nat) (hook : ModelHook) :
    (runHook call store triggers hook).Indifferent :=
  (indifferent_record (by rfl)).bind fun _ => (indifferent_report (by rfl)).bind fun _ =>
    indifferent_get_bind (fun _ => rfl) fun _ =>
      (indifferent_modify fun _ => ⟨by rfl, by rfl, by rfl⟩).bind fun _ =>
        (indifferent_callAny hc _).ensure (indifferent_modify fun _ => ⟨by rfl, by rfl, by rfl⟩)

theorem indifferent_executeStore (store : Nat) : (executeStore call store).Indifferent := by
  refine indifferent_get_bind (fun _ => rfl) fun w => ?_
  dsimp only
  have run : (do
      modify (World.modifySignal store fun s => { s with running := true })
      ensure ((w.store store).signal.hooks.forM (runHook call store (w.store store).signal.pending))
        (modify (World.modifySignal store fun s => { s with running := false }))
      modify (World.modifySignal store fun s => { s with executions := s.executions + 1 })
      notice (.storeExecuted (w.store store).id (w.store store).signal.pending
        (w.store store).signal.hooks.length)
      return true : Engine Bool).Indifferent :=
    (indifferent_modifySignal store _).bind fun _ =>
      ((indifferent_forM (indifferent_runHook hc store _) _).ensure
        (indifferent_modifySignal store _)).bind fun _ =>
        (indifferent_modifySignal store _).bind fun _ => (indifferent_record (by rfl)).bind fun _ =>
          indifferent_pure true
  split
  · exact indifferent_pure false
  · refine (indifferent_modifySignal store _).bind fun _ => (indifferent_record (by rfl)).bind fun _ => ?_
    split
    · exact indifferent_wait.bind fun _ => run
    · exact run

theorem indifferent_execute (s : Subscriber) : (execute call s).Indifferent := by
  cases s with
  | store s => exact (indifferent_executeStore hc s).bind fun _ => indifferent_pure ()
  | dependent d =>
    exact indifferent_get_bind (fun _ => rfl) fun _ => (indifferent_report (by rfl)).bind fun _ =>
      indifferent_callAny hc _

/-- A domain that delivers at once is no other on tape. -/
theorem indifferent_deliver {w : World} {r : Nat} {i : Immediate}
    (hd : (w.domain r).mode = .immediate i) (label : String) (event : Event) :
    (deliver call r label i event).IndifferentAt w := by
  have atOnce (subscribers : List Subscriber) :
      (deliverAtOnce call event subscribers).Indifferent :=
    indifferent_forM (fun s => (indifferent_notify hc s event).bind fun _ =>
      indifferent_execute hc s) subscribers
  have delivering (b : Bool) : (modifyDomain r fun d => d.setDelivering b).Indifferent :=
    indifferent_modifyDomain r (fun d => d.taped_setDelivering b) fun d =>
      (d.sameTable_setDelivering b).kind
  unfold deliver
  refine tapedAt_get_bind ?_
  rw [show w.taped.modelDepth = w.modelDepth from rfl]
  split
  · exact indifferent_report (by rfl) w
  · refine (indifferent_report (by rfl) w).bind fun _ u hu => (delivering true u).bind
      fun _ v hv => TapedAt.ensure (IndifferentAt.releasing ?_ r) (delivering false)
    refine (indifferent_callAny hc i.script v).bind fun _ x hx => tapedAt_get_bind ?_
    -- the domain still delivers at once, so it has the same subscribers on tape
    have hk : (x.domain r).kind = .immediate :=
      hx.immediate (hv.immediate (hu.immediate (by rw [Domain.kind, hd])))
    obtain ⟨j, hj⟩ : ∃ j, (x.domain r).mode = .immediate j := by
      unfold Domain.kind at hk
      split at hk
      · cases hk
      · cases hk
      · exact ⟨_, ‹_›⟩
    rw [x.liveSubscribers_taped hj]
    exact ((indifferent_record (by rfl)).bind fun _ => (indifferent_hold _).bind fun _ =>
      atOnce _) x

theorem indifferent_forward (domain : Option Nat) (event : Event) :
    (forward call domain event).Indifferent := by
  have accept (r : Nat) : (modifyDomain r fun d => d.accept event).Indifferent :=
    indifferent_modifyDomain r (fun d => d.taped_accept event) fun d => (d.sameTable_accept event).kind
  cases domain with
  | none => exact (indifferent_record (by rfl)).bind fun _ => indifferent_pure false
  | some r =>
    refine fun w => tapedAt_get_bind ?_
    dsimp only
    rw [w.domain_taped, (w.domain r).mode_taped, (w.domain r).label_taped]
    cases hd : (w.domain r).mode with
    | recording c => exact ((accept r).bind fun _ => indifferent_pure true) w
    | cooperative c =>
      -- nobody is told of the event on tape, where it is kept as it is in the queue
      exact tapedAt_record_bind rfl (((accept r).bind fun _ => indifferent_pure true) _)
    | immediate i =>
      exact (indifferent_deliver hc hd _ event).bind fun _ v _ => indifferent_pure true v

theorem indifferent_trigger (issuer : Issuer) (domain : Option Nat) (event : Event) :
    (trigger call issuer domain event).Indifferent :=
  (indifferent_record (by rfl)).bind fun _ => indifferent_forward hc domain event

theorem indifferent_storeValue (item : Nat) (access : Access) :
    (storeValue call item access).Indifferent :=
  (indifferent_modifyItem item _).bind fun _ => (indifferent_record (by rfl)).bind fun _ =>
    indifferent_get_bind (fun _ => rfl) fun _ => (indifferent_record (by rfl)).bind fun _ =>
      (indifferent_trigger hc _ _ _).bind fun _ => indifferent_pure ()

theorem indifferent_write (item : Nat) (value : Value) : (write call item value).Indifferent := by
  refine indifferent_get_bind (fun _ => rfl) fun w => (indifferent_enter hc _ _ _).bind fun p =>
    Indifferent.ensure ?_ (indifferent_leave hc p)
  split
  · exact indifferent_storeValue hc item _
  · exact indifferent_get_bind (fun _ => rfl) fun _ => (indifferent_record (by rfl)).bind fun _ =>
      indifferent_record (by rfl)

theorem indifferent_readWithin (item : Nat) (retries : Nat) :
    (readWithin call item retries).Indifferent := by
  induction retries with
  | zero =>
    unfold readWithin
    refine indifferent_get_bind (fun _ => rfl) fun w => (indifferent_enter hc _ _ _).bind fun p =>
      indifferent_get_bind (fun _ => rfl) fun v => ?_
    split
    · exact (indifferent_leave hc p).bind fun _ => (indifferent_record (by rfl)).bind fun _ =>
        (indifferent_record (by rfl)).bind fun _ => indifferent_pure _
    · exact (indifferent_leave hc p).bind fun _ => (indifferent_record (by rfl)).bind fun _ =>
        indifferent_pure _
  | succ retries ih =>
    unfold readWithin
    refine indifferent_get_bind (fun _ => rfl) fun w => (indifferent_enter hc _ _ _).bind fun p =>
      indifferent_get_bind (fun _ => rfl) fun v => ?_
    split
    · exact (indifferent_leave hc p).bind fun _ => (indifferent_record (by rfl)).bind fun _ =>
        (indifferent_record (by rfl)).bind fun _ => indifferent_pure _
    · dsimp only
      split
      · exact (indifferent_record (by rfl)).bind fun _ => (indifferent_record (by rfl)).bind fun _ =>
          (indifferent_leave hc p).bind fun _ => ih
      · exact (indifferent_leave hc p).bind fun _ => (indifferent_record (by rfl)).bind fun _ =>
          indifferent_pure _

theorem indifferent_read (item : Nat) : (read call item).Indifferent :=
  indifferent_readWithin hc item _

end GuardedStore.Engine
