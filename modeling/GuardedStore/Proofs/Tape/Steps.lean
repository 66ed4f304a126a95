import GuardedStore.Proofs.Tape.Lookups
import GuardedStore.Scenario.Run

/-!
Steps on tape.

Whatever a step does and answers, the taped step does and answers in the taped world, as long as it
leaves queued what is queued. But for the steps that hand out scripts or make domains, the taped step
is the step itself.
-/
namespace GuardedStore.Performing

open World

variable {α : Type} {call : Nat → Engine Unit}

/-- What is done last, and answered for. -/
theorem indifferent_last {m : Engine α} (hm : m.Indifferent) (a : α → Answer) :
    (do return a (← (m : Performing α)) : Performing Answer).Indifferent :=
  (indifferent_lift hm).bind fun _ => indifferent_pure _

/-- What a world looks like that looks the same on tape. -/
theorem indifferent_look {f : World → Answer} (h : ∀ w, f w.taped = f w) :
    (do return f (← world) : Performing Answer).Indifferent :=
  indifferent_world_bind (fun w => by rw [h]) fun _ => indifferent_pure _

section Scheduling

theorem taped_newDomain (name label : String) {plan : DomainPlan Script}
    (hp : ∀ f ∈ (Step.domain name label plan).carried, f.Deferring) :
    (newDomain name label plan).Taped (newDomain name label (Step.tapedDomain plan)) := by
  have register (d : Domain) : (do
        let domain ← (Engine.newDomain d : Performing Nat)
        rename fun n => { n with domains := n.domains.put name domain }
        return .ok : Performing Answer).Taped (do
        let domain ← (Engine.newDomain d.taped : Performing Nat)
        rename fun n => { n with domains := n.domains.put name domain }
        return .ok : Performing Answer) :=
    (taped_lift (Engine.newDomain_taped d)).bind fun _ =>
      (indifferent_rename _).bind fun _ => indifferent_pure _
  cases plan with
  | recording => exact register ⟨label, .recording {}⟩
  | cooperative => exact register ⟨label, .cooperative {}⟩
  | immediate script =>
    have hr := taped_lift (taped_routine fun f hf => hp f (Option.mem_toList.mpr hf))
    unfold newDomain
    simp only [pure_bind]
    exact hr.bind fun script => register ⟨label, .immediate { script }⟩

theorem indifferent_subscribe (domain : Option String) (source : SourceName) (dependent : String) :
    (subscribe domain source dependent).Indifferent :=
  (indifferent_affinityNamed _).bind fun _ => (indifferent_sourceNamed _).bind fun _ =>
    (indifferent_named _ _ _).bind fun _ =>
      (indifferent_lift (Engine.indifferent_record (by rfl))).bind fun _ =>
        indifferent_last (Engine.indifferent_subscribe _ _ _) _

theorem indifferent_unsubscribe (domain : Option String) (source : SourceName) :
    (unsubscribe domain source).Indifferent :=
  (indifferent_affinityNamed _).bind fun _ => (indifferent_sourceNamed _).bind fun _ =>
    (indifferent_lift (Engine.indifferent_record (by rfl))).bind fun _ =>
      indifferent_last (Engine.indifferent_unsubscribe _ _) _

theorem indifferent_affinityInfo (domain other : Option String) :
    (affinityInfo domain other).Indifferent :=
  (indifferent_affinityNamed _).bind fun _ => (indifferent_affinityNamed _).bind fun _ =>
    indifferent_look fun w => by rw [w.domainName_taped, w.inspectAffinity_taped]

theorem indifferent_disown (dependent : Nat) : (disown dependent).Indifferent :=
  indifferent_update (Engine.indifferent_modify fun _ => ⟨by rfl, by rfl, by rfl⟩)

theorem taped_newDependent (name : String) {f g : Option Script}
    (hf : ∀ x ∈ f, x.Deferring) (hg : ∀ x ∈ g, x.Deferring) :
    (newDependent name f g).Taped
      (newDependent name (Step.tapedRun f) (Step.tapedRun g)) := by
  refine (taped_lift (taped_routine hf)).bind fun _ => (taped_lift (taped_routine hg)).bind
    fun _ => Taped.bind (indifferent_lift (Engine.indifferent_newDependent _)) fun d =>
      indifferent_world_bind (fun _ => rfl) fun w => (indifferent_rename _).bind fun _ => ?_
  refine Indifferent.bind ?_ fun _ => indifferent_pure _
  cases w.names.dependents.find? name with
  | none => exact indifferent_pure ()
  | some old => exact indifferent_disown old

theorem indifferent_dropDependent (name : String) : (dropDependent name).Indifferent := by
  refine indifferent_world_bind (fun _ => rfl) fun w => ?_
  split
  · exact (indifferent_rename _).bind fun _ => (indifferent_disown _).bind fun _ =>
      indifferent_pure _
  · exact indifferent_pure _

end Scheduling

section Storage

theorem indifferent_newStore (name : String) (plan : StorePlan) :
    (newStore name plan).Indifferent := by
  refine (indifferent_settings plan).bind fun s =>
    (indifferent_orFault (Engine.indifferent_buildStore _ _)).bind fun store =>
      indifferent_world_bind (fun _ => rfl) fun w => (indifferent_rename _).bind fun _ => ?_
  refine Indifferent.bind ?_ fun _ => indifferent_pure _
  cases w.names.stores.find? name with
  | none => exact indifferent_pure ()
  | some old => exact indifferent_lift (Engine.indifferent_replace old)

theorem indifferent_dropStore (name : String) : (dropStore name).Indifferent :=
  (indifferent_storeNamed _).bind fun s => (indifferent_checkUnused s).bind fun _ =>
    (indifferent_rename _).bind fun _ => indifferent_last (Engine.indifferent_dropStore s) _

/-- A step that looks at a store which nobody is changing. -/
theorem indifferent_inspect (name : String) {f : Nat → World → Answer}
    (hf : ∀ s w, f s w.taped = f s w) : (do
      let store ← storeNamed name
      checkShareable store
      return f store (← world) : Performing Answer).Indifferent :=
  (indifferent_storeNamed _).bind fun s => (indifferent_checkShareable s).bind fun _ =>
    indifferent_look (hf s)

theorem indifferent_storeInfo (name : String) : (storeInfo name).Indifferent :=
  indifferent_inspect name fun s w => by
    simp only [w.domainName_taped]
    rfl

theorem indifferent_storeDebug (name : String) : (storeDebug name).Indifferent :=
  indifferent_inspect name fun s w => by
    unfold World.inspectStore
    simp only [w.inspectAffinity_taped]
    rfl

theorem indifferent_find (storeName : String) (type : ValueType) (name : String)
    (key : Option String) : (find storeName type name key).Indifferent := by
  refine (indifferent_storeNamed _).bind fun s => (indifferent_checkShareable s).bind fun _ =>
    indifferent_world_bind (fun _ => rfl) fun w => ?_
  dsimp only
  split
  · exact (indifferent_rename _).bind fun _ => indifferent_pure _
  · exact indifferent_pure _

theorem taped_onExecute (name label : String) {run : Option Script}
    (hs : ∀ f ∈ run, f.Deferring) :
    (onExecute name label run).Taped (onExecute name label (Step.tapedRun run)) :=
  Taped.bind (indifferent_refuseWhen _ fun _ => rfl) fun _ =>
    Taped.bind (indifferent_storeNamed _) fun s =>
      Taped.bind (indifferent_checkShareable s) fun _ =>
        Taped.bind (taped_lift (taped_routine hs)) fun _ =>
          indifferent_last (Engine.indifferent_onExecute _ _) _

theorem indifferent_setAffinity (step name : String) (domain : Option String) :
    (setAffinity step name domain).Indifferent :=
  (indifferent_refuseWhen _ fun _ => rfl).bind fun _ => (indifferent_storeNamed _).bind fun _ =>
    (indifferent_affinityNamed _).bind fun _ => (indifferent_checkShareable _).bind fun _ =>
      indifferent_last (Engine.indifferent_setAffinity _ _) _

theorem indifferent_destroy (key : String) (store : Option String) :
    (destroy key store).Indifferent :=
  (indifferent_named _ _ _).bind fun k => (indifferent_storeNamed _).bind fun s =>
    taped_owning ((indifferent_orFault (Engine.indifferent_destroy s k.key)).bind fun _ =>
      indifferent_pure _) s

theorem indifferent_itemInfo (key : String) (store : Option String) :
    (itemInfo key store).Indifferent :=
  indifferent_withItem (fun _ _ i => indifferent_look fun w => by
    simp only [w.inspectAffinity_taped]
    rfl) key store

end Storage

theorem taped_newAspect (id : String) {plan : AspectPlan Script}
    (hp : ∀ f ∈ plan.scripts, f.Deferring) :
    (newAspect id plan).Taped (newAspect id (Step.tapedAspect plan)) :=
  Taped.bind (taped_lift (taped_aspect hp)) fun _ =>
    Taped.bind (indifferent_rename _) fun _ => indifferent_pure _

theorem taped_newChain (name : String) {ls : List (Link Script)}
    (hl : ∀ f ∈ ls.flatMap Link.scripts, f.Deferring) :
    (newChain name ls).Taped (newChain name (Step.tapedLinks ls)) :=
  Taped.bind (taped_links hl) fun _ => Taped.bind (indifferent_rename _) fun _ =>
    indifferent_look fun _ => rfl

theorem indifferent_aspectInfo (id : String) : (aspectInfo id).Indifferent :=
  indifferent_world_bind (fun _ => rfl) fun _ => (indifferent_named _ _ _).bind fun _ =>
    indifferent_pure _

theorem indifferent_defaultChain (name : String) (c : AspectConfig) (d : DescriptorPlan) :
    (defaultChain name c d).Indifferent :=
  (indifferent_descriptor d).bind fun _ => (indifferent_lift (indifferent_configured c)).bind
    fun _ => (indifferent_rename _).bind fun _ => indifferent_look fun _ => rfl

section Calls

variable (hc : ∀ r, (call r).Indifferent)

include hc

theorem indifferent_trigger (domain : Option String) (source : SourceName) (sequence : Nat) :
    (trigger call domain source sequence).Indifferent :=
  (indifferent_sourceNamed _).bind fun _ => (indifferent_affinityNamed _).bind fun _ =>
    indifferent_last (Engine.indifferent_trigger hc _ _ _) _

theorem indifferent_execute (step name : String) : (execute call step name).Indifferent :=
  (indifferent_storeNamed _).bind fun s => (indifferent_checkShareable s).bind fun _ =>
    (indifferent_refuseWhen step fun _ => rfl).bind fun _ =>
      taped_sharing (indifferent_lift (Engine.indifferent_executeStore hc s)) s

theorem indifferent_storeTrigger (name : String) : (storeTrigger call name).Indifferent := by
  refine (indifferent_storeNamed _).bind fun s => taped_sharing (indifferent_world_bind
    (fun _ => rfl) fun w => ?_) s
  refine (indifferent_update (Engine.indifferent_modify fun _ => ⟨by rfl, by rfl, by rfl⟩)).bind
    fun _ => Indifferent.bind ?_ fun _ => indifferent_pure _
  exact Taped.ensure (indifferent_lift (Engine.indifferent_triggerStore hc s))
    (Engine.indifferent_modify fun _ => ⟨by rfl, by rfl, by rfl⟩)

theorem indifferent_onTrigger (name : String) (source : SourceName) (sequence : Nat) :
    (onTrigger call name source sequence).Indifferent :=
  (indifferent_storeNamed _).bind fun s => (indifferent_checkShareable s).bind fun _ =>
    (indifferent_sourceNamed _).bind fun source =>
      indifferent_last (Engine.indifferent_prompt hc s ⟨source, sequence⟩) _

theorem taped_create (storeName key name : String) (type : ValueType) (argument : Literal)
    (convert : Option ArgumentType) {plan : FactoryPlan Script}
    (hp : ∀ f ∈ plan.scripts, f.Deferring) :
    (create call storeName key name type argument convert plan).Taped
      (create call storeName key name type argument convert (Step.tapedFactory plan)) := by
  refine Taped.bind (indifferent_storeNamed _) fun s => taped_owning
    (taped_factory_bind hp fun f hf => ?_) s
  exact (indifferent_orUnreadable _).bind fun value =>
    (indifferent_orFault (Engine.indifferent_create hc hf s name value)).bind fun id =>
      indifferent_world_bind (fun _ => rfl) fun w => (indifferent_rename _).bind fun _ =>
        indifferent_pure _

theorem indifferent_write (key : String) (store : Option String) (value : Literal) :
    (write call key store value).Indifferent :=
  indifferent_withItem (fun _ _ i => (indifferent_orUnreadable _).bind fun v =>
    indifferent_last (Engine.indifferent_write hc i v) _) key store

theorem indifferent_read (key : String) (store : Option String) :
    (read call key store).Indifferent :=
  indifferent_withItem (fun _ _ i => (indifferent_orFault (Engine.indifferent_read hc i)).bind
    fun _ => indifferent_pure _) key store

theorem indifferent_readInto (key : String) (store : Option String) (init : Literal) :
    (readInto call key store init).Indifferent := by
  refine indifferent_withItem (fun _ _ i => (indifferent_orUnreadable _).bind fun _ =>
    (indifferent_lift (Engine.indifferent_read hc i)).bind fun r => ?_) key store
  cases r with
  | ok value => exact indifferent_pure _
  | error fault => exact indifferent_pure _

theorem indifferent_parallelWrite (key : String) (store : Option String) (threads each : Nat) :
    (parallelWrite call key store threads each).Indifferent := by
  refine indifferent_withItem (fun _ _ i => (indifferent_orUnreadable _).bind fun values =>
    (indifferent_update (Engine.indifferent_modify fun _ => ⟨by rfl, by rfl, by rfl⟩)).bind
      fun _ => ?_) key store
  have writes := indifferent_forM (fun v => indifferent_lift (Engine.indifferent_write hc i v)) values
  exact Taped.bind (writes.ensure (Engine.indifferent_modify fun _ => ⟨by rfl, by rfl, by rfl⟩))
    fun _ => indifferent_look fun _ => rfl

theorem indifferent_enter (chain : String) (phase : Phase) (passage : Option String)
    (plan : AccessPlan) : (enter call chain phase passage plan).Indifferent := by
  refine (indifferent_named _ _ _).bind fun _ => (indifferent_access plan).bind fun _ =>
    (indifferent_lift (Engine.indifferent_record (by rfl))).bind fun _ =>
      (indifferent_lift (Engine.indifferent_enter hc _ _ _)).bind fun p =>
        indifferent_world_bind (fun _ => rfl) fun w => ?_
  cases passage with
  | none =>
    exact (indifferent_lift (Engine.indifferent_leave hc p)).bind fun _ => indifferent_pure _
  | some passage =>
    refine indifferent_world_bind (fun _ => rfl) fun v => (indifferent_rename _).bind fun _ =>
      Indifferent.bind ?_ fun _ => indifferent_pure _
    cases v.names.passages.find? passage with
    | none => exact indifferent_pure ()
    | some old => exact indifferent_lift (Engine.indifferent_leave hc old)

theorem indifferent_exit (passage : String) : (exit call passage).Indifferent :=
  (indifferent_named _ _ _).bind fun p => (indifferent_rename _).bind fun _ =>
    indifferent_world_bind (fun _ => rfl) fun _ =>
      (indifferent_lift (Engine.indifferent_leave hc p)).bind fun _ => indifferent_pure _

theorem indifferent_callHook (id : String) (hook : Hook) (permitted : Bool) (plan : AccessPlan) :
    (callHook call id hook permitted plan).Indifferent := by
  refine (indifferent_named _ _ _).bind fun x => (indifferent_access plan).bind fun a =>
    (indifferent_lift (Engine.indifferent_record (by rfl))).bind fun _ => ?_
  have ask (phase : Phase) :=
    indifferent_last (Engine.indifferent_ask hc x phase a) Answer.truth
  have tell (phase : Phase) :=
    indifferent_last (Engine.indifferent_tell hc x phase a permitted) fun _ => Answer.ok
  cases hook with
  | beforeWrite => exact ask .write
  | beforeRead => exact ask .read
  | afterWrite => exact tell .write
  | afterRead => exact tell .read

theorem indifferent_chainWait (chain : String) (phase : Phase) (plan : AccessPlan) :
    (chainWait call chain phase plan).Indifferent := by
  have pass (xs : List Nat) (phase : Phase) (a : Access) : (do
      let p ← (Engine.enter call xs phase a : Performing Pass)
      Engine.leave call p
      return p : Performing Pass).Indifferent :=
    (indifferent_lift (Engine.indifferent_enter hc xs phase a)).bind fun p =>
      (indifferent_lift (Engine.indifferent_leave hc p)).bind fun _ => indifferent_pure _
  refine (indifferent_named _ _ _).bind fun xs => (indifferent_access plan).bind fun a =>
    (indifferent_lift (Engine.indifferent_record (by rfl))).bind fun _ =>
      (indifferent_lift (Engine.indifferent_enter hc xs .write a)).bind fun p =>
        (indifferent_lift (Engine.indifferent_leave hc p)).bind fun _ =>
          (indifferent_update (Engine.indifferent_modify fun _ => ⟨by rfl, by rfl, by rfl⟩)).bind
            fun _ => ?_
  exact Taped.bind ((pass xs phase _).ensure
    (Engine.indifferent_modify fun _ => ⟨by rfl, by rfl, by rfl⟩)) fun _ => indifferent_pure _

/-- What a step does, the taped step does on tape. -/
theorem perform_taped {s : Step} (hs : s.Deferring) :
    (perform call s).Taped (perform call s.taped) := by
  have hd := hs.defers
  have carried : ∀ f ∈ s.carried, f.Deferring := hs.carried
  cases s with
  | panic text => exact indifferent_last (Engine.indifferent_panic text) _
  | domain name label plan => exact taped_newDomain name label carried
  | trigger domain source sequence => exact indifferent_trigger hc domain source sequence
  | subscribe domain source dependent => exact indifferent_subscribe domain source dependent
  | unsubscribe domain source => exact indifferent_unsubscribe domain source
  | affinityInfo domain other => exact indifferent_affinityInfo domain other
  | dependent name f g =>
    exact taped_newDependent name
      (fun x hx => carried x (List.mem_append_left _ (Option.mem_toList.mpr hx)))
      fun x hx => carried x (List.mem_append_right _ (Option.mem_toList.mpr hx))
  | dropDependent name => exact indifferent_dropDependent name
  | dependentAffinity name domain =>
    exact (indifferent_named _ _ _).bind fun _ => (indifferent_affinityNamed _).bind fun _ =>
      indifferent_pure _
  | flag name value => exact (indifferent_rename _).bind fun _ => indifferent_pure _
  | note text => exact indifferent_pure _
  | store name plan => exact indifferent_newStore name plan
  | dropStore store => exact indifferent_dropStore store
  | storeInfo store => exact indifferent_storeInfo store
  | storeDebug store => exact indifferent_storeDebug store
  | find store type name key => exact indifferent_find store type name key
  | contains store id => exact indifferent_inspect store fun _ _ => by rfl
  | stateOf store id => exact indifferent_inspect store fun _ _ => by rfl
  | onExecute store label run =>
    exact taped_onExecute store label fun x hx => carried x (Option.mem_toList.mpr hx)
  | execute store => exact (indifferent_execute hc _ store).bind fun _ => indifferent_pure _
  | onExecuteIfTriggered store =>
    exact (indifferent_execute hc _ store).bind fun _ => indifferent_pure _
  | isTriggered store => exact indifferent_inspect store fun _ _ => by rfl
  | storeTrigger store => exact indifferent_storeTrigger hc store
  | onTrigger store source sequence => exact indifferent_onTrigger hc store source sequence
  | onAffinity store domain => exact indifferent_setAffinity "on_affinity" store domain
  | setAffinity store domain => exact indifferent_setAffinity "set_affinity" store domain
  | create store key name type argument convert plan =>
    exact taped_create hc store key name type argument convert carried
  | destroy key store => exact indifferent_destroy key store
  | write key store value => exact indifferent_write hc key store value
  | read key store => exact indifferent_read hc key store
  | readInto key store init => exact indifferent_readInto hc key store init
  | itemInfo key store => exact indifferent_itemInfo key store
  | itemDebug key store =>
    exact indifferent_withItem (fun _ _ _ => indifferent_look fun _ => by rfl) key store
  | parallelWrite key store threads each =>
    exact indifferent_parallelWrite hc key store threads each
  | keyInfo key other =>
    exact (indifferent_named _ _ _).bind fun _ => (indifferent_named _ _ _).bind fun _ =>
      indifferent_pure _
  | aspect id plan => exact taped_newAspect id carried
  | aspectInfo id => exact indifferent_aspectInfo id
  | chain name ls => exact taped_newChain name carried
  | factory name c d => exact indifferent_defaultChain name c d
  | enter chain phase passage plan => exact indifferent_enter hc chain phase passage plan
  | exit passage => exact indifferent_exit hc passage
  | hook aspect hook permitted plan => exact indifferent_callHook hc aspect hook permitted plan
  | chainWait chain phase plan => exact indifferent_chainWait hc chain phase plan
  | _ => cases hd

/-- A step is answered as the taped step is on tape. -/
theorem answer_taped {s : Step} (hs : s.Deferring) :
    (answer call s).Taped (answer call s.taped) := by
  refine Engine.Taped.bind (perform_taped hc hs) fun r => ?_
  cases r with
  | ok a => exact Engine.indifferent_pure a
  | error a => exact Engine.indifferent_pure a

end Calls

end GuardedStore.Performing
