import GuardedStore.Proofs.Nesting.Stores
import GuardedStore.Proofs.Run.Steps

/-!
Locks that steps need.

A step that binds a store needs its affinity, and one that registers a hook needs the list of hooks;
where they can be had, or are not needed, the step gives back whatever it takes. Where they cannot,
the step waits for ever.
-/
namespace GuardedStore

/-- The step would bind a store while a trigger of the store is being raised. -/
def World.rebinds (w : World) : Step → Bool
  | .onAffinity name domain | .setAffinity name domain =>
    (w.names.stores.find? name).any fun s =>
      0 < (w.store s).affinityReaders && !(w.store s).owned &&
        domain.all fun d => (w.names.domains.find? d).isSome
  | _ => false

/-- The step would register a hook with a store whose hooks are being run. -/
def World.registers (w : World) : Step → Bool
  | .onExecute name _ _ =>
    (w.names.stores.find? name).any fun s => (w.store s).signal.running && !(w.store s).owned
  | _ => false

namespace Engine

variable {α β : Type} {L : Law}

theorem keeps_mapM {f : α → Engine β} (hf : ∀ a, (f a).Keeps L) (l : List α) :
    (l.mapM f).Keeps L := by
  induction l with
  | nil => exact keeps_pure []
  | cons a l ih =>
    rw [List.mapM_cons]
    exact (hf a).bind fun b => ih.bind fun bs => keeps_pure (b :: bs)

end Engine

namespace Performing

variable {α β : Type} {call : Nat → Engine Unit} {w : World}

theorem keeps_mapM {L : Law} {f : α → Performing β} (hf : ∀ a, (f a).run.Keeps L) (l : List α) :
    (l.mapM f).run.Keeps L := by
  induction l with
  | nil => exact keeps_pure []
  | cons a l ih =>
    rw [List.mapM_cons]
    exact keeps_bind (hf a) fun b => keeps_bind ih fun bs => keeps_pure (b :: bs)

theorem looks_nests {m : Performing α} {P : World → α → Prop} (hm : m.Looks P) :
    m.run.Keeps nesting :=
  fun _ => hm.keepsAt

theorem update_nests {f : World → World} (hf : ∀ w, (f w).stores = w.stores) :
    (update f).run.Keeps nesting :=
  keeps_lift (Engine.change_nests hf)

theorem rename_nests (f : Names → Names) : (rename f).run.Keeps nesting :=
  update_nests fun _ => rfl

section Making

theorem routine_nests (script : Option Script) : (routine script).Keeps nesting := by
  cases script with
  | none => exact Engine.keeps_pure none
  | some script =>
    have hr : (Engine.newRoutine script).Keeps nesting := fun _ => Engine.aside_nests rfl nofun rfl
    exact hr.bind fun r => Engine.keeps_pure (some r)

theorem makeAspect_nests (a : Aspect Nat) : (Engine.newAspect a).Keeps nesting :=
  fun _ => Engine.aside_nests rfl nofun rfl

theorem aspect_nests (plan : AspectPlan Script) : (aspect plan).Keeps nesting := by
  cases plan with
  | probe p =>
    have hp : (probe p).Keeps nesting :=
      (routine_nests _).bind fun _ => (routine_nests _).bind fun _ =>
        (routine_nests _).bind fun _ => (routine_nests _).bind fun _ => Engine.keeps_pure _
    exact hp.bind fun p => makeAspect_nests _
  | _ => exact makeAspect_nests _

theorem links_nests (ls : List (Link Script)) : (links ls).run.Keeps nesting := by
  refine keeps_mapM (fun l => ?_) ls
  cases l with
  | shared name => exact looks_nests (looks_named _ _ _)
  | fresh plan => exact keeps_lift (aspect_nests plan)

theorem configured_nests (c : AspectConfig) : (configured c).Keeps nesting :=
  Engine.keeps_mapM makeAspect_nests _

theorem chainSource_nests (c : ChainSource Script) : (chainSource c).run.Keeps nesting := by
  cases c with
  | chain name => exact keeps_bind (looks_nests (looks_named _ _ _)) fun chain => keeps_pure _
  | links ls => exact keeps_bind (links_nests ls) fun chain => keeps_pure _
  | byItem items =>
    refine keeps_bind (keeps_mapM (fun i => ?_) items) fun chains => keeps_pure _
    exact keeps_bind (links_nests i.2) fun chain => keeps_pure _

/-- What a factory makes has nothing to do with stores. -/
theorem factory_nests (store : Nat) (plan : FactoryPlan Script) :
    (factory store plan).Brings nesting fun _ f => ∀ d, (f d).Keeps nesting := by
  cases plan with
  | store =>
    refine looks_world.brings.bind (fun _ => keeps_pure _) ?_
    rintro _ w f v - - ⟨⟩
    exact fun _ => configured_nests _
  | none => exact brings_pure fun _ _ => Engine.keeps_pure []
  | config c => exact brings_pure fun _ _ => configured_nests c
  | custom spy panics source =>
    refine Brings.bind (P := Any _) ⟨chainSource_nests source, fun _ _ _ _ => trivial⟩
      (fun _ => keeps_pure _) ?_
    rintro chains w f v - - ⟨⟩ d
    have hpanic : (do
        if panics then Engine.panic "factory"
        return chains d : Engine (List Nat)).Keeps nesting := by
      cases panics with
      | true => exact (Engine.panic_nests _).bind fun _ => Engine.keeps_pure _
      | false => exact Engine.keeps_pure _
    cases spy with
    | true => exact (Engine.record_nests _).bind fun _ => hpanic
    | false => exact hpanic

end Making

theorem orFault_nests {m : Engine (Except Fault α)} (hm : m.Keeps nesting) :
    (orFault m).run.Keeps nesting :=
  fun w => orFault_keepsAt (hm w)

theorem sharing_nests {s : Nat} {m : Performing α} (hm : m.run.Keeps nesting) :
    (sharing s m).run.Keeps nesting :=
  keeps_bind (looks_nests (looks_checkShareable s)) fun _ =>
    keeps_bind (keeps_lift (Engine.modifyStore_nests s fun _ => rfl)) fun _ =>
      Engine.Keeps.ensure hm (Engine.endSharing_nests s)

theorem owning_nests {s : Nat} {m : Performing α} (hm : m.run.Keeps nesting) :
    (owning s m).run.Keeps nesting :=
  keeps_bind (looks_nests (looks_checkUnused s)) fun _ =>
    keeps_bind (keeps_lift (Engine.modifyStore_nests s fun _ => rfl)) fun _ =>
      Engine.Keeps.ensure hm (Engine.endOwning_nests s)

theorem withItem_nests {key : String} {store : Option String}
    {m : NamedKey → Nat → Nat → Performing α} (hm : ∀ k s i, (m k s i).run.Keeps nesting) :
    (withItem key store m).run.Keeps nesting := by
  refine keeps_bind (looks_nests (looks_named _ _ _)) fun k =>
    keeps_bind (looks_nests (looks_presentedTo k store)) fun s => sharing_nests ?_
  refine keeps_bind (looks_nests looks_world) fun w => ?_
  split
  · exact hm k s _
  · exact keeps_throw _

theorem newStore_nests (name : String) (plan : StorePlan) :
    (newStore name plan).run.Keeps nesting := by
  refine keeps_bind (looks_nests (looks_settings plan)) fun c =>
    keeps_bind (orFault_nests (Engine.buildStore_nests _ _)) fun s =>
      keeps_bind (looks_nests looks_world) fun w => keeps_bind (rename_nests _) fun _ => ?_
  refine keeps_bind ?_ fun _ => keeps_pure _
  cases w.names.stores.find? name with
  | none => exact keeps_pure ()
  | some old => exact keeps_lift (Engine.replace_nests old)

theorem newDependent_nests (name : String) (onTrigger onExecute : Option Script) :
    (newDependent name onTrigger onExecute).run.Keeps nesting := by
  have hd (d : Dependent) : (Engine.newDependent d).Keeps nesting :=
    fun _ => Engine.aside_nests rfl nofun rfl
  refine keeps_bind (keeps_lift (routine_nests _)) fun _ =>
    keeps_bind (keeps_lift (routine_nests _)) fun _ => keeps_bind (keeps_lift (hd _)) fun d =>
      keeps_bind (looks_nests looks_world) fun w => keeps_bind (rename_nests _) fun _ => ?_
  refine keeps_bind ?_ fun _ => keeps_pure _
  cases w.names.dependents.find? name with
  | none => exact keeps_pure ()
  | some old => exact update_nests fun _ => rfl

theorem newDomain_nests (name label : String) (plan : DomainPlan Script) :
    (newDomain name label plan).run.Keeps nesting := by
  have register (mode : DomainMode) : (do
      let domain ← (Engine.newDomain { label, mode } : Performing Nat)
      rename fun n => { n with domains := n.domains.put name domain }
      return .ok : Performing Answer).run.Keeps nesting :=
    keeps_bind (keeps_lift fun _ => Engine.aside_nests rfl nofun rfl) fun _ =>
      keeps_bind (rename_nests _) fun _ => keeps_pure _
  cases plan with
  | recording => exact register _
  | cooperative => exact register _
  | immediate script => exact keeps_bind (keeps_lift (routine_nests script)) fun _ => register _

/-! ### Steps that need a lock -/

section Needing

variable {name : String} {domain : Option String}

theorem looks_offered (domain : Option String) : (affinityNamed domain).Looks fun w _ =>
    domain.all fun d => (w.names.domains.find? d).isSome := by
  cases domain with
  | none => exact (looks_pure none).mono fun _ _ _ => rfl
  | some d =>
    rw [affinityNamed, map_eq_pure_bind]
    exact (looks_named _ _ _).bind fun _ => (looks_pure _).mono fun _ _ _ hd =>
      congrArg Option.isSome hd

theorem setAffinity_nests (h : w.rebinds (.setAffinity name domain) = false) (step : String) :
    (setAffinity step name domain).run.KeepsAt nesting w := by
  refine (looks_refuseWhen _ _).keepsAt_bind fun _ _ => (looks_named _ _ _).keepsAt_bind fun s hs =>
    (looks_offered domain).keepsAt_bind fun affinity hd =>
      (looks_checkShareable s).keepsAt_bind fun _ ho => ?_
  have hreaders : (w.store s).affinityReaders = 0 := by simpa [World.rebinds, hs, ho, hd] using h
  exact keepsAt_lift_bind (Engine.setAffinity_nests hreaders affinity) fun _ v _ _ => keeps_pure _ v

/-- A store cannot be bound while a trigger is being raised through its affinity. -/
theorem setAffinity_waits (h : w.rebinds (.setAffinity name domain)) (hd : w.triggerDepth = 0)
    (step : String) : (setAffinity step name domain).run w = (.stuck, w) := by
  obtain ⟨s, hs, hlocked⟩ := (Option.any_eq_true _ _).mp h
  simp only [Bool.and_eq_true, decide_eq_true_eq, Bool.not_eq_true'] at hlocked
  obtain ⟨⟨hreaders, hunowned⟩, hdomain⟩ := hlocked
  have hrefuse := run_refuseWhen step (fun w => 0 < w.triggerDepth) w
  rw [if_neg (by simp [hd])] at hrefuse
  obtain ⟨affinity, haffinity⟩ : ∃ a, (affinityNamed domain).run w = (.done (.ok a), w) := by
    cases domain with
    | none => exact ⟨none, rfl⟩
    | some d =>
      obtain ⟨r, hr⟩ := Option.isSome_iff_exists.mp hdomain
      refine ⟨some r, ?_⟩
      rw [affinityNamed, map_eq_pure_bind, domainNamed, run_bind_ok (named_run hr)]
      rfl
  have hwait : Engine.setAffinity s affinity w = (.stuck, w) := by
    unfold Engine.setAffinity
    rw [Engine.bind_of_done (m := Engine.get) rfl]
    dsimp only
    rw [if_pos hreaders]
    rfl
  calc (setAffinity step name domain).run w
    _ = _ := run_bind_ok hrefuse
    _ = _ := run_bind_ok (m := storeNamed name) (named_run hs)
    _ = _ := run_bind_ok haffinity
    _ = _ := run_bind_ok (checkShareable_run hunowned)
    _ = (.stuck, w) := by rw [run_lift_bind, Engine.bind_apply, hwait]

theorem answer_waits {s : Step} (h : w.rebinds s) (hd : w.triggerDepth = 0) :
    answer call s w = (.stuck, w) := by
  have hwait : (perform call s).run w = (.stuck, w) := by
    cases s with
    | onAffinity name domain => exact setAffinity_waits h hd _
    | setAffinity name domain => exact setAffinity_waits h hd _
    | _ => cases h
  unfold answer
  rw [Engine.bind_apply, hwait]

theorem onExecute_nests {label : String} {run : Option Script}
    (h : w.registers (.onExecute name label run) = false) :
    (onExecute name label run).run.KeepsAt nesting w := by
  refine (looks_refuseWhen _ _).keepsAt_bind fun _ _ => (looks_named _ _ _).keepsAt_bind fun s hs =>
    (looks_checkShareable s).keepsAt_bind fun _ ho =>
      keepsAt_lift_bind (routine_nests run w) fun script v _ hv => ?_
  have hrunning : (w.store s).signal.running = false := by simpa [World.registers, hs, ho] using h
  exact keepsAt_lift_bind (Engine.onExecute_nests (hv.2.running hrunning) _) fun _ v _ _ =>
    keeps_pure _ v

end Needing

/-! ### All steps -/

section Calls

variable (hc : ∀ r, (call r).Keeps nesting)

include hc

theorem execute_nests (step name : String) : (execute call step name).run.Keeps nesting :=
  keeps_bind (looks_nests (looks_storeNamed name)) fun s =>
    keeps_bind (looks_nests (looks_checkShareable s)) fun _ =>
      keeps_bind (looks_nests (looks_refuseWhen _ _)) fun _ =>
        sharing_nests (keeps_lift (Engine.executeStore_nests hc s))

theorem storeTrigger_nests (name : String) : (storeTrigger call name).run.Keeps nesting := by
  refine keeps_bind (looks_nests (looks_storeNamed name)) fun s => sharing_nests ?_
  refine keeps_bind (looks_nests looks_world) fun w =>
    keeps_bind (update_nests fun _ => rfl) fun _ => keeps_bind ?_ fun _ => keeps_pure _
  exact Engine.Keeps.ensure (keeps_lift (Engine.triggerStore_nests hc s))
    (Engine.change_nests fun _ => rfl)

theorem create_nests (storeName key name : String) (type : ValueType) (argument : Literal)
    (convert : Option ArgumentType) (plan : FactoryPlan Script) :
    (create call storeName key name type argument convert plan).run.Keeps nesting := by
  refine keeps_bind (looks_nests (looks_storeNamed _)) fun s => owning_nests fun w => ?_
  refine keepsAt_bind ((factory_nests s plan).1 w) fun f v hr _ => ?_
  have hf := (factory_nests s plan).2 trivial hr f rfl
  refine keeps_bind (looks_nests (looks_orUnreadable _)) (fun value => ?_) v
  refine keeps_bind (orFault_nests (Engine.create_nests hc s name value hf)) fun _ => ?_
  exact keeps_bind (looks_nests looks_world) fun _ => keeps_bind (rename_nests _) fun _ =>
    keeps_pure _

theorem readInto_nests (key : String) (store : Option String) (init : Literal) :
    (readInto call key store init).run.Keeps nesting := by
  refine withItem_nests fun k s i => keeps_bind (looks_nests (looks_orUnreadable _)) fun _ =>
    keeps_bind (keeps_lift (Engine.read_nests hc i)) fun r => ?_
  cases r with
  | ok value => exact keeps_pure _
  | error fault => exact keeps_pure _

theorem parallelWrite_nests (key : String) (store : Option String) (threads each : Nat) :
    (parallelWrite call key store threads each).run.Keeps nesting := by
  refine withItem_nests fun k s i => keeps_bind (looks_nests (looks_orUnreadable _)) fun values =>
    keeps_bind (update_nests fun _ => rfl) fun _ => keeps_bind ?_ fun _ =>
      keeps_bind (looks_nests looks_world) fun _ => keeps_pure _
  refine Engine.Keeps.ensure ?_ (Engine.change_nests fun _ => rfl)
  induction values with
  | nil => exact keeps_pure ()
  | cons v values ih => exact keeps_bind (keeps_lift (Engine.write_nests hc i v)) fun _ => ih

theorem enter_nests (chain : String) (phase : Phase) (passage : Option String)
    (plan : AccessPlan) : (enter call chain phase passage plan).run.Keeps nesting := by
  have hleave (p : Pass) : (liftM (Engine.leave call p) : Performing Unit).run.Keeps nesting :=
    keeps_lift (Engine.leave_nests hc p)
  refine keeps_bind (looks_nests (looks_named _ _ _)) fun chain =>
    keeps_bind (looks_nests (looks_access plan)) fun access =>
      keeps_bind (keeps_lift (Engine.record_nests _)) fun _ =>
        keeps_bind (keeps_lift (Engine.enter_nests hc chain phase access)) fun pass =>
          keeps_bind (looks_nests looks_world) fun w => ?_
  cases passage with
  | none => exact keeps_bind (hleave pass) fun _ => keeps_pure _
  | some passage =>
    refine keeps_bind (looks_nests looks_world) fun w => keeps_bind (rename_nests _) fun _ =>
      keeps_bind ?_ fun _ => keeps_pure _
    cases w.names.passages.find? passage with
    | none => exact keeps_pure ()
    | some old => exact hleave old

theorem chainWait_nests (chain : String) (phase : Phase) (plan : AccessPlan) :
    (chainWait call chain phase plan).run.Keeps nesting := by
  refine keeps_bind (looks_nests (looks_named _ _ _)) fun chain =>
    keeps_bind (looks_nests (looks_access plan)) fun access =>
      keeps_bind (keeps_lift (Engine.record_nests _)) fun _ =>
        keeps_bind (keeps_lift (Engine.enter_nests hc chain .write access)) fun first =>
          keeps_bind (keeps_lift (Engine.leave_nests hc first)) fun _ =>
            keeps_bind (update_nests fun _ => rfl) fun _ => keeps_bind ?_ fun _ => keeps_pure _
  refine Engine.Keeps.ensure ?_ (Engine.change_nests fun _ => rfl)
  exact keeps_bind (keeps_lift (Engine.enter_nests hc chain phase _)) fun second =>
    keeps_bind (keeps_lift (Engine.leave_nests hc second)) fun _ => keeps_pure second

theorem callHook_nests (id : String) (hook : Hook) (permitted : Bool) (plan : AccessPlan) :
    (callHook call id hook permitted plan).run.Keeps nesting := by
  refine keeps_bind (looks_nests (looks_named _ _ _)) fun aspect =>
    keeps_bind (looks_nests (looks_access plan)) fun access =>
      keeps_bind (keeps_lift (Engine.record_nests _)) fun _ => ?_
  cases hook with
  | beforeWrite =>
    exact keeps_bind (keeps_lift (Engine.ask_nests hc aspect .write access)) fun _ => keeps_pure _
  | beforeRead =>
    exact keeps_bind (keeps_lift (Engine.ask_nests hc aspect .read access)) fun _ => keeps_pure _
  | afterWrite =>
    exact keeps_bind (keeps_lift (Engine.tell_nests hc aspect .write access permitted)) fun _ =>
      keeps_pure _
  | afterRead =>
    exact keeps_bind (keeps_lift (Engine.tell_nests hc aspect .read access permitted)) fun _ =>
      keeps_pure _

/-- A step that needs no lock which is taken gives back whatever it takes. -/
theorem perform_nests {s : Step} (hb : w.rebinds s = false) (hr : w.registers s = false) :
    (perform call s).run.KeepsAt nesting w := by
  cases s with
  | panic text => exact keeps_bind (keeps_lift (Engine.panic_nests text)) (fun _ => keeps_pure _) w
  | domainInfo _ | sourceInfo _ _ _ | affinityInfo _ _ | dependentAffinity _ _ | note _
  | storeInfo _ | storeDebug _ | contains _ _ | stateOf _ _ | isTriggered _ | keyInfo _ _
  | aspectInfo _ => exact (perform_looks rfl).keepsAt
  | domain name label plan => exact newDomain_nests name label plan w
  | clear domain =>
    refine keeps_bind (looks_nests (looks_named _ _ _)) (fun d => ?_) w
    refine keeps_bind (looks_nests looks_world) fun w => ?_
    split
    · exact keeps_bind (keeps_lift (Engine.modifyDomain_nests d _)) fun _ => keeps_pure _
    · exact keeps_throw _
  | runPending domain =>
    refine keeps_bind (looks_nests (looks_refuseWhen _ _)) (fun _ => ?_) w
    refine keeps_bind (looks_nests (looks_named _ _ _)) fun d =>
      keeps_bind (looks_nests looks_world) fun w => ?_
    split
    · exact keeps_bind (keeps_lift (Engine.runPending_nests hc d)) fun _ => keeps_pure _
    · exact keeps_throw _
  | trigger domain source sequence =>
    refine keeps_bind (looks_nests (looks_sourceNamed source)) (fun _ => ?_) w
    exact keeps_bind (looks_nests (looks_affinityNamed domain)) fun _ =>
      keeps_bind (keeps_lift (Engine.trigger_nests hc _ _ _)) fun _ => keeps_pure _
  | subscribe domain source dependent =>
    refine keeps_bind (looks_nests (looks_affinityNamed domain)) (fun _ => ?_) w
    exact keeps_bind (looks_nests (looks_sourceNamed source)) fun _ =>
      keeps_bind (looks_nests (looks_named _ _ _)) fun _ =>
        keeps_bind (keeps_lift (Engine.record_nests _)) fun _ =>
          keeps_bind (keeps_lift (Engine.subscribe_nests _ _ _)) fun _ => keeps_pure _
  | unsubscribe domain source =>
    refine keeps_bind (looks_nests (looks_affinityNamed domain)) (fun _ => ?_) w
    exact keeps_bind (looks_nests (looks_sourceNamed source)) fun _ =>
      keeps_bind (keeps_lift (Engine.record_nests _)) fun _ =>
        keeps_bind (keeps_lift (Engine.unsubscribe_nests _ _)) fun _ => keeps_pure _
  | dependent name onTrigger onExecute => exact newDependent_nests name onTrigger onExecute w
  | dropDependent name =>
    refine keeps_bind (looks_nests looks_world) (fun w => ?_) w
    split
    · exact keeps_bind (rename_nests _) fun _ =>
        keeps_bind (update_nests fun _ => rfl) fun _ => keeps_pure _
    · exact keeps_pure _
  | flag name value => exact keeps_bind (rename_nests _) (fun _ => keeps_pure _) w
  | store name plan => exact newStore_nests name plan w
  | dropStore store =>
    refine keeps_bind (looks_nests (looks_storeNamed store)) (fun s => ?_) w
    exact keeps_bind (looks_nests (looks_checkUnused s)) fun _ => keeps_bind (rename_nests _)
      fun _ => keeps_bind (keeps_lift (Engine.dropStore_nests s)) fun _ => keeps_pure _
  | find store type name key =>
    refine keeps_bind (looks_nests (looks_storeNamed store)) (fun s => ?_) w
    refine keeps_bind (looks_nests (looks_checkShareable s)) fun _ =>
      keeps_bind (looks_nests looks_world) fun w => ?_
    dsimp only
    split
    · exact keeps_bind (rename_nests _) fun _ => keeps_pure _
    · exact keeps_pure _
  | onExecute store label run => exact onExecute_nests hr
  | execute store => exact keeps_bind (execute_nests hc _ store) (fun _ => keeps_pure _) w
  | onExecuteIfTriggered store =>
    exact keeps_bind (execute_nests hc _ store) (fun _ => keeps_pure _) w
  | storeTrigger store => exact storeTrigger_nests hc store w
  | onTrigger store source sequence =>
    refine keeps_bind (looks_nests (looks_storeNamed store)) (fun s => ?_) w
    exact keeps_bind (looks_nests (looks_checkShareable s)) fun _ =>
      keeps_bind (looks_nests (looks_sourceNamed source)) fun _ =>
        keeps_bind (keeps_lift (Engine.prompt_nests hc s _)) fun _ => keeps_pure _
  | onAffinity store domain => exact setAffinity_nests hb _
  | setAffinity store domain => exact setAffinity_nests hb _
  | create store key name type argument convert factory =>
    exact create_nests hc store key name type argument convert factory w
  | destroy key store =>
    refine keeps_bind (looks_nests (looks_named _ _ _)) (fun k => ?_) w
    exact keeps_bind (looks_nests (looks_presentedTo k store)) fun s => owning_nests <|
      keeps_bind (orFault_nests (Engine.destroy_nests s k.key)) fun _ => keeps_pure _
  | write key store value =>
    refine withItem_nests (fun k s i => ?_) w
    exact keeps_bind (looks_nests (looks_orUnreadable _)) fun value =>
      keeps_bind (keeps_lift (Engine.write_nests hc i value)) fun _ => keeps_pure _
  | read key store =>
    refine withItem_nests (fun k s i => ?_) w
    exact keeps_bind (orFault_nests (Engine.read_nests hc i)) fun _ => keeps_pure _
  | readInto key store init => exact readInto_nests hc key store init w
  | itemInfo key store =>
    exact withItem_nests (fun k s i => keeps_bind (looks_nests looks_world) fun _ =>
      keeps_pure _) w
  | itemDebug key store =>
    exact withItem_nests (fun k s i => keeps_bind (looks_nests looks_world) fun _ =>
      keeps_pure _) w
  | parallelWrite key store threads each => exact parallelWrite_nests hc key store threads each w
  | aspect id plan =>
    exact keeps_bind (keeps_lift (aspect_nests plan)) (fun _ => keeps_bind (rename_nests _)
      fun _ => keeps_pure _) w
  | chain name links =>
    exact keeps_bind (links_nests links) (fun _ => keeps_bind (rename_nests _) fun _ =>
      keeps_bind (looks_nests looks_world) fun _ => keeps_pure _) w
  | factory name c d =>
    refine keeps_bind (looks_nests (looks_descriptor d)) (fun _ => ?_) w
    exact keeps_bind (keeps_lift (configured_nests c)) fun _ => keeps_bind (rename_nests _)
      fun _ => keeps_bind (looks_nests looks_world) fun _ => keeps_pure _
  | enter chain phase passage access => exact enter_nests hc chain phase passage access w
  | exit passage =>
    refine keeps_bind (looks_nests (looks_named _ _ _)) (fun pass => ?_) w
    exact keeps_bind (rename_nests _) fun _ => keeps_bind (looks_nests looks_world) fun _ =>
      keeps_bind (keeps_lift (Engine.leave_nests hc pass)) fun _ => keeps_pure _
  | hook aspect hook permitted access => exact callHook_nests hc aspect hook permitted access w
  | chainWait chain phase access => exact chainWait_nests hc chain phase access w

theorem answer_nests {s : Step} (hb : w.rebinds s = false) (hr : w.registers s = false) :
    (answer call s).KeepsAt nesting w := by
  refine (perform_nests hc hb hr).bind fun r v _ _ => ?_
  cases r with
  | ok a => exact Engine.keeps_pure a v
  | error a => exact Engine.keeps_pure a v

end Calls

end Performing

end GuardedStore
