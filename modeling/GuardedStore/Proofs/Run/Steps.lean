import GuardedStore.Proofs.Run.Factories
import GuardedStore.Proofs.Run.Readying

/-!
What every step keeps: a law that admits the operations of the engine is kept by every step,
whatever scripts the step sets off.
-/
namespace GuardedStore.Performing

variable {call : Nat → Engine Unit} {L : Law} {Usable : World → Nat → Prop}
  (h : Engine.Admits call L Usable)

include h

theorem newDomain_keeps (name label : String) (plan : DomainPlan Script) :
    (newDomain name label plan).run.Keeps L := by
  have register (mode : DomainMode) (hm : mode.Fresh) :
      (do
        let domain ← (Engine.newDomain { label, mode } : Performing Nat)
        rename fun n => { n with domains := n.domains.put name domain }
        return .ok : Performing Answer).run.Keeps L := by
    intro w
    refine keepsAt_lift_bind (h.newDomain hm w) fun d v hr _ => ?_
    have hd : d < v.domains.next := by cases hr; exact Nat.lt_succ_self _
    refine keepsAt_bind (rename_keepsAt h.toBasics rfl rfl (fun hn => ?_) .inl) fun _ v _ _ =>
      keeps_pure _ v
    exact { hn with
      domains := fun {name' e} he => by
        simp only [Table.find?_put] at he
        split at he
        · cases he; exact hd
        · exact hn.domains he }
  cases plan with
  | recording => exact register _ .recording
  | cooperative => exact register _ .cooperative
  | immediate script =>
    exact keeps_bind (keeps_lift (routine_keeps h.toBasics script)) fun s => register _ (.immediate s)

theorem clear_keeps (domain : String) : (clear domain).run.Keeps L := by
  intro w
  refine (looks_named _ _ _).keepsAt_bind fun r _ => looks_world.keepsAt_bind fun v _ => ?_
  split
  · exact keepsAt_lift_bind (h.clear r w) fun _ v _ _ => keeps_pure _ v
  · exact keeps_throw _ w

theorem runPending_keeps (domain : String) : (runPending call domain).run.Keeps L := by
  intro w hw
  refine (looks_refuseWhen _ _).keepsAt_bind (fun _ _ => (looks_named _ _ _).keepsAt_bind fun r hr =>
    looks_world.keepsAt_bind fun v hv => ?_) hw
  subst hv
  split
  · next hm =>
    have hk : (v.domain r).kind = .cooperative := by unfold Domain.kind; rw [hm]
    exact keepsAt_lift_bind (h.runPending hk ((h.sound hw).names.domains hr))
      fun _ v _ _ => keeps_pure _ v
  · exact keeps_throw _ v

theorem trigger_keeps (domain : Option String) (source : SourceName) (sequence : Nat) :
    (trigger call domain source sequence).run.Keeps L := by
  intro w hw
  refine (looks_sourceNamed _).keepsAt_bind (fun _ _ => (looks_affinityNamed _).keepsAt_bind
    fun d hd => ?_) hw
  exact keepsAt_lift_bind (h.trigger _ (hd (h.sound hw).names)) fun _ v _ _ => keeps_pure _ v

theorem subscribe_keeps (domain : Option String) (source : SourceName) (dependent : String) :
    (subscribe domain source dependent).run.Keeps L := by
  intro w hw
  refine (looks_affinityNamed _).keepsAt_bind (fun d hd => (looks_sourceNamed _).keepsAt_bind
    fun s _ => (looks_named _ _ _).keepsAt_bind fun r _ => ?_) hw
  exact (keepsAt_lift_bind (f := fun _ => pure .ok)
    (h.subscribe s r (hd (h.sound hw).names)) fun _ v _ _ => keeps_pure _ v).congr rfl

theorem unsubscribe_keeps (domain : Option String) (source : SourceName) :
    (unsubscribe domain source).run.Keeps L := by
  intro w hw
  refine (looks_affinityNamed _).keepsAt_bind (fun d hd => (looks_sourceNamed _).keepsAt_bind
    fun s _ => ?_) hw
  exact (keepsAt_lift_bind (f := fun _ => pure .ok) (h.unsubscribe s (hd (h.sound hw).names))
    fun _ v _ _ => keeps_pure _ v).congr rfl

theorem disown_keeps (dependent : Nat) : (disown dependent).run.Keeps L :=
  fun _ => update_keepsAt h.toBasics (.of_names rfl rfl rfl rfl rfl rfl rfl ⟨[], by simp, rfl⟩)

theorem newDependent_keeps (name : String) (onTrigger onExecute : Option Script) :
    (newDependent name onTrigger onExecute).run.Keeps L := by
  refine keeps_bind (keeps_lift (routine_keeps h.toBasics _)) fun _ =>
    keeps_bind (keeps_lift (routine_keeps h.toBasics _)) fun _ => keeps_bind (keeps_lift ?_) fun d => ?_
  · exact fun _ => Engine.keepsAt_of_eq rfl
      (h.idle (.of_names rfl rfl rfl rfl rfl rfl rfl ⟨[], by simp, rfl⟩))
  · refine fun w => looks_world.keepsAt_bind fun v _ => ?_
    refine keepsAt_bind (rename_keepsAt h.toBasics rfl rfl (fun hn => { hn with }) .inl)
      fun _ u _ _ => ?_
    refine keepsAt_bind ?_ fun _ u _ _ => keeps_pure _ u
    cases v.names.dependents.find? name with
    | none => exact keeps_pure _ u
    | some old => exact disown_keeps h old u

theorem dropDependent_keeps (name : String) : (dropDependent name).run.Keeps L := by
  intro w
  refine looks_world.keepsAt_bind fun v _ => ?_
  split
  · refine keepsAt_bind (rename_keepsAt h.toBasics rfl rfl (fun hn => { hn with }) .inl)
      fun _ u _ _ => ?_
    exact keepsAt_bind (disown_keeps h _ u) fun _ v _ _ => keeps_pure _ v
  · exact keeps_pure _ w

theorem setFlag_keeps (name : String) (value : Bool) : (setFlag name value).run.Keeps L :=
  fun _ => keepsAt_bind (rename_keepsAt h.toBasics rfl rfl (fun hn => { hn with }) .inl)
    fun _ v _ _ => keeps_pure _ v

theorem find_keeps (storeName : String) (type : ValueType) (name : String) (key : Option String) :
    (find storeName type name key).run.Keeps L := by
  intro w
  refine (looks_storeNamed _).keepsAt_bind fun s _ => (looks_checkShareable s).keepsAt_bind
    fun _ _ => looks_world.keepsAt_bind fun v _ => ?_
  dsimp only
  split
  · exact keepsAt_bind (rename_keepsAt h.toBasics rfl rfl (fun hn => { hn with }) .inl)
      fun _ v _ _ => keeps_pure _ v
  · exact keeps_pure _ w

theorem onExecute_keeps (name label : String) (run : Option Script) :
    (onExecute name label run).run.Keeps L := by
  intro w hw
  refine (looks_refuseWhen _ _).keepsAt_bind (fun _ _ => (looks_storeNamed _).keepsAt_bind
    fun s hs => (looks_checkShareable s).keepsAt_bind fun _ _ =>
      keepsAt_lift_bind (routine_keeps h.toBasics run w) fun script v _ hv => ?_) hw
  have hlt := Nat.lt_of_lt_of_le ((h.sound hw).named hs) (h.grows hv.2).stores
  exact keepsAt_lift_bind (h.onExecute _ hlt) fun _ v _ _ => keeps_pure _ v

/-- A step that shares a store, and what it does while it does so. -/
theorem sharing_keepsAt {α : Type} {s : Nat} {m : Performing α} {w : World} (hs : w.Named s)
    (hm : (w.store s).owned = false → m.run.KeepsAt L (w.share s)) :
    (sharing s m).run.KeepsAt L w :=
  (looks_checkShareable s).keepsAt_bind fun _ ho => (h.sharing hs ho (hm ho)).congr rfl

theorem execute_keeps (step name : String) : (execute call step name).run.Keeps L := by
  intro w hw
  refine (looks_storeNamed _).keepsAt_bind (fun s hs => (looks_checkShareable s).keepsAt_bind
    fun _ _ => (looks_refuseWhen _ _).keepsAt_bind fun _ _ => sharing_keepsAt h hs fun _ => ?_) hw
  refine keepsAt_lift (h.executeStore ((h.sound hw).named hs) ?_)
  rw [World.share, World.store_modifyStore, if_pos rfl]
  simp [Store.inUse]

theorem storeTrigger_keeps (name : String) : (storeTrigger call name).run.Keeps L := by
  intro w hw
  refine (looks_storeNamed _).keepsAt_bind (fun s hs => sharing_keepsAt h hs fun _ =>
    looks_world.keepsAt_bind fun v _ => ?_) hw
  have hd (n : Nat) (u : World) : u.Idle { u with triggerDepth := n } :=
    .of_names rfl rfl rfl rfl rfl rfl rfl ⟨[], by simp, rfl⟩
  refine keepsAt_bind (update_keepsAt h.toBasics (hd _ _)) fun _ u hr hu => ?_
  have hlt : s < u.stores.next := by cases hr; exact (h.sound hw).named hs
  refine keepsAt_bind (Engine.KeepsAt.ensure (keepsAt_lift (h.triggerStore hlt))
    fun _ u _ _ _ => idle_keeps h.toBasics (hd _) u) fun _ v _ _ => keeps_pure _ v

theorem onTrigger_keeps (name : String) (source : SourceName) (sequence : Nat) :
    (onTrigger call name source sequence).run.Keeps L := by
  intro w hw
  refine (looks_storeNamed _).keepsAt_bind (fun s hs => (looks_checkShareable s).keepsAt_bind
    fun _ _ => (looks_sourceNamed _).keepsAt_bind fun _ _ => ?_) hw
  exact keepsAt_lift_bind (h.prompt _ ((h.sound hw).named hs)) fun _ v _ _ => keeps_pure _ v

theorem setAffinity_keeps (step name : String) (domain : Option String) :
    (setAffinity step name domain).run.Keeps L := by
  intro w hw
  refine (looks_refuseWhen _ _).keepsAt_bind (fun _ _ => (looks_storeNamed _).keepsAt_bind
    fun s hs => (looks_affinityNamed _).keepsAt_bind fun a ha =>
      (looks_checkShareable s).keepsAt_bind fun _ ho => ?_) hw
  exact keepsAt_lift_bind (h.setAffinity hs ho (ha (h.sound hw).names)) fun _ v _ _ =>
    keeps_pure _ v

/-- A step on an item may rely on the item's being there, usable and of the type of its key. -/
theorem withItem_keeps {α : Type} (key : String) (store : Option String)
    {m : NamedKey → Nat → Nat → Performing α}
    (hm : ∀ {w i} (k : NamedKey) s, L.inv w → Usable w i → i < w.items.next →
      (w.item i).descriptor.type = k.key.type → (m k s i).run.KeepsAt L w) :
    (withItem key store m).run.Keeps L := by
  intro w hw
  refine (looks_named _ _ _).keepsAt_bind (fun k _ => (looks_presentedTo k store).keepsAt_bind
    fun s hs => sharing_keepsAt h hs fun ho => looks_world.keepsAt_bind fun v hv => ?_) hw
  subst hv
  split
  · next i hi =>
    intro hw'
    have hm' := World.mem_arena_of_locate hi
    exact hm k s hw' (h.usable hw hs ho hm') ((h.sound hw').arenas hm').1
      (World.type_of_locate hi) hw'
  · exact keeps_throw _ _

theorem write_keeps (key : String) (store : Option String) (value : Literal) :
    (write call key store value).run.Keeps L :=
  withItem_keeps h key store fun _ _ _ hi _ hd => (looks_orUnreadable _).keepsAt_bind fun v hv =>
    keepsAt_lift_bind (h.write v hi ((Literal.type_of_value? hv).trans hd.symm)) fun _ v _ _ =>
      keeps_pure _ v

theorem read_keeps (key : String) (store : Option String) :
    (read call key store).run.Keeps L :=
  withItem_keeps h key store fun _ _ _ hi _ _ => keepsAt_bind (orFault_keepsAt (h.read hi))
    fun _ v _ _ => keeps_pure _ v

theorem readInto_keeps (key : String) (store : Option String) (init : Literal) :
    (readInto call key store init).run.Keeps L :=
  withItem_keeps h key store fun _ _ _ hi _ _ => (looks_orUnreadable _).keepsAt_bind fun v _ => by
    refine keepsAt_lift_bind (h.read hi) fun r u _ _ => ?_
    cases r with
    | ok a => exact keeps_pure _ u
    | error e => exact keeps_pure _ u

/-- Writes of one item, one after the other. -/
theorem writes_keep {t : ValueType} (values : List Value) : (∀ v ∈ values, v.type = t) →
    ∀ {w i}, L.inv w → Usable w i → i < w.items.next → (w.item i).descriptor.type = t →
    (values.forM fun v => (liftM (Engine.write call i v) : Performing Unit)).run.KeepsAt L w := by
  induction values with
  | nil => exact fun _ _ _ _ _ _ _ => keeps_pure _ _
  | cons v values ih =>
    intro ht w i hw hi hlt hd
    refine keepsAt_lift_bind (h.write v hi ((ht v List.mem_cons_self).trans hd.symm))
      fun _ u _ hu => ?_
    have hg := h.grows hu.2
    exact ih (fun v hv => ht v (List.mem_cons_of_mem _ hv)) hu.1 (h.still_usable hi hw hu)
      (Nat.lt_of_lt_of_le hlt hg.items) (by rw [hg.descriptor hlt, hd])

theorem parallelWrite_keeps (key : String) (store : Option String) (threads each : Nat) :
    (parallelWrite call key store threads each).run.Keeps L :=
  withItem_keeps h key store fun {w _} k _ hw hi hlt hd =>
    (looks_orUnreadable _).keepsAt_bind fun values hvs => by
      have ht : ∀ v ∈ values, v.type = k.key.type := fun v hv => by
        obtain ⟨n, hn⟩ := exists_of_mem_mapM hvs v hv
        exact Value.type_of_ofNat? hn
      have hm (b : Bool) (u : World) : u.Idle { u with muted := b } :=
        .of_names rfl rfl rfl rfl rfl rfl rfl ⟨[], by simp, rfl⟩
      refine keepsAt_bind (update_keepsAt h.toBasics (hm true w)) fun _ u _ hu => ?_
      have hg := h.grows hu.2
      refine keepsAt_bind (Engine.KeepsAt.ensure
        (writes_keep h values ht hu.1 (h.still_usable hi hw hu)
          (Nat.lt_of_lt_of_le hlt hg.items) ((congrArg Descriptor.type (hg.descriptor hlt)).trans hd))
        fun _ v _ _ _ => idle_keeps h.toBasics (hm false) v) fun _ v _ _ => ?_
      exact looks_world.keepsAt_bind fun x _ => keeps_pure _ v

theorem newAspect_keeps (id : String) (plan : AspectPlan Script) :
    (newAspect id plan).run.Keeps L := by
  intro w hw
  refine keepsAt_lift_bind ((aspect_brings h.toBasics plan).1 w) (fun a v hr _ => ?_) hw
  have ha := (aspect_brings h.toBasics plan).2 hw hr
  refine keepsAt_bind (rename_keepsAt h.toBasics rfl rfl (fun hn => ?_) fun {x} hx => ?_)
    fun _ v _ _ => keeps_pure _ v
  · exact { hn with
      aspects := fun {name i} hi => by
        simp only [Table.find?_put] at hi
        split at hi
        · cases hi; exact ha
        · exact hn.aspects hi }
  · rcases hx with ⟨name, hi⟩ | hx
    · simp only [Table.find?_put] at hi
      split at hi
      · cases hi
        exact (readies_aspect hr).public_of_mem (h.sound hw) List.mem_cons_self
      · exact .inl (.inl ⟨name, hi⟩)
    · exact .inl (.inr hx)

theorem putChain_keeps (name : String) {chain : List Nat} {w : World} (hc : w.Has chain)
    (hn : ∀ x ∈ chain, w.Public x) :
    (rename fun n => { n with chains := n.chains.put name chain }).run.KeepsAt L w := by
  refine rename_keepsAt h.toBasics rfl rfl (fun hv => ?_) fun {x} hx => ?_
  · exact { hv with
      chains := fun {name' c a} hf ha => by
        simp only [Table.find?_put] at hf
        split at hf
        · cases hf; exact hc a ha
        · exact hv.chains hf ha }
  · rcases hx with hx | ⟨name', c, hf, hx⟩
    · exact .inl (.inl hx)
    · simp only [Table.find?_put] at hf
      split at hf
      · cases hf
        exact hn x hx
      · exact .inl (.inr ⟨name', c, hf, hx⟩)

theorem newChain_keeps (name : String) (ls : List (Link Script)) :
    (newChain name ls).run.Keeps L := by
  intro w hw
  refine keepsAt_bind ((links_bring h.toBasics ls).1 w) (fun chain v hr _ => ?_) hw
  exact keepsAt_bind (putChain_keeps h name ((links_bring h.toBasics ls).2 hw hr chain rfl)
      fun x hx => (readies_links hr).public_of_mem (h.sound hw) hx)
    fun _ u _ _ => looks_world.keepsAt_bind fun _ _ => keeps_pure _ u

theorem defaultChain_keeps (name : String) (c : AspectConfig) (d : DescriptorPlan) :
    (defaultChain name c d).run.Keeps L := by
  intro w hw
  refine (looks_descriptor d).keepsAt_bind (fun _ _ =>
    keepsAt_lift_bind ((configured_brings h.toBasics c).1 w) fun chain v hr _ => ?_) hw
  exact keepsAt_bind (putChain_keeps h name ((configured_brings h.toBasics c).2 hw hr)
      fun x hx => (readies_configured hr).public_of_mem (h.sound hw) hx)
    fun _ u _ _ => looks_world.keepsAt_bind fun _ _ => keeps_pure _ u

theorem callHook_keeps (id : String) (hook : Hook) (permitted : Bool) (plan : AccessPlan) :
    (callHook call id hook permitted plan).run.Keeps L := by
  intro w hw
  refine (looks_named _ _ _).keepsAt_bind (fun a ha => (looks_access plan).keepsAt_bind
    fun access ht => ?_) hw
  have hn : w.names.Calls a := .inl ⟨id, ha⟩
  cases hook with
  | beforeWrite =>
    exact (keepsAt_lift_bind (h.ask .write hn ht) fun _ v _ _ => keeps_pure _ v).congr rfl
  | beforeRead =>
    exact (keepsAt_lift_bind (h.ask .read hn ht) fun _ v _ _ => keeps_pure _ v).congr rfl
  | afterWrite =>
    exact (keepsAt_lift_bind (h.tell .write permitted hn ht) fun _ v _ _ => keeps_pure _ v).congr rfl
  | afterRead =>
    exact (keepsAt_lift_bind (h.tell .read permitted hn ht) fun _ v _ _ => keeps_pure _ v).congr rfl

theorem perform_keeps (s : Step) : (perform call s).run.Keeps L := by
  cases s with
  | panic text => exact keeps_bind (keeps_lift (h.panic text)) fun _ => keeps_pure _
  | domainInfo _ | sourceInfo _ _ _ | affinityInfo _ _ | dependentAffinity _ _ | note _
  | storeInfo _ | storeDebug _ | contains _ _ | stateOf _ _ | isTriggered _ | keyInfo _ _
  | aspectInfo _ => exact fun _ => (perform_looks rfl).keepsAt
  | domain name label plan => exact newDomain_keeps h name label plan
  | clear domain => exact clear_keeps h domain
  | runPending domain => exact runPending_keeps h domain
  | trigger domain source sequence => exact trigger_keeps h domain source sequence
  | subscribe domain source dependent => exact subscribe_keeps h domain source dependent
  | unsubscribe domain source => exact unsubscribe_keeps h domain source
  | dependent name onTrigger onExecute => exact newDependent_keeps h name onTrigger onExecute
  | dropDependent name => exact dropDependent_keeps h name
  | flag name value => exact setFlag_keeps h name value
  | store name plan => exact h.newStore name plan
  | dropStore store => exact h.dropStore store
  | find store type name key => exact find_keeps h store type name key
  | onExecute store label run => exact onExecute_keeps h store label run
  | execute store => exact keeps_bind (execute_keeps h "execute" store) fun _ => keeps_pure _
  | onExecuteIfTriggered store =>
    exact keeps_bind (execute_keeps h "on_execute_if_triggered" store) fun _ => keeps_pure _
  | storeTrigger store => exact storeTrigger_keeps h store
  | onTrigger store source sequence => exact onTrigger_keeps h store source sequence
  | onAffinity store domain => exact setAffinity_keeps h "on_affinity" store domain
  | setAffinity store domain => exact setAffinity_keeps h "set_affinity" store domain
  | create store key name type argument convert factory =>
    exact h.create store key name type argument convert factory
  | destroy key store => exact h.destroy key store
  | write key store value => exact write_keeps h key store value
  | read key store => exact read_keeps h key store
  | readInto key store init => exact readInto_keeps h key store init
  | itemInfo key store =>
    exact withItem_keeps h key store fun _ _ _ _ _ _ => looks_world.keepsAt_bind fun _ _ =>
      keeps_pure _ _
  | itemDebug key store =>
    exact withItem_keeps h key store fun _ _ _ _ _ _ => looks_world.keepsAt_bind fun _ _ =>
      keeps_pure _ _
  | parallelWrite key store threads each => exact parallelWrite_keeps h key store threads each
  | aspect id plan => exact newAspect_keeps h id plan
  | chain name links => exact newChain_keeps h name links
  | factory name c d => exact defaultChain_keeps h name c d
  | enter chain phase passage access => exact h.enter chain phase passage access
  | exit passage => exact h.exit passage
  | hook aspect hook permitted access => exact callHook_keeps h aspect hook permitted access
  | chainWait chain phase access => exact h.chainWait chain phase access

theorem answer_keeps (s : Step) : (answer call s).Keeps L := by
  refine (perform_keeps h s).bind fun r => ?_
  cases r with
  | ok a => exact Engine.keeps_pure a
  | error a => exact Engine.keeps_pure a

end GuardedStore.Performing
