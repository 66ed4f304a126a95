import GuardedStore.Proofs.Mirror.Lookups

/-!
Steps, with and without guards.

An ordinary step and the same step made bare have the same effect and the same answer, but for the
aspects of an item, of which a bare answer does not tell. A step that does not ask for an item's
aspects is discreet: its answer is the same.
-/
namespace GuardedStore.Performing

open World

variable {α : Type} {call : Nat → Engine Unit} {w : World}

/-- The second answer is what the first comes to without guards. -/
def Shown (a b : Answer) : Prop :=
  b = a.bare

def DiscreetAt (m : Performing Answer) (w : World) : Prop :=
  m.MirrorsAt Shown m w

def Discreet (m : Performing Answer) : Prop :=
  ∀ w, m.DiscreetAt w

theorem discreet_pure {a : Answer} (h : a.bare = a) :
    (pure a : Performing Answer).Discreet :=
  mirrors_pure h.symm

theorem discreet_throw {a : Answer} (h : a.bare = a) :
    (throw a : Performing Answer).Discreet :=
  mirrors_throw h

theorem BlindAt.discreet_bind {m : Performing α} {f : α → Performing Answer} (hm : m.BlindAt w)
    (hf : ∀ a, (f a).Discreet) : (m >>= f).DiscreetAt w :=
  hm.mirrors_bind hf

theorem Blind.discreet_bind {m : Performing α} {f : α → Performing Answer} (hm : m.Blind)
    (hf : ∀ a, (f a).Discreet) : (m >>= f).Discreet :=
  fun w => (hm w).discreet_bind hf

theorem discreetAt_world_bind {f : World → Performing Answer} (h : f w.bare = f w)
    (hf : (f w).DiscreetAt w) : (world >>= f).DiscreetAt w :=
  mirrorsAt_world_bind_of_same h hf

/-- What is done last, and answered for. -/
theorem discreet_last {m : Engine α} {a : α → Answer} (hm : m.Blind)
    (ha : ∀ x, (a x).bare = a x) :
    (do return a (← (m : Performing α)) : Performing Answer).Discreet :=
  (blind_lift hm).discreet_bind fun x => discreet_pure (ha x)

/-- What the world looks like. -/
theorem discreet_look {f : World → Answer} (hf : ∀ w, Shown (f w) (f w.bare)) :
    (do return f (← world) : Performing Answer).Discreet :=
  fun w => mirrorsAt_world_bind (mirrors_pure (hf w) w)

theorem newDomain_discreet (name label : String) {plan : DomainPlan Script}
    (hp : ∀ script, plan ≠ .immediate script) : (newDomain name label plan).Discreet := by
  have register {mode : DomainMode} (hm : (⟨label, mode⟩ : Domain).kind ≠ .immediate) :
      (do
        let domain ← (Engine.newDomain { label, mode } : Performing Nat)
        rename fun n => { n with domains := n.domains.put name domain }
        return .ok : Performing Answer).Discreet :=
    (blind_lift (Engine.blind_newDomain hm)).discreet_bind fun _ =>
      (blind_rename _).discreet_bind fun _ => discreet_pure rfl
  cases plan with
  | recording => exact register (by simp [Domain.kind])
  | cooperative => exact register (by simp [Domain.kind])
  | immediate script => exact absurd rfl (hp script)

theorem sourceInfo_discreet (domain : String) (source : SourceName) (sort : Bool) :
    (sourceInfo domain source sort).Discreet :=
  (blind_named _ _ _).discreet_bind fun _ => (blind_sourceNamed _).discreet_bind fun _ =>
    discreet_look fun _ => rfl

theorem clear_discreet (domain : String) : (clear domain).Discreet := by
  refine (blind_named _ _ _).discreet_bind fun r w => discreetAt_world_bind rfl ?_
  split
  · exact discreet_last
      (Engine.steady_modifyDomain r fun d => d.sameTable_clear.kind).blind (fun _ => rfl) w
  · exact discreet_throw rfl w

theorem subscribe_discreet (domain : Option String) (source : SourceName) (dependent : String) :
    (subscribe domain source dependent).Discreet :=
  (blind_affinityNamed _).discreet_bind fun _ => (blind_sourceNamed _).discreet_bind fun _ =>
    (blind_named _ _ _).discreet_bind fun _ => (blind_lift (Engine.blind_record (by rfl))).discreet_bind
      fun _ => discreet_last (Engine.blind_subscribe _ _ _) fun _ => rfl

theorem unsubscribe_discreet (domain : Option String) (source : SourceName) :
    (unsubscribe domain source).Discreet :=
  (blind_affinityNamed _).discreet_bind fun _ => (blind_sourceNamed _).discreet_bind fun _ =>
    (blind_lift (Engine.blind_record (by rfl))).discreet_bind fun _ =>
      discreet_last (Engine.blind_unsubscribe _ _) fun _ => rfl

theorem trigger_discreet (domain : Option String) (source : SourceName) (sequence : Nat) :
    (trigger call domain source sequence).Discreet :=
  (blind_sourceNamed _).discreet_bind fun _ => (blind_affinityNamed _).discreet_bind fun _ =>
    discreet_last (Engine.steady_trigger _ _ _).blind fun _ => rfl

/-- The routine of a script, and that of the bare script. -/
theorem routine_mirrors {script : Option Script}
    (hs : ∀ f ∈ script, ∀ n, ∀ s ∈ f n, s.Ordinary) :
    (routine script).Mirrors Eq (routine (Step.bareRun script)) := by
  rw [Step.bareRun_eq]
  cases script with
  | none => exact Engine.blind_pure none
  | some f =>
    refine fun w => Engine.MirrorsAt.bind (Engine.newRoutine_mirrors (hs f rfl) w) ?_
    rintro r _ v rfl
    exact Engine.blind_pure _ v

theorem blind_disown (dependent : Nat) : (disown dependent).Blind :=
  blind_update (Engine.blind_modify fun _ => ⟨by rfl, by rfl⟩)

theorem newDependent_mirrors (name : String) {f g : Option Script}
    (hf : ∀ x ∈ f, ∀ n, ∀ s ∈ x n, s.Ordinary) (hg : ∀ x ∈ g, ∀ n, ∀ s ∈ x n, s.Ordinary) :
    (newDependent name f g).Mirrors Shown
      (newDependent name (Step.bareRun f) (Step.bareRun g)) := by
  refine fun w => MirrorsAt.bind (mirrors_lift (routine_mirrors hf) w) ?_
  rintro onTrigger _ v rfl
  refine MirrorsAt.bind (mirrors_lift (routine_mirrors hg) v) ?_
  rintro onExecute _ v rfl
  refine (blind_lift (Engine.blind_newDependent _)).discreet_bind (fun d w =>
    discreetAt_world_bind rfl ?_) v
  refine (blind_rename _).discreet_bind (fun _ => Blind.discreet_bind ?_ fun _ => discreet_pure rfl) w
  cases w.names.dependents.find? name with
  | none => exact blind_pure ()
  | some old => exact blind_disown old

theorem dropDependent_discreet (name : String) : (dropDependent name).Discreet := by
  refine fun w => discreetAt_world_bind rfl ?_
  split
  · exact (blind_rename _).discreet_bind (fun _ => (blind_disown _).discreet_bind fun _ =>
      discreet_pure rfl) w
  · exact discreet_pure rfl w

theorem newStore_discreet (name : String) (plan : StorePlan) : (newStore name plan).Discreet := by
  refine (blind_settings plan).discreet_bind fun s =>
    (blind_orFault (Engine.blind_buildStore _ _)).discreet_bind fun store w =>
      discreetAt_world_bind rfl ?_
  refine (blind_rename _).discreet_bind (fun _ => Blind.discreet_bind ?_ fun _ => discreet_pure rfl) w
  cases w.names.stores.find? name with
  | none => exact blind_pure ()
  | some old => exact blind_lift (Engine.blind_replace old)

theorem dropStore_discreet (name : String) : (dropStore name).Discreet :=
  (blind_storeNamed _).discreet_bind fun s => (blind_checkUnused s).discreet_bind fun _ =>
    (blind_rename _).discreet_bind fun _ => discreet_last (Engine.blind_dropStore s) fun _ => rfl

/-- A step that looks at a store which nobody is changing. -/
theorem inspect_discreet (name : String) {f : Nat → World → Answer}
    (hf : ∀ s w, Shown (f s w) (f s w.bare)) : (do
      let store ← storeNamed name
      checkShareable store
      return f store (← world) : Performing Answer).Discreet :=
  (blind_storeNamed _).discreet_bind fun s => (blind_checkShareable s).discreet_bind fun _ =>
    discreet_look (hf s)

theorem storeInfo_discreet (name : String) : (storeInfo name).Discreet := by
  refine inspect_discreet name fun s w => ?_
  unfold Shown
  rw [itemsOf_bare]
  simp only [List.map_map]
  rfl

theorem find_discreet (storeName : String) (type : ValueType) (name : String)
    (key : Option String) : (find storeName type name key).Discreet := by
  refine (blind_storeNamed _).discreet_bind fun s => (blind_checkShareable s).discreet_bind
    fun _ w => discreetAt_world_bind (by rw [find?_bare]) ?_
  dsimp only
  split
  · exact (blind_rename _).discreet_bind (fun _ => discreet_pure rfl) w
  · exact discreet_pure rfl w

theorem onExecute_mirrors (name label : String) {run : Option Script}
    (hs : ∀ f ∈ run, ∀ n, ∀ s ∈ f n, s.Ordinary) :
    (onExecute name label run).Mirrors Shown (onExecute name label (Step.bareRun run)) := by
  refine (blind_refuseWhen _ fun _ => by rfl).mirrors_bind fun _ =>
    (blind_storeNamed _).mirrors_bind fun s => (blind_checkShareable s).mirrors_bind fun _ w =>
      MirrorsAt.bind (mirrors_lift (routine_mirrors hs) w) ?_
  rintro script _ v rfl
  exact discreet_last (Engine.blind_onExecute _ _) (fun _ => rfl) v

theorem storeTrigger_discreet (name : String) : (storeTrigger call name).Discreet := by
  refine (blind_storeNamed _).discreet_bind fun s => sharing_mirrors (fun w =>
    discreetAt_world_bind rfl ?_) s
  refine (blind_update (Engine.blind_modify fun _ => ⟨by rfl, by rfl⟩)).discreet_bind (fun _ =>
    Blind.discreet_bind ?_ fun _ => discreet_pure rfl) w
  exact fun v => MirrorsAt.ensure (blind_lift (Engine.blind_triggerStore s) v)
    (Engine.blind_modify fun _ => ⟨by rfl, by rfl⟩)

theorem setAffinity_discreet (step name : String) (domain : Option String) :
    (setAffinity step name domain).Discreet :=
  (blind_refuseWhen _ fun _ => by rfl).discreet_bind fun _ => (blind_storeNamed _).discreet_bind fun _ =>
    (blind_affinityNamed _).discreet_bind fun _ => (blind_checkShareable _).discreet_bind fun _ =>
      discreet_last (Engine.blind_setAffinity _ _) fun _ => rfl

/-- The factory of a usual plan gives each item a chain that a configuration asks for. -/
theorem factory_mirrors (store : Nat) {plan : FactoryPlan Script}
    (hp : ∀ spy panics source, plan ≠ .custom spy panics source) :
    (factory store plan).Mirrors Engine.Supplies (factory store .none) := by
  cases plan with
  | store =>
    exact fun w => mirrorsAt_world_bind (mirrors_pure (Engine.supplies_configured _) w)
  | none => exact mirrors_pure Engine.supplies_none
  | config c => exact mirrors_pure (Engine.supplies_configured c)
  | custom spy panics source => exact absurd rfl (hp spy panics source)

theorem create_mirrors (storeName key name : String) (type : ValueType) (argument : Literal)
    (convert : Option ArgumentType) {plan : FactoryPlan Script}
    (hp : ∀ spy panics source, plan ≠ .custom spy panics source) :
    (create call storeName key name type argument convert plan).Mirrors Shown
      (create call storeName key name type argument convert .none) := by
  refine (blind_storeNamed _).mirrors_bind fun s => owning_mirrors (fun w =>
    MirrorsAt.bind (factory_mirrors s hp w) fun f f' v hf => ?_) s
  refine (blind_orUnreadable _).mirrors_bind (fun value v => MirrorsAt.bind
    (orFault_mirrors (Engine.create_mirrors hf s name value) v) ?_) v
  rintro id _ v rfl
  exact discreetAt_world_bind rfl ((blind_rename _).discreet_bind (fun _ => discreet_pure rfl) v)

theorem destroy_discreet (key : String) (store : Option String) : (destroy key store).Discreet :=
  (blind_named _ _ _).discreet_bind fun k => (blind_storeNamed _).discreet_bind fun s =>
    owning_mirrors ((blind_orFault (Engine.blind_destroy s k.key)).discreet_bind fun _ =>
      discreet_pure rfl) s

theorem write_discreet (key : String) (store : Option String) (value : Literal) :
    (write call key store value).Discreet :=
  withItem_mirrors (fun _ _ i => (blind_orUnreadable _).discreet_bind fun v =>
    discreet_last (Engine.blind_write i v) fun _ => rfl) key store

theorem read_discreet (key : String) (store : Option String) : (read call key store).Discreet :=
  withItem_mirrors (fun _ _ i => (blind_orFault (Engine.blind_read i)).discreet_bind fun _ =>
    discreet_pure rfl) key store

theorem readInto_discreet (key : String) (store : Option String) (init : Literal) :
    (readInto call key store init).Discreet := by
  refine withItem_mirrors (fun _ _ i => (blind_orUnreadable _).discreet_bind fun _ =>
    (blind_lift (Engine.blind_read i)).discreet_bind fun r => ?_) key store
  cases r with
  | ok value => exact discreet_pure rfl
  | error fault => exact discreet_pure rfl

theorem itemInfo_discreet (key : String) (store : Option String) :
    (itemInfo key store).Discreet := by
  refine withItem_mirrors (R := Shown) (fun _ _ i => discreet_look fun w => ?_) key store
  unfold Shown
  rw [item_bare]
  rfl

theorem parallelWrite_discreet (key : String) (store : Option String) (threads each : Nat) :
    (parallelWrite call key store threads each).Discreet := by
  refine withItem_mirrors (fun _ _ i => (blind_orUnreadable _).discreet_bind fun values =>
    (blind_update (Engine.blind_modify fun _ => ⟨by rfl, by rfl⟩)).discreet_bind fun _ => ?_) key store
  have hw : ∀ values : List Value,
      Performing.Blind (values.forM fun v => (Engine.write call i v : Performing Unit)) := by
    intro values
    induction values with
    | nil => exact blind_pure ()
    | cons v values ih => exact (blind_lift (Engine.blind_write i v)).bind fun _ => ih
  refine Blind.discreet_bind (fun w => MirrorsAt.ensure (hw values w)
    (Engine.blind_modify fun _ => ⟨by rfl, by rfl⟩)) fun _ => discreet_look fun w => ?_
  unfold Shown
  rw [item_bare]
  rfl

section Calls

variable (hc : ∀ r, (call r).Blind)

include hc

theorem runPending_discreet (domain : String) : (runPending call domain).Discreet := by
  refine (blind_refuseWhen _ fun _ => by rfl).discreet_bind fun _ =>
    (blind_named _ _ _).discreet_bind fun r w => discreetAt_world_bind rfl ?_
  split
  · exact discreet_last (Engine.blind_runPending hc r) (fun _ => rfl) w
  · exact discreet_throw rfl w

theorem blind_execute (step name : String) : (execute call step name).Blind :=
  (blind_storeNamed _).bind fun s => (blind_checkShareable s).bind fun _ =>
    (blind_refuseWhen step fun _ => by rfl).bind fun _ =>
      sharing_mirrors (blind_lift (Engine.blind_executeStore hc s)) s

theorem onTrigger_discreet (name : String) (source : SourceName) (sequence : Nat) :
    (onTrigger call name source sequence).Discreet :=
  (blind_storeNamed _).discreet_bind fun s => (blind_checkShareable s).discreet_bind fun _ =>
    (blind_sourceNamed _).discreet_bind fun source =>
      discreet_last (Engine.blind_prompt hc s ⟨source, sequence⟩) fun _ => rfl

theorem perform_mirrors {s : Step} (hs : s.Ordinary) :
    (perform call s).Mirrors Shown (perform call s.bare) := by
  have hu := hs.usual
  cases s with
  | panic text => exact discreet_last (Engine.blind_panic text) fun _ => rfl
  | domain name label plan =>
    exact newDomain_discreet name label fun script hp => by
      subst hp
      cases hu
  | domainInfo domain =>
    exact fun w => mirrorsAt_world_bind ((blind_named _ _ _).discreet_bind
      (fun d => discreet_pure (by split <;> rfl)) w)
  | sourceInfo domain source sort => exact sourceInfo_discreet domain source sort
  | clear domain => exact clear_discreet domain
  | runPending domain => exact runPending_discreet hc domain
  | trigger domain source sequence => exact trigger_discreet domain source sequence
  | subscribe domain source dependent => exact subscribe_discreet domain source dependent
  | unsubscribe domain source => exact unsubscribe_discreet domain source
  | affinityInfo domain other =>
    exact (blind_affinityNamed _).discreet_bind fun _ => (blind_affinityNamed _).discreet_bind
      fun _ => discreet_look fun _ => rfl
  | dependent name f g =>
    have hfg := hs.scripts
    exact newDependent_mirrors name
      (fun x hx => hfg x (List.mem_append_left _ (Option.mem_toList.mpr hx)))
      fun x hx => hfg x (List.mem_append_right _ (Option.mem_toList.mpr hx))
  | dropDependent name => exact dropDependent_discreet name
  | dependentAffinity name domain =>
    exact (blind_named _ _ _).discreet_bind fun _ => (blind_affinityNamed _).discreet_bind fun _ =>
      discreet_pure rfl
  | flag name value => exact (blind_rename _).discreet_bind fun _ => discreet_pure rfl
  | note text => exact discreet_pure rfl
  | store name plan => exact newStore_discreet name plan
  | dropStore store => exact dropStore_discreet store
  | storeInfo store => exact storeInfo_discreet store
  | storeDebug store => exact inspect_discreet store fun _ _ => by rfl
  | find store type name key => exact find_discreet store type name key
  | contains store id => exact inspect_discreet store fun _ _ => by rfl
  | stateOf store id => exact inspect_discreet store fun _ _ => by rfl
  | onExecute store label run =>
    exact onExecute_mirrors store label fun x hx => hs.scripts x (Option.mem_toList.mpr hx)
  | execute store => exact (blind_execute hc _ store).discreet_bind fun _ => discreet_pure rfl
  | onExecuteIfTriggered store =>
    exact (blind_execute hc _ store).discreet_bind fun _ => discreet_pure rfl
  | isTriggered store => exact inspect_discreet store fun _ _ => by rfl
  | storeTrigger store => exact storeTrigger_discreet store
  | onTrigger store source sequence => exact onTrigger_discreet hc store source sequence
  | onAffinity store domain => exact setAffinity_discreet "on_affinity" store domain
  | setAffinity store domain => exact setAffinity_discreet "set_affinity" store domain
  | create store key name type argument convert plan =>
    exact create_mirrors store key name type argument convert fun spy panics source hp => by
      subst hp
      cases hu
  | destroy key store => exact destroy_discreet key store
  | write key store value => exact write_discreet key store value
  | read key store => exact read_discreet key store
  | readInto key store init => exact readInto_discreet key store init
  | itemInfo key store => exact itemInfo_discreet key store
  | parallelWrite key store threads each => exact parallelWrite_discreet key store threads each
  | keyInfo key other =>
    exact (blind_named _ _ _).discreet_bind fun _ => (blind_named _ _ _).discreet_bind fun _ =>
      discreet_pure rfl
  | _ => cases hu

theorem answer_mirrors {s : Step} (hs : s.Ordinary) :
    (answer call s).Mirrors Shown (answer call s.bare) := by
  refine fun w => Engine.MirrorsAt.bind (perform_mirrors hc hs w) fun r r' v h => ?_
  cases h with
  | ok h => exact Engine.mirrorsAt_pure h v
  | error e => exact Engine.mirrorsAt_pure (R := Shown) rfl v

end Calls

end GuardedStore.Performing
