import GuardedStore.Proofs.Run.Admits

/-!
What a step makes before it acts: routines, aspects, chains, and factories of chains. All that is
made is there when it is used.
-/
namespace GuardedStore.Performing

variable {L : Law} (h : Engine.Basics L)

include h

theorem idle_keeps {f : World → World} (hf : ∀ w : World, w.Idle (f w)) :
    (Engine.modify f).Keeps L :=
  fun w => Engine.keepsAt_modify (h.idle (hf w))

theorem update_keepsAt {f : World → World} {w : World} (hf : w.Idle (f w)) :
    (update f).run.KeepsAt L w :=
  keepsAt_lift (Engine.keepsAt_modify (h.idle hf))

theorem rename_keepsAt {f : Names → Names} {w : World}
    (hs : (f w.names).stores = w.names.stores) (hp : (f w.names).passages = w.names.passages)
    (hn : w.names.Valid w → (f w.names).Valid w) (hc : ∀ {x}, (f w.names).Calls x → w.Public x) :
    (rename f).run.KeepsAt L w :=
  update_keepsAt h (World.idle_rename hs hp hn hc)

theorem newRoutine_keeps (script : Script) : (Engine.newRoutine script).Keeps L :=
  fun _ => Engine.keepsAt_of_eq rfl
    (h.idle (.of_names rfl rfl rfl rfl rfl rfl rfl ⟨[], by simp, rfl⟩))

theorem routine_keeps (script : Option Script) : (routine script).Keeps L := by
  cases script with
  | none => exact Engine.keeps_pure _
  | some script => exact (newRoutine_keeps h script).bind fun _ => Engine.keeps_pure _

theorem probe_keeps (p : Probe Script) : (probe p).Keeps L :=
  (routine_keeps h _).bind fun _ => (routine_keeps h _).bind fun _ =>
    (routine_keeps h _).bind fun _ => (routine_keeps h _).bind fun _ => Engine.keeps_pure _

theorem newAspect_brings {a : Aspect Nat} (ha : a.Fresh) :
    (Engine.newAspect a).Brings L fun w i => i < w.aspects.next :=
  ⟨h.newAspect ha, by rintro w i v - ⟨⟩; exact Nat.lt_succ_self _⟩

theorem aspect_brings (plan : AspectPlan Script) :
    (aspect plan).Brings L fun w i => i < w.aspects.next := by
  cases plan with
  | audit => exact newAspect_brings h .audit
  | lock patience => exact newAspect_brings h (.lock patience)
  | plain name => exact newAspect_brings h (.plain name)
  | validation v => exact newAspect_brings h (.validation v)
  | probe p => exact (probe_keeps h p).brings_bind fun p => newAspect_brings h (.probe p)

theorem link_brings (l : Link Script) :
    (link l).Brings L fun w i => i < w.aspects.next := by
  cases l with
  | shared name =>
    refine ⟨fun w => (looks_named _ _ _).keepsAt, fun {w r v} hw hr i hi => ?_⟩
    obtain ⟨r', hr', hP⟩ := looks_named .aspect Names.aspects name w
    have := hr.symm.trans hr'
    cases this
    exact (h.sound hw).names.aspects (hP i hi)
  | fresh plan => exact brings_lift (aspect_brings h plan)

theorem links_bring (ls : List (Link Script)) : (links ls).Brings L World.Has :=
  brings_mapM (P := fun w i => i < w.aspects.next)
    (fun hr hb => Nat.lt_of_lt_of_le hb (h.grows hr).aspects) (link_brings h) ls

theorem configured_brings (c : AspectConfig) : (configured c).Brings L World.Has := by
  refine Engine.brings_mapM h.grows fun a ha => newAspect_brings h ?_
  rcases List.mem_append.mp ha with ha | ha <;> split at ha <;> simp only [List.mem_singleton,
    List.not_mem_nil] at ha <;> subst ha
  · exact .audit
  · exact .lock _

theorem chainSource_brings (c : ChainSource Script) :
    (chainSource c).Brings L fun w f => ∀ d, w.Has (f d) := by
  cases c with
  | chain name =>
    refine (looks_named .chain Names.chains name).brings.bind (fun _ => keeps_pure _) ?_
    intro chain w f v hw hP hr
    cases hr
    exact fun _ a => (h.sound hw).names.chains (hP hw)
  | links ls =>
    refine (links_bring h ls).bind (fun _ => keeps_pure _) ?_
    rintro chain w f v hw hP ⟨⟩ _
    exact hP
  | byItem items =>
    have hi (i : String × List (Link Script)) :
        (do return (i.1, ← links i.2) : Performing (String × List Nat)).Brings L
          fun w e => w.Has e.2 := by
      refine (links_bring h i.2).bind (fun _ => keeps_pure _) ?_
      rintro chain w f v hw hP ⟨⟩
      exact hP
    refine (brings_mapM (fun hr hb => hb.mono (h.grows hr).aspects) hi items).bind
      (fun _ => keeps_pure _) ?_
    rintro chains w f v hw hP ⟨⟩ d a ha
    dsimp only at ha
    cases hl : chains.lookup d.name with
    | none => rw [hl] at ha; cases ha
    | some chain =>
      rw [hl] at ha
      obtain ⟨l₁, l₂, hc, -⟩ := List.lookup_eq_some_iff.mp hl
      exact hP (d.name, chain) (by simp [hc]) a ha

omit h in
theorem pure_supplies {w : World} {chain : List Nat} (hc : w.Has chain) :
    w.Supplies L fun _ => pure chain where
  keeps _ := Engine.keeps_pure _
  chain := by
    rintro d v _ v' - hn ⟨⟩
    exact hc.mono hn

theorem configured_supplies (w : World) (c : AspectConfig) :
    w.Supplies L fun _ => configured c where
  keeps _ := (configured_brings h c).1
  chain hv _ hr := (configured_brings h c).2 hv hr

theorem panicking_supplies {w : World} {chains : Descriptor → List Nat}
    (hc : ∀ d, w.Has (chains d)) (panics : Bool) :
    w.Supplies L fun d => do
      if panics then Engine.panic "factory"
      return chains d := by
  cases panics with
  | false =>
    refine ⟨fun _ => Engine.keeps_pure _, ?_⟩
    rintro d v _ v' - hn ⟨⟩
    exact (hc d).mono hn
  | true =>
    refine ⟨fun _ => (h.panic _).bind fun _ => Engine.keeps_pure _, ?_⟩
    intro d v chain v' _ hn hr
    change (Engine.panic "factory" >>= fun _ => pure (chains d)) v = _ at hr
    rw [Engine.bind_apply] at hr
    unfold Engine.panic at hr
    split at hr <;> next hp => split at hp <;> cases hp <;> cases hr <;> exact (hc d).mono hn

theorem custom_supplies {w : World} {chains : Descriptor → List Nat} (hc : ∀ d, w.Has (chains d))
    (spy panics : Bool) :
    w.Supplies L fun d => do
      if spy then Engine.record (.factoryAsked d)
      if panics then Engine.panic "factory"
      return chains d := by
  have hp := panicking_supplies h hc panics
  cases spy with
  | false => exact hp
  | true =>
    have hr (d : Descriptor) : (Engine.record (.factoryAsked d)).Keeps L :=
      idle_keeps h fun w => World.idle_record rfl w
    refine ⟨fun d => (hr d).bind fun _ => hp.keeps d, fun {d v chain v'} hv hn hf => ?_⟩
    exact hp.chain ((hr d v).holds hv rfl).1 hn hf

theorem factory_brings (store : Nat) (plan : FactoryPlan Script) :
    (factory store plan).Brings L fun w f => w.Supplies L f := by
  cases plan with
  | store =>
    refine looks_world.brings.bind (fun _ => keeps_pure _) ?_
    rintro _ w f v - - ⟨⟩
    exact configured_supplies h _ _
  | none => exact brings_pure fun w => pure_supplies nofun
  | config c => exact brings_pure fun w => configured_supplies h w c
  | custom spy panics source =>
    refine (chainSource_brings h source).bind (fun _ => keeps_pure _) ?_
    rintro chains w f v - hc ⟨⟩
    exact custom_supplies h hc spy panics

end GuardedStore.Performing
