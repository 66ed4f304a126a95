import GuardedStore.Proofs.Run.Admits
import GuardedStore.Proofs.Tape.Stores

/-!
What steps look up, take hold of and make, on tape.

Names, stores in use and the whereabouts of items are the same on tape. What is planned with scripts
is made of the taped plan.
-/
namespace GuardedStore.Performing

variable {α β : Type} {w : World}

def TapedAt (m m' : Performing α) (w : World) : Prop :=
  Engine.TapedAt m.run m'.run w

def Taped (m m' : Performing α) : Prop :=
  ∀ w, m.TapedAt m' w

/-- The computation does the same on tape. -/
def Indifferent (m : Performing α) : Prop :=
  m.Taped m

theorem indifferent_pure (a : α) : (pure a : Performing α).Indifferent :=
  Engine.indifferent_pure _

theorem indifferent_throw (e : Answer) : (throw e : Performing α).Indifferent :=
  Engine.indifferent_pure _

theorem Taped.bind {m m' : Performing α} {f f' : α → Performing β} (hm : m.Taped m')
    (hf : ∀ a, (f a).Taped (f' a)) : (m >>= f).Taped (m' >>= f') := by
  intro w
  unfold TapedAt
  rw [ExceptT.run_bind, ExceptT.run_bind]
  refine (hm w).bind fun r v _ => ?_
  cases r with
  | ok a => exact hf a v
  | error e => exact Engine.indifferent_pure _ v

theorem Indifferent.bind {m : Performing α} {f : α → Performing β} (hm : m.Indifferent)
    (hf : ∀ a, (f a).Indifferent) : (m >>= f).Indifferent :=
  Taped.bind hm hf

/-- What is done with a world that looks the same on tape. -/
theorem taped_world_bind {f f' : World → Performing α} (h : ∀ w, f' w.taped = f' w)
    (hf : ∀ w, (f w).Taped (f' w)) : (world >>= f).Taped (world >>= f') :=
  fun w => Engine.tapedAt_get_bind (f := fun w => (f w).run) (g := fun w => (f' w).run)
    (by rw [h w]; exact hf w w)

theorem indifferent_world_bind {f : World → Performing α} (h : ∀ w, f w.taped = f w)
    (hf : ∀ w, (f w).Indifferent) : (world >>= f).Indifferent :=
  taped_world_bind h hf

theorem taped_lift {m m' : Engine α} (hm : m.Taped m') :
    (liftM m : Performing α).Taped (liftM m') := by
  intro w
  unfold TapedAt
  rw [run_lift, run_lift]
  exact (hm w).bind fun _ v _ => Engine.indifferent_pure _ v

theorem indifferent_lift {m : Engine α} (hm : m.Indifferent) :
    (liftM m : Performing α).Indifferent :=
  taped_lift hm

theorem indifferent_orFault {m : Engine (Except Fault α)} (hm : m.Indifferent) :
    (orFault m).Indifferent := by
  refine (indifferent_lift hm).bind fun r => ?_
  cases r with
  | ok a => exact indifferent_pure a
  | error fault => exact indifferent_throw _

theorem indifferent_orUnreadable (a : Option α) : (orUnreadable a).Indifferent := by
  cases a with
  | some a => exact indifferent_pure a
  | none => exact indifferent_throw _

theorem indifferent_update {f : World → World} (hf : (Engine.modify f).Indifferent) :
    (update f).Indifferent :=
  indifferent_lift hf

theorem indifferent_rename (f : Names → Names) : (rename f).Indifferent :=
  indifferent_update (Engine.indifferent_modify fun _ => ⟨by rfl, by rfl, by rfl⟩)

theorem Taped.ensure {m m' : Performing α} {c : Engine Unit} (hm : m.Taped m')
    (hc : c.Indifferent) : (ensure m c).Taped (ensure m' c) :=
  Engine.Taped.ensure hm hc

theorem indifferent_forM {f : α → Performing Unit} (h : ∀ a, (f a).Indifferent) (l : List α) :
    (l.forM f).Indifferent := by
  induction l with
  | nil => exact indifferent_pure ()
  | cons a l ih => exact (h a).bind fun _ => ih

section Names

theorem indifferent_named (kind : Missing) (table : Names → Table String α) (name : String) :
    (named kind table name).Indifferent := by
  refine indifferent_world_bind (fun _ => rfl) fun w => ?_
  split
  · exact indifferent_pure _
  · exact indifferent_throw _

theorem indifferent_storeNamed (name : String) : (storeNamed name).Indifferent :=
  indifferent_named _ _ name

theorem indifferent_affinityNamed (name : Option String) : (affinityNamed name).Indifferent := by
  cases name with
  | none => exact indifferent_pure none
  | some name =>
    rw [affinityNamed, map_eq_pure_bind]
    exact (indifferent_named _ _ _).bind fun _ => indifferent_pure _

theorem indifferent_storeIdNamed (name : String) : (storeIdNamed name).Indifferent := by
  unfold storeIdNamed
  split
  · exact indifferent_pure _
  · exact indifferent_named _ _ _

theorem indifferent_sourceNamed (s : SourceName) : (sourceNamed s).Indifferent := by
  cases s with
  | key key => exact (indifferent_named _ _ _).bind fun _ => indifferent_pure _
  | store store => exact (indifferent_storeIdNamed store).bind fun _ => indifferent_pure _
  | item store item => exact (indifferent_storeIdNamed store).bind fun _ => indifferent_pure _

theorem indifferent_descriptor (p : DescriptorPlan) : (descriptor p).Indifferent := by
  unfold descriptor
  cases p.store with
  | some store => exact (indifferent_storeIdNamed store).bind fun _ => indifferent_pure _
  | none => exact (indifferent_pure _).bind fun _ => indifferent_pure _

theorem indifferent_access (p : AccessPlan) : (access p).Indifferent :=
  (indifferent_descriptor _).bind fun _ => (indifferent_orUnreadable _).bind fun _ =>
    indifferent_pure _

theorem indifferent_checkShareable (store : Nat) : (checkShareable store).Indifferent := by
  refine indifferent_world_bind (fun _ => rfl) fun w => ?_
  split
  · exact indifferent_throw _
  · exact indifferent_pure ()

theorem indifferent_checkUnused (store : Nat) : (checkUnused store).Indifferent := by
  refine indifferent_world_bind (fun _ => rfl) fun w => ?_
  split
  · exact indifferent_throw _
  · exact indifferent_pure ()

theorem indifferent_refuseWhen (step : String) {forbidden : World → Bool}
    (h : ∀ w, forbidden w.taped = forbidden w) : (refuseWhen step forbidden).Indifferent := by
  refine indifferent_world_bind (fun w => by rw [h]) fun w => ?_
  split
  · exact indifferent_throw _
  · exact indifferent_pure ()

theorem indifferent_applyCall (s : Settings) (c : BuilderCall) : (applyCall s c).Indifferent := by
  cases c with
  | affinity domain => exact (indifferent_affinityNamed domain).bind fun _ => indifferent_pure _
  | file path content =>
    unfold applyCall
    dsimp only
    split
    · exact indifferent_pure _
    · exact indifferent_throw _
  | _ => exact indifferent_pure _

theorem indifferent_settings (plan : StorePlan) : (settings plan).Indifferent := by
  have calls (cs : List BuilderCall) : ∀ s : Settings, (cs.foldlM applyCall s).Indifferent := by
    induction cs with
    | nil => exact indifferent_pure
    | cons c cs ih =>
      intro s
      rw [List.foldlM_cons]
      exact (indifferent_applyCall s c).bind ih
  cases plan with
  | builder cs => exact calls cs {}
  | _ => exact indifferent_pure _

theorem taped_sharing {m m' : Performing α} (hm : m.Taped m') (store : Nat) :
    (sharing store m).Taped (sharing store m') :=
  Taped.bind (indifferent_checkShareable store) fun _ =>
    Taped.bind (indifferent_update (Engine.indifferent_modifyStore _ _)) fun _ =>
      hm.ensure (Engine.indifferent_endSharing store)

theorem taped_owning {m m' : Performing α} (hm : m.Taped m') (store : Nat) :
    (owning store m).Taped (owning store m') :=
  Taped.bind (indifferent_checkUnused store) fun _ =>
    Taped.bind (indifferent_update (Engine.indifferent_modifyStore _ _)) fun _ =>
      hm.ensure (Engine.indifferent_endOwning store)

theorem indifferent_withItem {m : NamedKey → Nat → Nat → Performing α}
    (hm : ∀ k s i, (m k s i).Indifferent) (key : String) (store : Option String) :
    (withItem key store m).Indifferent := by
  refine (indifferent_named _ _ _).bind fun k => (indifferent_storeNamed _).bind fun s =>
    taped_sharing (indifferent_world_bind (fun _ => rfl) fun w => ?_) s
  cases w.locate s k.key with
  | ok i => exact hm k s i
  | error fault => exact indifferent_throw _

end Names

section Plans

/-- The routine of a script, and that of the taped script. -/
theorem taped_routine {script : Option Script} (hs : ∀ f ∈ script, f.Deferring) :
    (routine script).Taped (routine (Step.tapedRun script)) := by
  rw [Step.tapedRun_eq]
  cases script with
  | none => exact Engine.indifferent_pure none
  | some f => exact (Engine.newRoutine_taped (hs f rfl)).bind fun _ => Engine.indifferent_pure _

theorem taped_probe {p : Probe Script} (hp : ∀ h, ∀ f ∈ p.script h, f.Deferring) :
    (probe p).Taped (probe (Step.tapedProbe p)) := by
  cases p
  exact (taped_routine (hp .beforeWrite)).bind fun _ => (taped_routine (hp .afterWrite)).bind
    fun _ => (taped_routine (hp .beforeRead)).bind fun _ => (taped_routine (hp .afterRead)).bind
      fun _ => Engine.indifferent_pure _

theorem taped_aspect {plan : AspectPlan Script} (hp : ∀ f ∈ plan.scripts, f.Deferring) :
    (aspect plan).Taped (aspect (Step.tapedAspect plan)) := by
  cases plan with
  | probe p =>
    exact (taped_probe fun h f hf => hp f (AspectPlan.mem_scripts hf)).bind fun _ =>
      Engine.indifferent_newAspect _
  | _ => exact Engine.indifferent_newAspect _

theorem taped_link {l : Link Script} (hl : ∀ f ∈ l.scripts, f.Deferring) :
    (link l).Taped (link (Step.tapedLink l)) := by
  cases l with
  | shared id => exact indifferent_named _ _ _
  | fresh plan => exact taped_lift (taped_aspect hl)

theorem taped_links {ls : List (Link Script)} (hl : ∀ f ∈ ls.flatMap Link.scripts, f.Deferring) :
    (links ls).Taped (links (Step.tapedLinks ls)) := by
  rw [Step.tapedLinks_eq]
  unfold links
  induction ls with
  | nil => exact indifferent_pure []
  | cons l ls ih =>
    rw [List.map_cons, List.mapM_cons, List.mapM_cons]
    rw [List.flatMap_cons, List.forall_mem_append] at hl
    exact (taped_link hl.1).bind fun _ => (ih hl.2).bind fun _ => indifferent_pure _

theorem indifferent_configured (c : AspectConfig) : (configured c).Indifferent :=
  Engine.indifferent_mapM Engine.indifferent_newAspect _

theorem taped_chainSource {source : ChainSource Script}
    (hs : ∀ f ∈ source.scripts, f.Deferring) :
    (chainSource source).Taped (chainSource (Step.tapedSource source)) := by
  cases source with
  | chain name => exact (indifferent_named _ _ _).bind fun _ => indifferent_pure _
  | links ls => exact (taped_links hs).bind fun _ => indifferent_pure _
  | byItem items =>
    refine Taped.bind ?_ fun _ => indifferent_pure _
    rw [Step.tapedItems_eq]
    change ∀ f ∈ items.flatMap fun i => i.2.flatMap Link.scripts, Script.Deferring f at hs
    induction items with
    | nil => exact indifferent_pure []
    | cons i items ih =>
      rw [List.map_cons, List.mapM_cons, List.mapM_cons]
      rw [List.flatMap_cons, List.forall_mem_append] at hs
      exact ((taped_links hs.1).bind fun _ => indifferent_pure _).bind fun _ =>
        (ih hs.2).bind fun _ => indifferent_pure _

/-- What comes after settling a factory may rely on its doing the same on tape. -/
theorem taped_factory_bind {store : Nat} {plan : FactoryPlan Script}
    (hp : ∀ f ∈ plan.scripts, f.Deferring)
    {k : (Descriptor → Engine (List Nat)) → Performing α}
    (hk : ∀ f : Descriptor → Engine (List Nat), (∀ d, (f d).Indifferent) → (k f).Indifferent) :
    (factory store plan >>= k).Taped (factory store (Step.tapedFactory plan) >>= k) := by
  cases plan with
  | store =>
    exact indifferent_world_bind (fun _ => rfl) fun w => hk _ fun _ => indifferent_configured _
  | none => exact hk _ fun _ => Engine.indifferent_pure []
  | config c => exact hk _ fun _ => indifferent_configured c
  | custom spy panics source =>
    rw [Step.tapedFactory]
    unfold factory
    simp only [bind_assoc, pure_bind]
    refine (taped_chainSource hp).bind fun chain => hk _ fun d => ?_
    have supply : (do
        if panics then Engine.panic "factory"
        return chain d : Engine (List Nat)).Indifferent := by
      split
      · exact (Engine.indifferent_panic _).bind fun _ => Engine.indifferent_pure _
      · exact Engine.indifferent_pure _
    split
    · exact (Engine.indifferent_record (by rfl)).bind fun _ => supply
    · exact supply

end Plans

end GuardedStore.Performing
