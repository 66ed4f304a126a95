import GuardedStore.Proofs.Mirror.Stores
import GuardedStore.Proofs.Run.Lookups

/-!
What steps look up and take hold of, with and without guards.

Names, stores in use and the whereabouts of items are the same without guards, and so is the answer
in which a step ends early.
-/
namespace GuardedStore.Performing

variable {α β γ δ : Type} {R : α → β → Prop} {S : γ → δ → Prop} {w : World}

/-- Both go on, with results as `R` says, or both end early in the same answer. -/
inductive Mirrored (R : α → β → Prop) : Except Answer α → Except Answer β → Prop where
  | ok {a : α} {b : β} (h : R a b) : Mirrored R (.ok a) (.ok b)
  | error (e : Answer) : Mirrored R (.error e) (.error e.bare)

def MirrorsAt (m : Performing α) (R : α → β → Prop) (m' : Performing β) (w : World) : Prop :=
  Engine.MirrorsAt m.run (Mirrored R) m'.run w

def Mirrors (m : Performing α) (R : α → β → Prop) (m' : Performing β) : Prop :=
  ∀ w, m.MirrorsAt R m' w

def BlindAt (m : Performing α) (w : World) : Prop :=
  m.MirrorsAt Eq m w

def Blind (m : Performing α) : Prop :=
  ∀ w, m.BlindAt w

theorem mirrors_pure {a : α} {b : β} (h : R a b) : (pure a : Performing α).Mirrors R (pure b) :=
  Engine.mirrorsAt_pure (.ok h)

theorem blind_pure (a : α) : (pure a : Performing α).Blind :=
  mirrors_pure rfl

theorem mirrors_throw {e : Answer} (h : e.bare = e) :
    (throw e : Performing α).Mirrors R (throw e) :=
  Engine.mirrorsAt_pure (by simpa only [h] using Mirrored.error (R := R) e)

theorem blind_throw {e : Answer} (h : e.bare = e) : (throw e : Performing α).Blind :=
  mirrors_throw h

theorem MirrorsAt.bind {m : Performing α} {m' : Performing β} {f : α → Performing γ}
    {f' : β → Performing δ} (hm : m.MirrorsAt R m' w)
    (hf : ∀ a b v, R a b → (f a).MirrorsAt S (f' b) v) : (m >>= f).MirrorsAt S (m' >>= f') w := by
  unfold MirrorsAt
  rw [ExceptT.run_bind, ExceptT.run_bind]
  refine Engine.MirrorsAt.bind hm fun r r' v h => ?_
  cases h with
  | ok h => exact hf _ _ v h
  | error e => exact Engine.mirrorsAt_pure (.error e) v

theorem BlindAt.mirrors_bind {m : Performing α} {f : α → Performing γ} {f' : α → Performing δ}
    (hm : m.BlindAt w) (hf : ∀ a v, (f a).MirrorsAt S (f' a) v) :
    (m >>= f).MirrorsAt S (m >>= f') w :=
  MirrorsAt.bind hm fun a _ v h => h ▸ hf a v

theorem Blind.mirrors_bind {m : Performing α} {f : α → Performing γ} {f' : α → Performing δ}
    (hm : m.Blind) (hf : ∀ a, (f a).Mirrors S (f' a)) : (m >>= f).Mirrors S (m >>= f') :=
  fun w => (hm w).mirrors_bind hf

theorem BlindAt.bind {m : Performing α} {f : α → Performing γ} (hm : m.BlindAt w)
    (hf : ∀ a, (f a).Blind) : (m >>= f).BlindAt w :=
  hm.mirrors_bind hf

theorem Blind.bind {m : Performing α} {f : α → Performing γ} (hm : m.Blind)
    (hf : ∀ a, (f a).Blind) : (m >>= f).Blind :=
  fun w => (hm w).bind hf

theorem mirrorsAt_world_bind {f : World → Performing α} {f' : World → Performing β}
    (h : (f w).MirrorsAt R (f' w.bare) w) : (world >>= f).MirrorsAt R (world >>= f') w :=
  h

/-- What is done with a world that looks the same without guards. -/
theorem mirrorsAt_world_bind_of_same {f : World → Performing α} {f' : World → Performing β}
    (h : f' w.bare = f' w) (hf : (f w).MirrorsAt R (f' w) w) :
    (world >>= f).MirrorsAt R (world >>= f') w :=
  mirrorsAt_world_bind (h ▸ hf)

theorem blindAt_world_bind {f : World → Performing α} (h : f w.bare = f w) (hf : (f w).BlindAt w) :
    (world >>= f).BlindAt w :=
  mirrorsAt_world_bind_of_same h hf

theorem mirrors_lift {m : Engine α} {m' : Engine β} (hm : m.Mirrors R m') :
    (liftM m : Performing α).Mirrors R (liftM m') := by
  intro w
  unfold MirrorsAt
  rw [run_lift, run_lift]
  exact Engine.MirrorsAt.bind (hm w) fun _ _ v h => Engine.mirrorsAt_pure (.ok h) v

theorem blind_lift {m : Engine α} (hm : m.Blind) : (liftM m : Performing α).Blind :=
  mirrors_lift hm

theorem blind_orFault {m : Engine (Except Fault α)} (hm : m.Blind) : (orFault m).Blind := by
  refine (blind_lift hm).bind fun r => ?_
  cases r with
  | ok a => exact blind_pure a
  | error fault => exact blind_throw rfl

theorem orFault_mirrors {m m' : Engine (Except Fault α)} (hm : m.Mirrors Eq m') :
    (orFault m).Mirrors Eq (orFault m') := by
  refine fun w => MirrorsAt.bind (mirrors_lift hm w) ?_
  rintro r _ v rfl
  cases r with
  | ok a => exact blind_pure a v
  | error fault => exact blind_throw rfl v

theorem blind_orUnreadable (a : Option α) : (orUnreadable a).Blind := by
  cases a with
  | some a => exact blind_pure a
  | none => exact blind_throw rfl

theorem blind_update {f : World → World} (hf : (Engine.modify f).Blind) : (update f).Blind :=
  blind_lift hf

theorem blind_rename (f : Names → Names) : (rename f).Blind :=
  blind_update (Engine.blind_modify fun _ => ⟨by rfl, by rfl⟩)

theorem blind_named (kind : Missing) (table : Names → Table String α) (name : String) :
    (named kind table name).Blind := by
  refine fun w => blindAt_world_bind rfl ?_
  split
  · exact blind_pure _ w
  · exact blind_throw rfl w

theorem blind_storeNamed (name : String) : (storeNamed name).Blind :=
  blind_named _ _ name

theorem blind_affinityNamed (name : Option String) : (affinityNamed name).Blind := by
  cases name with
  | none => exact blind_pure none
  | some name =>
    rw [affinityNamed, map_eq_pure_bind]
    exact (blind_named _ _ _).bind fun _ => blind_pure _

theorem blind_storeIdNamed (name : String) : (storeIdNamed name).Blind := by
  unfold storeIdNamed
  split
  · exact blind_pure _
  · exact blind_named _ _ _

theorem blind_sourceNamed (s : SourceName) : (sourceNamed s).Blind := by
  cases s with
  | key key => exact (blind_named _ _ _).bind fun _ => blind_pure _
  | store store => exact (blind_storeIdNamed store).bind fun _ => blind_pure _
  | item store item => exact (blind_storeIdNamed store).bind fun _ => blind_pure _

theorem blind_checkShareable (store : Nat) : (checkShareable store).Blind := by
  refine fun w => blindAt_world_bind rfl ?_
  split
  · exact blind_throw rfl w
  · exact blind_pure () w

theorem blind_checkUnused (store : Nat) : (checkUnused store).Blind := by
  refine fun w => blindAt_world_bind rfl ?_
  split
  · exact blind_throw rfl w
  · exact blind_pure () w

theorem blind_refuseWhen (step : String) {forbidden : World → Bool}
    (h : ∀ w, forbidden w.bare = forbidden w) :
    (refuseWhen step forbidden).Blind := by
  refine fun w => blindAt_world_bind (by rw [h]) ?_
  split
  · exact blind_throw rfl w
  · exact blind_pure () w

theorem blind_applyCall (s : Settings) (c : BuilderCall) : (applyCall s c).Blind := by
  cases c with
  | affinity domain => exact (blind_affinityNamed domain).bind fun _ => blind_pure _
  | file path content =>
    unfold applyCall
    dsimp only
    split
    · exact blind_pure _
    · exact blind_throw rfl
  | _ => exact blind_pure _

theorem blind_settings (plan : StorePlan) : (settings plan).Blind := by
  have calls (cs : List BuilderCall) : ∀ s : Settings, (cs.foldlM applyCall s).Blind := by
    induction cs with
    | nil => exact blind_pure
    | cons c cs ih =>
      intro s
      rw [List.foldlM_cons]
      exact (blind_applyCall s c).bind ih
  cases plan with
  | builder cs => exact calls cs {}
  | _ => exact blind_pure _

theorem MirrorsAt.ensure {m : Performing α} {m' : Performing β} {c : Engine Unit}
    (hm : m.MirrorsAt R m' w) (hc : c.Blind) : (ensure m c).MirrorsAt R (ensure m' c) w :=
  Engine.MirrorsAt.ensure hm hc

theorem sharing_mirrors {m : Performing α} {m' : Performing β} (hm : m.Mirrors R m') (store : Nat) :
    (sharing store m).Mirrors R (sharing store m') :=
  (blind_checkShareable store).mirrors_bind fun _ =>
    (blind_update (Engine.blind_modifyStore _ _)).mirrors_bind fun _ w =>
      (hm w).ensure (Engine.blind_endSharing store)

theorem owning_mirrors {m : Performing α} {m' : Performing β} (hm : m.Mirrors R m') (store : Nat) :
    (owning store m).Mirrors R (owning store m') :=
  (blind_checkUnused store).mirrors_bind fun _ =>
    (blind_update (Engine.blind_modifyStore _ _)).mirrors_bind fun _ w =>
      (hm w).ensure (Engine.blind_endOwning store)

theorem withItem_mirrors {m : NamedKey → Nat → Nat → Performing α}
    {m' : NamedKey → Nat → Nat → Performing β} (hm : ∀ k s i, (m k s i).Mirrors R (m' k s i))
    (key : String) (store : Option String) :
    (withItem key store m).Mirrors R (withItem key store m') := by
  refine (blind_named _ _ _).mirrors_bind fun k => (blind_storeNamed _).mirrors_bind fun s =>
    sharing_mirrors (fun w => mirrorsAt_world_bind ?_) s
  rw [World.locate_bare]
  cases w.locate s k.key with
  | ok i => exact hm k s i w
  | error fault => exact mirrors_throw rfl w

end GuardedStore.Performing
