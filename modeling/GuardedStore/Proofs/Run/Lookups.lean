import GuardedStore.Proofs.Run.Standing
import GuardedStore.Scenario.Run

/-!
What a step does before it acts: it looks up what its names mean.

A lookup leaves the world as it is, and what it finds is there. A step that begins with lookups
keeps a law if what comes after them does, where it may rely on what was found.
-/
namespace GuardedStore

theorem Arena.mem_toList_of_get? {α : Type} {a : Arena α} {id : ItemId} {x : α}
    (h : a.get? id = some x) : x ∈ a.toList := by
  unfold get? slot at h
  split at h
  · rw [List.getD_eq_getElem?_getD] at h
    cases hs : a.slots[id.index.toNat]? with
    | none => simp [hs] at h
    | some s => exact List.mem_filterMap.mpr ⟨s, List.mem_of_getElem? hs, by simpa [hs] using h⟩
  · cases h

/-- A value is written as one of the type asked for. -/
theorem Literal.type_of_value? {t : ValueType} {l : Literal} {v : Value}
    (h : l.value? t = some v) : v.type = t := by
  cases t <;> cases l <;> simp [value?] at h <;> grind [Value.type]

theorem Value.type_of_ofNat? {t : ValueType} {n : Nat} {v : Value} (h : ofNat? t n = some v) :
    v.type = t := by
  cases t <;> simp only [ofNat?, Option.some.injEq, reduceCtorEq] at h <;> rw [← h] <;> rfl

/-- Whatever comes of a list, if something comes of all of it, comes of one of its members. -/
theorem exists_of_mem_mapM {α β : Type} {f : α → Option β} {l : List α} : ∀ {l' : List β},
    l.mapM f = some l' → ∀ b ∈ l', ∃ a, f a = some b := by
  induction l with
  | nil => simp
  | cons a l ih =>
    intro l' h b hb
    simp only [List.mapM_cons, bind, Option.bind_eq_some_iff, pure, Option.some.injEq] at h
    obtain ⟨c, hc, bs, hbs, rfl⟩ := h
    rcases List.mem_cons.mp hb with rfl | hb
    · exact ⟨a, hc⟩
    · exact ih hbs b hb

namespace World

/-- A store that goes by a name. -/
def Named (w : World) (store : Nat) : Prop :=
  ∃ name, w.names.stores.find? name = some store

/-- The domain behind an affinity, if there is one, was made before. -/
def Offers (w : World) (affinity : Option Nat) : Prop :=
  ∀ d, affinity = some d → d < w.domains.next

theorem Sound.named {w : World} (hw : w.Sound) {store : Nat} (h : w.Named store) :
    store < w.stores.next := by
  obtain ⟨_, h⟩ := h
  exact hw.names.stores h

theorem mem_arena_of_locate {w : World} {store item : Nat} {key : Key}
    (h : w.locate store key = .ok item) : item ∈ (w.store store).arena.toList := by
  unfold locate at h
  dsimp only at h
  split at h
  · cases h
  · split at h
    · next hget =>
      split at h
      · cases h
        exact Arena.mem_toList_of_get? hget
      · cases h
    · cases h

/-- An item is found only under a key of its type. -/
theorem type_of_locate {w : World} {store item : Nat} {key : Key}
    (h : w.locate store key = .ok item) : (w.item item).descriptor.type = key.type := by
  unfold locate at h
  dsimp only at h
  split at h
  · cases h
  · split at h
    · split at h
      · next ht =>
        cases h
        exact ht
      · cases h
    · cases h

end World

/-- Whether a step only looks around. -/
def Step.onlyLooks : Step → Bool
  | domainInfo _ | sourceInfo .. | affinityInfo .. | dependentAffinity .. | note _ | storeInfo _
  | storeDebug _ | contains .. | stateOf .. | isTriggered _ | keyInfo .. | aspectInfo _ => true
  | _ => false

namespace Performing

variable {α β : Type} {L : Law} {w : World}

/-- The computation ends in the world it started from, with a result as described. -/
def Looks (m : Performing α) (P : World → α → Prop) : Prop :=
  ∀ w, ∃ r, m.run w = (.done r, w) ∧ ∀ a, r = .ok a → P w a

/-- Whatever is found. -/
abbrev Any (α : Type) : World → α → Prop := fun _ _ => True

theorem run_bind_ok {m : Performing α} {f : α → Performing β} {a : α} {v : World}
    (h : m.run w = (.done (.ok a), v)) : (m >>= f).run w = (f a).run v := by
  rw [ExceptT.run_bind, Engine.bind_apply, h]

theorem run_bind_error {m : Performing α} {f : α → Performing β} {e : Answer} {v : World}
    (h : m.run w = (.done (.error e), v)) : (m >>= f).run w = (.done (.error e), v) := by
  rw [ExceptT.run_bind, Engine.bind_apply, h]
  rfl

/-! ### What lookups come to -/

theorem run_refuseWhen (step : String) (forbidden : World → Bool) (w : World) :
    (refuseWhen step forbidden).run w =
      (.done (if forbidden w then .error (.refused step) else .ok ()), w) := by
  show (if forbidden w then throw (.refused step) else pure () : Performing Unit).run w = _
  split <;> rfl

theorem run_named (kind : Missing) (table : Names → Table String α) (name : String)
    (w : World) : (named kind table name).run w =
      (.done (((table w.names).find? name).elim (.error (.missing kind name)) .ok), w) := by
  unfold named
  rw [run_bind_ok (m := world) rfl]
  cases (table w.names).find? name <;> rfl

theorem named_run {kind : Missing} {table : Names → Table String α} {name : String} {a : α}
    (found : (table w.names).find? name = some a) :
    (named kind table name).run w = (.done (.ok a), w) := by
  rw [run_named, found]
  rfl

theorem checkShareable_run {store : Nat} (unowned : (w.store store).owned = false) :
    (checkShareable store).run w = (.done (.ok ()), w) := by
  show (if (w.store store).owned then throw .busy else pure () : Performing Unit).run w = _
  rw [unowned]
  rfl

/-! ### What lookups find -/

theorem looks_pure (a : α) : (pure a : Performing α).Looks fun _ b => b = a :=
  fun w => ⟨.ok a, rfl, by rintro b ⟨⟩; rfl⟩

theorem looks_throw (e : Answer) {P : World → α → Prop} : (throw e : Performing α).Looks P :=
  fun w => ⟨.error e, rfl, by simp⟩

theorem looks_world : world.Looks fun w v => v = w :=
  fun w => ⟨.ok w, rfl, by rintro v ⟨⟩; rfl⟩

theorem Looks.mono {m : Performing α} {P Q : World → α → Prop} (hm : m.Looks P)
    (h : ∀ w a, P w a → Q w a) : m.Looks Q := by
  intro w
  obtain ⟨r, hr, hP⟩ := hm w
  exact ⟨r, hr, fun a ha => h w a (hP a ha)⟩

theorem Looks.any {m : Performing α} {P : World → α → Prop} (hm : m.Looks P) : m.Looks (Any α) :=
  hm.mono fun _ _ _ => trivial

theorem Looks.bind {m : Performing α} {f : α → Performing β} {P : World → α → Prop}
    {Q : World → β → Prop} (hm : m.Looks P) (hf : ∀ a, (f a).Looks fun w b => P w a → Q w b) :
    (m >>= f).Looks Q := by
  intro w
  obtain ⟨r, hr, hP⟩ := hm w
  cases r with
  | ok a =>
    obtain ⟨r, hr', hQ⟩ := hf a w
    exact ⟨r, by rw [run_bind_ok hr, hr'], fun b hb => hQ b hb (hP a rfl)⟩
  | error e => exact ⟨.error e, run_bind_error hr, by simp⟩

theorem Looks.bind_any {m : Performing α} {f : α → Performing β} {P : World → α → Prop}
    (hm : m.Looks P) (hf : ∀ a, (f a).Looks (Any β)) : (m >>= f).Looks (Any β) :=
  hm.bind fun a => (hf a).mono fun _ _ _ _ => trivial

/-- What comes after a lookup may rely on what was found. -/
theorem Looks.keepsAt_bind {m : Performing α} {f : α → Performing β} {P : World → α → Prop}
    (hm : m.Looks P) (hf : ∀ a, P w a → (f a).run.KeepsAt L w) : (m >>= f).run.KeepsAt L w := by
  obtain ⟨r, hr, hP⟩ := hm w
  cases r with
  | ok a => exact (hf a (hP a rfl)).congr (run_bind_ok hr)
  | error e => exact Engine.keepsAt_of_eq (run_bind_error hr) fun hw => ⟨hw, L.refl hw⟩

theorem Looks.keepsAt {m : Performing α} {P : World → α → Prop} (hm : m.Looks P) :
    m.run.KeepsAt L w := by
  obtain ⟨r, hr, -⟩ := hm w
  exact Engine.keepsAt_of_eq hr fun hw => ⟨hw, L.refl hw⟩

theorem Looks.of_ok {m : Performing α} {P : World → α → Prop} {a : α} {v : World} (hm : m.Looks P)
    (h : m.run w = (.done (.ok a), v)) : v = w ∧ P w a := by
  obtain ⟨r, hr, hP⟩ := hm w
  cases h.symm.trans hr
  exact ⟨rfl, hP a rfl⟩

theorem looks_named (kind : Missing) (table : Names → Table String α) (name : String) :
    (named kind table name).Looks fun w a => (table w.names).find? name = some a := by
  refine looks_world.bind fun w => ?_
  cases h : (table w.names).find? name with
  | some a => exact (looks_pure a).mono fun v b hb hv => by rw [hb, ← hv, h]
  | none => exact looks_throw _

theorem looks_storeNamed (name : String) : (storeNamed name).Looks World.Named :=
  (looks_named _ _ _).mono fun _ _ h => ⟨name, h⟩

theorem looks_affinityNamed (name : Option String) :
    (affinityNamed name).Looks fun w affinity => w.names.Valid w → w.Offers affinity := by
  cases name with
  | none => exact (looks_pure none).mono fun w a ha _ d hd => by rw [ha] at hd; cases hd
  | some name =>
    rw [affinityNamed, map_eq_pure_bind]
    refine (looks_named _ _ _).bind fun d => (looks_pure _).mono fun w a ha hd hn e he => ?_
    rw [ha] at he
    cases he
    exact hn.domains hd

theorem looks_orUnreadable (a : Option α) : (orUnreadable a).Looks fun _ b => a = some b := by
  cases a with
  | some a => exact (looks_pure a).mono fun _ _ h => h ▸ rfl
  | none => exact looks_throw _

theorem looks_storeIdNamed (name : String) : (storeIdNamed name).Looks (Any StoreId) := by
  unfold storeIdNamed
  split
  · exact (looks_pure _).any
  · exact (looks_named _ _ _).any

theorem looks_sourceNamed (s : SourceName) : (sourceNamed s).Looks (Any Source) := by
  cases s with
  | key key => exact (looks_named _ _ _).bind_any fun _ => (looks_pure _).any
  | store store => exact (looks_storeIdNamed store).bind_any fun _ => (looks_pure _).any
  | item store item => exact (looks_storeIdNamed store).bind_any fun _ => (looks_pure _).any

theorem looks_descriptor (p : DescriptorPlan) : (descriptor p).Looks (Any Descriptor) := by
  unfold descriptor
  cases p.store with
  | some store => exact (looks_storeIdNamed store).bind_any fun _ => (looks_pure _).any
  | none => exact (looks_pure _).any

/-- An access made outside a chain has no pass. -/
theorem looks_access (p : AccessPlan) : (access p).Looks fun _ a => a.ticket = 0 := by
  refine (looks_descriptor _).bind fun d => (looks_orUnreadable _).bind fun v => ?_
  exact (looks_pure _).mono fun _ a ha _ _ => by rw [ha]

theorem looks_checkShareable (store : Nat) :
    (checkShareable store).Looks fun w _ => (w.store store).owned = false := by
  refine looks_world.bind fun w => ?_
  split
  · exact looks_throw _
  · next h => exact (looks_pure _).mono fun v _ _ hv => by simpa [hv] using h

theorem looks_checkUnused (store : Nat) :
    (checkUnused store).Looks fun w _ => (w.store store).inUse = false := by
  refine looks_world.bind fun w => ?_
  split
  · exact looks_throw _
  · next h => exact (looks_pure _).mono fun v _ _ hv => by simpa [hv] using h

theorem looks_refuseWhen (step : String) (forbidden : World → Bool) :
    (refuseWhen step forbidden).Looks fun w _ => forbidden w = false := by
  refine looks_world.bind fun w => ?_
  split
  · exact looks_throw _
  · next h => exact (looks_pure _).mono fun v _ _ hv => by simpa [hv] using h

theorem looks_presentedTo (key : NamedKey) (store : Option String) :
    (presentedTo key store).Looks World.Named :=
  looks_storeNamed _

/-- The domain that a store under construction is to be bound to was made before. -/
def Settings.Offered (w : World) (s : Settings) : Prop :=
  w.names.Valid w → w.Offers s.affinity

theorem looks_applyCall (s : Settings) (c : BuilderCall) :
    (applyCall s c).Looks fun w t => s.Offered w → t.Offered w := by
  have keep (c : StoreConfig) : (pure { s with config := c } : Performing Settings).Looks
      fun w t => s.Offered w → t.Offered w :=
    (looks_pure _).mono fun w t ht hs => ht ▸ hs
  cases c with
  | name name => exact keep _
  | aspects aspects => exact keep _
  | config config => exact keep _
  | affinity domain =>
    exact (looks_affinityNamed domain).bind fun a =>
      (looks_pure _).mono fun w t ht ha _ => ht ▸ ha
  | file path content =>
    unfold applyCall
    dsimp only
    split
    · exact keep _
    · exact looks_throw _

theorem looks_settings (plan : StorePlan) : (settings plan).Looks Settings.Offered := by
  have bare (c : StoreConfig) (w : World) : Settings.Offered w { config := c } :=
    fun _ d hd => by cases hd
  have calls (cs : List BuilderCall) : ∀ s : Settings,
      (cs.foldlM applyCall s).Looks fun w t => s.Offered w → t.Offered w := by
    induction cs with
    | nil => exact fun s => (looks_pure s).mono fun w t ht hs => ht ▸ hs
    | cons c cs ih =>
      intro s
      rw [List.foldlM_cons]
      exact (looks_applyCall s c).bind fun t => (ih t).mono fun w u hu ht hs => hu (ht hs)
  cases plan with
  | standard => exact (looks_pure _).mono fun w t ht => ht ▸ bare {} w
  | config config => exact (looks_pure _).mono fun w t ht => ht ▸ bare config w
  | builder cs => exact (calls cs {}).mono fun w t ht => ht (bare {} w)

/-- A step that only looks does not act. -/
theorem perform_looks {call : Nat → Engine Unit} {s : Step} (h : s.onlyLooks) :
    (perform call s).Looks (Any Answer) := by
  cases s with
  | domainInfo _ | aspectInfo _ =>
    exact looks_world.bind_any fun _ => (looks_named _ _ _).bind_any fun _ => (looks_pure _).any
  | sourceInfo domain source sort =>
    exact (looks_named _ _ _).bind_any fun _ =>
      (looks_sourceNamed _).bind_any fun _ => looks_world.bind_any fun _ => (looks_pure _).any
  | affinityInfo domain other =>
    exact (looks_affinityNamed _).bind_any fun _ =>
      (looks_affinityNamed _).bind_any fun _ => looks_world.bind_any fun _ => (looks_pure _).any
  | dependentAffinity name domain =>
    exact (looks_named _ _ _).bind_any fun _ =>
      (looks_affinityNamed _).bind_any fun _ => (looks_pure _).any
  | storeInfo _ | storeDebug _ | contains _ _ | stateOf _ _ | isTriggered _ =>
    exact (looks_storeNamed _).bind_any fun _ =>
      (looks_checkShareable _).bind_any fun _ => looks_world.bind_any fun _ => (looks_pure _).any
  | keyInfo key other =>
    exact (looks_named _ _ _).bind_any fun _ =>
      (looks_named _ _ _).bind_any fun _ => (looks_pure _).any
  | note text => exact (looks_pure _).any
  | _ => cases h

end Performing

end GuardedStore
