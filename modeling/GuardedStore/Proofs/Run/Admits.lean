import GuardedStore.Proofs.Run.Lookups

/-!
What a law has to say about the operations that steps are made of.

A step is lookups, a few operations of the engine, and bookkeeping between them. `Admits` lists the
operations, each under what a step knows when it gets there.
-/
namespace GuardedStore

/-- A new aspect has not met any access. -/
inductive Aspect.Fresh {σ : Type} : Aspect σ → Prop where
  | audit : Fresh (.audit {})
  | lock (patience : Patience) : Fresh (.lock { patience })
  | validation (v : Validation) : Fresh (.validation { v with rejections := 0 })
  | plain (name : String) : Fresh (.plain name)
  | probe (p : Probe σ) : Fresh (.probe p)

/-- A new domain has no subscriptions and no events. -/
inductive DomainMode.Fresh : DomainMode → Prop where
  | recording : Fresh (.recording {})
  | cooperative : Fresh (.cooperative {})
  | immediate (script : Option Nat) : Fresh (.immediate { script })

namespace World

/-- The aspect may be given a name: it goes by one already, or it is in no item's chain. -/
def Public (w : World) (x : Nat) : Prop :=
  w.names.Calls x ∨ ∀ i < w.items.next, x ∉ (w.item i).chain

/-- Only scripts, dependents, names of no account and the trace have changed. -/
structure Idle (w w' : World) : Prop where
  items : w'.items = w.items
  aspects : w'.aspects = w.aspects
  domains : w'.domains = w.domains
  stores : w'.stores = w.stores
  tickets : w'.tickets = w.tickets
  unwinding : w'.unwinding = w.unwinding
  held : w'.held = w.held
  storeNames : w'.names.stores = w.names.stores
  passages : w'.names.passages = w.names.passages
  names : w.names.Valid w → w'.names.Valid w'
  calls : ∀ {x}, w'.names.Calls x → w.Public x
  history : ∃ notes, (∀ h ∈ notes, h.inTrace) ∧ w'.history = notes ++ w.history

theorem Idle.of_names {w w' : World} (names : w'.names = w.names) (items : w'.items = w.items)
    (aspects : w'.aspects = w.aspects) (domains : w'.domains = w.domains)
    (stores : w'.stores = w.stores) (tickets : w'.tickets = w.tickets)
    (unwinding : w'.unwinding = w.unwinding)
    (history : ∃ notes, (∀ h ∈ notes, h.inTrace) ∧ w'.history = notes ++ w.history)
    (held : w'.held = w.held := by rfl) : w.Idle w' where
  items := items
  aspects := aspects
  domains := domains
  stores := stores
  tickets := tickets
  unwinding := unwinding
  held := held
  storeNames := by rw [names]
  passages := by rw [names]
  names h := names ▸ h.mono (Nat.le_of_eq (by rw [domains])) (Nat.le_of_eq (by rw [stores]))
    (Nat.le_of_eq (by rw [aspects]))
  calls h := .inl (names ▸ h)
  history := history

theorem idle_record {h : Happening} (hh : h.inTrace) (w : World) :
    w.Idle { w with history := h :: w.history } :=
  .of_names rfl rfl rfl rfl rfl rfl rfl ⟨[h], by simpa using hh, rfl⟩

theorem idle_rename {w : World} {f : Names → Names} (hs : (f w.names).stores = w.names.stores)
    (hp : (f w.names).passages = w.names.passages)
    (hn : w.names.Valid w → (f w.names).Valid w)
    (hc : ∀ {x}, (f w.names).Calls x → w.Public x) : w.Idle { w with names := f w.names } where
  items := rfl
  aspects := rfl
  domains := rfl
  stores := rfl
  tickets := rfl
  unwinding := rfl
  held := rfl
  storeNames := hs
  passages := hp
  names h := (hn h).mono (Nat.le_refl _) (Nat.le_refl _) (Nat.le_refl _)
  calls := hc
  history := ⟨[], by simp, rfl⟩

/-- The store is used by one more call that leaves alone who its items are. -/
def share (store : Nat) (w : World) : World :=
  w.modifyStore store fun s => { s with sharers := s.sharers + 1 }

/-- The store belongs to a call. -/
def own (store : Nat) (w : World) : World :=
  w.modifyStore store fun s => { s with owned := true }

theorem quiet_share (store : Nat) (w : World) : w.Quiet (w.share store) :=
  w.quiet_modifyStore_of_same store fun _ => ⟨rfl, rfl, rfl⟩

theorem quiet_own (store : Nat) (w : World) : w.Quiet (w.own store) :=
  w.quiet_modifyStore_of_same store fun _ => ⟨rfl, rfl, rfl⟩

end World

namespace Engine

variable {α β : Type} {L : Law}

/-- The computation keeps the law, and its result is as described in the world it ends in. -/
def Brings (m : Engine α) (L : Law) (P : World → α → Prop) : Prop :=
  m.Keeps L ∧ ∀ {w a v}, L.inv w → m w = (.done a, v) → P v a

theorem brings_pure {a : α} {P : World → α → Prop} (h : ∀ w, P w a) :
    (pure a : Engine α).Brings L P :=
  ⟨keeps_pure a, by rintro w b v - ⟨⟩; exact h w⟩

theorem Brings.bind {m : Engine α} {f : α → Engine β} {P : World → α → Prop}
    {Q : World → β → Prop} (hm : m.Brings L P) (hf : ∀ a, (f a).Keeps L)
    (hq : ∀ {a w b v}, L.inv w → P w a → f a w = (.done b, v) → Q v b) :
    (m >>= f).Brings L Q := by
  refine ⟨hm.1.bind hf, fun {w b v} hw hr => ?_⟩
  rw [bind_apply] at hr
  rcases h : m w with ⟨a | _ | _, u⟩ <;> rw [h] at hr
  · exact hq ((hm.1 w).holds hw h).1 (hm.2 hw h) hr
  · cases hr
  · cases hr

theorem Keeps.brings_bind {m : Engine α} {f : α → Engine β} {Q : World → β → Prop}
    (hm : m.Keeps L) (hf : ∀ a, (f a).Brings L Q) : (m >>= f).Brings L Q :=
  Brings.bind (P := fun _ _ => True) ⟨hm, fun _ _ => trivial⟩ (fun a => (hf a).1)
    fun hw _ h => (hf _).2 hw h

end Engine

/-- A factory that makes chains of aspects that are there. -/
structure World.Supplies (w : World) (L : Law) (factory : Descriptor → Engine (List Nat)) :
    Prop where
  keeps : ∀ d, (factory d).Keeps L
  chain : ∀ {d v chain v'}, L.inv v → w.aspects.next ≤ v.aspects.next →
    factory d v = (.done chain, v') → ∀ a ∈ chain, a < v'.aspects.next

/-- The law allows that things are named anew. -/
def Law.Renames (L : Law) : Prop :=
  ∀ {w : World} {f : Names → Names}, (f w.names).passages = w.names.passages →
    (w.names.Valid w → (f w.names).Valid w) → (∀ {x}, (f w.names).Calls x → w.names.Calls x) →
      L.inv w → L.Holds w .done { w with names := f w.names }

namespace Engine

/-- A law that allows what no operation of the engine is about, and that lets panics begin and
aspects be made. -/
structure Basics (L : Law) : Prop where
  sound {w} : L.inv w → w.Sound
  grows {w e w'} : L.rel w e w' → w.Grows w'
  stuck {w} : L.inv w → L.rel w .stuck w
  idle {w w' : World} : w.Idle w' → L.inv w → L.Holds w .done w'
  panic text : (Engine.panic text).Keeps L
  newAspect {a} : a.Fresh → (Engine.newAspect a).Keeps L

/-- What a law has to say about the operations that steps are made of, where `call` runs scripts. An
item is usable while its store is shared. -/
structure Admits (call : Nat → Engine Unit) (L : Law) (Usable : World → Nat → Prop) : Prop
    extends Basics L where
  newDomain {label mode} : mode.Fresh → (Engine.newDomain { label, mode }).Keeps L
  clear r : (modifyDomain r Domain.clear).Keeps L
  runPending {w : World} {r} : (w.domain r).kind = .cooperative → r < w.domains.next →
    (runPending call r).KeepsAt L w
  trigger {w : World} {domain} event : w.Offers domain →
    (trigger call .outsider domain event).KeepsAt L w
  subscribe {w : World} {domain} source d : w.Offers domain →
    (record (.subscribed domain source) >>= fun _ =>
      Engine.subscribe domain source (.dependent d)).KeepsAt L w
  unsubscribe {w : World} {domain} source : w.Offers domain →
    (record (.unsubscribed domain source) >>= fun _ =>
      Engine.unsubscribe domain source).KeepsAt L w
  prompt {w : World} {s} event : s < w.stores.next → (prompt call s event).KeepsAt L w
  onExecute {w : World} {s} hook : s < w.stores.next → (onExecute s hook).KeepsAt L w
  executeStore {w : World} {s} : s < w.stores.next → (w.store s).inUse →
    (executeStore call s).KeepsAt L w
  triggerStore {w : World} {s} : s < w.stores.next → (triggerStore call s).KeepsAt L w
  setAffinity {w : World} {s affinity} : w.Named s → (w.store s).owned = false → w.Offers affinity →
    (setAffinity s affinity).KeepsAt L w
  newStore name plan : (Performing.newStore name plan).run.Keeps L
  dropStore name : (Performing.dropStore name).run.Keeps L
  sharing {α : Type} {m : Engine α} {w : World} {s} : w.Named s → (w.store s).owned = false →
    m.KeepsAt L (w.share s) →
    (modify (World.share s) >>= fun _ => ensure m (endSharing s)).KeepsAt L w
  usable {w : World} {s i} : L.inv w → w.Named s → (w.store s).owned = false →
    i ∈ ((w.share s).store s).arena.toList → Usable (w.share s) i
  still_usable {w w' : World} {i} : Usable w i → L.inv w → L.Holds w .done w' → Usable w' i
  write {w : World} {i} v : Usable w i → v.type = (w.item i).descriptor.type →
    (write call i v).KeepsAt L w
  read {w : World} {i} : Usable w i → (read call i).KeepsAt L w
  create storeName key name type argument convert plan :
    (Performing.create call storeName key name type argument convert plan).run.Keeps L
  destroy key store : (Performing.destroy key store).run.Keeps L
  enter chain phase passage plan : (Performing.enter call chain phase passage plan).run.Keeps L
  exit passage : (Performing.exit call passage).run.Keeps L
  chainWait chain phase plan : (Performing.chainWait call chain phase plan).run.Keeps L
  ask {w : World} {aspect} phase {access} : w.names.Calls aspect → access.ticket = 0 →
    (record (.visited [aspect]) >>= fun _ => ask call aspect phase access).KeepsAt L w
  tell {w : World} {aspect} phase {access} permitted : w.names.Calls aspect → access.ticket = 0 →
    (record (.visited [aspect]) >>= fun _ =>
      tell call aspect phase access permitted).KeepsAt L w

end Engine

namespace Performing

variable {α β : Type} {L : Law}

/-- The computation keeps the law, and what it gives, if it gives anything, is as described. -/
def Brings (m : Performing α) (L : Law) (P : World → α → Prop) : Prop :=
  m.run.Brings L fun w r => ∀ a, r = .ok a → P w a

theorem run_lift (m : Engine α) : (liftM m : Performing α).run = m >>= fun a => pure (.ok a) := rfl

theorem run_lift_bind (m : Engine α) (f : α → Performing β) :
    (liftM m >>= f : Performing β).run = m >>= fun a => (f a).run := by
  rw [ExceptT.run_bind, run_lift, bind_assoc]
  rfl

theorem done_of_lift {m : Engine α} {a : α} {w v : World}
    (h : (liftM m : Performing α).run w = (.done (.ok a), v)) : m w = (.done a, v) := by
  rw [run_lift, Engine.bind_apply] at h
  rcases hm : m w with ⟨b | _ | _, u⟩ <;> rw [hm] at h <;> cases h
  rfl

theorem ok_of_bind {m : Performing α} {f : α → Performing β} {b : β} {w v : World}
    (h : (m >>= f).run w = (.done (.ok b), v)) :
    ∃ a u, m.run w = (.done (.ok a), u) ∧ (f a).run u = (.done (.ok b), v) := by
  rw [ExceptT.run_bind, Engine.bind_apply] at h
  rcases hm : m.run w with ⟨(e | a) | _ | _, u⟩ <;> rw [hm] at h
  · cases h
  · exact ⟨a, u, rfl, h⟩
  · cases h
  · cases h

theorem keepsAt_lift {m : Engine α} {w : World} (h : m.KeepsAt L w) :
    (liftM m : Performing α).run.KeepsAt L w := by
  rw [run_lift]
  exact h.bind fun _ v _ _ => Engine.keeps_pure _ v

theorem keeps_lift {m : Engine α} (h : m.Keeps L) : (liftM m : Performing α).run.Keeps L :=
  fun w => keepsAt_lift (h w)

theorem keeps_pure (a : α) : (pure a : Performing α).run.Keeps L :=
  Engine.keeps_pure _

theorem keeps_throw (e : Answer) : (throw e : Performing α).run.Keeps L :=
  Engine.keeps_pure _

theorem keepsAt_bind {m : Performing α} {f : α → Performing β} {w : World}
    (hm : m.run.KeepsAt L w)
    (hf : ∀ a v, m.run w = (.done (.ok a), v) → L.Holds w .done v → (f a).run.KeepsAt L v) :
    (m >>= f).run.KeepsAt L w := by
  rw [ExceptT.run_bind]
  refine hm.bind fun r v hr hv => ?_
  cases r with
  | ok a => exact hf a v hr hv
  | error e => exact Engine.keeps_pure _ v

theorem keeps_bind {m : Performing α} {f : α → Performing β} (hm : m.run.Keeps L)
    (hf : ∀ a, (f a).run.Keeps L) : (m >>= f).run.Keeps L :=
  fun w => keepsAt_bind (hm w) fun a v _ _ => hf a v

/-- What comes after an operation of the engine may rely on what it gives. -/
theorem keepsAt_lift_bind {m : Engine α} {f : α → Performing β} {w : World} (hm : m.KeepsAt L w)
    (hf : ∀ a v, m w = (.done a, v) → L.Holds w .done v → (f a).run.KeepsAt L v) :
    (liftM m >>= f : Performing β).run.KeepsAt L w := by
  exact keepsAt_bind (keepsAt_lift hm) fun a v hr hv => hf a v (done_of_lift hr) hv

theorem orFault_keepsAt {m : Engine (Except Fault α)} {w : World} (h : m.KeepsAt L w) :
    (orFault m).run.KeepsAt L w := by
  refine keepsAt_lift_bind h fun r v _ _ => ?_
  cases r with
  | ok a => exact keeps_pure a v
  | error fault => exact keeps_throw _ v

theorem eq_of_orFault {m : Engine (Except Fault α)} {w v : World} {a : α}
    (h : (orFault m).run w = (.done (.ok a), v)) : m w = (.done (.ok a), v) := by
  unfold orFault at h
  rw [ExceptT.run_bind, run_lift, bind_assoc, Engine.bind_apply] at h
  rcases hm : m w with ⟨(_ | _) | _ | _, u⟩ <;> rw [hm] at h <;> cases h
  rfl

theorem brings_lift {m : Engine α} {P : World → α → Prop} (hm : m.Brings L P) :
    (liftM m : Performing α).Brings L P := by
  refine ⟨keeps_lift hm.1, fun {w r v} hw hr a ha => ?_⟩
  subst ha
  exact hm.2 hw (done_of_lift hr)

theorem brings_pure {a : α} {P : World → α → Prop} (h : ∀ w, P w a) :
    (pure a : Performing α).Brings L P :=
  Engine.brings_pure fun w b hb => by cases hb; exact h w

theorem Brings.bind {m : Performing α} {f : α → Performing β} {P : World → α → Prop}
    {Q : World → β → Prop} (hm : m.Brings L P) (hf : ∀ a, (f a).run.Keeps L)
    (hq : ∀ {a w b v}, L.inv w → P w a → (f a).run w = (.done (.ok b), v) → Q v b) :
    (m >>= f).Brings L Q := by
  unfold Brings
  rw [ExceptT.run_bind]
  refine Engine.Brings.bind hm (fun r => ?_) fun {r w c v} hw hP h b hb => ?_
  · cases r with
    | ok a => exact hf a
    | error e => exact Engine.keeps_pure _
  · subst hb
    cases r with
    | ok a => exact hq hw (hP a rfl) h
    | error e => cases h

theorem Looks.brings {m : Performing α} {P : World → α → Prop} (hm : m.Looks P) :
    m.Brings L fun w a => L.inv w → P w a := by
  refine ⟨fun w => hm.keepsAt, fun {w r v} _ h a ha _ => ?_⟩
  obtain ⟨r', hr', hP⟩ := hm w
  rw [h] at hr'
  cases hr'
  exact hP a ha

end Performing

/-- The aspects were all made before. -/
def World.Has (w : World) (aspects : List Nat) : Prop :=
  ∀ a ∈ aspects, a < w.aspects.next

theorem World.Has.mono {w w' : World} {aspects : List Nat} (h : w.Has aspects)
    (hn : w.aspects.next ≤ w'.aspects.next) : w'.Has aspects :=
  fun a ha => Nat.lt_of_lt_of_le (h a ha) hn

theorem World.Has.tail {w : World} {x : Nat} {aspects : List Nat} (h : w.Has (x :: aspects)) :
    w.Has aspects :=
  fun a ha => h a (List.mem_cons_of_mem x ha)

namespace Engine

variable {α β : Type} {L : Law}

theorem brings_mapM {f : α → Engine Nat} (hg : ∀ {w e w'}, L.rel w e w' → w.Grows w')
    {l : List α} (hf : ∀ a ∈ l, (f a).Brings L fun w i => i < w.aspects.next) :
    (l.mapM f).Brings L World.Has := by
  induction l with
  | nil => exact brings_pure fun w i hi => by cases hi
  | cons a l ih =>
    rw [List.mapM_cons]
    replace ih := ih fun a ha => hf a (List.mem_cons_of_mem _ ha)
    refine (hf a List.mem_cons_self).bind (fun i => ih.1.bind fun _ => keeps_pure _)
      fun {i w is v} hw hi h => ?_
    rw [bind_apply] at h
    rcases hl : l.mapM f w with ⟨js | _ | _, u⟩ <;> rw [hl] at h <;> cases h
    have hlt := Nat.lt_of_lt_of_le hi (hg ((ih.1 w).holds hw hl).2).aspects
    exact List.forall_mem_cons.mpr ⟨hlt, ih.2 hw hl⟩

end Engine

namespace Performing

variable {α β : Type} {L : Law}

theorem brings_mapM {f : α → Performing β} {P : World → β → Prop}
    (hP : ∀ {w e w' b}, L.rel w e w' → P w b → P w' b)
    (hf : ∀ a, (f a).Brings L P) (l : List α) :
    (l.mapM f).Brings L fun w bs => ∀ b ∈ bs, P w b := by
  induction l with
  | nil => exact brings_pure fun w b hb => by cases hb
  | cons a l ih =>
    rw [List.mapM_cons]
    refine (hf a).bind (fun i => keeps_bind ih.1 fun _ => keeps_pure _) fun {b w bs v} hw hb h => ?_
    rw [ExceptT.run_bind, Engine.bind_apply] at h
    rcases hl : (l.mapM f).run w with ⟨(_ | bs) | _ | _, u⟩ <;> rw [hl] at h <;> cases h
    have hb' := hP ((ih.1 w).holds hw hl).2 hb
    exact List.forall_mem_cons.mpr ⟨hb', ih.2 hw hl _ rfl⟩

end Performing

end GuardedStore
