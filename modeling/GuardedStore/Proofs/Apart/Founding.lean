import GuardedStore.Proofs.Apart.Company
import GuardedStore.Proofs.Estate.Admitted
import GuardedStore.Proofs.Ledger.Writes

/-!
Where two sides begin.

Domains, flags and stores are made before anything is done with the stores. In the world that is
left then nothing was put in a store, nothing waits in a domain, and nobody is woken but a store by
its own source: the sides hold on to nothing, so the world is in company with itself.
-/
namespace GuardedStore

/-- Nothing was put in the store, and nothing is to run when it executes. -/
structure Store.Pristine (s : Store) : Prop where
  slots : s.arena.slots = []
  hooks : s.signal.hooks = []

namespace Domain

/-- The domain has no script, no event waits in it, and it wakes only stores, each for its own
source. -/
structure Pristine (d : Domain) : Prop where
  script : d.gate.2.1 = none
  queue : d.queue = []
  subscribers : ∀ {source x}, x ∈ d.subscribers source →
    ∃ s, source = .store (.drawn s) ∧ x = .store s

variable {d : Domain}

theorem Pristine.subscribe (h : d.Pristine) (s : Nat) :
    (d.subscribe (.store (.drawn s)) (.store s)).Pristine where
  script := by rw [gate_subscribe, h.script]
  queue := by rw [← queue_books, books_subscribe, queue_books, h.queue]
  subscribers {source x} hx := by
    rw [subscribers_subscribe] at hx
    split at hx
    · next hs =>
      rcases List.mem_append.mp hx with hx | hx
      · exact h.subscribers hx
      · exact ⟨s, hs.2, List.mem_singleton.mp hx⟩
    · exact h.subscribers hx

theorem Pristine.unsubscribe (h : d.Pristine) (source : Source) :
    (d.unsubscribe source).Pristine where
  script := by rw [gate_unsubscribe, h.script]
  queue := by rw [← queue_books, books_unsubscribe, queue_books, h.queue]
  subscribers {src x} hx := by
    rw [subscribers_unsubscribe] at hx
    split at hx
    · cases hx
    · exact h.subscribers hx

end Domain

namespace World

/-- Domains, flags and stores are all there is, and all are as they were made. -/
structure Pristine (w : World) : Prop where
  stores : ∀ s, (w.store s).Pristine
  domains : ∀ d, (w.domain d).Pristine
  keys : w.names.keys = {}
  aspects : w.names.aspects = {}
  chains : w.names.chains = {}
  calm : w.unwinding = false
  audible : w.muted = false

variable {w : World}

theorem pristine_empty : World.Pristine {} where
  stores _ := ⟨rfl, rfl⟩
  domains _ := ⟨rfl, rfl, nofun⟩
  keys := rfl
  aspects := rfl
  chains := rfl
  calm := rfl
  audible := rfl

namespace Pristine

variable (h : w.Pristine)

include h

theorem modifyStore {r : Nat} {f : Store → Store} (hf : (f (w.store r)).Pristine) :
    (w.modifyStore r f).Pristine :=
  { h with
    stores := fun s => by
      rw [store_modifyStore]
      split
      · exact hf
      · exact h.stores s }

theorem modifyDomain {r : Nat} {f : Domain → Domain} (hf : (f (w.domain r)).Pristine) :
    (w.modifyDomain r f).Pristine :=
  { h with
    domains := fun d => by
      rw [domain_modifyDomain]
      split
      · exact hf
      · exact h.domains d }

theorem subscribing (affinity : Option Nat) (s : Nat) :
    (w.subscribing affinity (.store (.drawn s)) (.store s)).Pristine := by
  cases affinity with
  | none => exact h
  | some r => exact h.modifyDomain ((h.domains r).subscribe s)

theorem unsubscribing (affinity : Option Nat) (source : Source) :
    (w.unsubscribing affinity source).Pristine := by
  cases affinity with
  | none => exact h
  | some r => exact h.modifyDomain ((h.domains r).unsubscribe source)

theorem withStore {s : Store} (hs : s.Pristine) : (w.withStore s).Pristine :=
  { h with
    stores := fun r => by
      rw [store_withStore]
      split
      · exact hs
      · exact h.stores r }

theorem withDomain {d : Domain} (hd : d.Pristine) : (w.withDomain d).Pristine :=
  { h with
    domains := fun r => by
      rw [domain_withDomain]
      split
      · exact hd
      · exact h.domains r }

theorem founding (config : StoreConfig) (affinity : Option Nat) :
    (w.founding config affinity).Pristine :=
  { (h.withStore (s := { id := .drawn w.stores.next, config, affinity }) ⟨rfl, rfl⟩).subscribing
      affinity w.stores.next with }

omit h in
/-- A store that nothing was put in has nothing to be emptied of. -/
theorem emptying_apply {s : Nat} (hs : (w.store s).Pristine) : w.emptying s =
    w.modifyStore s fun x => { x with arena := (w.store s).arena.drain.2 } := by
  have hnil : (w.store s).arena.toList = [] := by
    unfold Arena.toList
    rw [hs.slots]
    rfl
  unfold emptying
  rw [hnil]
  rfl

theorem dropping (s : Nat) : (w.dropping s).Pristine := by
  have drained : (w.emptying s).Pristine := by
    rw [emptying_apply (h.stores s)]
    refine h.modifyStore ⟨?_, (h.stores s).hooks⟩
    show (w.store s).arena.slots.map Slot.vacate = []
    rw [(h.stores s).slots]
    rfl
  let u := w.emptying s
  have away := drained.unsubscribing (u.store s).affinity (u.store s).source
  have marked := drained.modifyStore (r := s) (f := fun x => { x with dropped := true })
    ⟨(drained.stores s).slots, (drained.stores s).hooks⟩
  exact { drained with
    stores := marked.stores
    domains := away.domains }

end Pristine

end World

/-- Nothing has been done with what was made. -/
def pristine : Law where
  inv := World.Pristine
  rel _ _ _ := True
  refl _ := trivial
  trans _ _ _ _ _ := trivial

theorem pristine_replace (s : Nat) : (Engine.replace s).Keeps pristine := by
  intro w
  refine Engine.keepsAt_modify_bind (fun h => ⟨?_, trivial⟩) fun _ => ?_
  · exact World.Pristine.modifyStore h ⟨(h.stores s).slots, (h.stores s).hooks⟩
  · refine Engine.keepsAt_of_eq (Engine.dropIfIdle_apply s _) fun h => ⟨?_, trivial⟩
    split
    · exact World.Pristine.dropping h s
    · exact h

theorem pristine_buildStore (config : StoreConfig) (affinity : Option Nat) :
    (Engine.buildStore config affinity).Keeps pristine := by
  intro w hw
  rw [Engine.buildStore_apply]
  split
  · exact ⟨hw, trivial⟩
  · exact ⟨World.Pristine.founding hw config affinity, trivial⟩

/-- A step by which a domain without a script of its own is made, or a flag, or a store. -/
def Step.founds : Step → Bool
  | .domain _ _ (.immediate script) => script.isNone
  | .domain .. | .store .. | .flag .. => true
  | _ => false

namespace Performing

theorem pristine_rename {f : Names → Names}
    (hf : ∀ n, (f n).keys = n.keys ∧ (f n).aspects = n.aspects ∧ (f n).chains = n.chains) :
    (rename f).run.Keeps pristine := by
  intro w
  obtain ⟨keys, aspects, chains⟩ := hf w.names
  refine keepsAt_lift (Engine.keepsAt_modify fun h => ⟨?_, trivial⟩)
  exact { h with
    keys := keys.trans h.keys
    aspects := aspects.trans h.aspects
    chains := chains.trans h.chains }

theorem pristine_newStore (name : String) (plan : StorePlan) :
    (newStore name plan).run.Keeps pristine := by
  intro w
  refine (looks_settings plan).keepsAt_bind fun x _ => ?_
  refine keepsAt_bind (orFault_keepsAt (pristine_buildStore x.config x.affinity w))
    fun store v _ _ => ?_
  refine looks_world.keepsAt_bind fun u _ => ?_
  refine keepsAt_bind (pristine_rename (by exact fun _ => ⟨rfl, rfl, rfl⟩) v)
    fun _ y _ _ => keepsAt_bind ?_ fun _ v _ _ => keeps_pure _ v
  cases u.names.stores.find? name with
  | none => exact keeps_pure _ y
  | some old => exact keepsAt_lift (pristine_replace old y)

theorem pristine_newDomain (name label : String) {plan : DomainPlan Script}
    (hp : (Step.domain name label plan).founds) :
    (newDomain name label plan).run.Keeps pristine := by
  have register {mode : DomainMode} (hm : Domain.Pristine { label, mode }) :
      (do
        let domain ← (Engine.newDomain { label, mode } : Performing Nat)
        rename fun n => { n with domains := n.domains.put name domain }
        return .ok : Performing Answer).run.Keeps pristine := by
    intro w
    have made : (Engine.newDomain { label, mode }).KeepsAt pristine w := fun h =>
      ⟨World.Pristine.withDomain h hm, trivial⟩
    refine keepsAt_lift_bind made fun d v _ _ => ?_
    exact keepsAt_bind (pristine_rename (by exact fun _ => ⟨rfl, rfl, rfl⟩) v)
      fun _ v _ _ => keeps_pure _ v
  cases plan with
  | recording => exact register ⟨rfl, rfl, nofun⟩
  | cooperative => exact register ⟨rfl, rfl, nofun⟩
  | immediate script =>
    cases script with
    | none => exact register ⟨rfl, rfl, nofun⟩
    | some script => cases hp

theorem pristine_answer {call : Nat → Engine Unit} {s : Step} (hs : s.founds) :
    (answer call s).Keeps pristine := by
  have performed : (perform call s).run.Keeps pristine := by
    cases s with
    | domain name label plan => exact pristine_newDomain name label hs
    | store name plan => exact pristine_newStore name plan
    | flag name value =>
      exact keeps_bind (pristine_rename (by exact fun _ => ⟨rfl, rfl, rfl⟩)) fun _ =>
        keeps_pure _
    | _ => cases hs
  refine performed.bind fun r => ?_
  cases r with
  | ok a => exact Engine.keeps_pure a
  | error a => exact Engine.keeps_pure a

end Performing

namespace Scenario

theorem step_pristine (depth : Nat) {s : Step} (hs : s.founds) {w : World} (hw : w.Pristine) :
    (step depth s w).2.Pristine := by
  have h : pristine.Holds w (Performing.answer (callWithin depth) s w).1.ending
      (Performing.answer (callWithin depth) s w).2 := Performing.pristine_answer hs w hw
  unfold step
  rcases ho : Performing.answer (callWithin depth) s w with ⟨_ | _ | _, v⟩ <;> rw [ho] at h
  · exact h.1
  · exact { h.1 with calm := rfl }
  · exact h.1

/-- The world that steps leave behind. -/
def worldAfter (depth : Nat) (steps : List Step) : World :=
  steps.foldl (fun w s => (step depth s w).2) {}

theorem worldAfter_inStep (depth : Nat) (steps : List Step) : (worldAfter depth steps).InStep := by
  have h : ∀ {w : World}, w.InStep → (steps.foldl (fun w s => (step depth s w).2) w).InStep := by
    induction steps with
    | nil => exact id
    | cons s steps ih => exact fun hw => ih (step_grows depth s hw).1
  exact h inStep_empty

theorem worldAfter_pristine (depth : Nat) {steps : List Step} (hs : ∀ s ∈ steps, s.founds) :
    (worldAfter depth steps).Pristine := by
  have h : ∀ {w : World}, w.Pristine →
      (steps.foldl (fun w s => (step depth s w).2) w).Pristine := by
    induction steps with
    | nil => exact id
    | cons s steps ih =>
      exact fun hw => ih (fun t ht => hs t (List.mem_cons_of_mem _ ht))
        (step_pristine depth (hs s List.mem_cons_self) hw)
  exact h World.pristine_empty

end Scenario

/-- The side's stores have been made, and its names stand for no other stores. -/
structure Side.Settled (c : Side) (w : World) : Prop where
  made : ∀ {s}, c.stores s → s < w.stores.next
  named : ∀ {name s}, c.names name → w.names.stores.find? name = some s → c.stores s

namespace World.Pristine

variable {a b c : Side} {w : World} (h : w.Pristine)

include h

theorem alike (sound : w.Sound) (settled : c.Settled w) (lone : Bool) :
    w.Alike c lone .none w where
  itemLinks := .none
  aspectLinks := .none
  routineLinks := .none
  ticketLinks := .none
  items := False.elim
  aspects := False.elim
  routines := False.elim
  stores {s} _ := {
    id := rfl
    config := rfl
    arena := ⟨by rw [(h.stores s).slots]; exact .nil, rfl, rfl⟩
    names := rfl
    affinity := rfl
    affinityReaders := rfl
    triggers := rfl
    signal := ⟨rfl, rfl, rfl, by rw [(h.stores s).hooks]; exact .nil, rfl⟩
    dropped := rfl
    sharers := rfl
    owned := rfl
    replaced := rfl }
  ids hs := sound.ids (settled.made hs)
  domains d := {
    label := rfl
    gate := rfl
    script := (h.domains d).script
    subscribers := fun _ => rfl
    own := fun {source x} hf hx => by
      obtain ⟨s, rfl, rfl⟩ := (h.domains d).subscribers hx
      exact ⟨s, rfl, hf⟩ }
  queues _ d := by
    rw [(h.domains d).queue]
    rfl
  names := {
    domains := rfl
    flags := rfl
    stores := fun _ => rfl
    owned := settled.named
    storeIds := rfl
    keys := fun _ => rfl
    keyStores := fun _ hk => by
      rw [h.keys] at hk
      cases hk
    aspects := fun _ => by
      rw [h.aspects]
      exact .none
    chains := fun _ => by
      rw [h.chains]
      exact .none }
  held _ := .rfl
  depths := ⟨rfl, rfl⟩
  muted := rfl
  calm := ⟨h.calm, h.calm⟩
  runs _ := rfl

/-- Where nothing has been done yet, the sides have nothing in common. -/
theorem company (sound : w.Sound) (mine : a.Settled w) (theirs : b.Settled w)
    (secluded : ∀ x, a.foreign x = false) : w.Company a b .none .none w where
  mine := h.alike sound mine true
  theirs := h.alike sound theirs false
  items := False.elim
  aspects := False.elim
  routines := False.elim
  secluded := secluded
  queued {d e} he := by
    rw [(h.domains d).queue] at he
    cases he
  audible := h.audible

end World.Pristine

end GuardedStore
