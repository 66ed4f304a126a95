import GuardedStore.Proofs.Apart.Sides
import GuardedStore.Proofs.Run.Heaps
import GuardedStore.Proofs.Run.Standing

/-!
Taped runs: what a run comes to when every domain that would queue its events records them.

A taped step makes recording domains where the step makes cooperative ones, in the scripts it hands
out as well. In a taped world each cooperative domain is the recorder that stands in for it: it has
recorded what is queued, and a source as often as there are subscriptions to it. All else is as it
was, but that nobody is told in the log of events that are queued.
-/
namespace GuardedStore

def Cooperative.taped (c : Cooperative) : Recording where
  events := c.queue
  subscriptions := c.subscriptions.map (·.1)

def Domain.taped (d : Domain) : Domain :=
  match d.mode with
  | .cooperative c => { d with mode := .recording c.taped }
  | _ => d

mutual

/-- The step with a recorder in place of every cooperative domain that it leads to. -/
def Step.taped : Step → Step
  | .domain name label plan => .domain name label (Step.tapedDomain plan)
  | .dependent name f g => .dependent name (Step.tapedRun f) (Step.tapedRun g)
  | .onExecute s label run => .onExecute s label (Step.tapedRun run)
  | .create s key name type argument convert plan =>
    .create s key name type argument convert (Step.tapedFactory plan)
  | .aspect id plan => .aspect id (Step.tapedAspect plan)
  | .chain name ls => .chain name (Step.tapedLinks ls)
  | s => s

def Step.tapedAll : List Step → List Step
  | [] => []
  | s :: steps => s.taped :: Step.tapedAll steps

def Step.tapedRun : Option (Nat → List Step) → Option (Nat → List Step)
  | some f => some fun n => Step.tapedAll (f n)
  | none => none

def Step.tapedDomain : DomainPlan (Nat → List Step) → DomainPlan (Nat → List Step)
  | .cooperative => .recording
  | .recording => .recording
  | .immediate script => .immediate (Step.tapedRun script)

def Step.tapedProbe : Probe (Nat → List Step) → Probe (Nat → List Step)
  | ⟨name, quiet, writes, reads, script, writesAsked, readsAsked⟩ =>
    ⟨name, quiet, writes, reads, fun h => Step.tapedRun (script h), writesAsked, readsAsked⟩

def Step.tapedAspect : AspectPlan (Nat → List Step) → AspectPlan (Nat → List Step)
  | .probe p => .probe (Step.tapedProbe p)
  | .audit => .audit
  | .lock patience => .lock patience
  | .plain name => .plain name
  | .validation v => .validation v

def Step.tapedLink : Link (Nat → List Step) → Link (Nat → List Step)
  | .shared id => .shared id
  | .fresh plan => .fresh (Step.tapedAspect plan)

def Step.tapedLinks : List (Link (Nat → List Step)) → List (Link (Nat → List Step))
  | [] => []
  | l :: ls => Step.tapedLink l :: Step.tapedLinks ls

def Step.tapedItem : String × List (Link (Nat → List Step)) →
    String × List (Link (Nat → List Step))
  | (name, ls) => (name, Step.tapedLinks ls)

def Step.tapedItems : List (String × List (Link (Nat → List Step))) →
    List (String × List (Link (Nat → List Step)))
  | [] => []
  | i :: items => Step.tapedItem i :: Step.tapedItems items

def Step.tapedSource : ChainSource (Nat → List Step) → ChainSource (Nat → List Step)
  | .chain name => .chain name
  | .links ls => .links (Step.tapedLinks ls)
  | .byItem items => .byItem (Step.tapedItems items)

def Step.tapedFactory : FactoryPlan (Nat → List Step) → FactoryPlan (Nat → List Step)
  | .custom spy panics source => .custom spy panics (Step.tapedSource source)
  | .store => .store
  | .none => .none
  | .config c => .config c

end

def Script.taped (f : Script) : Script := fun n => (f n).map Step.taped

namespace Step

theorem tapedAll_eq (steps : List Step) : tapedAll steps = steps.map taped := by
  induction steps with
  | nil => rfl
  | cons s steps ih => rw [tapedAll, ih, List.map_cons]

theorem tapedRun_eq (run : Option Script) : tapedRun run = run.map Script.taped := by
  cases run with
  | none => rfl
  | some f =>
    rw [tapedRun, Option.map_some]
    congr 1
    funext n
    exact tapedAll_eq (f n)

theorem tapedLinks_eq (ls : List (Link Script)) : tapedLinks ls = ls.map tapedLink := by
  induction ls with
  | nil => rfl
  | cons l ls ih => rw [tapedLinks, ih, List.map_cons]

theorem tapedItems_eq (items : List (String × List (Link Script))) :
    tapedItems items = items.map fun i => (i.1, tapedLinks i.2) := by
  induction items with
  | nil => rfl
  | cons i items ih => rw [tapedItems, ih, List.map_cons, tapedItem]

@[simp] theorem kind_taped (s : Step) : s.taped.kind = s.kind := by
  cases s <;> rfl

/-- Whether a step neither has a domain deliver what is queued nor looks into a domain. -/
def defers : Step → Bool
  | domainInfo _ | sourceInfo .. | clear _ | runPending _ => false
  | _ => true

/-- The scripts that a step hands out for later. -/
def carried : Step → List Script
  | domain _ _ (.immediate script) => script.toList
  | dependent _ f g => f.toList ++ g.toList
  | s => s.hung

/-- The step leaves queued what is queued, and so do all the steps that its scripts lead to. -/
inductive Deferring : Step → Prop where
  | intro {s : Step} (defers : s.defers) (carried : ∀ f ∈ s.carried, ∀ n, ∀ t ∈ f n, t.Deferring) :
    s.Deferring

theorem Deferring.defers {s : Step} (h : s.Deferring) : s.defers := by
  cases h
  assumption

theorem Deferring.carried {s : Step} (h : s.Deferring) :
    ∀ f ∈ s.carried, ∀ n, ∀ t ∈ f n, t.Deferring := by
  cases h
  assumption

end Step

def Script.Deferring (f : Script) : Prop :=
  ∀ n, ∀ s ∈ f n, s.Deferring

def Routine.taped (r : Routine) : Routine :=
  { r with script := r.script.taped }

/-- Whether it also happens where events are recorded. -/
def Happening.onTape : Happening → Bool
  | notice (.triggerQueued ..) => false
  | _ => true

namespace Domain

variable (d : Domain)

@[simp] theorem label_taped : d.taped.label = d.label := by
  unfold taped
  split <;> rfl

theorem mode_taped : d.taped.mode = match d.mode with
    | .cooperative c => .recording c.taped
    | m => m := by
  unfold taped
  cases hm : d.mode <;> simp [hm]

theorem taped_subscribe (source : Source) (s : Subscriber) :
    (d.subscribe source s).taped = d.taped.subscribe source s := by
  obtain ⟨label, r | c | i⟩ := d
  · rfl
  · simp [taped, subscribe, Cooperative.taped]
  · rfl

theorem taped_unsubscribe (source : Source) :
    (d.unsubscribe source).taped = d.taped.unsubscribe source := by
  obtain ⟨label, r | c | i⟩ := d
  · rfl
  · simp [taped, unsubscribe, Cooperative.taped, List.filter_map, Function.comp_def]
  · rfl

theorem taped_accept (event : Event) : (d.accept event).taped = d.taped.accept event := by
  obtain ⟨label, r | c | i⟩ := d <;> rfl

theorem taped_setDelivering (delivering : Bool) :
    (d.setDelivering delivering).taped = d.taped.setDelivering delivering := by
  obtain ⟨label, r | c | i⟩ := d <;> rfl

/-- A domain that wakes its subscribers at once stays as it is. -/
theorem taped_of_immediate {i : Immediate} (hd : d.mode = .immediate i) : d.taped = d := by
  unfold taped
  rw [hd]

end Domain

namespace World

def taped (w : World) : World :=
  { w with
    domains := w.domains.map Domain.taped
    routines := w.routines.map Routine.taped
    history := w.history.filter Happening.onTape }

/-- Every script leaves queued what is queued, and where there is no domain yet, none delivers. -/
structure Deferring (w : World) : Prop where
  scripts : ∀ r, (w.routines.get r).script.Deferring
  vacant : ∀ {r}, w.domains.next ≤ r → (w.domain r).kind ≠ .immediate

/-- Still every script leaves queued what is queued, and domains that deliver at once still do. -/
structure Defers (w v : World) : Prop where
  deferring : v.Deferring
  immediate : ∀ {r}, (w.domain r).kind = .immediate → (v.domain r).kind = .immediate

theorem Deferring.refl {w : World} (hw : w.Deferring) : w.Defers w :=
  ⟨hw, id⟩

theorem Defers.trans {u v w : World} (h : u.Defers v) (h' : v.Defers w) : u.Defers w :=
  ⟨h'.deferring, h'.immediate ∘ h.immediate⟩

theorem Deferring.of_same {w v : World} (hr : v.routines = w.routines)
    (hd : v.domains = w.domains) (hw : w.Deferring) : w.Defers v where
  deferring := {
    scripts := hr ▸ hw.scripts
    vacant := fun h => by
      rw [domain, hd]
      exact hw.vacant (hd ▸ h) }
  immediate h := by rwa [domain, hd]

theorem Deferring.modifyDomain {w : World} {r : Nat} {f : Domain → Domain}
    (hf : ∀ d, (f d).kind = d.kind) (hw : w.Deferring) : w.Defers (w.modifyDomain r f) := by
  have hk (q : Nat) : ((w.modifyDomain r f).domain q).kind = (w.domain q).kind := by
    rw [domain_modifyDomain]
    split
    · next h => rw [hf, h]
    · rfl
  exact ⟨⟨hw.scripts, fun h => hk _ ▸ hw.vacant h⟩, fun h => (hk _).trans h⟩

variable (w : World)

@[simp] theorem domain_taped (r : Nat) : w.taped.domain r = (w.domain r).taped :=
  Heap.get_map rfl w.domains r

theorem taped_modifyDomain (r : Nat) {f : Domain → Domain} (hf : ∀ d, (f d).taped = f d.taped) :
    (w.modifyDomain r f).taped = w.taped.modifyDomain r f := by
  unfold taped modifyDomain
  rw [Heap.map_modify rfl hf]

theorem taped_mark {h : Happening} (hh : h.onTape) : (w.mark h).taped = w.taped.mark h := by
  unfold taped mark
  rw [List.filter_cons_of_pos hh]

theorem taped_mark_of_not {h : Happening} (hh : h.onTape = false) :
    (w.mark h).taped = w.taped := by
  unfold taped mark
  rw [List.filter_cons_of_neg (by simp [hh])]

theorem domainName_taped (affinity : Option Nat) :
    w.taped.domainName affinity = w.domainName affinity := by
  simp [domainName]

theorem inspectAffinity_taped (affinity : Option Nat) :
    w.taped.inspectAffinity affinity = w.inspectAffinity affinity := by
  unfold inspectAffinity
  rw [domainName_taped]

/-- Whoever a domain wakes at once is woken by it on tape. -/
theorem liveSubscribers_taped {d : Nat} {i : Immediate} (hd : (w.domain d).mode = .immediate i)
    (source : Source) : w.taped.liveSubscribers d source = w.liveSubscribers d source := by
  unfold liveSubscribers
  rw [domain_taped, Domain.taped_of_immediate _ hd]
  rfl

end World

/-- The report of what a taped run does. -/
def Scenario.Report.taped (r : Scenario.Report) : Scenario.Report :=
  ⟨r.answer, r.happenings.filter Happening.onTape⟩

end GuardedStore
