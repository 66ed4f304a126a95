import GuardedStore.Proofs.Mirror.Bare

/-!
Worlds at rest.

As long as all steps are ordinary, an item's chain is made of audits and locks that nobody else
uses, and nothing that runs in the course of an access runs a script. So between accesses every lock
is free. A world is at rest when this is so; all that makes it so but the locks is its tameness,
which holds also in the course of an access.
-/
namespace GuardedStore

namespace Step

/-- Whether a step asks for nothing but stores, domains that record or queue their events, those
who are woken by them, and items whose aspects follow from a configuration or that have none. -/
def usual : Step → Bool
  | domain _ _ (.immediate _) => false
  | create _ _ _ _ _ _ (.custom ..) => false
  | itemDebug .. | aspect .. | aspectInfo _ | chain .. | factory .. | enter .. | exit _ | hook ..
  | chainWait .. => false
  | _ => true

/-- The scripts that a step hands out for later. -/
def scripts : Step → List Script
  | dependent _ f g => f.toList ++ g.toList
  | onExecute _ _ run => run.toList
  | _ => []

/-- A step that is usual, and so are all the steps that its scripts lead to. -/
inductive Ordinary : Step → Prop where
  | intro {s : Step} (usual : s.usual) (scripts : ∀ f ∈ s.scripts, ∀ n, ∀ t ∈ f n, t.Ordinary) :
    s.Ordinary

theorem Ordinary.usual {s : Step} (h : s.Ordinary) : s.usual := by
  cases h
  assumption

theorem Ordinary.scripts {s : Step} (h : s.Ordinary) :
    ∀ f ∈ s.scripts, ∀ n, ∀ t ∈ f n, t.Ordinary := by
  cases h
  assumption

end Step

/-- Whether a happening tells of an access that was refused. -/
def Happening.isRefusal : Happening → Bool
  | concluded _ _ .vetoed | concluded _ _ .refused => true
  | notice (.writeVetoed ..) | notice (.readRefused ..) | notice (.lockTimedOut ..) => true
  | _ => false

/-- Whether guards have no part in a happening. -/
def Happening.outward : Happening → Bool
  | made .. | began .. | stepDone .. | admitted .. | told .. => false
  | notice (.audited ..) => false
  | h => !h.isRefusal

theorem Happening.outward_iff {h : Happening} (hh : h.outward) :
    h.bare? = some h ∧ h.isRefusal = false := by
  unfold outward at hh
  split at hh <;> simp_all [bare?]

theorem Happening.not_isRefusal {h : Happening} (hh : h.bare? = none) : h.isRefusal = false := by
  unfold bare? at hh
  split at hh <;> simp_all [isRefusal]

/-- The aspect is an audit, a lock with the given holder, or does nothing at all. -/
def Aspect.HeldBy (holder : Option Nat) : Aspect Nat → Prop
  | .audit _ | .plain _ => True
  | .lock l => l.holder = holder
  | .validation _ | .probe _ => False

namespace World

/-- The locks among the given aspects are held by the pass with the given ticket, and all other
locks are free. -/
def Locked (w : World) (aspects : List Nat) (ticket : Nat) : Prop :=
  ∀ a, (w.aspect a).HeldBy (if a ∈ aspects then some ticket else none)

structure Tame (w : World) : Prop where
  chains : ∀ i, (w.item i).chain.Nodup
  domains : ∀ d, (w.domain d).kind ≠ .immediate
  scripts : ∀ r n, ∀ s ∈ (w.routines.get r).script n, s.Ordinary
  history : ∀ h ∈ w.history, h.isRefusal = false

structure Resting (w : World) : Prop extends w.Tame where
  free : ∀ a, (w.aspect a).HeldBy none

variable {w v : World}

theorem Resting.locked (hw : w.Resting) (ticket : Nat) : w.Locked [] ticket :=
  fun a => by simpa using hw.free a

theorem Tame.resting {ticket : Nat} (hw : w.Tame) (hl : w.Locked [] ticket) : w.Resting :=
  { hw with free := fun a => by simpa using hl a }

/-- All that rest is about. -/
def foundation (w : World) :
    Heap Item × Heap (Aspect Nat) × Heap Domain × Heap Routine × List Happening :=
  (w.items, w.aspects, w.domains, w.routines, w.history)

theorem Resting.of_same (hw : w.Resting) (h : v.foundation = w.foundation) : v.Resting := by
  obtain ⟨hi, ha, hd, hr, hh⟩ : v.items = w.items ∧ v.aspects = w.aspects ∧
      v.domains = w.domains ∧ v.routines = w.routines ∧ v.history = w.history := by
    simpa [foundation] using h
  exact {
    chains := fun i => by rw [item, hi]; exact hw.chains i
    domains := fun d => by rw [domain, hd]; exact hw.domains d
    scripts := by rw [hr]; exact hw.scripts
    history := by rw [hh]; exact hw.history
    free := fun a => by rw [aspect, ha]; exact hw.free a }

theorem Tame.mark (hw : w.Tame) {h : Happening} (hh : h.isRefusal = false) : (w.mark h).Tame :=
  { hw with history := List.forall_mem_cons.mpr ⟨hh, hw.history⟩ }

theorem Resting.mark (hw : w.Resting) {h : Happening} (hh : h.isRefusal = false) :
    (w.mark h).Resting :=
  { hw.toTame.mark hh with free := hw.free }

theorem Tame.modifyItem (hw : w.Tame) (r : Nat) {f : Item → Item}
    (hf : ∀ i, (f i).chain = i.chain) : (w.modifyItem r f).Tame :=
  { hw with
    chains := fun i => by
      rw [item_modifyItem]
      split
      · rw [hf]
        exact hw.chains r
      · exact hw.chains i }

theorem Tame.modifyDomain (hw : w.Tame) (r : Nat) {f : Domain → Domain}
    (hf : ∀ d, (f d).kind = d.kind) : (w.modifyDomain r f).Tame :=
  { hw with
    domains := fun d => by
      rw [domain_modifyDomain]
      split
      · rw [hf]
        exact hw.domains r
      · exact hw.domains d }

/-- Only aspects have changed, and what a bare history leaves out has happened. -/
def Unseen (w v : World) : Prop :=
  ∃ aspects marks, (∀ h ∈ marks, h.bare? = none) ∧
    v = { w with aspects, history := marks ++ w.history }

theorem Unseen.refl (w : World) : w.Unseen w :=
  ⟨w.aspects, [], by simp, rfl⟩

theorem Unseen.trans {u : World} (h : u.Unseen v) (h' : v.Unseen w) : u.Unseen w := by
  obtain ⟨x, m, hm, rfl⟩ := h
  obtain ⟨y, n, hn, rfl⟩ := h'
  exact ⟨y, n ++ m, List.forall_mem_append.mpr ⟨hn, hm⟩, by rw [List.append_assoc]⟩

theorem Unseen.bare (h : w.Unseen v) : v.bare = w.bare := by
  obtain ⟨x, m, hm, rfl⟩ := h
  unfold World.bare
  rw [List.filterMap_append, List.filterMap_eq_nil_iff.mpr hm]
  rfl

theorem Unseen.items (h : w.Unseen v) : v.items = w.items := by
  obtain ⟨x, m, -, rfl⟩ := h
  rfl

theorem Unseen.tame (h : w.Unseen v) (hw : w.Tame) : v.Tame := by
  obtain ⟨x, m, hm, rfl⟩ := h
  have hr (y : Happening) (hy : y ∈ m) : y.isRefusal = false := Happening.not_isRefusal (hm y hy)
  exact { hw with history := List.forall_mem_append.mpr ⟨hr, hw.history⟩ }

theorem unseen_mark {h : Happening} (hh : h.bare? = none) (w : World) : w.Unseen (w.mark h) :=
  ⟨w.aspects, [h], by simpa using hh, rfl⟩

theorem unseen_setAspect (w : World) (a : Nat) (x : Aspect Nat) : w.Unseen (w.setAspect a x) :=
  ⟨_, [], by simp, rfl⟩

end World

end GuardedStore
