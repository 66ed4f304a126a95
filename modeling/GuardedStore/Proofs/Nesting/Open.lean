import GuardedStore.Proofs.Nesting.Steps
import GuardedStore.Proofs.Run.Moments

/-!
Calls from within calls.

Dependents and model hooks call back into the stores that they were called for. A scenario refuses
them some of these calls, and domains that deliver at once let events drop that are raised too deep
within one another. An open run lets them all through, so that nothing but the locks of the stores
is left in the way: what then waits for ever is what the locks themselves keep waiting.
-/
namespace GuardedStore

namespace World

variable {w : World}

/-- Where all locks are free every store can be bound and take hooks. -/
theorem unneeding_of_free (h : ∀ s, (w.store s).Free) (s : Step) :
    w.rebinds s = false ∧ w.registers s = false := by
  have hreaders (s : Nat) : (w.store s).affinityReaders = 0 := congrArg Prod.fst (h s)
  have hrunning (s : Nat) : (w.store s).signal.running = false := congrArg Prod.snd (h s)
  cases s <;> simp [rebinds, registers, hreaders, hrunning]

end World

namespace Scenario

open Engine

/-- Calls a routine as `callWithin` does, but for the steps that it abstains from; before each step
`opens` does away with what would keep it from being performed. -/
def callOpenly (opens : World → World) (abstains : World → Step → Bool) :
    (depth : Nat) → Nat → Engine Unit
  | 0, r => do
    unless (← Engine.callRoutine r).isEmpty do Engine.record .tooDeep
  | depth + 1, r => do
    (← Engine.callRoutine r).forM fun s => do
      Engine.modify opens
      unless abstains (← Engine.get) s do scriptStep (callOpenly opens abstains depth) s

/-- A run that abstains from nothing, and in which nothing keeps calls away where `opens` holds, is
one that is opened there. -/
theorem performAll_opened {opens : World → Bool} {depth : Nat} {steps : List Step} {w v : World} :
    performAll (callOpenly (World.opened opens) (fun _ _ => false) depth) steps w = (.done (), v) ↔
      settledOpen opens depth w steps = some v := by
  have hcall (depth : Nat) : callOpenly (World.opened opens) (fun _ _ => false) depth =
      callOpenUntil opens (fun _ => false) depth := by
    induction depth with
    | zero => rfl
    | succ depth ih =>
      funext r
      simp only [callOpenly, callOpenUntil, ih]
      rfl
  rw [hcall]
  exact settledBy_eq_some.symm

variable {opens : World → World} {abstains : World → Step → Bool}

section Law

variable (hopens : ∀ w, (opens w).stores = w.stores)
  (habstains : ∀ w s, w.rebinds s ∨ w.registers s → abstains w s)

include hopens habstains

/-- Calls from within calls give back what they take, however deep they are made. -/
theorem callOpenly_nests (depth : Nat) :
    ∀ r, (callOpenly opens abstains depth r).Keeps nesting := by
  have hroutine (r : Nat) : (callRoutine r).Keeps nesting := fun _ => aside_nests rfl nofun rfl
  induction depth with
  | zero =>
    refine fun r => (hroutine r).bind fun steps => ?_
    split
    · exact keeps_pure ()
    · exact record_nests _
  | succ depth ih =>
    refine fun r => (hroutine r).bind fun steps => keeps_forM fun s _ =>
      (change_nests hopens).bind fun _ => keeps_get_bind fun w => ?_
    split
    · exact keeps_pure () w
    · next habstained =>
      have hneeds : w.rebinds s = false ∧ w.registers s = false := by
        simpa using mt (habstains w s) habstained
      cases s with
      | panic text => exact panic_nests text w
      | _ =>
        exact (Performing.answer_nests ih hneeds.1 hneeds.2).bind fun _ v _ _ => record_nests _ v

omit hopens habstains in
theorem performAll_nests {call : Nat → Engine Unit} (hc : ∀ r, (call r).Keeps nesting)
    (steps : List Step) : ∀ {w : World}, (∀ s, (w.store s).Free) →
      (performAll call steps).KeepsAt nesting w := by
  induction steps with
  | nil => exact fun _ => keeps_pure () _
  | cons s steps ih =>
    intro w hw
    obtain ⟨hb, hr⟩ := World.unneeding_of_free hw s
    have hs := Performing.answer_nests hc hb hr
    intro _
    unfold performAll
    rcases ho : Performing.answer call s w with ⟨a | text | _, v⟩ <;>
      have hv := (hs.holds trivial ho).2
    · exact Law.Holds.done_trans trivial ⟨trivial, hv⟩ (ih (World.Returns.free hv hw) trivial)
    · have hu : w.Returns { v with unwinding := false } :=
        World.Returns.trans hv (World.returns_of_stores rfl)
      exact Law.Holds.done_trans trivial ⟨trivial, hu⟩ (ih (hu.free hw) trivial)
    · exact ⟨trivial, hv⟩

/-- Where no store is bound while a trigger of it is being raised, and no hook is registered with a
store whose hooks are being run, all calls of an open run come to their ends, however deep within
one another they are made, and give back every lock that they take; nobody waits for ever but a
store that is executed in the course of an execution of its own, and an access that an aspect bars.
Whoever does bind such a store waits for ever, and so does every such execution. -/
theorem nested_calls_proceed (depth : Nat) :
    (∀ r w o v, callOpenly opens abstains depth r w = (o, v) →
      if o = .stuck then v.Reenters ∨ v.Bars else w.Returns v) ∧
    (∀ steps o v, performAll (callOpenly opens abstains depth) steps {} = (o, v) →
      if o = .stuck then v.Reenters ∨ v.Bars else ∀ s, (v.store s).Free) ∧
    (∀ call w s, w.rebinds s → w.triggerDepth = 0 → Performing.answer call s w = (.stuck, w)) ∧
    ∀ call w s, (w.store s).signal.triggered → (w.store s).signal.running →
      ∃ v, executeStore call s w = (.stuck, v) ∧ v.Reenters := by
  have hc := callOpenly_nests hopens habstains depth
  have hfree (s : Nat) : ((({} : World).store s)).Free := rfl
  refine ⟨fun r w o v h => ?_, fun steps o v h => ?_,
    fun _ _ _ hb hd => Performing.answer_waits hb hd, fun call w s ht hr => ?_⟩
  · have hv := ((hc r w).holds trivial h).2
    cases o <;> exact hv
  · have hv := ((performAll_nests hc steps hfree).holds trivial h).2
    cases o with
    | done a => exact World.Returns.free hv hfree
    | panicked text => exact World.Returns.free hv hfree
    | stuck => exact hv
  · have he := executeStore_apply call s w
    rw [if_neg (by simp [ht]), if_pos hr] at he
    have hsignal := congrArg Signal.running (w.signal_executing (s := s))
    exact ⟨_, he, s, _, _, _, rfl, hsignal.trans hr⟩

end Law

/-- Whoever follows the store triggers it again and writes its item from within its trigger. The
hooks of the store have another one triggered and run its domain, and who follows the item binds the
store, but not from within a trigger of it. -/
def deeplyNested : List Step :=
  [.domain "d" "d" (.immediate none),
    .domain "c" "c" .cooperative,
    .store "s" (.builder [.affinity (some "d")]),
    .create "s" "k" "n" .int64 (.int 0) none .none,
    .store "t" (.builder [.affinity (some "c")]),
    .onExecute "s" "m" (some fun _ => [.read "k" none, .storeTrigger "t", .runPending "c"]),
    .dependent "p" (some fun _ => [.storeTrigger "s", .isTriggered "s", .write "k" none (.int 1)])
      none,
    .dependent "q" (some fun _ => [.read "k" none, .setAffinity "s" (some "c")]) none,
    .subscribe (some "d") (.store "s") "p",
    .subscribe (some "d") (.key "k") "q",
    .storeTrigger "s",
    .write "k" none (.int 2)]

theorem deeplyNested_proceeds :
    let abstains := fun (w : World) s => w.rebinds s || w.registers s
    let r := performAll (callOpenly World.unbarred abstains maxDepth) deeplyNested {}
    r.1 = .done () ∧ (∀ s, (r.2.store s).Free) ∧ (r.2.store 0).affinity = some 1 ∧
      (r.2.store 0).triggers = 5 ∧ (r.2.domain 1).queue = [] := by
  intro abstains r
  have hopens (w : World) : w.unbarred.stores = w.stores := rfl
  have habstains (w : World) (s : Step) (h : w.rebinds s ∨ w.registers s) : abstains w s := by
    simpa [abstains] using h
  have hdone : r.1 = .done () := by decide +kernel
  have hfree := (nested_calls_proceed hopens habstains maxDepth).2.1 deeplyNested _ _
    (eq_of_outcome hdone)
  exact ⟨hdone, hfree, by decide +kernel, by decide +kernel, by decide +kernel⟩

/-- Whoever follows the store binds it from within its trigger. -/
def selfBinding : List Step :=
  [.domain "d" "d" (.immediate none),
    .store "s" (.builder [.affinity (some "d")]),
    .dependent "p" (some fun _ => [.setAffinity "s" none]) none,
    .subscribe (some "d") (.store "s") "p",
    .storeTrigger "s"]

/-- A hook lets its store know of a trigger and has it executed. -/
def selfExecuting : List Step :=
  [.store "s" .standard,
    .onExecute "s" "m" (some fun _ => [.onTrigger "s" (.store "s") 2, .execute "s"]),
    .onTrigger "s" (.store "s") 1,
    .execute "s"]

/-- Both wait for ever: the one for the affinity, which the trigger around it has taken, the other
for the hooks, which the execution around it has taken. -/
theorem nested_calls_wait :
    let call := callOpenly World.unbarred (fun _ _ => false) maxDepth
    (∃ v, performAll call selfBinding {} = (.stuck, v) ∧
      v.rebinds (.setAffinity "s" none) ∧ (v.store 0).affinityReaders = 1) ∧
    ∃ v, performAll call selfExecuting {} = (.stuck, v) ∧ v.Reenters := by
  intro call
  have hbinding : (performAll call selfBinding {}).1 = .stuck := by decide +kernel
  have hexecuting : (performAll call selfExecuting {}).1 = .stuck := by decide +kernel
  have hlast : (performAll call selfExecuting {}).2.history.head? =
      some (.executing 0 1 [⟨"m", some 0⟩]) := by decide +kernel
  obtain ⟨older, holder⟩ := List.head?_eq_some_iff.mp hlast
  exact ⟨⟨_, eq_of_outcome hbinding, by decide +kernel, by decide +kernel⟩,
    _, eq_of_outcome hexecuting, 0, 1, _, older, holder, by decide +kernel⟩

end Scenario

end GuardedStore
