import GuardedStore.Proofs.Custody.Admitted

/-!
A store that was dropped is out of reach.

No event is handed to it and none of its model hooks is run any more, except by a delivery that took
hold of it before it was dropped. Between the steps of a run there is no such delivery.
-/
namespace GuardedStore.Scenario

open World

variable {s : Nat}

theorem custody_empty (s : Nat) : World.Safekeeping s {} where
  held := rfl
  custodial _ _ h := absurd (List.suffix_nil.mp h) (List.cons_ne_nil _ _)
  gone h := absurd h (by simp [Gone])
  unused _ := rfl
  named _ := ⟨rfl, rfl⟩
  single h _ := by cases h
  unborn _ := ⟨rfl, by simp [Gone]⟩

theorem custody_unwinding {w : World} (hw : (custody s True).inv w) :
    (custody s True).inv { w with unwinding := false } :=
  ⟨sound_unwinding false hw.1, hw.2.held, hw.2.custodial, hw.2.gone, hw.2.unused, hw.2.named,
    hw.2.single, hw.2.unborn⟩

/-- Who is held is what the history says at every moment, and nobody is held between steps. -/
theorem reached_custody (s : Nat) (halt : World → Bool) (depth : Nat) (steps : List Step) :
    (reached halt depth {} steps).Safekeeping s :=
  (reached_inv (fun _ hc => custody_admits hc) (fun _ => custody_unwinding) halt depth steps
    ⟨sound_empty, custody_empty s⟩).2

theorem settled_held {depth : Nat} {steps : List Step} {w : World}
    (h : settled depth {} steps = some w) : w.held = [] :=
  (settled_inv (L := custody 0 True) (P := fun w => w.held = []) (fun _ hc => custody_admits hc)
    (fun _ => custody_unwinding) (fun _ h => h)
    (fun _ h hv he => ((hv.2.2.2 he).2 trivial).trans h) ⟨sound_empty, custody_empty 0⟩ rfl h).2

/-- Once a store was dropped and no delivery holds it, it is never within reach again, and between
steps no delivery holds anybody. -/
theorem dropped_unreached (s depth : Nat) (steps : List Step) :
    (∀ halt later older, (reached halt depth {} steps).history = later ++ older →
      Gone s older → .store s ∉ heldBy older →
        .store s ∉ (reached halt depth {} steps).held ∧ ∀ y ∈ later, ¬ y.reaches s) ∧
    ∀ w, settled depth {} steps = some w → heldBy w.history = [] := by
  refine ⟨fun halt later older hh hg hn => ?_, fun w h => ?_⟩
  · have hc := reached_custody s halt depth steps
    have hcust := hc.custodial
    rw [hh] at hcust
    rw [hc.held, hh]
    exact hcust.unreached hg hn
  · have hc := reached_custody s (fun _ => false) depth steps
    rw [reached_of_settled h] at hc
    rw [← hc.held, settled_held h]

/-- A model hook of one store drops another one that is to be executed in the same run. -/
def droppedMeanwhile : List Step :=
  [.domain "d" "d" .cooperative,
    .store "a" (.builder [.affinity (some "d")]),
    .store "b" (.builder [.affinity (some "d")]),
    .onExecute "a" "ma" (some fun _ => [.dropStore "b"]),
    .onExecute "b" "mb" none,
    .storeTrigger "a",
    .storeTrigger "b",
    .runPending "d"]

theorem droppedMeanwhile_unreached :
    ∃ later older, (reached (fun _ => false) maxDepth {} (droppedMeanwhile ++
        [.trigger (some "d") (.store "b") 2, .storeTrigger "a", .runPending "d"])).history =
          later ++ older ∧
      Gone 1 older ∧ later.countP (·.reaches 0) = 2 ∧ ∀ y ∈ later, ¬ y.reaches 1 := by
  let first := (reached (fun _ => false) maxDepth {} droppedMeanwhile).history
  let all := (reached (fun _ => false) maxDepth {} (droppedMeanwhile ++
    [.trigger (some "d") (.store "b") 2, .storeTrigger "a", .runPending "d"])).history
  have hh : all = all.take (all.length - first.length) ++ first := by decide +kernel
  have hs : settled maxDepth {} droppedMeanwhile = _ := settled_eq_some (by decide +kernel)
  have hf : .store 1 ∉ heldBy first := by
    rw [(dropped_unreached 1 maxDepth droppedMeanwhile).2 _ hs]
    exact List.not_mem_nil
  exact ⟨_, _, hh, by decide +kernel, by decide +kernel,
    ((dropped_unreached 1 maxDepth _).1 _ _ _ hh (by decide +kernel) hf).2⟩

/-- A store that was dropped in the course of a run is executed by that run. -/
theorem droppedMeanwhile_ran :
    ∃ later older, (reached (fun _ => false) maxDepth {} droppedMeanwhile).history =
        later ++ .ran 1 { label := "mb" } 1 :: older ∧ Gone 1 older := by
  let h := (reached (fun _ => false) maxDepth {} droppedMeanwhile).history
  exact ⟨h.take 4, h.drop 5, by decide +kernel, by decide +kernel⟩

end GuardedStore.Scenario
