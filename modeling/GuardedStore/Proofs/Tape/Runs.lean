import GuardedStore.Proofs.Apart.Founding
import GuardedStore.Proofs.Tape.Steps

/-!
Runs on tape.

A script does the same on tape, however deep it runs within others, and so does every step of a run.
Main statement: as long as nothing delivers what is queued and nothing looks into a domain, a run
with recording domains in place of the cooperative ones reports what the run with the cooperative
ones reports, and each recorder then has on record what its counterpart has in its queue and who is
subscribed there.
-/
namespace GuardedStore

open World

namespace Scenario

variable {α : Type} {call : Nat → Engine Unit}

/-- A routine hands out steps that leave queued what is queued, and on tape the same ones taped. -/
theorem callRoutine_taped (r : Nat) {f f' : List Step → Engine α}
    (hf : ∀ steps, (∀ s ∈ steps, s.Deferring) → (f steps).Taped (f' (steps.map Step.taped))) :
    (Engine.callRoutine r >>= f).Taped (Engine.callRoutine r >>= f') := by
  intro w hw
  let routine := w.routines.get r
  let v : World := { w with routines := w.routines.set r { routine with calls := routine.calls + 1 } }
  have hv : w.Defers v :=
    { deferring := { hw with
        scripts := fun q => by
          show ((w.routines.set r _).get q).script.Deferring
          rw [Heap.get_set]
          split
          · exact hw.scripts r
          · exact hw.scripts q }
      immediate := id }
  have handed : Engine.callRoutine r w.taped =
      (.done ((routine.script routine.calls).map Step.taped), v.taped) := by
    unfold Engine.callRoutine World.taped
    simp only [Heap.get_map (f := Routine.taped) rfl, Heap.map_set, v, routine]
    rfl
  obtain ⟨he, hu⟩ := hf (routine.script routine.calls) (hw.scripts r _) v hv.deferring
  rw [Engine.bind_of_done handed, Engine.bind_of_done (m := Engine.callRoutine r) (v := v) rfl]
  exact ⟨he, hv.trans hu⟩

/-- The answer to a step of a script is reported under the same word. -/
theorem scriptStep_taped (hc : ∀ r, (call r).Indifferent) {s : Step} (hs : s.Deferring) :
    (scriptStep call s).Taped (scriptStep call s.taped) := by
  have answered (s : Step) (hs : s.Deferring) :
      (do Engine.record (.stepDone s.kind (← Performing.answer call s)) : Engine Unit).Taped
        (do Engine.record (.stepDone s.taped.kind (← Performing.answer call s.taped))) := by
    rw [Step.kind_taped]
    exact (Performing.answer_taped hc hs).bind fun _ => Engine.indifferent_record (by rfl)
  cases s with
  | panic text => exact Engine.indifferent_panic text
  | _ => exact answered _ hs

/-- Scripts do the same on tape. -/
theorem callWithin_indifferent (depth : Nat) : ∀ r, (callWithin depth r).Indifferent := by
  induction depth with
  | zero =>
    refine fun r => callRoutine_taped r fun steps _ => ?_
    rw [List.isEmpty_map]
    split
    · exact Engine.indifferent_pure ()
    · exact Engine.indifferent_record (by rfl)
  | succ depth ih =>
    refine fun r => callRoutine_taped r fun steps hs => ?_
    induction steps with
    | nil => exact Engine.indifferent_pure ()
    | cons s steps ihs =>
      exact (scriptStep_taped ih (hs s List.mem_cons_self)).bind fun _ =>
        ihs fun t ht => hs t (List.mem_cons_of_mem s ht)

variable (depth : Nat)

/-- A step answers what the taped step answers, and leads where the taped step leads. -/
theorem step_taped {s : Step} (hs : s.Deferring) {w : World} (hw : w.Deferring) :
    step depth s.taped w.taped = ((step depth s w).1, (step depth s w).2.taped) ∧
      (step depth s w).2.Deferring := by
  obtain ⟨he, hv⟩ := Performing.answer_taped (callWithin_indifferent depth) hs w hw
  unfold step
  rw [he]
  rcases ho : Performing.answer (callWithin depth) s w with ⟨_ | _ | _, v⟩ <;> rw [ho] at hv
  · exact ⟨rfl, hv.deferring⟩
  · have calm : v.Defers { v with unwinding := false } := hv.deferring.of_same rfl rfl
    exact ⟨rfl, calm.deferring⟩
  · exact ⟨rfl, hv.deferring⟩

/-- What the taped step reports is what the step reports, on tape. -/
theorem report_taped {s : Step} (hs : s.Deferring) {w : World} (hw : w.Deferring)
    (hi : w.InStep) :
    report w.taped.history (step depth s.taped w.taped).1 (step depth s.taped w.taped).2 =
      (report w.history (step depth s w).1 (step depth s w).2).taped := by
  obtain ⟨newer, hn⟩ := (step_grows depth s hi).2
  have ht : (step depth s w).2.taped.history =
      newer.filter Happening.onTape ++ w.taped.history := by
    show (step depth s w).2.history.filter Happening.onTape = _
    rw [← hn, List.filter_append]
    rfl
  rw [(step_taped depth hs hw).1, report_of_append ht, report_of_append hn.symm, Report.taped,
    List.filter_reverse]

theorem runFrom_taped {steps : List Step} (h : ∀ s ∈ steps, s.Deferring) : ∀ {w : World},
    w.Deferring → w.InStep → runFrom depth w.taped (steps.map Step.taped) =
      (runFrom depth w steps).map Report.taped := by
  induction steps with
  | nil => exact fun _ _ => rfl
  | cons s steps ih =>
    intro w hw hi
    have hs := h s List.mem_cons_self
    obtain ⟨hstep, hv⟩ := step_taped depth hs hw
    rw [List.map_cons, runFrom_cons, runFrom_cons, report_taped depth hs hw hi, hstep,
      ih (fun t ht => h t (List.mem_cons_of_mem s ht)) hv (step_grows depth s hi).1,
      List.map_cons]

theorem deferring_empty : World.Deferring {} where
  scripts _ _ _ h := by cases h
  vacant _ := nofun

theorem worldAfter_taped {steps : List Step} (h : ∀ s ∈ steps, s.Deferring) :
    worldAfter depth (steps.map Step.taped) = (worldAfter depth steps).taped := by
  have after : ∀ {w : World}, w.Deferring →
      (steps.map Step.taped).foldl (fun w s => (step depth s w).2) w.taped =
        (steps.foldl (fun w s => (step depth s w).2) w).taped := by
    induction steps with
    | nil => exact fun _ => rfl
    | cons s steps ih =>
      intro w hw
      obtain ⟨hstep, hv⟩ := step_taped depth (h s List.mem_cons_self) hw
      rw [List.map_cons, List.foldl_cons, List.foldl_cons, hstep]
      exact ih (fun t ht => h t (List.mem_cons_of_mem s ht)) hv
  exact after deferring_empty

end Scenario

/-- On tape a source counts as often as it has subscribers. -/
theorem Cooperative.count_taped {d : Domain} {c : Cooperative} (hd : d.mode = .cooperative c)
    (source : Source) : c.taped.subscriptions.count source = (d.subscribers source).length := by
  unfold Domain.subscribers
  rw [hd, List.length_map, Cooperative.taped, List.count, List.countP_map,
    List.countP_eq_length_filter]
  rfl

namespace Scenario

/-- Recording domains stand in for cooperative ones. Whatever steps do, vetoes, panics, rebinding and
scripts within scripts included, they answer and bring about the same with a recording domain in
place of every cooperative one, but that nobody is told in the log of events that are queued. What
things are called is then the same, and wherever there is a cooperative domain in the one case there
is one in the other that has recorded, in order, the events that wait in the queue, and for each
source all of whose subscribers can still be woken as many subscribers as there are. -/
theorem recorders_stand_in (depth : Nat) {steps : List Step} (h : ∀ s ∈ steps, s.Deferring) :
    runFrom depth {} (steps.map Step.taped) = (runFrom depth {} steps).map Report.taped ∧
      (worldAfter depth (steps.map Step.taped)).names = (worldAfter depth steps).names ∧
      ∀ d c, ((worldAfter depth steps).domain d).mode = .cooperative c →
        ∃ r, ((worldAfter depth (steps.map Step.taped)).domain d).mode = .recording r ∧
          r.events = c.queue ∧
          ∀ source, (∀ s ∈ ((worldAfter depth steps).domain d).subscribers source,
              (worldAfter depth steps).alive s) →
            r.subscriptions.count source =
              ((worldAfter depth steps).liveSubscribers d source).length := by
  rw [worldAfter_taped depth h]
  refine ⟨runFrom_taped depth h deferring_empty inStep_empty, rfl, fun d c hd =>
    ⟨c.taped, ?_, rfl, ?_⟩⟩
  · rw [World.domain_taped, Domain.mode_taped, hd]
  · intro source alive
    unfold World.liveSubscribers
    rw [List.filter_eq_self.mpr alive, Cooperative.count_taped hd]

/-- A store that is rebound from one queueing domain to another between writes, of which one is vetoed.
The hooks of its items and its model hook write to another item, and the model hook panics. -/
def shiftedWork : List Step :=
  [.domain "d" "d" .cooperative,
    .domain "e" "e" .cooperative,
    .dependent "p" (some fun _ => [.write "l" none (.int 5)]) none,
    .store "s" (.builder [.affinity (some "d")]),
    .onExecute "s" "m" (some fun _ => [.write "l" none (.int 6), .panic "m"]),
    .create "s" "l" "l" .int64 (.int 0) none .store,
    .create "s" "k" "k" .int64 (.int 0) none (.custom false false (.links [.fresh (.probe {
      name := "q", writes := [true, true, false, true]
      script
        | .afterWrite => some fun _ => [.write "l" none (.int 7)]
        | _ => none })])),
    .write "k" none (.int 1),
    .write "k" none (.int 2),
    .storeTrigger "s",
    .onTrigger "s" (.store "s") 1,
    .execute "s",
    .setAffinity "s" (some "e"),
    .subscribe (some "e") (.key "k") "p",
    .write "k" none (.int 3),
    .destroy "l" none]

theorem shiftedWork_recorded :
    (∀ s ∈ shiftedWork, s.Deferring) ∧
      run (shiftedWork.map Step.taped) = (run shiftedWork).map Report.taped ∧
      (∃ r, ((worldAfter maxDepth (shiftedWork.map Step.taped)).domain 0).mode = .recording r ∧
        r.events.length = 6) ∧
      ∃ r, ((worldAfter maxDepth (shiftedWork.map Step.taped)).domain 1).mode = .recording r ∧
        r.events = [⟨.item (.drawn 0) ⟨1, 0⟩, 3⟩, ⟨.item (.drawn 0) ⟨0, 0⟩, 4⟩] ∧
        r.subscriptions.count (.item (.drawn 0) ⟨1, 0⟩) = 2 := by
  have plain {s : Step} (hd : s.defers) (hn : s.carried = []) : s.Deferring :=
    .intro hd (by rw [hn]; exact fun f hf => absurd hf List.not_mem_nil)
  have scripted {s : Step} {steps : List Step} (hd : s.defers) (hn : s.carried = [fun _ => steps])
      (hs : ∀ t ∈ steps, t.Deferring) : s.Deferring := by
    refine .intro hd fun f hf _ => ?_
    rw [hn, List.mem_singleton] at hf
    exact hf ▸ hs
  have writes (value : Literal) : ∀ t ∈ [Step.write "l" none value], t.Deferring :=
    List.forall_mem_singleton.mpr (plain rfl rfl)
  have ho : ∀ s ∈ shiftedWork, s.Deferring := by
    simp only [shiftedWork, List.forall_mem_cons, List.not_mem_nil, false_implies, implies_true,
      and_true]
    exact ⟨plain rfl rfl, plain rfl rfl, scripted rfl rfl (writes _), plain rfl rfl,
      scripted rfl rfl (List.forall_mem_cons.mpr ⟨plain rfl rfl,
        List.forall_mem_singleton.mpr (plain rfl rfl)⟩),
      plain rfl rfl, scripted rfl rfl (writes _), plain rfl rfl, plain rfl rfl, plain rfl rfl,
      plain rfl rfl, plain rfl rfl, plain rfl rfl, plain rfl rfl, plain rfl rfl, plain rfl rfl⟩
  obtain ⟨hrun, -, hdomains⟩ := recorders_stand_in maxDepth ho
  have cooperative {d : Domain} (hk : d.kind = .cooperative) :
      ∃ c, d.mode = .cooperative c ∧ c.queue = d.queue := by
    unfold Domain.kind at hk
    unfold Domain.queue
    split at hk
    · cases hk
    · next c hc => exact ⟨c, hc, by rw [hc]⟩
    · cases hk
  obtain ⟨c, hc, hqueue⟩ := cooperative
    (show ((worldAfter maxDepth shiftedWork).domain 0).kind = .cooperative by decide +kernel)
  obtain ⟨b, hb, hqueue'⟩ := cooperative
    (show ((worldAfter maxDepth shiftedWork).domain 1).kind = .cooperative by decide +kernel)
  obtain ⟨r, hr, hevents, -⟩ := hdomains 0 c hc
  obtain ⟨q, hq, hevents', hsources⟩ := hdomains 1 b hb
  refine ⟨ho, hrun, ⟨r, hr, ?_⟩, q, hq, ?_, ?_⟩
  · rw [hevents, hqueue]
    decide +kernel
  · rw [hevents', hqueue']
    decide +kernel
  · rw [hsources _ (by decide +kernel)]
    decide +kernel

end Scenario

end GuardedStore
