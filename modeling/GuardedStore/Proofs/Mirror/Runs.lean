import GuardedStore.Proofs.Ledger.Writes
import GuardedStore.Proofs.Mirror.Steps

/-!
Runs, with and without guards.

A script does the same without guards, however deep it runs within others, and so does every step of
a run. Main statement: as long as all steps are ordinary, a run in which nobody guards anything
reports what the run with guards reports, but for the calls on the aspects themselves; and no access
is ever refused.
-/
namespace GuardedStore

open World

namespace Scenario

variable {call : Nat → Engine Unit}

/-- A routine hands out ordinary steps, and without guards the same ones made bare. -/
theorem callRoutine_mirrors (r : Nat) : (Engine.callRoutine r).Mirrors
    (fun steps steps' => (∀ s ∈ steps, s.Ordinary) ∧ steps' = steps.map Step.bare)
      (Engine.callRoutine r) := by
  intro w hw
  let routine := w.routines.get r
  let v : World := { w with routines := w.routines.set r { routine with calls := routine.calls + 1 } }
  have hv : v.Resting :=
    { hw with
      scripts := fun q => by
        show ∀ n, ∀ s ∈ ((w.routines.set r _).get q).script n, s.Ordinary
        rw [Heap.get_set]
        split
        · exact hw.scripts r
        · exact hw.scripts q }
  refine ⟨_, .done ((routine.script routine.calls).map Step.bare), v, rfl, ?_,
    .done ⟨hw.scripts r _, rfl⟩, hv⟩
  unfold Engine.callRoutine World.bare
  simp only [Heap.get_map (f := Routine.bare) rfl, Heap.map_set, v, routine]
  rfl

/-- The answer to a step of a script is reported, and without guards what it comes to. -/
theorem scriptStep_mirrors (hc : ∀ r, (call r).Blind) {s : Step} (hs : s.Ordinary) :
    (scriptStep call s).Mirrors Eq (scriptStep call s.bare) := by
  have answered (s : Step) (hs : s.Ordinary) :
      (do Engine.record (.stepDone s.kind (← Performing.answer call s)) : Engine Unit).Mirrors Eq
        (do Engine.record (.stepDone s.bare.kind (← Performing.answer call s.bare))) := by
    intro w
    refine Engine.MirrorsAt.bind (Performing.answer_mirrors hc hs w) ?_
    rintro a _ v rfl hv
    refine ⟨_, _, v.mark (.stepDone s.kind a), rfl, ?_, .done rfl, hv.mark rfl⟩
    rw [Step.kind_bare, bare_mark]
    rfl
  cases s with
  | panic text => exact Engine.blind_panic text
  | _ => exact answered _ hs

/-- Scripts do the same with guards and without. -/
theorem callWithin_blind (depth : Nat) : ∀ r, (callWithin depth r).Blind := by
  induction depth with
  | zero =>
    intro r w
    refine Engine.MirrorsAt.bind (callRoutine_mirrors r w) ?_
    rintro steps _ v ⟨-, rfl⟩
    rw [List.isEmpty_map]
    split
    · exact Engine.blind_pure () v
    · exact Engine.blind_record (by rfl) v
  | succ depth ih =>
    intro r w
    refine Engine.MirrorsAt.bind (callRoutine_mirrors r w) ?_
    rintro steps _ v ⟨hs, rfl⟩
    induction steps generalizing v with
    | nil => exact Engine.blind_pure () v
    | cons s steps ihs =>
      refine Engine.MirrorsAt.bind (scriptStep_mirrors ih (hs s List.mem_cons_self) v) ?_
      exact fun _ _ u _ => ihs u fun t ht => hs t (List.mem_cons_of_mem s ht)

variable (depth : Nat)

/-- A step answers what the bare step answers, and leads where the bare step leads. -/
theorem step_bare {s : Step} (hs : s.Ordinary) {w : World} (hw : w.Resting) :
    step depth s.bare w.bare = ((step depth s w).1.bare, (step depth s w).2.bare) ∧
      (step depth s w).2.Resting := by
  obtain ⟨_, _, v, he, he', ho, hv⟩ :=
    Performing.answer_mirrors (callWithin_blind depth) hs w hw
  unfold step
  rw [he, he']
  cases ho with
  | done h =>
    subst h
    exact ⟨rfl, hv⟩
  | panicked text => exact ⟨rfl, hv.of_same rfl⟩
  | stuck => exact ⟨rfl, hv⟩

/-- What the bare step reports is what the step reports, made bare. -/
theorem report_bare {s : Step} (hs : s.Ordinary) {w : World} (hw : w.Resting) (hi : w.InStep) :
    report w.bare.history (step depth s.bare w.bare).1 (step depth s.bare w.bare).2 =
      (report w.history (step depth s w).1 (step depth s w).2).bare := by
  obtain ⟨newer, hn⟩ := (step_grows depth s hi).2
  have hb : (step depth s w).2.bare.history =
      newer.filterMap Happening.bare? ++ w.bare.history := by
    show (step depth s w).2.history.filterMap Happening.bare? = _
    rw [← hn, List.filterMap_append]
    rfl
  rw [(step_bare depth hs hw).1, report_of_append hb, report_of_append hn.symm, Report.bare,
    List.filterMap_reverse]

theorem runFrom_bare {steps : List Step} (h : ∀ s ∈ steps, s.Ordinary) : ∀ {w : World},
    w.Resting → w.InStep → runFrom depth w.bare (steps.map Step.bare) =
      (runFrom depth w steps).map Report.bare ∧
      ∀ r ∈ runFrom depth w steps, ∀ y ∈ r.happenings, y.isRefusal = false := by
  induction steps with
  | nil => exact fun _ _ => ⟨rfl, by simp [runFrom]⟩
  | cons s steps ih =>
    intro w hw hi
    have hs := h s List.mem_cons_self
    obtain ⟨hstep, hr⟩ := step_bare depth hs hw
    obtain ⟨hi', newer, hn⟩ := step_grows depth s hi
    obtain ⟨htail, hcalm⟩ := ih (fun t ht => h t (List.mem_cons_of_mem s ht)) hr hi'
    constructor
    · rw [List.map_cons, runFrom_cons, runFrom_cons, report_bare depth hs hw hi, hstep, htail,
        List.map_cons]
    · rw [runFrom_cons, report_of_append hn.symm]
      refine List.forall_mem_cons.mpr ⟨fun y hy => ?_, hcalm⟩
      exact hr.history y (hn ▸ List.mem_append_left _ (List.mem_reverse.mp hy))

theorem resting_empty : World.Resting {} where
  chains _ := List.nodup_nil
  domains _ := nofun
  scripts _ _ _ h := by cases h
  history _ h := by cases h
  free _ := trivial

/-- Whatever stores, domains and those they wake do in the course of ordinary steps, however deep
scripts may run within one another, comes to the same without guards: step by step, the answers, the
values stored, the events requested, queued and handed out, and the calls of model hooks are those of
the run in which no item has any aspects. With the guards that a configuration asks for, no write is
vetoed and no read is refused. -/
theorem guards_transparent {steps : List Step} (h : ∀ s ∈ steps, s.Ordinary) :
    runFrom depth {} (steps.map Step.bare) = (runFrom depth {} steps).map Report.bare ∧
      ∀ r ∈ runFrom depth {} steps, ∀ y ∈ r.happenings, y.isRefusal = false :=
  runFrom_bare depth h resting_empty inStep_empty

/-- A store with audits and locks whose model hook reads one item and writes the other, run by a
domain that queues and then rebound to one that records. -/
def guardedWork : List Step :=
  [.domain "d" "d" .cooperative,
    .domain "e" "e" .recording,
    .store "s" (.builder [.affinity (some "d")]),
    .onExecute "s" "m" (some fun _ => [.read "k" none, .write "l" none (.int 7)]),
    .create "s" "k" "a" .int64 (.int 1) none .store,
    .create "s" "l" "b" .int64 (.int 2) none (.config { lockTimeout := 5 }),
    .write "k" none (.int 3),
    .runPending "d",
    .readInto "l" none (.int 0),
    .execute "s",
    .runPending "d",
    .setAffinity "s" (some "e"),
    .write "l" none (.int 8),
    .destroy "k" none,
    .storeInfo "s"]

theorem guardedWork_transparent :
    (∀ s ∈ guardedWork, s.Ordinary) ∧
      run (guardedWork.map Step.bare) = (run guardedWork).map Report.bare ∧
      (∀ r ∈ run guardedWork, ∀ y ∈ r.happenings, y.isRefusal = false) ∧
      ((run guardedWork).map Report.answer)[8]? = some (.readInto none (.int64 7)) := by
  have hplain {s : Step} (hu : s.usual) (hn : s.scripts = []) : s.Ordinary :=
    .intro hu (by rw [hn]; exact fun f hf => absurd hf (List.not_mem_nil))
  have ho : ∀ s ∈ guardedWork, s.Ordinary := by
    simp only [guardedWork, List.forall_mem_cons, List.not_mem_nil, false_implies, implies_true,
      and_true]
    refine ⟨hplain rfl rfl, hplain rfl rfl, hplain rfl rfl, .intro rfl ?_, hplain rfl rfl,
      hplain rfl rfl, hplain rfl rfl, hplain rfl rfl, hplain rfl rfl, hplain rfl rfl,
      hplain rfl rfl, hplain rfl rfl, hplain rfl rfl, hplain rfl rfl, hplain rfl rfl⟩
    rintro f hf n t ht
    rw [Step.scripts, Option.toList_some, List.mem_singleton] at hf
    subst hf
    have ht : t = .read "k" none ∨ t = .write "l" none (.int 7) := by simpa using ht
    rcases ht with rfl | rfl <;> exact hplain rfl rfl
  obtain ⟨hbare, hcalm⟩ := guards_transparent maxDepth ho
  exact ⟨ho, hbare, hcalm, by decide +kernel⟩

end Scenario

end GuardedStore
