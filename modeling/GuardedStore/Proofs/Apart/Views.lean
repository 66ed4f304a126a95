import GuardedStore.Proofs.Apart.Founding
import GuardedStore.Proofs.Apart.Runs

/-!
What a side sees of a run.

Two sides make operations on what is theirs, and domains are run now and then. A side sees the
answers to its own operations and, of each of its stores, which model hooks run when and with what
counts. Main statement: it sees the same when the other side does nothing.
-/
namespace GuardedStore

/-- An operation of the one side or the other, or a run of a domain. -/
inductive Move where
  | mine (s : Step)
  | theirs (s : Step)
  | run (domain : String)

namespace Move

def step : Move → Step
  | mine s | theirs s => s
  | run domain => .runPending domain

def isTheirs : Move → Bool
  | theirs _ => true
  | _ => false

/-- An operation keeps to the side that makes it. -/
def KeepsTo (a b : Side) : Move → Prop
  | mine s => s.KeepsTo a
  | theirs s => s.KeepsTo b
  | run _ => True

/-- The moves without the other side's. -/
def alone (moves : List Move) : List Move :=
  moves.filter (!·.isTheirs)

theorem alone_cons_theirs (s : Step) (moves : List Move) :
    alone (.theirs s :: moves) = alone moves := rfl

theorem alone_cons {m : Move} (hm : m.isTheirs = false) (moves : List Move) :
    alone (m :: moves) = m :: alone moves := by
  unfold alone
  rw [List.filter_cons_of_pos]
  rw [hm]
  rfl

end Move

/-- The step was brought to its end: no panic came out of it, and it did not get stuck. -/
def Answer.returned : Answer → Bool
  | .panicked _ | .stuck => false
  | _ => true

namespace Scenario

/-- The model hooks of a store that ran in the course of a step, each with its count. -/
def Report.runs (s : Nat) (r : Report) : List (String × Nat) :=
  (r.happenings.filterMap (Happening.ran? s)).map fun h => (h.1.label, h.2)

/-- What a side sees: a model hook of its store at work, the answer to an operation of its own, and
that a domain was run. -/
inductive Sight where
  | hook (label : String) (triggers : Nat)
  | answered (a : Answer)
  | ran (domain : String)
  deriving DecidableEq

/-- What is seen of a move besides the hooks that it sets off. -/
def outcome (a : Answer) : Move → List Sight
  | .mine _ => [.answered a]
  | .theirs _ => []
  | .run domain => [.ran domain]

/-- What is seen of the moves of a run by those who watch the hooks of a store. -/
def view (s : Nat) : List Move → List Report → List Sight
  | m :: moves, r :: reports =>
    (r.runs s).map (fun h => .hook h.1 h.2) ++ outcome r.answer m ++ view s moves reports
  | _, _ => []

/-- The moves of a run, from a world on. -/
def runMoves (depth : Nat) (w : World) (moves : List Move) : List Report :=
  runFrom depth w (moves.map Move.step)

variable {depth : Nat}

/-- What an answer was given to is done. -/
theorem answer_of_returned {s : Step} {w : World} (h : (step depth s w).1.returned) :
    Performing.answer (callWithin depth) s w = (.done (step depth s w).1, (step depth s w).2) := by
  unfold step at h ⊢
  cases ho : Performing.answer (callWithin depth) s w with
  | mk o v =>
    rw [ho] at h
    cases o with
    | done a => rfl
    | panicked text => cases h
    | stuck => cases h

theorem step_of_answer {s : Step} {w v : World} {a : Answer}
    (h : Performing.answer (callWithin depth) s w = (.done a, v)) : step depth s w = (a, v) := by
  unfold step
  rw [h]

/-- What a step reports of a store's hooks is what it adds to their runs. -/
theorem runsOf_step (depth s : Nat) (m : Step) {w : World} (hi : w.InStep) :
    runsOf s (step depth m w).2.history = runsOf s w.history ++
      (report w.history (step depth m w).1 (step depth m w).2).runs s := by
  obtain ⟨newer, hn⟩ := (step_grows depth m hi).2
  rw [report_of_append hn.symm, ← hn, runsOf_append]
  rfl

section Moves

variable {a b : Side} {ρ β : Twins} {w' w : World} (apart : a.Apart b)
  (h : w'.Company a b ρ β w)

include apart h

/-- An operation of the first side, and a run of a domain, comes to the same in both worlds. -/
theorem company_step {m : Move} (hm : m.KeepsTo a b) (hn : m.isTheirs = false)
    (hr : (step depth m.step w).1.returned) :
    ∃ ρ' β', (step depth m.step w').2.Company a b ρ' β' (step depth m.step w).2 ∧
      (step depth m.step w').1.returned ∧
        outcome (step depth m.step w').1 m = outcome (step depth m.step w).1 m := by
  have done := answer_of_returned hr
  cases m with
  | mine s =>
    obtain ⟨ρ', x, v', hv', hc, -, rfl⟩ :=
      h.act apart (Performing.tracks_answer (callWithin_follows depth) hm) done
    rw [Move.step, step_of_answer hv']
    exact ⟨ρ', β, hc, hr, rfl⟩
  | theirs s => cases hn
  | run domain =>
    obtain ⟨ρ', β', x', v', hv', hc, hx⟩ := h.answer_runPending apart
      (fun _ => callWithin_follows depth) (fun _ => callWithin_follows depth) done
    rw [Move.step, step_of_answer hv']
    refine ⟨ρ', β', hc, ?_, rfl⟩
    rcases hx with rfl | ⟨stats, rfl⟩
    · exact hr
    · rfl

/-- An operation of the second side makes no difference to the first. -/
theorem company_aside {s : Step} (hs : s.KeepsTo b) (hr : (step depth s w).1.returned) :
    ∃ β', w'.Company a b ρ β' (step depth s w).2 := by
  obtain ⟨β', hc, -⟩ := h.stand_by apart
    (Performing.tracks_answer (callWithin_follows depth) hs) (answer_of_returned hr)
  exact ⟨β', hc⟩

end Moves

theorem runMoves_cons (w : World) (m : Move) (moves : List Move) :
    runMoves depth w (m :: moves) =
      report w.history (step depth m.step w).1 (step depth m.step w).2 ::
        runMoves depth (step depth m.step w).2 moves := rfl

/-- As long as two worlds are in company, what the second side does in the one is not seen. -/
theorem view_of_company {a b : Side} (apart : a.Apart b) {moves : List Move}
    (keeps : ∀ m ∈ moves, m.KeepsTo a b) {ρ β : Twins} {w' w : World}
    (h : w'.Company a b ρ β w) (hi' : w'.InStep) (hi : w.InStep)
    (returned : ∀ r ∈ runMoves depth w moves, r.answer.returned) :
    (∀ r ∈ runMoves depth w' (Move.alone moves), r.answer.returned) ∧ ∀ s, a.stores s →
      view s (Move.alone moves) (runMoves depth w' (Move.alone moves)) =
        view s moves (runMoves depth w moves) := by
  induction moves generalizing ρ β w' w with
  | nil => exact ⟨fun r hr => absurd hr List.not_mem_nil, fun _ _ => rfl⟩
  | cons m moves ih =>
    rw [runMoves_cons] at returned ⊢
    have hm := keeps m List.mem_cons_self
    have hr := returned _ List.mem_cons_self
    have hi₁ := (step_grows depth m.step hi).1
    have rest {ρ β : Twins} {v' : World} (hc : v'.Company a b ρ β (step depth m.step w).2)
        (hv' : v'.InStep) := ih (fun n hn => keeps n (List.mem_cons_of_mem _ hn)) hc hv' hi₁
      fun r hr => returned r (List.mem_cons_of_mem _ hr)
    cases hn : m.isTheirs with
    | true =>
      cases m with
      | theirs s =>
        obtain ⟨β', hc⟩ := company_aside apart h hm hr
        refine ⟨(rest hc hi').1, fun t ht => ?_⟩
        have hruns := runsOf_step depth t s hi
        rw [← hc.mine.runs ht, h.mine.runs ht, List.self_eq_append_right] at hruns
        rw [Move.alone_cons_theirs, view, Move.step, hruns, (rest hc hi').2 t ht]
        rfl
      | mine s => cases hn
      | run domain => cases hn
    | false =>
      obtain ⟨ρ', β', hc, hr', ho⟩ := company_step apart h hm hn hr
      have hi₁' := (step_grows depth m.step hi').1
      rw [Move.alone_cons hn, runMoves_cons]
      refine ⟨List.forall_mem_cons.mpr ⟨hr', (rest hc hi₁').1⟩, fun t ht => ?_⟩
      have hruns := runsOf_step depth t m.step hi'
      rw [hc.mine.runs ht, h.mine.runs ht, runsOf_step depth t m.step hi] at hruns
      have hruns := List.append_cancel_left hruns
      rw [view, view, (rest hc hi₁').2 t ht, ← hruns]
      exact congrArg (_ ++ · ++ _) ho

/-- Once stores, domains and flags are made, each of two sides operates on its own stores as it likes,
and now and then a domain is run. The second side may also show its stores the keys of the first. If
no panic comes of it, then the first side sees just what it would see if the second did nothing: the
same answers, and the same model hooks of its stores running at the same times, with the same counts.
-/
theorem sides_apart {a b : Side} (apart : a.Apart b) (secluded : ∀ x, a.foreign x = false)
    {founding : List Step}
    (founds : ∀ s ∈ founding, s.founds) (mine : a.Settled (worldAfter depth founding))
    (theirs : b.Settled (worldAfter depth founding)) {moves : List Move}
    (keeps : ∀ m ∈ moves, m.KeepsTo a b)
    (returned : ∀ r ∈ runMoves depth (worldAfter depth founding) moves, r.answer.returned) :
    (∀ r ∈ runMoves depth (worldAfter depth founding) (Move.alone moves), r.answer.returned) ∧
      ∀ s, a.stores s →
        view s (Move.alone moves) (runMoves depth (worldAfter depth founding) (Move.alone moves)) =
          view s moves (runMoves depth (worldAfter depth founding) moves) := by
  have hi := worldAfter_inStep depth founding
  have company := (worldAfter_pristine depth founds).company hi.sound mine theirs secluded
  exact view_of_company apart keeps company hi hi returned

/-- Two stores bound to the same domain. -/
def twoStores : List Step :=
  [.domain "d" "d" .cooperative,
    .domain "e" "e" .cooperative,
    .store "a" (.builder [.affinity (some "d")]),
    .store "b" (.builder [.affinity (some "d")])]

def sideOfA : Side where
  names n := ["a", "ka"].contains n
  stores s := s == 0

/-- Any key may be shown to the second store. -/
def sideOfB : Side where
  names n := ["b", "kb", "g"].contains n
  stores s := s == 1
  foreign _ := true

theorem sideOfA_apart : sideOfA.Apart sideOfB where
  names {n} hn := by
    have hn : n = "b" ∨ n = "kb" ∨ n = "g" := by simpa [sideOfB] using hn
    rcases hn with rfl | rfl | rfl <;> rfl
  stores {s} hs := by
    have hs : s = 1 := by simpa [sideOfB] using hs
    rw [hs]
    rfl

theorem sideOfA_settled : sideOfA.Settled (worldAfter maxDepth twoStores) where
  made {s} hs := by
    have hs : s = 0 := by simpa [sideOfA] using hs
    rw [hs]
    decide +kernel
  named {n s} hn hs := by
    have hn : n = "a" ∨ n = "ka" := by simpa [sideOfA] using hn
    have known : (worldAfter maxDepth twoStores).names.stores.find? "a" = some 0 ∧
        (worldAfter maxDepth twoStores).names.stores.find? "ka" = none := by decide +kernel
    rcases hn with rfl | rfl
    · cases known.1.symm.trans hs
      rfl
    · cases known.2.symm.trans hs

theorem sideOfB_settled : sideOfB.Settled (worldAfter maxDepth twoStores) where
  made {s} hs := by
    have hs : s = 1 := by simpa [sideOfB] using hs
    rw [hs]
    decide +kernel
  named {n s} hn hs := by
    have hn : n = "b" ∨ n = "kb" ∨ n = "g" := by simpa [sideOfB] using hn
    have known : (worldAfter maxDepth twoStores).names.stores.find? "b" = some 1 ∧
        (worldAfter maxDepth twoStores).names.stores.find? "kb" = none ∧
          (worldAfter maxDepth twoStores).names.stores.find? "g" = none := by decide +kernel
    rcases hn with rfl | rfl | rfl
    · cases known.1.symm.trans hs
      rfl
    · cases known.2.1.symm.trans hs
    · cases known.2.2.symm.trans hs

/-- Both stores have an item and a model hook that writes it. The key of the one is shown to the
other, which is rebound and dropped in the end. -/
def sharedWork : List Move :=
  [.mine (.onExecute "a" "ma" (some fun _ => [.read "ka" none, .write "ka" none (.int 7)])),
    .theirs (.aspect "g" .audit),
    .theirs (.onExecute "b" "mb" (some fun _ => [.write "kb" none (.int 5)])),
    .theirs (.create "b" "kb" "n" .int64 (.int 1) none
      (.custom false false (.links [.shared "g"]))),
    .mine (.create "a" "ka" "n" .int64 (.int 2) none .store),
    .run "d",
    .theirs (.write "kb" none (.int 3)),
    .mine (.write "ka" none (.int 4)),
    .theirs (.setAffinity "b" (some "e")),
    .mine (.storeTrigger "a"),
    .theirs (.write "ka" (some "b") (.int 9)),
    .run "d",
    .theirs (.destroy "ka" (some "b")),
    .theirs (.destroy "kb" none),
    .theirs (.dropStore "b"),
    .run "e",
    .run "d",
    .mine (.isTriggered "a"),
    .mine (.read "ka" none)]

theorem sharedWork_keeps : ∀ m ∈ sharedWork, m.KeepsTo sideOfA sideOfB := by
  have plain {c : Side} {s : Step} (h : (s.ofStores && s.words.all c.names &&
      s.keys.all (fun n => c.names n || c.foreign n) && s.hung.isEmpty) = true) :
      s.KeepsTo c := by
    simp only [Bool.and_eq_true, List.all_eq_true, Bool.or_eq_true, List.isEmpty_iff] at h
    obtain ⟨⟨⟨kind, words⟩, keys⟩, hung⟩ := h
    exact .mk kind words keys (by rw [hung]; exact fun f hf => absurd hf List.not_mem_nil)
  have reads : (Step.read "ka" none).KeepsTo sideOfA := plain rfl
  have writesA : (Step.write "ka" none (.int 7)).KeepsTo sideOfA := plain rfl
  have writesB : (Step.write "kb" none (.int 5)).KeepsTo sideOfB := plain rfl
  simp only [sharedWork, List.forall_mem_cons, List.not_mem_nil, false_implies, implies_true,
    and_true]
  refine ⟨.mk rfl (by decide) nofun ?_, plain rfl, .mk rfl (by decide) nofun ?_, plain rfl,
    plain rfl, trivial, plain rfl, plain rfl, plain rfl, plain rfl, plain rfl, trivial, plain rfl,
    plain rfl, plain rfl, trivial, trivial, plain rfl, plain rfl⟩
  · intro f hf n t ht
    cases List.mem_singleton.mp hf
    rcases List.mem_pair.mp ht with rfl | rfl
    · exact reads
    · exact writesA
  · intro f hf n t ht
    cases List.mem_singleton.mp hf
    cases List.mem_singleton.mp ht
    exact writesB

theorem sharedWork_apart :
    let w := worldAfter maxDepth twoStores
    sideOfA.Apart sideOfB ∧ (∀ x, sideOfA.foreign x = false) ∧ (∀ s ∈ twoStores, s.founds) ∧
      sideOfA.Settled w ∧ sideOfB.Settled w ∧ (∀ m ∈ sharedWork, m.KeepsTo sideOfA sideOfB) ∧
      (∀ r ∈ runMoves maxDepth w sharedWork, r.answer.returned) ∧
      view 0 (Move.alone sharedWork) (runMoves maxDepth w (Move.alone sharedWork)) =
        view 0 sharedWork (runMoves maxDepth w sharedWork) ∧
      .hook "ma" 3 ∈ view 0 sharedWork (runMoves maxDepth w sharedWork) := by
  intro w
  have returned : ∀ r ∈ runMoves maxDepth w sharedWork, r.answer.returned := by
    decide +kernel
  have founds : ∀ s ∈ twoStores, s.founds := by decide
  exact ⟨sideOfA_apart, fun _ => rfl, founds, sideOfA_settled, sideOfB_settled, sharedWork_keeps,
    returned, (sides_apart sideOfA_apart (fun _ => rfl) founds sideOfA_settled sideOfB_settled
      sharedWork_keeps returned).2 0 rfl, by decide +kernel⟩

/-- An aspect that writes to the item of the one store whenever it is asked for a write. -/
def reaching : Probe Script where
  name := "p"
  quiet := true
  script
    | .beforeWrite => some fun _ => [.write "ka" none (.int 7)]
    | _ => none

/-- The item of the other store is guarded by that aspect. -/
def reachingAcross : List Move :=
  [.mine (.create "a" "ka" "n" .int64 (.int 1) none .none),
    .theirs (.create "b" "kb" "n" .int64 (.int 2) none
      (.custom false false (.links [.fresh (.probe reaching)]))),
    .mine (.read "ka" none)]

/-- That the aspects of the second side keep to it as well is needed: no model hook is there, no
aspect is shared, each operation names only what is its side's, and yet the first side reads what
the second had written. -/
theorem reachingAcross_seen :
    let w := worldAfter maxDepth twoStores
    (∀ s ∈ twoStores, s.founds) ∧
      (∀ m ∈ reachingAcross, m.step.ofStores ∧ m.step.kind ≠ "on_execute" ∧
        ∀ n ∈ m.step.words ++ m.step.keys,
          if m.isTheirs then sideOfB.names n else sideOfA.names n) ∧
      (∀ r ∈ runMoves maxDepth w reachingAcross, r.answer.returned) ∧
      view 0 reachingAcross (runMoves maxDepth w reachingAcross) =
        [.answered (.created ⟨0, 0⟩), .answered (.value (.int64 7))] ∧
      view 0 (Move.alone reachingAcross) (runMoves maxDepth w (Move.alone reachingAcross)) =
        [.answered (.created ⟨0, 0⟩), .answered (.value (.int64 1))] := by
  decide +kernel

end Scenario

end GuardedStore
